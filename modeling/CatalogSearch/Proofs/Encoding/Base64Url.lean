import CatalogSearch.Encoding.Base64Url

/-!
# Base64 reads back what it writes

* `Base64Url.decode?_encode` : decoding the letters of a row of bytes gives the bytes.
-/

namespace CatalogSearch.Base64Url

/-! ## Letters -/

/-- A letter has the number that it was made from. -/
theorem number?_letter {n : Nat} (h : n < 64) : number? (letter n) = some n := by
  have all : ∀ k : Fin 64, number? (letter k) = some k.val := by decide
  exact all ⟨n, h⟩

/-! ## Groups of three bytes -/

/-- Decoding reads back what encoding writes. -/
theorem decode?_encode (bytes : List UInt8) : decode? (encode bytes) = some bytes := by
  fun_induction encode bytes with
  | case1 a b c rest n ih =>
    have ha := a.toNat_lt
    have hb := b.toNat_lt
    have hc := c.toNat_lt
    have whole : ((n / 262144 * 64 + n / 4096 % 64) * 64 + n / 64 % 64) * 64 + n % 64 = n := by
      omega
    rw [decode?, number?_letter (by omega), number?_letter (by omega), number?_letter (by omega),
      number?_letter (by omega), ih]
    simp only [Option.bind_eq_bind, Option.bind_some, whole]
    have first : n / 65536 = a.toNat := by omega
    have second : n / 256 % 256 = b.toNat := by omega
    have third : n % 256 = c.toNat := by omega
    rw [first, second, third, UInt8.ofNat_toNat, UInt8.ofNat_toNat, UInt8.ofNat_toNat]
    rfl
  | case2 a b n =>
    have ha := a.toNat_lt
    have hb := b.toNat_lt
    have whole : (n / 4096 * 64 + n / 64 % 64) * 64 + n % 64 = n := by omega
    rw [decode?, number?_letter (by omega), number?_letter (by omega), number?_letter (by omega)]
    simp only [Option.bind_eq_bind, Option.bind_some, whole]
    have first : n / 1024 = a.toNat := by omega
    have second : n / 4 % 256 = b.toNat := by omega
    rw [if_pos (by omega), first, second, UInt8.ofNat_toNat, UInt8.ofNat_toNat]
    rfl
  | case3 a n =>
    have ha := a.toNat_lt
    have whole : n / 64 * 64 + n % 64 = n := by omega
    rw [decode?, number?_letter (by omega), number?_letter (by omega)]
    simp only [Option.bind_eq_bind, Option.bind_some, whole]
    have first : n / 16 = a.toNat := by omega
    rw [if_pos (by omega), first, UInt8.ofNat_toNat]
    rfl
  | case4 => rfl

/-! ## Lengths -/

/-- There are at least as many letters as bytes. -/
theorem length_le_length_encode (bytes : List UInt8) : bytes.length ≤ (encode bytes).length := by
  fun_induction encode bytes with
  | case1 a b c rest n ih =>
    simp only [List.length_cons]
    omega
  | case2 => simp
  | case3 => simp
  | case4 => simp

end CatalogSearch.Base64Url
