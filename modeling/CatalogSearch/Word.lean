/-!
# Words of 64 bits

Integers that a format or a store keeps in words of 64 bits, with a sign or without.
-/

namespace CatalogSearch

-- Powers are those of the core language, whatever else defines powers.
attribute [local instance (2000)] instPowNat

/-- The greatest number of a word without a sign. -/
def maxWord : Nat := 2 ^ (64 : Nat) - 1

/-- The greatest number of a word with a sign. -/
def maxSigned : Int := 2 ^ (63 : Nat) - 1

/-- Whether an integer fits a word with a sign. -/
def fitsSigned (n : Int) : Bool :=
  -2 ^ (63 : Nat) ≤ n && n < 2 ^ (63 : Nat)

/-- An integer fits a word with a sign exactly if it lies in its range. -/
theorem fitsSigned_iff {n : Int} : fitsSigned n ↔ -2 ^ (63 : Nat) ≤ n ∧ n < 2 ^ (63 : Nat) := by
  simp [fitsSigned]

end CatalogSearch
