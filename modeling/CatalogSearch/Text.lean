/-!
# Plain text

Blank characters, trimming and splitting. Each operation is a recursion on the characters of the
text, so that what it keeps and what it drops can be read off its equations.
-/

namespace CatalogSearch.Text

/-! ## Blank characters -/

/-- The characters with Unicode's White_Space property. -/
def isBlank (c : Char) : Bool :=
  let n := c.toNat
  (9 ≤ n && n ≤ 13) || n == 0x20 || n == 0x85 || n == 0xA0 || n == 0x1680
    || (0x2000 ≤ n && n ≤ 0x200A) || n == 0x2028 || n == 0x2029 || n == 0x202F || n == 0x205F
    || n == 0x3000

/-- The characters between the first and the last one that is not blank. -/
def trimChars (cs : List Char) : List Char :=
  ((cs.dropWhile isBlank).reverse.dropWhile isBlank).reverse

/-- A text without the blanks at its two ends. -/
def trim (s : String) : String :=
  .ofList (trimChars s.toList)

/-! ## Splitting -/

/-- The stretches between the occurrences of `sep`. There is one more of them than occurrences. -/
def splitChars (sep : Char) : List Char → List (List Char)
  | [] => [[]]
  | c :: cs =>
    if c = sep then [] :: splitChars sep cs
    else match splitChars sep cs with
      | [] => [[c]]
      | piece :: pieces => (c :: piece) :: pieces

/-- A text always splits into at least one piece. -/
theorem splitChars_ne_nil (sep : Char) (cs : List Char) : splitChars sep cs ≠ [] := by
  cases cs with
  | nil => simp [splitChars]
  | cons c cs =>
    rw [splitChars]
    split
    · simp
    · split <;> simp

/-- The first character of a text that does not start with `sep` goes to the first piece. -/
theorem splitChars_cons_of_ne {sep c : Char} (h : c ≠ sep) (cs : List Char) :
    ∃ piece pieces, splitChars sep cs = piece :: pieces
      ∧ splitChars sep (c :: cs) = (c :: piece) :: pieces := by
  obtain ⟨piece, pieces, split⟩ := List.exists_cons_of_ne_nil (splitChars_ne_nil sep cs)
  refine ⟨piece, pieces, split, ?_⟩
  rw [splitChars, if_neg h, split]

/-- Two texts with a `sep` between them split into the pieces of both. -/
theorem splitChars_append (sep : Char) (cs ds : List Char) :
    splitChars sep (cs ++ sep :: ds) = splitChars sep cs ++ splitChars sep ds := by
  induction cs with
  | nil => simp [splitChars]
  | cons c cs ih =>
    by_cases h : c = sep
    · rw [List.cons_append, splitChars, if_pos h, ih, splitChars, if_pos h, List.cons_append]
    · obtain ⟨piece, pieces, split, whole⟩ := splitChars_cons_of_ne h cs
      rw [List.cons_append, splitChars, if_neg h, ih, split, whole]
      rfl

/-- The pieces of a text with `sep` between them are the text. -/
theorem intercalate_splitChars (sep : Char) (cs : List Char) :
    [sep].intercalate (splitChars sep cs) = cs := by
  induction cs with
  | nil => simp [splitChars]
  | cons c cs ih =>
    by_cases h : c = sep
    · obtain ⟨piece, pieces, split⟩ := List.exists_cons_of_ne_nil (splitChars_ne_nil sep cs)
      rw [splitChars, if_pos h, split, List.intercalate_cons_cons, ← split, ih, h]
      rfl
    · obtain ⟨piece, pieces, split, whole⟩ := splitChars_cons_of_ne h cs
      rw [split] at ih
      rw [whole]
      cases pieces with
      | nil =>
        rw [List.intercalate_singleton] at ih ⊢
        rw [ih]
      | cons next pieces =>
        rw [List.intercalate_cons_cons] at ih ⊢
        rw [← ih, List.cons_append, List.cons_append]

/-- No piece of a text holds a `sep`. -/
theorem notMem_of_mem_splitChars {sep : Char} {cs piece : List Char}
    (h : piece ∈ splitChars sep cs) : sep ∉ piece := by
  induction cs generalizing piece with
  | nil => simp [List.mem_singleton.1 h]
  | cons c cs ih =>
    by_cases same : c = sep
    · rw [splitChars, if_pos same] at h
      rcases List.mem_cons.1 h with rfl | h
      · exact List.not_mem_nil
      · exact ih h
    · obtain ⟨first, pieces, split, whole⟩ := splitChars_cons_of_ne same cs
      rw [whole] at h
      rw [split] at ih
      rcases List.mem_cons.1 h with rfl | h
      · exact fun mem => (List.mem_cons.1 mem).elim (fun eq => same eq.symm)
          (ih List.mem_cons_self)
      · exact ih (List.mem_cons_of_mem _ h)

/-- A text without `sep` is its only piece. -/
theorem splitChars_of_notMem {sep : Char} {cs : List Char} (h : sep ∉ cs) :
    splitChars sep cs = [cs] := by
  induction cs with
  | nil => rfl
  | cons c cs ih =>
    rw [List.mem_cons, not_or] at h
    rw [splitChars, if_neg (Ne.symm h.1), ih h.2]

/-- The pieces of a text between the occurrences of `sep`. -/
def splitOn (sep : Char) (s : String) : List String :=
  (splitChars sep s.toList).map .ofList

/-- The text before the first `sep` and the text after it, if there is one. -/
def splitFirst? (sep : Char) (s : String) : Option (String × String) :=
  match s.toList.span (· ≠ sep) with
  | (_, []) => none
  | (before, _ :: after) => some (.ofList before, .ofList after)

/-- What follows `lead` in the characters, if they start with it. -/
def afterChars? : List Char → List Char → Option (List Char)
  | [], cs => some cs
  | _ :: _, [] => none
  | l :: lead, c :: cs => if l = c then afterChars? lead cs else none

/-- Splitting off a beginning finds exactly what was put behind it. -/
theorem afterChars?_eq_some_iff {lead cs rest : List Char} :
    afterChars? lead cs = some rest ↔ cs = lead ++ rest := by
  induction lead generalizing cs with
  | nil => simp [afterChars?]
  | cons l lead ih =>
    cases cs with
    | nil => simp [afterChars?]
    | cons c cs =>
      by_cases same : l = c
      · simp [afterChars?, same, ih]
      · simp [afterChars?, same, Ne.symm same]

/-- What follows `lead` in a text that starts with it. -/
def after? (lead s : String) : Option String :=
  (afterChars? lead.toList s.toList).map .ofList

/-- Splitting off a beginning finds exactly what was put behind it. -/
theorem after?_eq_some_iff {lead s rest : String} :
    after? lead s = some rest ↔ s = lead ++ rest := by
  rw [after?, Option.map_eq_some_iff, ← String.toList_inj, String.toList_append]
  constructor
  · rintro ⟨cs, split, rfl⟩
    rw [String.toList_ofList]
    exact afterChars?_eq_some_iff.1 split
  · intro split
    exact ⟨rest.toList, afterChars?_eq_some_iff.2 split, String.ofList_toList⟩

/-- A text without the occurrences of `c` at its end. -/
def dropTrailing (c : Char) (s : String) : String :=
  .ofList (s.toList.reverse.dropWhile (· = c)).reverse

/-- The pieces of a comma-separated list, trimmed, without the empty ones. -/
def listItems (s : String) : List String :=
  ((splitOn ',' s).map trim).filter (· ≠ "")

/-- ASCII capital letters become small; every other character stays. -/
def lowerAscii (s : String) : String :=
  s.map Char.toLower

end CatalogSearch.Text
