import CatalogSearch.CatalogFile
import CatalogSearch.Proofs.Encoding.Utf8
import CatalogSearch.Proofs.Item
import CatalogSearch.Proofs.Text.Split

/-!
# Files with one item a line

A file with one item a line is read line by line. Blank lines are passed over but counted, and the
first other line that is no item is what the file is refused for. Since the text of an item has no
line break in it, items that were read can be written line by line and read again.

* `itemsOfLines_eq_ok_iff`, `itemsOfLines_eq_error_iff` : what is read of lines;
* `Saved` : the lines of a file in which items were saved;
* `itemsOfFile_saved` : what a file holds can be saved in a file of lines and read again;
* `items_of_lines` : saved items are read back, and any text is read line by line.
-/

namespace CatalogSearch

open Text (isBlank splitChars)

/-! ## Blank lines -/

/-- A line of nothing but blanks. -/
def Text.IsBlankLine (line : String) : Prop :=
  ∀ c ∈ line.toList, isBlank c = true

namespace Text

instance (line : String) : Decidable (IsBlankLine line) :=
  List.decidableBAll (fun c : Char => isBlank c = true) line.toList

/-- Nothing is left of a text by trimming exactly if it is blank. -/
theorem trim_eq_empty_iff {line : String} : trim line = "" ↔ IsBlankLine line := by
  have chars : trim line = "" ↔ trimChars line.toList = [] := by
    rw [trim, ← String.toList_inj, String.toList_ofList]
    rfl
  rw [chars, trimChars, List.reverse_eq_nil_iff, List.dropWhile_eq_nil_iff]
  constructor
  · intro rest c mem
    -- What is left in front does not start with a blank, so nothing is left.
    have start := List.head?_dropWhile_not isBlank line.toList
    cases left : line.toList.dropWhile isBlank with
    | nil => exact List.dropWhile_eq_nil_iff.1 left c mem
    | cons d ds =>
      rw [left] at start rest
      have blank := rest d (by simp)
      rw [start] at blank
      cases blank
  · intro blank c mem
    exact blank c ((List.dropWhile_suffix _).subset (List.mem_reverse.1 mem))

end Text

/-! ## Lines of bytes and lines of text -/

/-- The bytes of a character other than a line break hold none. -/
theorem ne_newline_of_mem_utf8EncodeChar {c : Char} (h : c ≠ '\n') :
    ∀ b ∈ String.utf8EncodeChar c, b ≠ 10 := by
  have other : c.toNat ≠ 10 := by
    intro same
    exact h (Char.toNat_inj.1 same)
  have byte {n : ℕ} (small : n < 256) (notBreak : n ≠ 10) : UInt8.ofNat n ≠ 10 := by
    intro same
    have value := congrArg UInt8.toNat same
    rw [UInt8.toNat_ofNat_of_lt' small] at value
    exact notBreak value
  have value : c.val.toNat = c.toNat := rfl
  rw [String.utf8EncodeChar, value]
  have valid := Utf8.toNat_valid c
  generalize c.toNat = v at valid other
  -- One case for each number of bytes; only a single byte is below `0x80`.
  split
  · exact List.forall_mem_singleton.2 (byte (by omega) other)
  · split
    · simp only [List.forall_mem_cons]
      exact ⟨byte (by omega) (by omega), byte (by omega) (by omega), nofun⟩
    · split
      · simp only [List.forall_mem_cons]
        exact ⟨byte (by omega) (by omega), byte (by omega) (by omega), byte (by omega) (by omega),
          nofun⟩
      · simp only [List.forall_mem_cons]
        exact ⟨byte (by omega) (by omega), byte (by omega) (by omega), byte (by omega) (by omega),
          byte (by omega) (by omega), nofun⟩

/-- Bytes without a line break go to the first line. -/
theorem linesOf_append {bytes : List UInt8} (unbroken : ∀ b ∈ bytes, b ≠ 10) (nonempty : bytes ≠ [])
    (rest : List UInt8) :
    linesOf (bytes ++ rest) = (bytes ++ (linesOf rest).headD []) :: (linesOf rest).tail := by
  induction bytes with
  | nil => exact absurd rfl nonempty
  | cons b bytes ih =>
    obtain ⟨notBreak, unbroken⟩ := List.forall_mem_cons.1 unbroken
    rw [List.cons_append, linesOf, if_neg notBreak]
    by_cases empty : bytes = []
    · subst empty
      rw [List.nil_append]
      cases linesOf rest <;> rfl
    · rw [ih unbroken empty]
      rfl

/-- The lines of the bytes of a text are its lines, without an empty last one. -/
theorem map_splitChars_eq_linesOf (cs : List Char) :
    (splitChars '\n' cs).map Utf8.encodeChars = linesOf (Utf8.encodeChars cs)
      ∨ (splitChars '\n' cs).map Utf8.encodeChars = linesOf (Utf8.encodeChars cs) ++ [[]] := by
  induction cs with
  | nil => exact Or.inr rfl
  | cons c cs ih =>
    have bytes : Utf8.encodeChars (c :: cs) = String.utf8EncodeChar c ++ Utf8.encodeChars cs := rfl
    by_cases newline : c = '\n'
    · subst newline
      have lines : linesOf (Utf8.encodeChars ('\n' :: cs))
          = [] :: linesOf (Utf8.encodeChars cs) := by
        rw [bytes]
        rfl
      rw [lines, splitChars, if_pos rfl, List.map_cons]
      rcases ih with same | same <;> rw [same]
      · exact Or.inl rfl
      · exact Or.inr rfl
    · obtain ⟨piece, pieces, split, whole⟩ := Text.splitChars_cons_of_ne newline cs
      have nonempty : String.utf8EncodeChar c ≠ [] := by
        intro none
        have size := String.length_utf8EncodeChar c
        rw [none] at size
        exact absurd size.symm (Nat.ne_of_gt c.utf8Size_pos)
      have first : Utf8.encodeChars (c :: piece)
          = String.utf8EncodeChar c ++ Utf8.encodeChars piece := rfl
      rw [bytes, linesOf_append (ne_newline_of_mem_utf8EncodeChar newline) nonempty, whole,
        List.map_cons, first]
      rw [split, List.map_cons] at ih
      rcases ih with same | same
      · rw [← same]
        exact Or.inl rfl
      · cases lines : linesOf (Utf8.encodeChars cs) with
        | nil =>
          rw [lines, List.nil_append, List.cons_eq_cons] at same
          rw [same.1, same.2]
          exact Or.inl rfl
        | cons line lines' =>
          rw [lines, List.cons_append, List.cons_eq_cons] at same
          rw [same.1, same.2]
          exact Or.inr rfl

/-! ## Items of lines -/

/-- The item of a line of text. -/
theorem itemOfLine_encode (number : ℕ) (line : String) :
    itemOfLine number (Utf8.encode line)
      = if Text.IsBlankLine line then .ok none
        else (((Item.decoder 0).text line).map some).mapError fun _ => .notAnItem number := by
  have read : Utf8.decode? (Utf8.encode line) = some line := by
    rw [Utf8.decode?, Utf8.encode, Utf8.decodeChars?_encodeChars, Option.map_some,
      String.ofList_toList]
  unfold itemOfLine
  rw [read]
  simp only [Text.trim_eq_empty_iff]

/-- An empty line behind all others changes nothing. -/
theorem itemsOfLines_append_nil (number : ℕ) (lines : List (List UInt8)) :
    itemsOfLines number (lines ++ [[]]) = itemsOfLines number lines := by
  induction lines generalizing number with
  | nil => rfl
  | cons line lines ih => rw [List.cons_append, itemsOfLines, itemsOfLines, ih]

/-- The items of a text, which has one item a line. -/
def itemsOfText (text : String) : Except LoadError (List Item) :=
  itemsOfLines 1 (linesOf (Utf8.encode text))

/-- The items of a text are those of the stretches between its line breaks. -/
theorem itemsOfText_eq (text : String) :
    itemsOfText text = itemsOfLines 1 ((Text.splitOn '\n' text).map Utf8.encode) := by
  have lines : (Text.splitOn '\n' text).map Utf8.encode
      = (splitChars '\n' text.toList).map Utf8.encodeChars := by
    rw [Text.splitOn, List.map_map]
    refine List.map_congr_left fun piece _ => ?_
    show Utf8.encodeChars (String.ofList piece).toList = _
    rw [String.toList_ofList]
  rw [itemsOfText, lines, Utf8.encode]
  rcases map_splitChars_eq_linesOf text.toList with same | same
  · rw [same]
  · rw [same, itemsOfLines_append_nil]

/-- A file of a name for such files is read as such a text. -/
theorem itemsOfFile_eq_itemsOfText {path : String} (named : isLineFile path = true)
    (text : String) : itemsOfFile path (some (Utf8.encode text)) = itemsOfText text := by
  simp only [itemsOfFile, named, if_true]
  rfl

section Lines

variable {number : ℕ} {line : String} {lines : List String} {items : List Item} {item : Item}

/-- A blank line is passed over. -/
theorem itemsOfLines_blank (blank : Text.IsBlankLine line) (rest : List (List UInt8)) :
    itemsOfLines number (Utf8.encode line :: rest) = itemsOfLines (number + 1) rest := by
  rw [itemsOfLines, itemOfLine_encode, if_pos blank]
  show (itemsOfLines (number + 1) rest >>= fun items => .ok ([] ++ items)) = _
  cases itemsOfLines (number + 1) rest <;> rfl

/-- An item of a line comes in front of those behind it. -/
theorem itemsOfLines_item (notBlank : ¬ Text.IsBlankLine line)
    (taken : (Item.decoder 0).text line = .ok item) (rest : List (List UInt8)) :
    itemsOfLines number (Utf8.encode line :: rest)
      = (itemsOfLines (number + 1) rest).map (item :: ·) := by
  rw [itemsOfLines, itemOfLine_encode, if_neg notBlank, taken]
  show (itemsOfLines (number + 1) rest >>= fun items => .ok ([item] ++ items)) = _
  cases itemsOfLines (number + 1) rest <;> rfl

/-- A line that is neither blank nor an item is refused. -/
theorem itemsOfLines_refused (notBlank : ¬ Text.IsBlankLine line) {fault : Json.Fault}
    (failed : (Item.decoder 0).text line = .error fault) (rest : List (List UInt8)) :
    itemsOfLines number (Utf8.encode line :: rest) = .error (.notAnItem number) := by
  rw [itemsOfLines, itemOfLine_encode, if_neg notBlank, failed]
  rfl

/-- The items of lines are those of the lines that are not blank. -/
theorem itemsOfLines_eq_ok_iff :
    itemsOfLines number (lines.map Utf8.encode) = .ok items
      ↔ List.Forall₂ (fun line item => (Item.decoder 0).text line = .ok item)
        (lines.filter fun line => ¬ Text.IsBlankLine line) items := by
  induction lines generalizing number items with
  | nil =>
    rw [List.filter_nil, List.forall₂_nil_left_iff]
    show Except.ok [] = Except.ok items ↔ _
    rw [Except.ok.injEq, eq_comm]
  | cons line lines ih =>
    rw [List.map_cons]
    by_cases blank : Text.IsBlankLine line
    · rw [itemsOfLines_blank blank, List.filter_cons_of_neg (by simpa using blank), ih]
    · rw [List.filter_cons_of_pos (by simpa using blank)]
      cases taken : (Item.decoder 0).text line with
      | error fault =>
        rw [itemsOfLines_refused blank taken]
        constructor
        · intro h
          cases h
        · intro h
          cases h with
          | cons first _ =>
            rw [taken] at first
            cases first
      | ok item =>
        rw [itemsOfLines_item blank taken, List.forall₂_cons_left_iff]
        constructor
        · intro h
          obtain ⟨others, rest, rfl⟩ := exists_of_map_eq_ok h
          exact ⟨item, others, taken, ih.1 rest, rfl⟩
        · rintro ⟨first, others, same, rest, rfl⟩
          rw [taken, Except.ok.injEq] at same
          rw [ih.2 rest, same]
          rfl

/-- A line that is passed over or is an item. -/
def IsGoodLine (line : String) : Prop :=
  Text.IsBlankLine line ∨ ∃ item, (Item.decoder 0).text line = .ok item

/-- Lines are refused for the first one that is neither blank nor an item. -/
theorem itemsOfLines_eq_error_iff {e : LoadError} :
    itemsOfLines number (lines.map Utf8.encode) = .error e
      ↔ ∃ before line after, lines = before ++ line :: after ∧ (∀ l ∈ before, IsGoodLine l)
        ∧ ¬ IsGoodLine line ∧ e = .notAnItem (number + before.length) := by
  induction lines generalizing number with
  | nil =>
    constructor
    · intro h
      cases h
    · rintro ⟨before, line, after, split, _⟩
      cases before <;> cases split
  | cons line lines ih =>
    rw [List.map_cons]
    -- A good line is one more in front of the line that is refused.
    have behind (good : IsGoodLine line) :
        (∃ before bad after, lines = before ++ bad :: after ∧ (∀ l ∈ before, IsGoodLine l)
          ∧ ¬ IsGoodLine bad ∧ e = .notAnItem (number + 1 + before.length))
        ↔ ∃ before bad after, line :: lines = before ++ bad :: after
          ∧ (∀ l ∈ before, IsGoodLine l) ∧ ¬ IsGoodLine bad
          ∧ e = .notAnItem (number + before.length) := by
      constructor
      · rintro ⟨before, bad, after, rfl, goods, isBad, rfl⟩
        refine ⟨line :: before, bad, after, rfl, List.forall_mem_cons.2 ⟨good, goods⟩, isBad, ?_⟩
        rw [List.length_cons, Nat.add_right_comm, Nat.add_assoc]
      · rintro ⟨before, bad, after, split, goods, isBad, rfl⟩
        cases before with
        | nil =>
          cases split
          exact absurd good isBad
        | cons head before =>
          cases split
          refine ⟨before, bad, after, rfl, (List.forall_mem_cons.1 goods).2, isBad, ?_⟩
          rw [List.length_cons, Nat.add_right_comm, Nat.add_assoc]
    by_cases blank : Text.IsBlankLine line
    · rw [itemsOfLines_blank blank, ih, behind (Or.inl blank)]
    · cases taken : (Item.decoder 0).text line with
      | ok item =>
        rw [itemsOfLines_item blank taken, ← behind (Or.inr ⟨item, taken⟩), ← ih]
        cases itemsOfLines (number + 1) (lines.map Utf8.encode) <;> simp [Except.map]
      | error fault =>
        have isBad : ¬ IsGoodLine line := by
          rintro (isBlank | ⟨item, read⟩)
          · exact blank isBlank
          · rw [taken] at read
            cases read
        rw [itemsOfLines_refused blank taken, Except.error.injEq]
        constructor
        · rintro rfl
          exact ⟨[], line, lines, rfl, nofun, isBad, rfl⟩
        · rintro ⟨before, bad, after, split, goods, _, rfl⟩
          cases before with
          | nil => rfl
          | cons head before =>
            cases split
            exact absurd (goods line List.mem_cons_self) isBad

end Lines

/-! ## Saved items -/

/--
The lines of a file in which items were saved, each on a line of its own and in order, with blank
lines wherever one likes.
-/
inductive Saved : List Item → List String → Prop
  | nil : Saved [] []
  | blank {items : List Item} {lines : List String} (line : String)
      (isBlank : Text.IsBlankLine line) (unbroken : '\n' ∉ line.toList) (rest : Saved items lines) :
      Saved items (line :: lines)
  | item {items : List Item} {lines : List String} (item : Item) (line : String)
      (written : item.WrittenAs line) (rest : Saved items lines) :
      Saved (item :: items) (line :: lines)

namespace Saved

variable {items : List Item} {lines : List String}

/-- No line of such a file holds a line break. -/
theorem unbroken (saved : Saved items lines) (read : ∀ item ∈ items, item.Deserialised) :
    ∀ line ∈ lines, '\n' ∉ line.toList := by
  induction saved with
  | nil => exact nofun
  | blank line _ unbroken _ ih => exact List.forall_mem_cons.2 ⟨unbroken, ih read⟩
  | item item line written _ ih =>
    obtain ⟨first, others⟩ := List.forall_mem_cons.1 read
    exact List.forall_mem_cons.2 ⟨(item.plain_of_writtenAs first.restorable written).1, ih others⟩

/-- The lines of such a file that are not blank are read as the items. -/
theorem reads (saved : Saved items lines) (read : ∀ item ∈ items, item.Deserialised) :
    List.Forall₂ (fun line item => (Item.decoder 0).text line = .ok item)
      (lines.filter fun line => ¬ Text.IsBlankLine line) items := by
  induction saved with
  | nil => exact .nil
  | blank line isBlank _ _ ih =>
    rw [List.filter_cons_of_neg (by simpa using isBlank)]
    exact ih read
  | item item line written _ ih =>
    obtain ⟨first, others⟩ := List.forall_mem_cons.1 read
    have notBlank : ¬ Text.IsBlankLine line := by
      intro blank
      have start := (item.plain_of_writtenAs first.restorable written).2
      exact absurd (blank _ (List.mem_of_mem_head? start)) (by decide)
    rw [List.filter_cons_of_pos (by simpa using notBlank)]
    exact .cons (Item.text_of_writtenAs first.restorable written) (ih others)

/-- The lines of the text of such a file, where a file without lines is an empty one. -/
theorem splitOn_intercalate (saved : Saved items lines)
    (read : ∀ item ∈ items, item.Deserialised) :
    (Text.splitOn '\n' ("\n".intercalate lines)).filter (fun line => ¬ Text.IsBlankLine line)
      = lines.filter fun line => ¬ Text.IsBlankLine line := by
  cases lines with
  | nil => rfl
  | cons line lines =>
    rw [Text.splitOn_intercalate rfl (List.cons_ne_nil _ _) (saved.unbroken read)]

/-- Saved items are read back. -/
theorem itemsOfText (saved : Saved items lines) (read : ∀ item ∈ items, item.Deserialised) :
    itemsOfText ("\n".intercalate lines) = .ok items := by
  rw [itemsOfText_eq, itemsOfLines_eq_ok_iff, saved.splitOn_intercalate read]
  exact saved.reads read

end Saved

/-! ## Items of files -/

/-- Every item of the lines of a file was taken out of a text. -/
theorem deserialised_of_itemsOfLines {number : ℕ} {lines : List (List UInt8)} {items : List Item}
    (h : itemsOfLines number lines = .ok items) : ∀ item ∈ items, item.Deserialised := by
  induction lines generalizing number items with
  | nil =>
    cases h
    exact nofun
  | cons line lines ih =>
    obtain ⟨found, first, h⟩ := exists_of_bind_eq_ok h
    obtain ⟨others, rest, h⟩ := exists_of_bind_eq_ok h
    cases h
    refine List.forall_mem_append.2 ⟨fun item mem => ?_, ih rest⟩
    rw [Option.mem_toList.1 mem] at first
    unfold itemOfLine at first
    split at first
    · cases first
    · split at first
      · cases first
      · next text _ _ =>
        cases taken : (Item.decoder 0).text text with
        | error fault =>
          rw [taken] at first
          cases first
        | ok read =>
          rw [taken] at first
          cases first
          exact Item.deserialised_of_text taken

/-- Every item of a feature collection was taken out of a text. -/
theorem deserialised_of_itemsOfFeatureCollection {bytes : List UInt8} {items : List Item}
    (h : itemsOfFeatureCollection bytes = .ok items) : ∀ item ∈ items, item.Deserialised := by
  have item : (Item.decoder 2).Yields Item.Deserialised := fun r sound _ taken =>
    ⟨2, r, sound, taken⟩
  have yields : featureCollectionShape.decode.Yields fun items =>
      ∀ item ∈ items, item.Deserialised := by
    refine Json.Shape.yields_decode nofun ?_ nofun
    intro member mem
    simp only [featureCollectionShape, List.mem_cons, List.not_mem_nil, or_false] at mem
    rcases mem with rfl | rfl
    · exact Json.Member.keeps_need Json.Decoder.string.yields_true fun _ _ _ kept => kept
    · exact Json.Member.keeps_need item.list fun _ read _ _ => read
  unfold itemsOfFeatureCollection at h
  cases taken : featureCollectionShape.decode.document (.ofBytes bytes) with
  | error fault =>
    rw [taken] at h
    cases h
  | ok read =>
    rw [taken] at h
    cases h
    exact yields.document taken

/-- Whatever items a file holds can be saved in a file of lines, which is read as the items. -/
theorem itemsOfFile_saved {path other : String} {bytes : Option (List UInt8)} {items : List Item}
    (h : itemsOfFile path bytes = .ok items) (named : isLineFile other = true) :
    itemsOfFile other (some (Utf8.encode
      ("\n".intercalate (items.map fun item => item.toJson.render)))) = .ok items := by
  have read : ∀ item ∈ items, item.Deserialised := by
    unfold itemsOfFile at h
    split at h
    · cases h
    · split at h
      · exact deserialised_of_itemsOfLines h
      · exact deserialised_of_itemsOfFeatureCollection h
  have saved : Saved items (items.map fun item => item.toJson.render) := by
    clear h read
    induction items with
    | nil => exact .nil
    | cons item items ih => exact .item item _ item.writtenAs_toJson ih
  rw [itemsOfFile_eq_itemsOfText named]
  exact saved.itemsOfText read

/-! ## Texts of lines -/

/--
Items that were read can be saved, one a line and with blank lines anywhere, and are read again as
they were. Of any text the items of its lines that are not blank are read in order, if all of these
are items; otherwise it is refused for the first one that is not, by its number among all lines.
All this is what a file of the text gives if its name says that it has one item a line.
-/
theorem items_of_lines :
    (∀ items lines, (∀ item ∈ items, item.Deserialised) → Saved items lines →
        itemsOfText ("\n".intercalate lines) = .ok items)
      ∧ (∀ text,
        (∀ items, itemsOfText text = .ok items
          ↔ List.Forall₂ (fun line item => (Item.decoder 0).text line = .ok item)
            ((Text.splitOn '\n' text).filter fun line => ¬ Text.IsBlankLine line) items)
        ∧ ∀ e, itemsOfText text = .error e
          ↔ ∃ before line after, Text.splitOn '\n' text = before ++ line :: after
            ∧ (∀ l ∈ before, IsGoodLine l) ∧ ¬ IsGoodLine line
            ∧ e = .notAnItem (1 + before.length))
      ∧ ∀ path text, isLineFile path = true →
        itemsOfFile path (some (Utf8.encode text)) = itemsOfText text := by
  refine ⟨?_, ?_, fun _ text named => itemsOfFile_eq_itemsOfText named text⟩
  · intro items lines read saved
    exact saved.itemsOfText read
  · intro text
    rw [itemsOfText_eq]
    exact ⟨fun _ => itemsOfLines_eq_ok_iff, fun _ => itemsOfLines_eq_error_iff⟩

/-! ## An item with line breaks in it -/

namespace Sample

/-- The text of an item with control characters, nested geometries and numbers of both kinds. -/
def brokenText : String :=
  "\x7b\"id\": \"a\\nb\", \"collection\": \"c\\u0001\", \"geometry\": "
    ++ "\x7b\"type\": \"GeometryCollection\", \"note\": 1.0, \"geometries\": "
    ++ "[\x7b\"type\": \"Point\", \"coordinates\": [1, 2.5, -0]\x7d]\x7d, "
    ++ "\"bbox\": [0, 0, 1, 1], \"properties\": \x7b\"n\": 1, \"x\": 1.0\x7d, "
    ++ "\"links\": [\x7b\x7d]\x7d"

/-- The item is saved twice and read again; a text is refused for its third line. -/
theorem items_of_lines_with_breaks :
    ∃ item, (Item.decoder 0).text brokenText = .ok item ∧ item.id = "a\nb"
      ∧ itemsOfText ("\n".intercalate ["", item.toJson.render, " \t",
        (Json.obj item.members).render, ""]) = .ok [item, item]
      ∧ itemsOfText "\n \n1" = .error (.notAnItem 3)
      ∧ itemsOfFile "a.ndjson" (some (Utf8.encode "\n \n1")) = .error (.notAnItem 3) := by
  have found : ((Item.decoder 0).text brokenText).toOption.any (fun item => item.id = "a\nb")
      = true := by
    unfold Json.Decoder.text Json.Document.ofText brokenText
    simp only [String.toList_append]
    decide +kernel
  obtain ⟨item, taken, id⟩ := exists_of_toOption_any found
  have read := Item.deserialised_of_text taken
  have saved : Saved [item, item]
      ["", item.toJson.render, " \t", (Json.obj item.members).render, ""] :=
    .blank "" (by decide) (by decide) <| .item item _ item.writtenAs_toJson <|
      .blank " \t" (by decide) (by decide) <| .item item _ item.writtenAs_members <|
        .blank "" (by decide) (by decide) .nil
  have failed : (Item.decoder 0).text "1" = .error .mistyped := rfl
  obtain ⟨saves, texts, files⟩ := items_of_lines
  have refused : itemsOfText "\n \n1" = .error (.notAnItem 3) := by
    refine ((texts "\n \n1").2 _).2 ⟨["", " "], "1", [], by decide, ?_, ?_, rfl⟩
    · exact List.forall_mem_cons.2 ⟨Or.inl (by decide),
        List.forall_mem_singleton.2 (Or.inl (by decide))⟩
    · rintro (blank | ⟨_, same⟩)
      · exact absurd blank (by decide)
      · rw [failed] at same
        cases same
  refine ⟨item, taken, of_decide_eq_true id, saves _ _ (by simp [read]) saved, refused, ?_⟩
  rw [files "a.ndjson" _ (by decide), refused]

end Sample

end CatalogSearch
