import CatalogSearch.Paging.Cursor
import CatalogSearch.Proofs.Encoding.Base64Url
import CatalogSearch.Proofs.Encoding.Utf8
import CatalogSearch.Proofs.Field.Json
import CatalogSearch.Proofs.Json.Reading

/-!
# Tokens read back

A token is written as JSON of scalars, in bytes, in letters, and each of the three is read back. The
one thing that can keep a written token from being read is its size.

* `Token.decode_encode` : a token of scalars is read back unless it is too long;
* `Cursor.tokenOf_isScalar` : the token of the position of any item is one of scalars.
-/

namespace CatalogSearch

/-! ## Scalars -/

namespace Json

/-- Whether a value is neither array nor object, and an integer only if it fits a word. -/
def IsScalar : Json → Prop
  | int n => FitsWord n
  | arr _ => False
  | obj _ => False
  | _ => True

/-- The integers in a scalar fit words. -/
theorem IsScalar.fitsWords {value : Json} (h : value.IsScalar) : value.FitsWords := by
  cases value with
  | arr => exact h.elim
  | obj => exact h.elim
  | _ => exact h

/-- A scalar is taken out of its reading at any depth. -/
theorem IsScalar.toJson_ofJson {value : Json} (h : value.IsScalar) (depth : ℕ) :
    (Reading.ofJson value).toJson depth = .ok value := by
  cases value with
  | arr => exact h.elim
  | obj => exact h.elim
  | _ => rfl

/-- An array of scalars is taken out of its reading. -/
theorem mapM_toJson_ofElements {values : List Json} (h : ∀ value ∈ values, value.IsScalar)
    (enclosing : ℕ) :
    (Reading.ofElements values).mapM (Decoder.value enclosing) = .ok values := by
  induction values with
  | nil => rfl
  | cons value values ih =>
    have first : Decoder.value enclosing (Reading.ofJson value) = .ok value :=
      (h value List.mem_cons_self).toJson_ofJson _
    have others := ih fun v hv => h v (List.mem_cons_of_mem _ hv)
    rw [Reading.ofElements, List.mapM_cons, first, others]
    rfl

end Json

/-- A value that was coerced is written as a scalar. -/
theorem isScalar_of_coerced {type : FieldType} {value : FieldValue}
    (h : FieldValue.Coerced type value) : value.toJson.IsScalar := by
  cases h with
  | integer fits =>
    obtain ⟨low, high⟩ := fitsSigned_iff.1 fits
    exact ⟨low, by omega⟩
  | string s => trivial
  | float x => trivial
  | timestamp read => trivial

/-- The value of a field is written as a scalar. -/
theorem isScalar_of_value? {item : Item} {field : Field} {value : FieldValue}
    (h : item.value? field = some value) : value.toJson.IsScalar := by
  rw [Item.value?] at h
  split at h
  · cases h
    trivial
  · split at h
    · cases h
      trivial
    · obtain ⟨name, _, h⟩ := Option.bind_eq_some_iff.1 h
      obtain ⟨json, _, h⟩ := Option.bind_eq_some_iff.1 h
      exact isScalar_of_coerced (FieldValue.coerced_of_ofJson? h)

/-! ## Reading a token -/

namespace Token

/-- The letter of a direction is read as the direction. -/
theorem word_letter (direction : PageDirection) :
    Json.Decoder.word PageDirection.byLetter (.text (some direction.letter)) = .ok direction := by
  cases direction <;> rfl

/-- The JSON text of a token of scalars says the token. -/
theorem ofChars_chars {token : Token} (h : ∀ value ∈ token.values, value.IsScalar) :
    ofChars token.toJson.chars = .ok token := by
  -- The text reads as the JSON of the token; what is left is to take it apart.
  have fits : token.toJson.FitsWords := by
    refine ⟨trivial, trivial, ?_, trivial⟩
    exact Json.elementsFit_of_forall fun value hvalue => (h value hvalue).fitsWords
  have direction := word_letter token.direction
  have values : Json.Decoder.list (Json.Decoder.value 2)
      (.list (Json.Reading.ofElements token.values)) = .ok token.values :=
    Json.mapM_toJson_ofElements h 2
  rw [ofChars, Json.Document.ofChars_chars fits]
  simp only [Json.Decoder.document, Json.Shape.decode, toJson, Json.Reading.ofJson,
    Json.Reading.ofMembers, Json.Shape.decodeObject, Json.Shape.readMembers, jsonShape,
    Json.Member.need, Except.map, Json.Decoder.string, decide_true, List.find?_cons_of_pos,
    List.contains_eq_mem, List.not_mem_nil, decide_false, Bool.false_eq_true, if_false, direction,
    String.reduceEq, not_false_eq_true, List.find?_cons_of_neg, List.mem_cons, or_self, values,
    or_false, Bool.decide_or, List.all_cons, Bool.not_true, Bool.or_true, Bool.or_false,
    Bool.or_self, List.all_nil, Bool.and_self, if_true]
  rfl

/-- A token is written with at least as many bytes as its JSON text has characters. -/
theorem length_chars_le_utf8ByteSize (token : Token) :
    token.toJson.chars.length ≤ token.encode.utf8ByteSize := by
  rw [encode, Utf8.utf8ByteSize_ofList]
  calc token.toJson.chars.length
      ≤ (Utf8.encodeChars token.toJson.chars).length := Utf8.length_le_length_encodeChars _
    _ ≤ (Base64Url.encode (Utf8.encodeChars token.toJson.chars)).length :=
        Base64Url.length_le_length_encode _
    _ ≤ (Utf8.encodeChars (Base64Url.encode (Utf8.encodeChars token.toJson.chars))).length :=
        Utf8.length_le_length_encodeChars _

/-- No token is written as the empty text. -/
theorem encode_ne_empty (token : Token) : token.encode ≠ "" := by
  intro empty
  have size := length_chars_le_utf8ByteSize token
  rw [empty, toJson, Json.chars, List.cons_append, List.length_cons] at size
  exact absurd size (by simp)

/-- A token of scalars is read back unless it is too long. -/
theorem decode_encode {token : Token} (h : ∀ value ∈ token.values, value.IsScalar) :
    decode token.encode
      = if token.encode.utf8ByteSize ≤ maxTokenBytes then .ok token else .error .tooLong := by
  rw [decode, if_neg (encode_ne_empty token)]
  split
  · next long => rw [if_neg (by omega)]
  · next short =>
    have letters : Base64Url.decode? token.encode.toList
        = some (Utf8.encodeChars token.toJson.chars) := by
      rw [encode, String.toList_ofList, Base64Url.decode?_encode]
    rw [if_pos (by omega), letters]
    simp only [Utf8.decodeChars?_encodeChars, ofChars_chars h]
    rfl

end Token

/-! ## Tokens of items -/

namespace Cursor

/-- The token of the position of an item holds scalars. -/
theorem tokenOf_isScalar (item : Item) (order : SortOrder) (direction : PageDirection) :
    ∀ value ∈ (tokenOf item order direction).values, value.IsScalar := by
  intro json hjson
  obtain ⟨value, hvalue, rfl⟩ := List.mem_map.1 hjson
  obtain ⟨key, _, hkey⟩ := List.mem_map.1 hvalue
  cases value with
  | none => trivial
  | some value => exact isScalar_of_value? hkey

/--
The token of the position of an item is read back as it was written, in every order and in either
direction, up to the size from which on no token is read.
-/
theorem decode_encode_tokenOf (item : Item) (order : SortOrder) (direction : PageDirection) :
    Token.decode (encode item order direction)
      = if (encode item order direction).utf8ByteSize ≤ maxTokenBytes then
          .ok (tokenOf item order direction)
        else .error .tooLong :=
  Token.decode_encode (tokenOf_isScalar item order direction)

/-- A quoted text is longer than the text. -/
theorem length_lt_length_quote (s : String) : s.toList.length < (Json.quote s).length := by
  -- No character is written with fewer than one.
  have escaped : ∀ cs : List Char, cs.length ≤ (cs.flatMap Json.escapeChar).length := by
    intro cs
    induction cs with
    | nil => exact Nat.le_refl _
    | cons c cs ih =>
      have one : 1 ≤ (Json.escapeChar c).length := by
        rw [Json.escapeChar]
        split
        · exact Nat.le_add_left _ _
        · split <;> exact Nat.le_add_left _ _
      rw [List.flatMap_cons, List.length_append, List.length_cons]
      omega
  have body := escaped s.toList
  rw [Json.quote, List.length_cons, List.length_append]
  omega

/-- The token of a position by identifier is longer than the identifier. -/
theorem length_lt_utf8ByteSize_byId (item : Item) (direction : PageDirection) :
    item.id.toList.length < (encode item .byId direction).utf8ByteSize := by
  have quoted := length_lt_length_quote item.id
  have size := Token.length_chars_le_utf8ByteSize (tokenOf item .byId direction)
  have value : (tokenOf item .byId direction).values = [.str item.id] := rfl
  rw [Token.toJson, value] at size
  simp only [Json.chars, Json.memberChars, Json.elementChars, List.length_cons, List.length_append]
    at size
  rw [encode]
  omega

/-- The token of an identifier of 4096 letters is written, but too long to be read. -/
theorem token_of_long_identifier :
    Token.decode (encode { Item.blank with id := String.ofList (List.replicate 4096 'a') }
      .byId .forward) = .error .tooLong := by
  have size := length_lt_utf8ByteSize_byId
    { Item.blank with id := String.ofList (List.replicate 4096 'a') } .forward
  rw [String.toList_ofList, List.length_replicate] at size
  have long : ¬ (encode { Item.blank with id := String.ofList (List.replicate 4096 'a') }
      .byId .forward).utf8ByteSize ≤ maxTokenBytes := by
    rw [maxTokenBytes]
    omega
  rw [encode] at long ⊢
  rw [Token.decode_encode (tokenOf_isScalar _ _ _), if_neg long]

end Cursor

end CatalogSearch
