import CatalogSearch.Proofs.Paging.Token
import CatalogSearch.Proofs.Sort.Resolved

/-!
# Positions read back

The position of an item is told by a token if the token is short enough to be read and the instants
in it have years that are read. Then the token tells exactly that position.

* `Cursor.decode_encode_of_short` : a position that can be told is read back from its token;
* `Cursor.short_and_years_of_decode` : no other position is read at all;
* `Cursor.eq_ofItem_of_decode` : nothing but the position is ever read from its token.
-/

namespace CatalogSearch.Cursor

/--
The position of an item can be told: its tokens are short enough, and its instants have years of
four digits.
-/
structure Tellable (order : SortOrder) (item : Item) : Prop where
  short : ∀ direction, (encode item order direction).utf8ByteSize ≤ maxTokenBytes
  years : ∀ value, some value ∈ order.keyValues item → value.hasFourDigitYear = true

/-- Whether a position can be told is decided by its two tokens and its instants. -/
theorem tellable_iff {order : SortOrder} {item : Item} :
    Tellable order item ↔ (encode item order .forward).utf8ByteSize ≤ maxTokenBytes
      ∧ (encode item order .backward).utf8ByteSize ≤ maxTokenBytes
      ∧ ((order.keyValues item).all fun value => value.all FieldValue.hasFourDigitYear) = true := by
  rw [List.all_eq_true]
  constructor
  · rintro ⟨short, years⟩
    refine ⟨short .forward, short .backward, fun value mem => ?_⟩
    cases value with
    | none => rfl
    | some value => exact years value mem
  · rintro ⟨forward, backward, years⟩
    refine ⟨fun direction => ?_, fun value mem => years (some value) mem⟩
    cases direction with
    | forward => exact forward
    | backward => exact backward

instance (order : SortOrder) (item : Item) : Decidable (Tellable order item) :=
  decidable_of_iff' _ tellable_iff

/-- No value is written as null. -/
theorem toJson_ne_null (value : FieldValue) : value.toJson ≠ .null := by
  cases value <;> exact Json.noConfusion

/-- The value of a key is read back. -/
theorem keyValue?_toJson {key : SortKey} (placed : key.field.WellPlaced) {item : Item}
    (years : ∀ value, item.value? key.field = some value → value.hasFourDigitYear = true) :
    keyValue? key ((item.value? key.field).elim .null FieldValue.toJson)
      = .ok (item.value? key.field) := by
  cases has : item.value? key.field with
  | none => rfl
  | some value =>
    obtain ⟨json, coerced⟩ := placed.exists_ofJson? has
    have back := (FieldValue.coerced_of_ofJson? coerced).ofJson?_toJson (years value has)
    show keyValue? key value.toJson = _
    rw [keyValue?, back]
    exact toJson_ne_null value

/-- The values of a list of keys are read back. -/
theorem keyValues?_toJson {keys : List SortKey} (placed : ∀ key ∈ keys, key.field.WellPlaced)
    {item : Item} (years : ∀ key ∈ keys, ∀ value, item.value? key.field = some value →
      value.hasFourDigitYear = true) :
    keyValues? keys (keys.map fun key => (item.value? key.field).elim .null FieldValue.toJson)
      = .ok (keys.map fun key => item.value? key.field) := by
  induction keys with
  | nil => rfl
  | cons key keys ih =>
    have first := keyValue?_toJson (placed key List.mem_cons_self) (years key List.mem_cons_self)
    have others := ih (fun k hk => placed k (List.mem_cons_of_mem _ hk))
      (fun k hk => years k (List.mem_cons_of_mem _ hk))
    rw [List.map_cons, keyValues?, first, others]
    rfl

/-- The token of an item belongs to the order it was made for and has a value for each key. -/
theorem ofToken_tokenOf (item : Item) (order : SortOrder) (direction : PageDirection) :
    ofToken (tokenOf item order direction) order
      = (keyValues? order.keys
          (order.keys.map fun key => (item.value? key.field).elim .null FieldValue.toJson)).map
        fun values => ⟨direction, values⟩ := by
  have same : (tokenOf item order direction).fingerprint = order.fingerprint := rfl
  have length : (tokenOf item order direction).values.length = order.keys.length := by
    simp only [tokenOf, SortOrder.keyValues, List.length_map]
  have row : (tokenOf item order direction).values
      = order.keys.map fun key => (item.value? key.field).elim .null FieldValue.toJson :=
    List.map_map
  rw [ofToken, if_neg (not_not_intro same), if_neg (not_not_intro length), row]
  rfl

/-- A position is read back from a token that is short enough if its instants have such years. -/
theorem decode_encode_of_short {order : SortOrder} {item : Item} {direction : PageDirection}
    (placed : ∀ key ∈ order.keys, key.field.WellPlaced)
    (short : (encode item order direction).utf8ByteSize ≤ maxTokenBytes)
    (years : ∀ value, some value ∈ order.keyValues item → value.hasFourDigitYear = true) :
    decode (encode item order direction) order = .ok (ofItem item order direction) := by
  have yearsOfKeys : ∀ key ∈ order.keys, ∀ value, item.value? key.field = some value →
      value.hasFourDigitYear = true := by
    intro key hkey value has
    exact years value (has ▸ List.mem_map_of_mem hkey)
  have token := Token.decode_encode (tokenOf_isScalar item order direction)
  rw [← encode, if_pos short] at token
  have position := ofToken_tokenOf item order direction
  rw [keyValues?_toJson placed yearsOfKeys] at position
  rw [decode, token]
  show (ofToken (tokenOf item order direction) order).mapError _ = _
  rw [position]
  rfl

/-- A position that can be told is read back from its token. -/
theorem decode_encode {order : SortOrder} {item : Item}
    (placed : ∀ key ∈ order.keys, key.field.WellPlaced) (tellable : Tellable order item)
    (direction : PageDirection) :
    decode (encode item order direction) order = .ok (ofItem item order direction) :=
  decode_encode_of_short placed (tellable.short direction) tellable.years

/-! ## What is read at all -/

/-- The value of a key is read only if its year has four digits. -/
theorem year_of_keyValue?_toJson {key : SortKey} (placed : key.field.WellPlaced) {item : Item}
    {read : Option FieldValue}
    (h : keyValue? key ((item.value? key.field).elim .null FieldValue.toJson) = .ok read)
    {value : FieldValue} (has : item.value? key.field = some value) :
    value.hasFourDigitYear = true := by
  by_contra noYear
  obtain ⟨json, coerced⟩ := placed.exists_ofJson? has
  have none := (FieldValue.coerced_of_ofJson? coerced).ofJson?_toJson_eq_none noYear
  rw [has, Option.elim_some, keyValue?, none] at h
  · cases h
  · exact toJson_ne_null value

/-- The values of a list of keys are read only if all their years have four digits. -/
theorem years_of_keyValues?_toJson {keys : List SortKey}
    (placed : ∀ key ∈ keys, key.field.WellPlaced) {item : Item} {read : List (Option FieldValue)}
    (h : keyValues? keys (keys.map fun key => (item.value? key.field).elim .null FieldValue.toJson)
      = .ok read) :
    ∀ key ∈ keys, ∀ value, item.value? key.field = some value → value.hasFourDigitYear = true := by
  induction keys generalizing read with
  | nil => exact fun _ hkey => absurd hkey List.not_mem_nil
  | cons key keys ih =>
    rw [List.map_cons, keyValues?] at h
    obtain ⟨first, hfirst, h⟩ := exists_of_bind_eq_ok h
    obtain ⟨others, hothers, _⟩ := exists_of_bind_eq_ok h
    intro other hother value has
    rcases List.mem_cons.1 hother with rfl | hother
    · exact year_of_keyValue?_toJson (placed _ List.mem_cons_self) hfirst has
    · have placedOthers := fun k hk => placed k (List.mem_cons_of_mem _ hk)
      exact ih placedOthers hothers other hother value has

/-- A token of an item is read only if it is short enough and its instants have such years. -/
theorem short_and_years_of_decode {order : SortOrder} {item : Item} {direction : PageDirection}
    {cursor : Cursor} (placed : ∀ key ∈ order.keys, key.field.WellPlaced)
    (h : decode (encode item order direction) order = .ok cursor) :
    (encode item order direction).utf8ByteSize ≤ maxTokenBytes
      ∧ ∀ value, some value ∈ order.keyValues item → value.hasFourDigitYear = true := by
  have token := Token.decode_encode (tokenOf_isScalar item order direction)
  rw [← encode] at token
  rw [decode, token] at h
  split at h
  · next short =>
    refine ⟨short, fun value mem => ?_⟩
    replace h : (ofToken (tokenOf item order direction) order).mapError SearchError.invalidToken
        = .ok cursor := h
    rw [ofToken_tokenOf] at h
    cases read : keyValues? order.keys
        (order.keys.map fun key => (item.value? key.field).elim .null FieldValue.toJson) with
    | error e =>
      rw [read] at h
      cases h
    | ok values =>
      obtain ⟨key, hkey, has⟩ := List.mem_map.1 mem
      exact years_of_keyValues?_toJson placed read key hkey value has
  · cases h

/-- The position that is read from the token of an item is that of the item. -/
theorem eq_ofItem_of_decode {order : SortOrder} {item : Item} {direction : PageDirection}
    {cursor : Cursor} (placed : ∀ key ∈ order.keys, key.field.WellPlaced)
    (h : decode (encode item order direction) order = .ok cursor) :
    cursor = ofItem item order direction := by
  obtain ⟨short, years⟩ := short_and_years_of_decode placed h
  rw [decode_encode_of_short placed short years] at h
  exact (Except.ok.inj h).symm

/-- A text says a position or is refused as a token. -/
theorem decode_eq_ok_or_invalidToken (raw : String) (order : SortOrder) :
    (∃ cursor, decode raw order = .ok cursor)
      ∨ ∃ fault, decode raw order = .error (.invalidToken fault) := by
  rw [decode]
  cases Token.decode raw >>= (ofToken · order) with
  | ok cursor => exact Or.inl ⟨cursor, rfl⟩
  | error fault => exact Or.inr ⟨fault, rfl⟩

/-- Values whose years have four digits are those of which no instant lies in another year. -/
theorem hasFourDigitYear_iff_of_timestamps {values : List (Option FieldValue)} :
    (∀ value, some value ∈ values → value.hasFourDigitYear = true)
      ↔ ∀ t, some (.timestamp t) ∈ values → 0 ≤ t.date.year ∧ t.date.year ≤ 9999 := by
  constructor
  · intro years t mem
    exact FieldValue.hasFourDigitYear_timestamp.1 (years _ mem)
  · intro years value mem
    cases value with
    | timestamp t => exact FieldValue.hasFourDigitYear_timestamp.2 (years t mem)
    | _ => rfl

/--
The token of an item leads to the position of the item or is refused as a token. It leads there
exactly if it is not too long and all instants among the values have years from 0 to 9999 in UTC.
-/
theorem decode_encode_eq_ofItem_or_invalidToken {config : Config} {registry : FieldRegistry}
    (configured : config.registry = .ok registry) {order : SortOrder}
    (resolved : SortOrder.Resolved registry order) (item : Item) (direction : PageDirection) :
    (decode (encode item order direction) order = .ok (ofItem item order direction)
        ∨ ∃ fault, decode (encode item order direction) order = .error (.invalidToken fault))
      ∧ (decode (encode item order direction) order = .ok (ofItem item order direction)
        ↔ (encode item order direction).utf8ByteSize ≤ maxTokenBytes
          ∧ ∀ t, some (.timestamp t) ∈ order.keyValues item →
            0 ≤ t.date.year ∧ t.date.year ≤ 9999) := by
  have placed := resolved.wellPlaced (Config.registry_wellPlaced configured)
  constructor
  · refine (decode_eq_ok_or_invalidToken _ order).imp_left fun ⟨cursor, read⟩ => ?_
    rw [read, eq_ofItem_of_decode placed read]
  · rw [← hasFourDigitYear_iff_of_timestamps]
    exact ⟨short_and_years_of_decode placed,
      fun ⟨short, years⟩ => decode_encode_of_short placed short years⟩

end CatalogSearch.Cursor

/-! ## An item in a leap second -/

namespace CatalogSearch.Sample

/-- An item in the middle of a leap second, which it gives in a local time. -/
def leapItem : Item :=
  { Item.blank with id := "b|c", properties := [("datetime", .str "2017-01-01T00:59:60.5+01:00")] }

/-- The order by a field that is missing and the instant. -/
def byGsd : SortOrder :=
  ⟨[⟨.property "gsd" .float, .descending⟩, ⟨FieldRegistry.temporalField, .ascending⟩,
    SortOrder.idKey]⟩

/-- The position of an item with a missing value and in a leap second is read back. -/
theorem decode_encode_of_leapItem :
    resolveSort .builtin [⟨"gsd", .descending⟩, ⟨"properties.datetime", .ascending⟩] = .ok byGsd
      ∧ byGsd.keyValues leapItem = [none, some (.timestamp
          ⟨⟨2016, 12, 31, by decide, by decide⟩, 23, 59, 59, 1500000000, by decide⟩),
          some (.string "b|c")]
      ∧ Cursor.decode (Cursor.encode leapItem byGsd .backward) byGsd
        = .ok (.ofItem leapItem byGsd .backward) := by
  have configured : Config.unset.registry = .ok .builtin := rfl
  have resolved : resolveSort .builtin [⟨"gsd", .descending⟩, ⟨"properties.datetime", .ascending⟩]
      = .ok byGsd := rfl
  have values : byGsd.keyValues leapItem = [none, some (.timestamp
      ⟨⟨2016, 12, 31, by decide, by decide⟩, 23, 59, 59, 1500000000, by decide⟩),
      some (.string "b|c")] := by decide +kernel
  have short : (Cursor.encode leapItem byGsd .backward).utf8ByteSize ≤ maxTokenBytes := by
    decide +kernel
  refine ⟨resolved, values, ?_⟩
  have position := Cursor.decode_encode_eq_ofItem_or_invalidToken configured
    (.requested resolved) leapItem .backward
  refine position.2.2 ⟨short, fun t mem => ?_⟩
  simp only [values, List.mem_cons, reduceCtorEq, Option.some.injEq, FieldValue.timestamp.injEq,
    List.not_mem_nil, or_false, false_or] at mem
  rw [mem]
  decide

end CatalogSearch.Sample
