import CatalogSearch.Proofs.Json.Object
import CatalogSearch.Proofs.Sort.Resolved

/-!
# Places of fields in records

A field has a place in the record of an item: the identifier, the collection, or one key below the
properties. Its value is the reading of the JSON that stands there.

* `Item.value?_eq_some_iff` : an item has the value that stands at the place of the field.
-/

namespace CatalogSearch

/-! ## Rows of keys -/

namespace Json

/-- The value at the end of a row of keys. -/
def at? : List String → Json → Option Json
  | [], value => some value
  | key :: keys, value => (value.get? key).bind (at? keys)

end Json

/-! ## Fields -/

/-- The row of keys at which a field stands in a record. -/
def Field.place (field : Field) : List String :=
  match Text.after? Field.propertyLead field.path with
  | some name => ["properties", name]
  | none => [field.path]

/-- A field has a place below the record. -/
theorem Field.place_ne_nil (field : Field) : field.place ≠ [] := by
  rw [place]
  split <;> exact List.cons_ne_nil _ _

/-- The place of a field below the properties. -/
theorem Field.place_of_path {field : Field} {name : String}
    (h : field.path = Field.propertyLead ++ name) : field.place = ["properties", name] := by
  rw [Field.place, Text.after?_eq_some_iff.2 h]

namespace Item

/-- The identifier in a record. -/
theorem at?_id (item : Item) : item.toJson.at? ["id"] = some (.str item.id) := by
  have found : item.toJson.get? "id" = some (.str item.id) := by
    rw [toJson, Json.get?_object]
    cases item.bbox <;> rfl
  rw [Json.at?, found]
  rfl

/-- The collection in a record. -/
theorem at?_collection (item : Item) :
    item.toJson.at? ["collection"] = some (.str item.collection) := by
  have found : item.toJson.get? "collection" = some (.str item.collection) := by
    rw [toJson, Json.get?_object]
    cases item.bbox <;> rfl
  rw [Json.at?, found]
  rfl

/-- A property in a record. -/
theorem at?_property (item : Item) (name : String) :
    item.toJson.at? ["properties", name] = item.properties.lookup name := by
  have found : item.toJson.get? "properties" = some (.obj item.properties) := by
    rw [toJson, Json.get?_object]
    cases item.bbox <;> rfl
  rw [Json.at?, found, Option.bind_some, Json.at?, Json.get?]
  exact Option.bind_fun_some _

/-- The value of a field is what the JSON at its place reads as. -/
theorem value?_eq_bind {field : Field} (placed : field.WellPlaced) (item : Item) :
    item.value? field = (item.toJson.at? field.place).bind (FieldValue.ofJson? field.type) := by
  rcases placed with rfl | rfl | ⟨name, path⟩
  · rw [show FieldRegistry.idField.place = ["id"] from rfl, at?_id]
    rfl
  · rw [show FieldRegistry.collectionField.place = ["collection"] from rfl, at?_collection]
    rfl
  · obtain ⟨notId, notCollection⟩ := Field.propertyLead_append_ne name
    rw [Field.place_of_path path, at?_property, value?, path, if_neg notId, if_neg notCollection,
      Text.after?_eq_some_iff.2 rfl]
    rfl

/-- The JSON at the place of a field in the record of an item reads as a value. -/
def Has (item : Item) (field : Field) (value : FieldValue) : Prop :=
  ∃ json, item.toJson.at? field.place = some json
    ∧ FieldValue.ofJson? field.type json = some value

/-- An item has the value that stands at the place of the field. -/
theorem value?_eq_some_iff {field : Field} (placed : field.WellPlaced) {item : Item}
    {value : FieldValue} : item.value? field = some value ↔ item.Has field value := by
  rw [value?_eq_bind placed, Option.bind_eq_some_iff]
  rfl

end Item

end CatalogSearch
