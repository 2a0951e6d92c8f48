import CatalogSearch.Item
import CatalogSearch.Proofs.Geometry.GeoJson
import CatalogSearch.Proofs.Json.Printable

/-!
# Items read back

An item that was taken out of a text is taken out of its own object again, in whatever order the
members of that object stand.

* `Item.Restorable` : what is known of every item that was read;
* `Item.WrittenAs` : the texts of an item;
* `Item.text_of_writtenAs` : an item that was read is read back from each of them.
-/

namespace CatalogSearch

open Json (Readable deepest)

namespace Item

variable {item : Item}

/-! ## Items that were read -/

/-- The parts of an item can be read back. -/
structure Restorable (item : Item) : Prop where
  geometry : item.geometry.toJson.Readable (deepest - 1)
  geometry_again : Geometry.ofJson? item.geometry.toJson = some item.geometry
  properties : (Json.obj item.properties).Readable (deepest - 1)
  links : ∀ link ∈ item.links, link.Readable (deepest - 2)
  assets : (Json.obj item.assets).Readable (deepest - 1)

/-- An item of which nothing is known can be read back. -/
theorem restorable_blank : blank.Restorable where
  geometry := by
    have json : blank.geometry.toJson
        = .obj [("geometries", .arr []), ("type", .str "GeometryCollection")] := rfl
    rw [json]
    exact ⟨by decide, by decide, ⟨by decide, trivial⟩, trivial, trivial⟩
  geometry_again := rfl
  properties := ⟨by decide, .nil, trivial⟩
  links := fun _ mem => absurd mem List.not_mem_nil
  assets := ⟨by decide, .nil, trivial⟩

/-- An item was taken out of a text, from wherever in it. -/
def Deserialised (item : Item) : Prop :=
  ∃ enclosing, ∃ r : Json.Reading, r.Sound ∧ decoder enclosing r = .ok item

/-- Every item that is taken out of a text can be read back. -/
theorem yields_decoder (enclosing : ℕ) : (decoder enclosing).Yields Restorable := by
  have fewer {depth : ℕ} : deepest - (enclosing + depth) ≤ deepest - depth := by omega
  have string := Json.Decoder.string.yields_true
  refine Json.Shape.yields_decode restorable_blank ?_ nofun
  intro member mem
  simp only [jsonShape, List.mem_cons, List.not_mem_nil, or_false] at mem
  rcases mem with rfl | rfl | rfl | rfl | rfl | rfl | rfl | rfl | rfl
  · exact Json.Member.keeps_need string fun _ _ _ kept => { kept with }
  · exact Json.Member.keeps_allow string fun _ _ _ kept => { kept with }
  · exact Json.Member.keeps_allow string fun _ _ _ kept => { kept with }
  · exact Json.Member.keeps_need string fun _ _ _ kept => { kept with }
  · exact Json.Member.keeps_need (Geometry.yields_decoder (enclosing + 1))
      fun _ ⟨readable, again⟩ _ kept =>
        { kept with geometry := readable.mono fewer, geometry_again := again }
  · exact Json.Member.keeps_allow (Json.Decoder.yields_true _) fun _ _ _ kept => { kept with }
  · exact Json.Member.keeps_allow (Json.Decoder.yields_members (enclosing + 1))
      fun _ readable _ kept => { kept with properties := readable.mono fewer }
  · exact Json.Member.keeps_allow (Json.Decoder.yields_value (enclosing + 2)).list
      fun _ readable _ kept => { kept with links := fun link mem => (readable link mem).mono fewer }
  · exact Json.Member.keeps_allow (Json.Decoder.yields_members (enclosing + 1))
      fun _ readable _ kept => { kept with assets := readable.mono fewer }

/-- An item that was taken out of a text can be read back. -/
theorem Deserialised.restorable (deserialised : item.Deserialised) : item.Restorable := by
  obtain ⟨enclosing, r, sound, taken⟩ := deserialised
  exact yields_decoder enclosing r sound item taken

/-- The item of a whole text was taken out of it. -/
theorem deserialised_of_text {text : String} (taken : (decoder 0).text text = .ok item) :
    item.Deserialised := by
  have yields : (decoder 0).Yields Deserialised := fun r sound _ taken => ⟨0, r, sound, taken⟩
  exact yields.text taken

/-! ## Texts of items -/

/-- The members of an item in the order in which they are declared. -/
def members (item : Item) : List (String × Json) :=
  [("id", .str item.id), ("type", .str item.kind), ("stac_version", .str item.version),
    ("collection", .str item.collection), ("geometry", item.geometry.toJson)]
    ++ Json.optional "bbox" (item.bbox.map Geometry.numbers)
    ++ [("properties", .obj item.properties), ("links", .arr item.links),
      ("assets", .obj item.assets)]

/-- A text of an item is that of the object of its members, in whatever order they stand. -/
def WrittenAs (item : Item) (text : String) : Prop :=
  ∃ members : List (String × Json), members.Perm item.members ∧ text = (Json.obj members).render

/-- The members of an item one by one; the bounding box may be missing. -/
theorem forall_mem_members {p : String × Json → Prop} :
    (∀ entry ∈ item.members, p entry)
      ↔ (p ("id", .str item.id) ∧ p ("type", .str item.kind) ∧ p ("stac_version", .str item.version)
          ∧ p ("collection", .str item.collection) ∧ p ("geometry", item.geometry.toJson))
        ∧ (∀ bounds, item.bbox = some bounds → p ("bbox", Geometry.numbers bounds))
        ∧ p ("properties", .obj item.properties) ∧ p ("links", .arr item.links)
        ∧ p ("assets", .obj item.assets) := by
  have box : (∀ entry ∈ Json.optional "bbox" (item.bbox.map Geometry.numbers), p entry)
      ↔ ∀ bounds, item.bbox = some bounds → p ("bbox", Geometry.numbers bounds) := by
    cases item.bbox <;> simp [Json.optional]
  unfold members
  rw [List.forall_mem_append, List.forall_mem_append, box, and_assoc]
  simp only [List.forall_mem_cons, List.not_mem_nil, false_implies, implies_true, and_true]

/-- The members of an item have different names. -/
theorem nodup_members (item : Item) : (item.members.map (·.1)).Nodup := by
  unfold members
  cases item.bbox <;> simp [Json.optional]

/-- An item is written with its members as they are declared. -/
theorem writtenAs_members (item : Item) : item.WrittenAs (Json.obj item.members).render :=
  ⟨item.members, .refl _, rfl⟩

/-- An item is written with its members in the order of their names. -/
theorem writtenAs_toJson (item : Item) : item.WrittenAs item.toJson.render := by
  have order : ([("id", .str item.id), ("type", .str item.kind),
      ("stac_version", .str item.version), ("collection", .str item.collection),
      ("geometry", item.geometry.toJson), ("properties", .obj item.properties),
      ("links", .arr item.links), ("assets", .obj item.assets)]
      ++ Json.optional "bbox" (item.bbox.map Geometry.numbers)).Perm item.members := by
    -- Only the bounding box stands in another place.
    unfold members
    simp only [List.cons_append, List.nil_append, List.perm_cons]
    exact @List.perm_append_comm _ [_, _, _] _
  have distinct := ((order.map (·.1)).nodup_iff).2 item.nodup_members
  exact ⟨_, (Json.sortMembers_perm distinct).trans order, rfl⟩

/-! ## Reading an item back -/

/-- An item of which only the members of some names are known. -/
def upTo (item : Item) (names : List String) : Item where
  id := if "id" ∈ names then item.id else blank.id
  kind := if "type" ∈ names then item.kind else blank.kind
  version := if "stac_version" ∈ names then item.version else blank.version
  collection := if "collection" ∈ names then item.collection else blank.collection
  geometry := if "geometry" ∈ names then item.geometry else blank.geometry
  bbox := if "bbox" ∈ names then item.bbox else blank.bbox
  properties := if "properties" ∈ names then item.properties else blank.properties
  links := if "links" ∈ names then item.links else blank.links
  assets := if "assets" ∈ names then item.assets else blank.assets

/-- Without any members nothing is known. -/
theorem upTo_nil (item : Item) : item.upTo [] = blank := by
  simp [upTo]

/-- With all its members the item is known. -/
theorem upTo_eq_self {names : List String} (all : ∀ entry ∈ item.members, entry.1 ∈ names) :
    item.upTo names = item := by
  obtain ⟨⟨id, kind, version, collection, geometry⟩, box, properties, links, assets⟩ :=
    forall_mem_members.1 all
  have boxes : (if "bbox" ∈ names then item.bbox else blank.bbox) = item.bbox := by
    cases there : item.bbox with
    | none => exact ite_self _
    | some bounds => rw [if_pos (box bounds there)]
  unfold upTo
  rw [boxes]
  simp [id, kind, version, collection, geometry, properties, links, assets]

/-- Each member of an item that was read brings it from what is known to what its name adds. -/
theorem reads_members (restorable : item.Restorable) :
    ∀ entry ∈ item.members, ∃ member,
      (jsonShape 0).members.find? (·.name = entry.1) = some member
        ∧ ∃ f, member.read (.ofJson entry.2) = .ok f
          ∧ ∀ seen, f (item.upTo seen) = item.upTo (entry.1 :: seen) := by
  have geometry : Geometry.decoder 1 (.ofJson item.geometry.toJson) = .ok item.geometry :=
    Geometry.decoder_ofJson restorable.geometry restorable.geometry_again
  have properties : Json.Decoder.members 1 (.ofJson (.obj item.properties)) = .ok item.properties :=
    Json.Decoder.members_ofJson restorable.properties
  have assets : Json.Decoder.members 1 (.ofJson (.obj item.assets)) = .ok item.assets :=
    Json.Decoder.members_ofJson restorable.assets
  have links : Json.Decoder.list (.value 2) (.ofJson (.arr item.links)) = .ok item.links := by
    have each : ∀ link ∈ item.links, Json.Decoder.value 2 (.ofJson link) = .ok link :=
      fun link mem => (restorable.links link mem).toJson_ofJson
    have list := Json.Decoder.list_ofJson (fun link => link) each
    rwa [List.map_id'] at list
  rw [forall_mem_members]
  -- One case for each member; the name is found in the shape, and its value is taken out.
  refine ⟨⟨?id, ?kind, ?version, ?collection, ?geometry⟩, ?bbox, ?properties, ?links, ?assets⟩
  case geometry => exact ⟨_, rfl, _, Json.Member.read_need geometry, fun seen => by simp [upTo]⟩
  case bbox =>
    intro bounds there
    have numbers : Json.Decoder.list .binary64 (.ofJson (Geometry.numbers bounds)) = .ok bounds :=
      Json.Decoder.list_ofJson .float fun _ _ => rfl
    have taken : Json.Decoder.nullable (.list .binary64) (.ofJson (Geometry.numbers bounds))
        = .ok (some bounds) := congrArg (Except.map some) numbers
    exact ⟨_, rfl, _, Json.Member.read_allow taken, fun seen => by simp [upTo, there]⟩
  case properties =>
    exact ⟨_, rfl, _, Json.Member.read_allow properties, fun seen => by simp [upTo]⟩
  case links => exact ⟨_, rfl, _, Json.Member.read_allow links, fun seen => by simp [upTo]⟩
  case assets => exact ⟨_, rfl, _, Json.Member.read_allow assets, fun seen => by simp [upTo]⟩
  all_goals exact ⟨_, rfl, _, rfl, fun seen => by simp [upTo]⟩

/-- An item that was read is taken out of its object, in whatever order the members stand. -/
theorem decoder_ofJson (restorable : item.Restorable) {members : List (String × Json)}
    (order : members.Perm item.members) :
    decoder 0 (.ofJson (.obj members)) = .ok item := by
  have required : ∀ member ∈ (jsonShape 0).members, member.required = true →
      member.name ∈ ["id", "collection", "geometry"] := by decide
  refine Json.Shape.decode_ofPerm item.upTo order item.nodup_members (reads_members restorable) ?_
    item.upTo_nil fun _ all => upTo_eq_self all
  intro member mem isRequired
  have name := required member mem isRequired
  simp only [List.mem_cons, List.not_mem_nil, or_false] at name
  rcases name with same | same | same <;> simp [same, Item.members]

/-- The integers in the members of an item that was read fit words. -/
theorem fitsWords_members (restorable : item.Restorable) :
    ∀ entry ∈ item.members, entry.2.FitsWords := by
  have links : (Json.arr item.links).FitsWords :=
    Json.elementsFit_of_forall fun link mem => (restorable.links link mem).fitsWords
  have numbers (bounds : List Binary64) : (Geometry.numbers bounds).FitsWords := by
    refine Json.elementsFit_of_forall fun value mem => ?_
    obtain ⟨x, _, rfl⟩ := List.mem_map.1 mem
    trivial
  rw [forall_mem_members]
  exact ⟨⟨trivial, trivial, trivial, trivial, restorable.geometry.fitsWords⟩,
    fun bounds _ => numbers bounds, restorable.properties.fitsWords, links,
    restorable.assets.fitsWords⟩

/-- The integers in an object of the members of an item that was read fit words. -/
theorem fitsWords_of_perm (restorable : item.Restorable) {members : List (String × Json)}
    (order : members.Perm item.members) : (Json.obj members).FitsWords :=
  Json.membersFit_of_forall fun entry mem =>
    fitsWords_members restorable entry (order.mem_iff.1 mem)

/-- An item that was read is read back from each of its texts. -/
theorem text_of_writtenAs (restorable : item.Restorable) {text : String}
    (written : item.WrittenAs text) : (decoder 0).text text = .ok item := by
  obtain ⟨members, order, rfl⟩ := written
  exact Json.Decoder.text_render (fitsWords_of_perm restorable order)
    (decoder_ofJson restorable order)

/-- A text of an item that was read has no line break and starts with a brace. -/
theorem plain_of_writtenAs (restorable : item.Restorable) {text : String}
    (written : item.WrittenAs text) :
    '\n' ∉ text.toList ∧ text.toList.head? = some '\x7b' := by
  obtain ⟨members, order, rfl⟩ := written
  have chars : (Json.obj members).render.toList = (Json.obj members).chars := String.toList_ofList
  rw [chars]
  exact ⟨(Json.printable_chars (fitsWords_of_perm restorable order)).notMem_newline,
    Json.head?_chars_obj members⟩

end Item

end CatalogSearch
