import CatalogSearch.Catalog
import CatalogSearch.Proofs.Json.Object

/-!
# Navigation links of collections

A collection leaves the catalog with links to itself, to the catalog and to its items. They take the
place of all links that had one of these relations; any other entry of its links, of whatever shape,
stays as it is, and so does the rest of the record. What the links were before makes no difference
to the new ones.

* `links_withLinks` : the links of a collection that leaves the catalog;
* `withLinks_withLinks` : only the last base counts;
* `navigation_regenerated` : what is kept, what is new, and that nothing else changes.
-/

namespace CatalogSearch

/-! ## Relations -/

/-- The relation that a link has. What is no object with a text for it has none. -/
def Json.rel? : Json → Option String
  | .obj members => match members.lookup "rel" with
    | some (.str rel) => some rel
    | _ => none
  | _ => none

/-- The relations of the links that every collection gets. -/
def navigationRels : List String :=
  ["self", "parent", "root", "items"]

/-- A link gives way if it has one of these relations. -/
theorem isGeneratedLink_iff {link : Json} :
    isGeneratedLink link = true ↔ ∃ rel ∈ navigationRels, link.rel? = some rel := by
  have matched : isGeneratedLink link = link.rel?.any navigationRels.contains := by
    cases link with
    | obj members =>
      rw [isGeneratedLink, Json.get?, Json.rel?]
      cases members.lookup "rel" with
      | none => rfl
      | some value => cases value <;> rfl
    | _ => rfl
  rw [matched, Option.any_eq_true]
  simp only [List.contains_iff_mem]
  exact exists_congr fun rel => and_comm

/-! ## The links that every collection gets -/

/-- A link that is followed as it is, in the form in which it is written. -/
def navigationLink (rel mediaType href : String) : Json :=
  .obj [("href", .str href), ("method", .str "GET"), ("rel", .str rel), ("type", .str mediaType)]

/-- The members of a link that is followed as it is, in their order. -/
theorem object_members_nav (rel : LinkRel) (mediaType href : String) :
    Json.object (Link.nav rel mediaType href none).members
      = navigationLink rel.name mediaType href := by
  simp only [Json.object, Json.sortMembers, Link.members, Link.nav, Json.optional, insertEntry,
    navigationLink, LinkMethod.name, Option.map_none, List.append_nil, List.foldl_cons,
    List.foldl_nil, Bool.false_eq_true, if_false, if_true, String.reduceLT, String.reduceEq]

/-- The relation of a link that is followed as it is. -/
@[simp] theorem rel?_navigationLink (rel mediaType href : String) :
    (navigationLink rel mediaType href).rel? = some rel :=
  rfl

/-- The links of a collection to itself, to the catalog, and to its items. -/
def navigationLinks (base id : String) : List Json :=
  [ navigationLink "self" jsonType (collectionHref base id),
    navigationLink "parent" jsonType (base ++ "/"),
    navigationLink "root" jsonType (base ++ "/"),
    navigationLink "items" geoJsonType (collectionHref base id ++ "/items") ]

/-! ## Links that stay -/

/-- The links that do not have one of the relations of navigation. -/
def foreignLinks (links : List Json) : List Json :=
  links.filter fun link => ∀ rel ∈ navigationRels, link.rel? ≠ some rel

/-- Behind the links of other relations stand those that every collection gets. -/
theorem links_withLinks (base : String) (c : Collection) :
    (withLinks base c).links = foreignLinks c.links ++ navigationLinks base c.id := by
  have stays : (fun link => !isGeneratedLink link)
      = fun link => decide (∀ rel ∈ navigationRels, link.rel? ≠ some rel) := by
    funext link
    rw [Bool.eq_iff_iff, Bool.not_eq_true', ← Bool.not_eq_true, isGeneratedLink_iff,
      decide_eq_true_eq]
    simp only [not_exists, not_and, ne_eq]
  have generated : (collectionLinks base c.id).map (fun link => Json.object link.members)
      = navigationLinks base c.id := by
    simp [collectionLinks, navigationLinks, object_members_nav, LinkRel.name]
  show c.links.filter (fun link => !isGeneratedLink link) ++ _ = _
  rw [stays, generated, foreignLinks]

/-- A collection that leaves the catalog is the one that was there, but for its links. -/
theorem withLinks_eq (base : String) (c : Collection) :
    withLinks base c = { c with links := foreignLinks c.links ++ navigationLinks base c.id } := by
  rw [← links_withLinks]
  rfl

/-- The links of other relations are those that were there. -/
theorem foreignLinks_withLinks (base : String) (c : Collection) :
    foreignLinks (withLinks base c).links = foreignLinks c.links := by
  have again : foreignLinks (foreignLinks c.links) = foreignLinks c.links := by
    simp only [foreignLinks, List.filter_filter, Bool.and_self]
  have own : foreignLinks (navigationLinks base c.id) = [] := by
    simp [foreignLinks, navigationLinks, navigationRels]
  calc foreignLinks (withLinks base c).links
      = foreignLinks (foreignLinks c.links) ++ foreignLinks (navigationLinks base c.id) := by
        rw [links_withLinks, foreignLinks, List.filter_append]
        rfl
    _ = foreignLinks c.links := by rw [again, own, List.append_nil]

/-- Of the links that a collection got at several bases those of the last one count. -/
theorem withLinks_withLinks (base other : String) (c : Collection) :
    withLinks base (withLinks other c) = withLinks base c := by
  rw [withLinks_eq base (withLinks other c), foreignLinks_withLinks, withLinks_eq base c]
  rfl

/-- A collection that leaves the catalog has one link of each relation of navigation. -/
theorem countP_rel_withLinks (base : String) (c : Collection) {rel : String}
    (navigation : rel ∈ navigationRels) :
    (withLinks base c).links.countP (·.rel? = some rel) = 1 := by
  have foreign : (foreignLinks c.links).countP (·.rel? = some rel) = 0 := by
    refine List.countP_eq_zero.2 fun link mem => ?_
    have others := of_decide_eq_true (List.mem_filter.1 mem).2
    rw [decide_eq_true_eq]
    exact others rel navigation
  have own : (navigationLinks base c.id).countP (·.rel? = some rel) = 1 := by
    simp only [navigationRels, List.mem_cons, List.not_mem_nil, or_false] at navigation
    rcases navigation with rfl | rfl | rfl | rfl <;> simp [navigationLinks]
  rw [links_withLinks, List.countP_append, foreign, own]

/-- No other member of the record that leaves the catalog is changed. -/
theorem get?_toJson_withLinks (base : String) (c : Collection) {name : String}
    (other : name ≠ "links") : (withLinks base c).toJson.get? name = c.toJson.get? name := by
  rw [withLinks_eq, Collection.toJson, Collection.toJson, Json.get?_object, Json.get?_object]
  simp only [List.reverse_append, List.reverse_cons, List.reverse_nil, List.lookup_append,
    lookup_cons, if_neg other, List.nil_append, List.cons_append]

/--
A collection that leaves the catalog has all members but its links as they were. Its links are those
of other relations than the four of navigation, whatever else they are, in their order and as they
were, and behind them one of each of the four, made for this base. It has no other links of these
four, and giving it its links once more, at this base or at another one, is giving them to the
collection as it was.
-/
theorem navigation_regenerated (base : String) (c : Collection) :
    withLinks base c = { c with links := (withLinks base c).links }
    ∧ (∀ name, name ≠ "links" → (withLinks base c).toJson.get? name = c.toJson.get? name)
    ∧ (withLinks base c).links
        = c.links.filter (fun link => ∀ rel ∈ navigationRels, link.rel? ≠ some rel)
          ++ [navigationLink "self" jsonType (collectionHref base c.id),
              navigationLink "parent" jsonType (base ++ "/"),
              navigationLink "root" jsonType (base ++ "/"),
              navigationLink "items" geoJsonType (collectionHref base c.id ++ "/items")]
    ∧ (∀ rel ∈ navigationRels, (withLinks base c).links.countP (·.rel? = some rel) = 1)
    ∧ withLinks base (withLinks base c) = withLinks base c
    ∧ ∀ other, withLinks other (withLinks base c) = withLinks other c :=
  ⟨rfl, fun _ other => get?_toJson_withLinks base c other, links_withLinks base c,
    fun _ navigation => countP_rel_withLinks base c navigation, withLinks_withLinks base base c,
    fun other => withLinks_withLinks other base c⟩

/-! ## Links of any shape -/

namespace Sample

/-- A stale link, and entries that only look like links of navigation. -/
def oddLinks : List Json :=
  [ navigationLink "self" jsonType "http://old/collections/x", .arr [.str "self"], .str "items",
    .obj [("rel", .int 1)], .obj [("href", .str "http://old")],
    .obj [("rel", .str "license")], .obj [("rel", .str "items"), ("title", .null)],
    navigationLink "self" jsonType "http://older/collections/x" ]

/-- The stale links give way to one of each relation; everything else stays where it was. -/
theorem regenerated_of_oddLinks :
    (withLinks "http://host" { Collection.bare "x y" with links := oddLinks }).links
        = [.arr [.str "self"], .str "items", .obj [("rel", .int 1)],
            .obj [("href", .str "http://old")], .obj [("rel", .str "license")],
            navigationLink "self" jsonType "http://host/collections/x%20y",
            navigationLink "parent" jsonType "http://host/",
            navigationLink "root" jsonType "http://host/",
            navigationLink "items" geoJsonType "http://host/collections/x%20y/items"]
      ∧ (withLinks "http://host" { Collection.bare "x y" with links := oddLinks }).links.countP
        (·.rel? = some "items") = 1
      ∧ (withLinks "http://host" { Collection.bare "x y" with links := oddLinks }).toJson.get? "id"
        = some (.str "x y") := by
  obtain ⟨_, members, links, once, _⟩ :=
    navigation_regenerated "http://host" { Collection.bare "x y" with links := oddLinks }
  refine ⟨?_, once "items" (by decide), ?_⟩
  · rw [links]
    rfl
  · rw [members "id" (by decide)]
    rfl

end Sample

end CatalogSearch
