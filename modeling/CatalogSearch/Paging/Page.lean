import CatalogSearch.Paging.Cursor

/-!
# Pages

A page is cut from rows that were scanned from a cursor, one more than the page may hold. The row
too many only shows that there is another page.
-/

namespace CatalogSearch

/-- A page of items and the tokens of its neighbours. -/
structure Page where
  items : List Item
  next : Option String
  previous : Option String

/--
Cuts a page of `limit` items from the rows of a scan. A page that was reached by a token has a
neighbour on the side it was reached from, and the row too many tells of the other side.
-/
def Page.ofRows (rows : List Item) (limit : Nat) (order : SortOrder) (cursor : Option Cursor) :
    Page :=
  let more := limit < rows.length
  let kept := rows.take limit
  let (items, hasNext, hasPrevious) := match cursor.map (·.direction) with
    | some .backward => (kept.reverse, true, decide more)
    | some .forward => (kept, decide more, true)
    | none => (kept, decide more, false)
  let next := if hasNext then items.getLast? else none
  let previous := if hasPrevious then items.head? else none
  { items
    next := next.map (Cursor.encode · order .forward)
    previous := previous.map (Cursor.encode · order .backward) }

end CatalogSearch
