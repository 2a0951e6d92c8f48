import CatalogSearch.Proofs.Paging.Cursor
import CatalogSearch.Proofs.Sort.Canonical

/-!
# Tokens of other orders

A token carries the fingerprint of its order and a value for each of its keys. Fingerprints are made
of canonical texts, so a token is kept out of all other orders as far as digests do not collide and
the names of one of both orders are separable.

* `Cursor.refused_in_other_order` : a token is refused in every other order.
-/

namespace CatalogSearch

namespace Cursor

/-- A token of one order that says a position in another has its fingerprint and number of keys. -/
theorem same_fingerprint_and_length_of_decode {item : Item} {order other : SortOrder}
    {direction : PageDirection} {cursor : Cursor}
    (h : decode (encode item order direction) other = .ok cursor) :
    order.fingerprint = other.fingerprint ∧ order.keys.length = other.keys.length := by
  have token := Token.decode_encode (tokenOf_isScalar item order direction)
  rw [← encode] at token
  rw [decode, token] at h
  split at h
  · replace h : (ofToken (tokenOf item order direction) other).mapError SearchError.invalidToken
        = .ok cursor := h
    rw [ofToken] at h
    split at h
    · cases h
    · next sameFingerprint =>
      split at h
      · cases h
      · next sameLength =>
        rw [tokenOf, List.length_map, SortOrder.keyValues, List.length_map] at sameLength
        exact ⟨not_not.1 sameFingerprint, not_not.1 sameLength⟩
  · cases h

/-- A token is refused where the fingerprint or the number of keys is another. -/
theorem refused_of_fingerprint_or_length {order other : SortOrder}
    (different : order.fingerprint = other.fingerprint →
      order.keys.length ≠ other.keys.length) (item : Item) (direction : PageDirection) :
    ∃ fault, decode (encode item order direction) other = .error (.invalidToken fault) := by
  refine (decode_eq_ok_or_invalidToken _ other).resolve_left fun ⟨cursor, read⟩ => ?_
  obtain ⟨fingerprint, length⟩ := same_fingerprint_and_length_of_decode read
  exact different fingerprint length

/--
Orders with separable names have different canonical texts. If the names of one of two orders are
separable and the digests of their texts do not collide, the tokens of each are refused in the
other.
-/
theorem refused_in_other_order {config : Config} {registry : FieldRegistry}
    (configured : config.registry = .ok registry) {order other : SortOrder}
    (resolved : SortOrder.Resolved registry order) (resolved' : SortOrder.Resolved registry other)
    (separable : ∀ key ∈ order.keys, SeparableName key.field.name.toList) :
    ((∀ key ∈ other.keys, SeparableName key.field.name.toList) →
        order.canonical = other.canonical → order = other)
      ∧ (order ≠ other →
        (order.fingerprint = other.fingerprint → order.canonical = other.canonical) →
        ∀ item direction,
          (∃ fault, decode (encode item order direction) other = .error (.invalidToken fault))
            ∧ ∃ fault, decode (encode item other direction) order
              = .error (.invalidToken fault)) := by
  have named := Config.registry_named configured
  refine ⟨resolved.canonical_injective named resolved' separable, ?_⟩
  intro different collisionFree item direction
  have lengths : order.fingerprint = other.fingerprint →
      order.keys.length ≠ other.keys.length := by
    intro fingerprint
    have shorter := (resolved.eq_or_length_lt named resolved' separable
      (collisionFree fingerprint)).resolve_left different
    exact Nat.ne_of_gt shorter
  exact ⟨refused_of_fingerprint_or_length lengths item direction,
    refused_of_fingerprint_or_length (fun same => (lengths same.symm).symm) item direction⟩

end Cursor

/-! ## Two orders of one text -/

namespace Sample

/-- A configuration with a field whose name holds the end of a key. -/
def barConfig : Config :=
  { Config.unset with queryables := [⟨"gsd:asc|width", none, .float⟩] }

/-- A key that goes up. -/
def upBy (name : String) (type : FieldType) : SortKey :=
  ⟨.property name type, .ascending⟩

/-- The order by two built-in fields. -/
def byGsdAndWidth : SortOrder :=
  ⟨[upBy "gsd" .float, upBy "width" .integer, SortOrder.idKey]⟩

/-- The order by the field whose name reads like those two keys. -/
def byBar : SortOrder :=
  ⟨[upBy "gsd:asc|width" .float, SortOrder.idKey]⟩

/-- The tokens of two orders of one text but different length are refused in each other. -/
theorem refused_in_other_order_of_bar :
    byGsdAndWidth.canonical = byBar.canonical
      ∧ (∀ key ∈ byGsdAndWidth.keys, SeparableName key.field.name.toList)
      ∧ (∃ fault, Cursor.decode (Cursor.encode leapItem byGsdAndWidth .forward) byBar
        = .error (.invalidToken fault))
      ∧ ∃ fault, Cursor.decode (Cursor.encode leapItem byBar .forward) byGsdAndWidth
        = .error (.invalidToken fault) := by
  obtain ⟨registry, configured, resolved, resolved'⟩ : ∃ registry,
      barConfig.registry = .ok registry
        ∧ resolveSort registry [⟨"gsd", .ascending⟩, ⟨"width", .ascending⟩] = .ok byGsdAndWidth
        ∧ resolveSort registry [⟨"gsd:asc|width", .ascending⟩] = .ok byBar := ⟨_, rfl, rfl, rfl⟩
  have same : byGsdAndWidth.canonical = byBar.canonical := by decide +kernel
  have separable : ∀ key ∈ byGsdAndWidth.keys, SeparableName key.field.name.toList := by
    decide +kernel
  have refused := Cursor.refused_in_other_order configured (.requested resolved)
    (.requested resolved') separable
  exact ⟨same, separable, refused.2 (by decide) (fun _ => same) leapItem .forward⟩

end Sample

end CatalogSearch
