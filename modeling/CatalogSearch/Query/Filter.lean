import CatalogSearch.Error
import CatalogSearch.Field.Registry
import CatalogSearch.Query.Predicate

/-!
# Property filters

A property filter gives, for fields by name, operators by name with their operands. Fields and
operators are taken in order of their names, so the comparisons do not depend on how the request
wrote them.
-/

namespace CatalogSearch

/-- Operands by operator name, by field name. -/
abbrev QueryFilter := SortedMap (SortedMap Json)

/-- The comparison of a field, which the request calls `name`, for one operator and operand. -/
def compileEntry (name : String) (field : Field) (entry : String × Json) :
    Except SearchError Comparison :=
  match Operator.ofName? entry.1 with
  | none => .error (.unsupportedOperator name entry.1)
  | some operator =>
    match FieldValue.ofJson? field.type entry.2 with
    | none => .error (.typeMismatch name field.type entry.2)
    | some value => .ok ⟨field, operator, value⟩

/-- The comparisons for one field. -/
def compileField (registry : FieldRegistry) (entry : String × SortedMap Json) :
    Except SearchError (List Comparison) :=
  match registry.resolve? entry.1 with
  | none => .error (.unknownField entry.1)
  | some field => entry.2.entries.mapM (compileEntry entry.1 field)

/-- The comparisons for a filter, or the error of its first bad entry. -/
def compileQuery (registry : FieldRegistry) (query : QueryFilter) :
    Except SearchError (List Comparison) :=
  (query.entries.mapM (compileField registry)).map List.flatten

end CatalogSearch
