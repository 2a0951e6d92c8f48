import CatalogSearch.Proofs.Outcome
import CatalogSearch.Proofs.Query.Comparison
import CatalogSearch.Query.Filter

/-!
# What property filters compile to

A property filter is a list of constraints, in order of the names of their fields and then of their
operators. Each of them becomes one comparison, unless something in the filter is wrong: a name that
no field has, a name that no operator has, or an operand that does not fit the type of its field.
The first thing that is wrong is what the filter is refused for.

* `QueryFilter.Offends`, `QueryFilter.FirstOffence` : what is wrong with a filter, and what first;
* `compileQuery_eq_error_iff` : a filter is refused for the first thing that is wrong with it;
* `compileQuery_accepts_or_blames` : when a filter compiles, to what, and what happens otherwise.
-/

namespace CatalogSearch

/-! ## Computations on the entries of maps -/

/-- Going through a map fails with the error of the least name at which it fails. -/
theorem SortedMap.mapM_entries_eq_error_iff {ε α β : Type} {m : SortedMap α}
    {f : String × α → Except ε β} {e : ε} :
    m.entries.mapM f = .error e ↔ ∃ entry ∈ m.entries, f entry = .error e
      ∧ ∀ other ∈ m.entries, other.1 < entry.1 → ∃ b, f other = .ok b := by
  rw [mapM_eq_error_iff]
  constructor
  · rintro ⟨before, entry, after, split, passed, failed⟩
    have sorted := m.sorted
    rw [split] at sorted ⊢
    refine ⟨entry, by simp, failed, fun other mem lt => ?_⟩
    rcases List.mem_append.1 mem with earlier | mem
    · exact passed other earlier
    · -- Neither the entry itself nor one behind it has a lesser name.
      exfalso
      rcases List.mem_cons.1 mem with rfl | later
      · exact String.lt_irrefl _ lt
      · have behind := (List.pairwise_append.1 sorted).2.1
        exact String.lt_asymm lt ((List.pairwise_cons.1 behind).1 other later)
  · rintro ⟨entry, mem, failed, passed⟩
    obtain ⟨before, after, split⟩ := List.append_of_mem mem
    refine ⟨before, entry, after, split, fun other earlier => ?_, failed⟩
    have sorted := m.sorted
    rw [split] at sorted passed
    have lt := (List.pairwise_append.1 sorted).2.2 other earlier entry List.mem_cons_self
    exact passed other (List.mem_append_left _ earlier) lt

/-- The entries of a map are the same if they have the same name. -/
theorem SortedMap.eq_of_mem_entries {α : Type} {m : SortedMap α} {name : String} {a b : α}
    (ha : (name, a) ∈ m.entries) (hb : (name, b) ∈ m.entries) : a = b :=
  Option.some.inj ((get?_eq_some_iff.2 ha).symm.trans (get?_eq_some_iff.2 hb))

/-! ## Constraints -/

namespace QueryFilter

/-- An operand with the names of an operator and of a field, as they are written. -/
structure Constraint where
  field : String
  operator : String
  operand : Json

/-- The constraints of a filter, by the names of fields and then of operators. -/
def constraints (query : QueryFilter) : List Constraint :=
  query.entries.flatMap fun (name, operands) =>
    operands.entries.map fun (operator, operand) => ⟨name, operator, operand⟩

/-- The constraints of a filter are its operands with their names. -/
theorem mem_constraints_iff {query : QueryFilter} {c : Constraint} :
    c ∈ query.constraints ↔ ∃ operands, (c.field, operands) ∈ query.entries
      ∧ (c.operator, c.operand) ∈ operands.entries := by
  simp only [constraints, List.mem_flatMap, List.mem_map]
  constructor
  · rintro ⟨⟨name, operands⟩, mem, ⟨operator, operand⟩, mem', rfl⟩
    exact ⟨operands, mem, mem'⟩
  · rintro ⟨operands, mem, mem'⟩
    exact ⟨_, mem, _, mem', rfl⟩

/-- A comparison is of the field and the operator that a constraint names, with its operand. -/
structure Constraint.ReadsAs (registry : FieldRegistry) (c : Constraint) (comparison : Comparison) :
    Prop where
  field : registry.resolve? c.field = some comparison.field
  operator : comparison.operator.name = c.operator
  operand : FieldValue.ofJson? comparison.field.type c.operand = some comparison.value

/-- Nothing is wrong with a filter. -/
structure Valid (registry : FieldRegistry) (query : QueryFilter) : Prop where
  fields : ∀ entry ∈ query.entries, ∃ field, registry.resolve? entry.1 = some field
  operators : ∀ c ∈ query.constraints, ∃ operator : Operator, operator.name = c.operator
  operands : ∀ c ∈ query.constraints, ∀ field, registry.resolve? c.field = some field →
    ∃ value, FieldValue.ofJson? field.type c.operand = some value

/-! ## Offences -/

/--
Something is wrong at a place of a filter: at the name of a field, or at that of an operator below
it. The error says what.
-/
inductive Offends (registry : FieldRegistry) (query : QueryFilter) :
    String → Option String → SearchError → Prop
  | unknownField {name : String} {operands : SortedMap Json}
      (mem : (name, operands) ∈ query.entries) (unknown : registry.resolve? name = none) :
      Offends registry query name none (.unknownField name)
  | unsupportedOperator {c : Constraint} {field : Field} (mem : c ∈ query.constraints)
      (found : registry.resolve? c.field = some field)
      (unknown : ∀ operator : Operator, operator.name ≠ c.operator) :
      Offends registry query c.field (some c.operator) (.unsupportedOperator c.field c.operator)
  | typeMismatch {c : Constraint} {field : Field} {operator : Operator}
      (mem : c ∈ query.constraints) (found : registry.resolve? c.field = some field)
      (known : operator.name = c.operator)
      (misfit : FieldValue.ofJson? field.type c.operand = none) :
      Offends registry query c.field (some c.operator)
        (.typeMismatch c.field field.type c.operand)

/--
One place comes before another: the names of fields are in their order, the name of a field comes
before those of its operators, and these are in their order.
-/
inductive Precedes : String → Option String → String → Option String → Prop
  | field {name other : String} {operator operator' : Option String} (lt : name < other) :
      Precedes name operator other operator'
  | inside {name operator : String} : Precedes name none name (some operator)
  | operator {name operator operator' : String} (lt : operator < operator') :
      Precedes name (some operator) name (some operator')

/-- An error says what is wrong at a place before which nothing is wrong. -/
def FirstOffence (registry : FieldRegistry) (query : QueryFilter) (e : SearchError) : Prop :=
  ∃ name operator, query.Offends registry name operator e
    ∧ ∀ name' operator' e', query.Offends registry name' operator' e' →
      ¬ Precedes name' operator' name operator

/-- What is wrong with a filter is so at the name of a field or below. -/
theorem Offends.exists_mem {registry : FieldRegistry} {query : QueryFilter} {name : String}
    {operator : Option String} {e : SearchError} (h : query.Offends registry name operator e) :
    ∃ operands, (name, operands) ∈ query.entries := by
  cases h with
  | unknownField mem _ => exact ⟨_, mem⟩
  | unsupportedOperator mem _ _ => exact (mem_constraints_iff.1 mem).imp fun _ parts => parts.1
  | typeMismatch mem _ _ _ => exact (mem_constraints_iff.1 mem).imp fun _ parts => parts.1

end QueryFilter

/-! ## Compiling -/

section Compiling

open QueryFilter

variable {registry : FieldRegistry} {query : QueryFilter} {comparisons : List Comparison}

/-! ### One operand -/

/-- An entry that compiles is read as its comparison. -/
theorem compileEntry_eq_ok_iff {name : String} {field : Field} {entry : String × Json}
    {comparison : Comparison} :
    compileEntry name field entry = .ok comparison
      ↔ comparison.field = field ∧ comparison.operator.name = entry.1
        ∧ FieldValue.ofJson? field.type entry.2 = some comparison.value := by
  rw [compileEntry, ← Operator.ofName?_eq_some_iff]
  cases Operator.ofName? entry.1 with
  | none => simp
  | some operator =>
    cases FieldValue.ofJson? field.type entry.2 with
    | none => simp
    | some value =>
      obtain ⟨field', operator', value'⟩ := comparison
      simp [eq_comm]

/-- An entry is refused for its operator, or else for its operand. -/
theorem compileEntry_eq_error_iff {name : String} {field : Field} {entry : String × Json}
    {e : SearchError} :
    compileEntry name field entry = .error e
      ↔ ((∀ operator : Operator, operator.name ≠ entry.1) ∧ e = .unsupportedOperator name entry.1)
        ∨ (∃ operator : Operator, operator.name = entry.1)
          ∧ FieldValue.ofJson? field.type entry.2 = none
          ∧ e = .typeMismatch name field.type entry.2 := by
  simp only [compileEntry, ← Operator.ofName?_eq_some_iff, ← Operator.ofName?_eq_none_iff]
  cases Operator.ofName? entry.1 with
  | none => simp [eq_comm]
  | some operator =>
    cases FieldValue.ofJson? field.type entry.2 with
    | none => simp [eq_comm]
    | some value => simp

/-- What is wrong at an operator is what its entry is refused for. -/
theorem offends_operator_iff {name operator : String} {e : SearchError} :
    query.Offends registry name (some operator) e
      ↔ ∃ operands operand field, (name, operands) ∈ query.entries
        ∧ (operator, operand) ∈ operands.entries ∧ registry.resolve? name = some field
        ∧ compileEntry name field (operator, operand) = .error e := by
  constructor
  · intro offends
    cases offends with
    | unsupportedOperator mem found unknown =>
      obtain ⟨operands, hfield, hoperand⟩ := mem_constraints_iff.1 mem
      exact ⟨operands, _, _, hfield, hoperand, found,
        compileEntry_eq_error_iff.2 (Or.inl ⟨unknown, rfl⟩)⟩
    | typeMismatch mem found known misfit =>
      obtain ⟨operands, hfield, hoperand⟩ := mem_constraints_iff.1 mem
      exact ⟨operands, _, _, hfield, hoperand, found,
        compileEntry_eq_error_iff.2 (Or.inr ⟨⟨_, known⟩, misfit, rfl⟩)⟩
  · rintro ⟨operands, operand, field, hfield, hoperand, found, refused⟩
    have mem : ⟨name, operator, operand⟩ ∈ query.constraints :=
      mem_constraints_iff.2 ⟨operands, hfield, hoperand⟩
    rcases compileEntry_eq_error_iff.1 refused with ⟨unknown, rfl⟩ | ⟨⟨_, known⟩, misfit, rfl⟩
    · exact .unsupportedOperator mem found unknown
    · exact .typeMismatch mem found known misfit

/-! ### One field -/

/-- The entries for a field are refused for its name, or else for the least operator that is. -/
theorem compileField_eq_error_iff {name : String} {operands : SortedMap Json} {e : SearchError} :
    compileField registry (name, operands) = .error e
      ↔ (registry.resolve? name = none ∧ e = .unknownField name)
        ∨ ∃ field, registry.resolve? name = some field
          ∧ ∃ entry ∈ operands.entries, compileEntry name field entry = .error e
            ∧ ∀ other ∈ operands.entries, other.1 < entry.1 →
              ∃ comparison, compileEntry name field other = .ok comparison := by
  rw [compileField]
  cases registry.resolve? name with
  | none =>
    constructor
    · intro failed
      exact Or.inl ⟨rfl, (Except.error.inj failed).symm⟩
    · rintro (⟨_, rfl⟩ | ⟨_, found, _⟩)
      · rfl
      · cases found
  | some field =>
    constructor
    · intro failed
      exact Or.inr ⟨field, rfl, SortedMap.mapM_entries_eq_error_iff.1 failed⟩
    · rintro (⟨unknown, _⟩ | ⟨_, ⟨⟩, failed⟩)
      · cases unknown
      · exact SortedMap.mapM_entries_eq_error_iff.2 failed

/-- The entries for a field that compile have a field that is registered. -/
theorem exists_of_compileField {entry : String × SortedMap Json}
    (h : compileField registry entry = .ok comparisons) :
    ∃ field, registry.resolve? entry.1 = some field
      ∧ entry.2.entries.mapM (compileEntry entry.1 field) = .ok comparisons := by
  rw [compileField] at h
  split at h
  · cases h
  · next field found => exact ⟨field, found, h⟩

/-- The entries for a field compile exactly if nothing is wrong at its name or below. -/
theorem exists_compileField_eq_ok_iff {name : String} {operands : SortedMap Json}
    (mem : (name, operands) ∈ query.entries) :
    (∃ row, compileField registry (name, operands) = .ok row)
      ↔ ∀ operator e, ¬ query.Offends registry name operator e := by
  constructor
  · rintro ⟨row, compiled⟩ operator e offends
    obtain ⟨field, found, compiledRow⟩ := exists_of_compileField compiled
    cases operator with
    | none =>
      cases offends with
      | unknownField _ unknown => cases unknown.symm.trans found
    | some operator =>
      obtain ⟨operands', operand, field', mem', hoperand, found', refused⟩ :=
        offends_operator_iff.1 offends
      cases SortedMap.eq_of_mem_entries mem mem'
      cases found.symm.trans found'
      obtain ⟨_, _, compiledEntry⟩ := exists_of_mapM_eq_ok compiledRow hoperand
      cases compiledEntry.symm.trans refused
  · intro faultless
    cases failed : compileField registry (name, operands) with
    | ok row => exact ⟨row, rfl⟩
    | error e =>
      exfalso
      rcases compileField_eq_error_iff.1 failed with
        ⟨unknown, rfl⟩ | ⟨field, found, ⟨operator, operand⟩, hoperand, refused, _⟩
      · exact faultless _ _ (.unknownField mem unknown)
      · exact faultless _ _
          (offends_operator_iff.2 ⟨operands, operand, field, mem, hoperand, found, refused⟩)

/-- An entry for a registered field compiles exactly if nothing is wrong at its operator. -/
theorem exists_compileEntry_eq_ok_iff {name operator : String} {operands : SortedMap Json}
    {operand : Json} {field : Field} (mem : (name, operands) ∈ query.entries)
    (hoperand : (operator, operand) ∈ operands.entries)
    (found : registry.resolve? name = some field) :
    (∃ comparison, compileEntry name field (operator, operand) = .ok comparison)
      ↔ ∀ e, ¬ query.Offends registry name (some operator) e := by
  constructor
  · rintro ⟨comparison, compiled⟩ e offends
    obtain ⟨operands', operand', field', mem', hoperand', found', refused⟩ :=
      offends_operator_iff.1 offends
    cases SortedMap.eq_of_mem_entries mem mem'
    cases SortedMap.eq_of_mem_entries hoperand hoperand'
    cases found.symm.trans found'
    cases compiled.symm.trans refused
  · intro faultless
    cases failed : compileEntry name field (operator, operand) with
    | ok comparison => exact ⟨comparison, rfl⟩
    | error e =>
      exact absurd
        (offends_operator_iff.2 ⟨operands, operand, field, mem, hoperand, found, failed⟩)
        (faultless e)

/-! ### The whole -/

/-- A filter is refused for the first thing that is wrong with it. -/
theorem compileQuery_eq_error_iff {e : SearchError} :
    compileQuery registry query = .error e ↔ query.FirstOffence registry e := by
  rw [compileQuery, map_eq_error_iff, SortedMap.mapM_entries_eq_error_iff]
  constructor
  · rintro ⟨⟨name, operands⟩, mem, failed, passed⟩
    -- Fields with lesser names are faultless, as they compile.
    have earlier : ∀ name' operator' e', query.Offends registry name' operator' e' →
        ¬ name' < name := by
      intro name' operator' e' offends lt
      obtain ⟨operands', mem'⟩ := offends.exists_mem
      exact (exists_compileField_eq_ok_iff mem').1 (passed _ mem' lt) _ _ offends
    rcases compileField_eq_error_iff.1 failed with
      ⟨unknown, rfl⟩ | ⟨field, found, ⟨operator, operand⟩, hoperand, refused, passed⟩
    · refine ⟨name, none, .unknownField mem unknown, fun name' operator' e' offends precedes => ?_⟩
      cases precedes with
      | field lt => exact earlier _ _ _ offends lt
    · have offence : query.Offends registry name (some operator) e :=
        offends_operator_iff.2 ⟨operands, operand, field, mem, hoperand, found, refused⟩
      refine ⟨name, some operator, offence, fun name' operator' e' offends precedes => ?_⟩
      cases precedes with
      | field lt => exact earlier _ _ _ offends lt
      | inside =>
        cases offends with
        | unknownField _ unknown => cases unknown.symm.trans found
      | operator lt =>
        obtain ⟨operands', operand', _, mem', hoperand', _⟩ := offends_operator_iff.1 offends
        cases SortedMap.eq_of_mem_entries mem mem'
        exact (exists_compileEntry_eq_ok_iff mem hoperand' found).1 (passed _ hoperand' lt) _
          offends
  · rintro ⟨name, operator, offends, first⟩
    obtain ⟨operands, mem⟩ := offends.exists_mem
    refine ⟨(name, operands), mem, compileField_eq_error_iff.2 ?_, fun other mem' lt => ?_⟩
    · cases operator with
      | none =>
        cases offends with
        | unknownField _ unknown => exact Or.inl ⟨unknown, rfl⟩
      | some operator =>
        obtain ⟨operands', operand, field, mem', hoperand, found, refused⟩ :=
          offends_operator_iff.1 offends
        cases SortedMap.eq_of_mem_entries mem mem'
        refine Or.inr ⟨field, found, _, hoperand, refused, fun other mem'' lt => ?_⟩
        exact (exists_compileEntry_eq_ok_iff mem mem'' found).2 fun e' offends' =>
          first _ _ _ offends' (.operator lt)
    · exact (exists_compileField_eq_ok_iff mem').2 fun operator' e' offends' =>
        first _ _ _ offends' (.field lt)

/-- A filter that compiles is read constraint by constraint. -/
theorem forall₂_readsAs_of_compileQuery (h : compileQuery registry query = .ok comparisons) :
    List.Forall₂ (Constraint.ReadsAs registry) query.constraints comparisons := by
  obtain ⟨rows, compiled, rfl⟩ := exists_of_map_eq_ok h
  refine List.rel_flatten (List.forall₂_map_left_iff.2 ?_)
  refine (mapM_eq_ok_iff.1 compiled).imp fun ⟨name, operands⟩ row compiledField => ?_
  obtain ⟨field, found, compiledRow⟩ := exists_of_compileField compiledField
  refine List.forall₂_map_left_iff.2 ((mapM_eq_ok_iff.1 compiledRow).imp ?_)
  intro ⟨operator, operand⟩ comparison compiledEntry
  obtain ⟨rfl, known, fits⟩ := compileEntry_eq_ok_iff.1 compiledEntry
  exact ⟨found, known, fits⟩

/-- A constraint reads as one comparison at most. -/
theorem QueryFilter.Constraint.ReadsAs.unique {c : Constraint} {a b : Comparison}
    (ha : c.ReadsAs registry a) (hb : c.ReadsAs registry b) : a = b := by
  obtain ⟨fieldA, operatorA, valueA⟩ := a
  obtain ⟨fieldB, operatorB, valueB⟩ := b
  cases ha.field.symm.trans hb.field
  cases Operator.name_injective (ha.operator.trans hb.operator.symm)
  cases ha.operand.symm.trans hb.operand
  rfl

/-- The comparisons are what the constraints read as. -/
theorem mem_iff_of_compileQuery (h : compileQuery registry query = .ok comparisons)
    {comparison : Comparison} :
    comparison ∈ comparisons ↔ ∃ c ∈ query.constraints, c.ReadsAs registry comparison := by
  have tied := forall₂_readsAs_of_compileQuery h
  constructor
  · exact fun mem => exists_mem_of_forall₂_right tied mem
  · rintro ⟨c, mem, reads⟩
    obtain ⟨other, hother, reads'⟩ := exists_mem_of_forall₂_left tied mem
    rw [reads.unique reads']
    exact hother

/-- Each entry of a query that compiles is one of the comparisons. -/
theorem exists_mem_of_compileQuery (h : compileQuery registry query = .ok comparisons)
    {name operatorName : String} {operands : SortedMap Json} {operand : Json}
    (mem : (name, operands) ∈ query.entries)
    (mem' : (operatorName, operand) ∈ operands.entries) :
    ∃ field operator expected, registry.resolve? name = some field
      ∧ Operator.ofName? operatorName = some operator
      ∧ FieldValue.ofJson? field.type operand = some expected
      ∧ ⟨field, operator, expected⟩ ∈ comparisons := by
  have constrained : ⟨name, operatorName, operand⟩ ∈ query.constraints :=
    mem_constraints_iff.2 ⟨operands, mem, mem'⟩
  obtain ⟨comparison, hcomparison, reads⟩ :=
    exists_mem_of_forall₂_left (forall₂_readsAs_of_compileQuery h) constrained
  exact ⟨_, _, _, reads.field, Operator.ofName?_eq_some_iff.2 reads.operator, reads.operand,
    hcomparison⟩

/-- Each comparison is one of the entries of the query. -/
theorem exists_entry_of_mem_compileQuery (h : compileQuery registry query = .ok comparisons)
    {comparison : Comparison} (mem : comparison ∈ comparisons) :
    ∃ name operands operatorName operand, (name, operands) ∈ query.entries
      ∧ (operatorName, operand) ∈ operands.entries
      ∧ registry.resolve? name = some comparison.field
      ∧ Operator.ofName? operatorName = some comparison.operator
      ∧ FieldValue.ofJson? comparison.field.type operand = some comparison.value := by
  obtain ⟨c, constrained, reads⟩ := (mem_iff_of_compileQuery h).1 mem
  obtain ⟨operands, hfield, hoperand⟩ := mem_constraints_iff.1 constrained
  exact ⟨_, operands, _, _, hfield, hoperand, reads.field,
    Operator.ofName?_eq_some_iff.2 reads.operator, reads.operand⟩

/-- Nothing is wrong with a filter that compiles. -/
theorem valid_of_compileQuery (h : compileQuery registry query = .ok comparisons) :
    query.Valid registry := by
  have tied := forall₂_readsAs_of_compileQuery h
  refine ⟨fun entry mem => ?_, fun c mem => ?_, fun c mem field found => ?_⟩
  · obtain ⟨rows, compiled, _⟩ := exists_of_map_eq_ok h
    obtain ⟨_, _, compiledField⟩ := exists_of_mapM_eq_ok compiled mem
    exact (exists_of_compileField compiledField).imp fun _ parts => parts.1
  · obtain ⟨comparison, _, reads⟩ := exists_mem_of_forall₂_left tied mem
    exact ⟨_, reads.operator⟩
  · obtain ⟨comparison, _, reads⟩ := exists_mem_of_forall₂_left tied mem
    cases found.symm.trans reads.field
    exact ⟨_, reads.operand⟩

/-- A filter with nothing wrong has no offence. -/
theorem QueryFilter.Valid.not_offends (valid : query.Valid registry) {name : String}
    {operator : Option String} {e : SearchError} : ¬ query.Offends registry name operator e := by
  intro offends
  cases offends with
  | unknownField mem unknown =>
    obtain ⟨field, found⟩ := valid.fields _ mem
    cases unknown.symm.trans found
  | unsupportedOperator mem _ unknown =>
    obtain ⟨operator, known⟩ := valid.operators _ mem
    exact unknown operator known
  | typeMismatch mem found _ misfit =>
    obtain ⟨value, fits⟩ := valid.operands _ mem _ found
    cases misfit.symm.trans fits

end Compiling

/--
A property filter compiles exactly if its fields and operators are known and its operands fit. Each
constraint then becomes one comparison, in order. Otherwise the error is that of the first offence,
by the names of fields as they are written and then by those of operators.
-/
theorem QueryFilter.compiles_or_first_offence (registry : FieldRegistry) (query : QueryFilter) :
    ((∃ comparisons, compileQuery registry query = .ok comparisons) ↔ query.Valid registry)
      ∧ (∀ comparisons, compileQuery registry query = .ok comparisons →
        List.Forall₂ (Constraint.ReadsAs registry) query.constraints comparisons)
      ∧ ∀ e, compileQuery registry query = .error e ↔ query.FirstOffence registry e := by
  refine ⟨⟨fun ⟨_, compiled⟩ => valid_of_compileQuery compiled, fun valid => ?_⟩,
    fun _ => forall₂_readsAs_of_compileQuery, fun _ => compileQuery_eq_error_iff⟩
  cases failed : compileQuery registry query with
  | ok comparisons => exact ⟨comparisons, rfl⟩
  | error e =>
    obtain ⟨_, _, offends, _⟩ := compileQuery_eq_error_iff.1 failed
    exact absurd offends valid.not_offends

/-! ## A filter with three faults -/

namespace Sample

/--
A filter that names one field by its name and by its path. Below the path the operator comes after
the operand that does not fit, and the name that no field has comes last.
-/
def threeFaults : QueryFilter :=
  .ofList
    [("unheard", .empty),
      ("properties.height", .ofList [("near", .int 3), ("ge", .int 2), ("le", .str "5")]),
      ("height", .ofList [("lt", .int 9)])]

/-- The filter is refused for the operand, which is the first of its faults. -/
theorem first_offence_of_threeFaults :
    threeFaults.FirstOffence .builtin (.typeMismatch "properties.height" .integer (.str "5"))
      ∧ ¬ threeFaults.Valid .builtin := by
  obtain ⟨accepts, _, refuses⟩ := QueryFilter.compiles_or_first_offence .builtin threeFaults
  have refused : compileQuery .builtin threeFaults
      = .error (.typeMismatch "properties.height" .integer (.str "5")) := rfl
  refine ⟨(refuses _).1 refused, fun valid => ?_⟩
  obtain ⟨comparisons, compiled⟩ := accepts.2 valid
  cases refused.symm.trans compiled

end Sample

end CatalogSearch
