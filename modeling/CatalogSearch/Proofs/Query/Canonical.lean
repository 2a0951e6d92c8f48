import CatalogSearch.Proofs.Query.Compile
import Mathlib.Data.List.Pairwise

/-!
# The order of comparisons

A property filter is compiled in the order in which it is written: by the names of fields, be they
logical names or paths, and then by operators. So the comparisons are in order of their own fields
only as far as the names that are written are in that order, as logical names are. Filters that
state the same constraints compile to the same comparisons, in the same order exactly if they name
the fields in the same order.

* `QueryFilter.pairwise_constraints` : constraints are in order as they are written;
* `canonical_iff_keepsOrder` : when the comparisons are in order of their fields;
* `compileQuery_in_written_order` : that, and what filters with the same constraints compile to.
-/

namespace CatalogSearch

/-! ## Order -/

/-- Comparisons are in order of the names of their fields, and then of their operators. -/
def Comparison.Canonical (comparisons : List Comparison) : Prop :=
  comparisons.Pairwise fun a b => a.field.name < b.field.name
    ∨ a.field.name = b.field.name ∧ a.operator.name ≤ b.operator.name

namespace QueryFilter

/-- A constraint is written before another one. -/
def Constraint.Before (c d : Constraint) : Prop :=
  c.field < d.field ∨ c.field = d.field ∧ c.operator < d.operator

/-- The constraints of a filter are in order as they are written. -/
theorem pairwise_constraints (query : QueryFilter) :
    query.constraints.Pairwise Constraint.Before := by
  refine List.pairwise_flatMap.2 ⟨fun entry _ => ?_, query.sorted.imp fun {a b} lt => ?_⟩
  · exact List.pairwise_map.2 (entry.2.sorted.imp fun lt => Or.inr ⟨rfl, lt⟩)
  · intro c hc d hd
    obtain ⟨_, _, rfl⟩ := List.mem_map.1 hc
    obtain ⟨_, _, rfl⟩ := List.mem_map.1 hd
    exact Or.inl lt

/-- The fields that constraints name are in order of their own names if the written names are. -/
def KeepsOrder (registry : FieldRegistry) (query : QueryFilter) : Prop :=
  ∀ c ∈ query.constraints, ∀ d ∈ query.constraints, c.field < d.field →
    ∀ f g, registry.resolve? c.field = some f → registry.resolve? d.field = some g →
      f.name < g.name ∨ f.name = g.name ∧ c.operator ≤ d.operator

/-- Every field is written by its own name. -/
def UsesNames (registry : FieldRegistry) (query : QueryFilter) : Prop :=
  ∀ c ∈ query.constraints, ∀ f, registry.resolve? c.field = some f → f.name = c.field

/-- Every field is written in one way. -/
def WritesOnce (registry : FieldRegistry) (query : QueryFilter) : Prop :=
  ∀ c ∈ query.constraints, ∀ d ∈ query.constraints,
    registry.resolve? c.field = registry.resolve? d.field → c.field = d.field

/-- A filter asks for an operand at an operator of a field, however the field is written. -/
def Asks (registry : FieldRegistry) (query : QueryFilter) (field : Field) (operator : String)
    (operand : Json) : Prop :=
  ∃ c ∈ query.constraints, registry.resolve? c.field = some field
    ∧ c.operator = operator ∧ c.operand = operand

/-- Two filters state the same constraints. -/
def SameConstraints (registry : FieldRegistry) (query other : QueryFilter) : Prop :=
  ∀ field operator operand,
    query.Asks registry field operator operand ↔ other.Asks registry field operator operand

/-- Fields that are written one before the other in a filter are so in the other filter. -/
def SameOrder (registry : FieldRegistry) (query other : QueryFilter) : Prop :=
  ∀ c ∈ query.constraints, ∀ d ∈ query.constraints, ∀ c' ∈ other.constraints,
    ∀ d' ∈ other.constraints, registry.resolve? c.field = registry.resolve? c'.field →
      registry.resolve? d.field = registry.resolve? d'.field → c.field < d.field →
        c'.field < d'.field

end QueryFilter

open QueryFilter

section

variable {registry : FieldRegistry} {query other : QueryFilter}
  {comparisons others : List Comparison}

/-- A row that is tied to another one entry by entry is in order if the other is. -/
theorem pairwise_of_forall₂ {α β : Type} {R : α → β → Prop} {P : α → α → Prop} {Q : β → β → Prop}
    {xs : List α} {ys : List β} (tied : List.Forall₂ R xs ys) (sorted : xs.Pairwise P)
    (keeps : ∀ x ∈ xs, ∀ x' ∈ xs, ∀ y y', P x x' → R x y → R x' y' → Q y y') : ys.Pairwise Q := by
  induction tied with
  | nil => exact .nil
  | @cons x y xs ys first others ih =>
    obtain ⟨below, sorted⟩ := List.pairwise_cons.1 sorted
    refine List.pairwise_cons.2 ⟨fun y' mem => ?_, ih sorted fun x hx x' hx' =>
      keeps x (List.mem_cons_of_mem _ hx) x' (List.mem_cons_of_mem _ hx')⟩
    obtain ⟨x', hx', related⟩ := exists_mem_of_forall₂_right others mem
    exact keeps x List.mem_cons_self x' (List.mem_cons_of_mem _ hx') y y' (below x' hx') first
      related

/-- What holds of entries in a row holds of two of which one has to be in front. -/
theorem rel_of_pairwise {α : Type} {P Q : α → α → Prop} {xs : List α}
    (asymm : ∀ x ∈ xs, ∀ y ∈ xs, P x y → ¬ P y x) (sorted : xs.Pairwise P) (all : xs.Pairwise Q)
    {x y : α} (hx : x ∈ xs) (hy : y ∈ xs) (before : P x y) : Q x y := by
  induction xs with
  | nil => cases hx
  | cons head xs ih =>
    obtain ⟨below, sorted⟩ := List.pairwise_cons.1 sorted
    obtain ⟨first, all⟩ := List.pairwise_cons.1 all
    rcases List.mem_cons.1 hx with rfl | tailX
    · rcases List.mem_cons.1 hy with rfl | tailY
      · exact absurd before (asymm _ hx _ hx before)
      · exact first y tailY
    · rcases List.mem_cons.1 hy with rfl | tailY
      · exact absurd (below x tailX) (asymm _ hx _ hy before)
      · refine ih (fun x hx y hy => ?_) sorted all tailX tailY
        exact asymm x (List.mem_cons_of_mem _ hx) y (List.mem_cons_of_mem _ hy)

/-! ## Order of fields -/

/-- No constraint is written before another one and behind it. -/
theorem QueryFilter.Constraint.Before.asymm {c d : Constraint} (h : c.Before d) : ¬ d.Before c := by
  rintro (back | ⟨same', back⟩) <;> rcases h with lt | ⟨same, lt⟩
  · exact String.lt_asymm lt back
  · exact String.lt_irrefl _ (same ▸ back)
  · exact String.lt_irrefl _ (same' ▸ lt)
  · exact String.lt_asymm lt back

/-- The comparisons are in order of their fields exactly if the fields are written in that order. -/
theorem canonical_iff_keepsOrder (h : compileQuery registry query = .ok comparisons) :
    Comparison.Canonical comparisons ↔ query.KeepsOrder registry := by
  have tied := forall₂_readsAs_of_compileQuery h
  constructor
  · intro canonical c hc d hd lt f g found found'
    obtain ⟨a, _, readsA⟩ := exists_mem_of_forall₂_left tied hc
    obtain ⟨b, _, readsB⟩ := exists_mem_of_forall₂_left tied hd
    have ordered : query.constraints.Pairwise fun c d => ∀ a b, c.ReadsAs registry a →
        d.ReadsAs registry b → a.field.name < b.field.name
          ∨ a.field.name = b.field.name ∧ a.operator.name ≤ b.operator.name := by
      refine pairwise_of_forall₂ (R := fun a c => c.ReadsAs registry a) tied.flip canonical ?_
      intro a _ b _ c d inOrder readsA readsB a' b' readsA' readsB'
      rwa [← readsA.unique readsA', ← readsB.unique readsB']
    have inOrder := rel_of_pairwise (fun _ _ _ _ => Constraint.Before.asymm)
      query.pairwise_constraints ordered hc hd (Or.inl lt) a b readsA readsB
    cases found.symm.trans readsA.field
    cases found'.symm.trans readsB.field
    rwa [readsA.operator, readsB.operator] at inOrder
  · intro keeps
    refine pairwise_of_forall₂ tied query.pairwise_constraints ?_
    intro c hc d hd a b before readsA readsB
    rw [readsA.operator, readsB.operator]
    rcases before with lt | ⟨same, lt⟩
    · exact keeps c hc d hd lt _ _ readsA.field readsB.field
    · have found := readsA.field
      rw [same] at found
      have sameField := Option.some.inj (found.symm.trans readsB.field)
      exact Or.inr ⟨congrArg Field.name sameField, String.not_lt.1 (String.lt_asymm lt)⟩

/-- Filters that use logical names keep the order of fields. -/
theorem QueryFilter.UsesNames.keepsOrder (h : query.UsesNames registry) :
    query.KeepsOrder registry := by
  intro c hc d hd lt f g found found'
  rw [h c hc f found, h d hd g found']
  exact Or.inl lt

/-! ## Filters with the same constraints -/

/-- A constraint that reads as one comparison is written before one that reads as the other. -/
def QueryFilter.WrittenBefore (registry : FieldRegistry) (query : QueryFilter) (a b : Comparison) :
    Prop :=
  ∃ c ∈ query.constraints, ∃ d ∈ query.constraints,
    c.ReadsAs registry a ∧ d.ReadsAs registry b ∧ c.Before d

/-- Comparisons are in the order in which their constraints are written. -/
theorem pairwise_writtenBefore (h : compileQuery registry query = .ok comparisons) :
    comparisons.Pairwise (query.WrittenBefore registry) :=
  pairwise_of_forall₂ (forall₂_readsAs_of_compileQuery h) query.pairwise_constraints
    fun c hc d hd _ _ before readsA readsB => ⟨c, hc, d, hd, readsA, readsB, before⟩

namespace QueryFilter.WritesOnce

/-- Where fields are written in one way, a comparison is what one constraint reads as. -/
theorem same (h : query.WritesOnce registry) {c d : Constraint} (hc : c ∈ query.constraints)
    (hd : d ∈ query.constraints) {a : Comparison} (readsC : c.ReadsAs registry a)
    (readsD : d.ReadsAs registry a) : c.field = d.field ∧ c.operator = d.operator :=
  ⟨h c hc d hd (readsC.field.trans readsD.field.symm), readsC.operator.symm.trans readsD.operator⟩

/-- Where fields are written in one way, no comparison is written before and behind another. -/
theorem asymm (h : query.WritesOnce registry) {a b : Comparison}
    (before : query.WrittenBefore registry a b) : ¬ query.WrittenBefore registry b a := by
  rintro ⟨d', hd', c', hc', readsD', readsC', back⟩
  obtain ⟨c, hc, d, hd, readsC, readsD, before⟩ := before
  obtain ⟨sameC, sameC'⟩ := h.same hc hc' readsC readsC'
  obtain ⟨sameD, sameD'⟩ := h.same hd hd' readsD readsD'
  refine before.asymm ?_
  rwa [Constraint.Before, sameC, sameC', sameD, sameD']

/-- Where fields are written in one way, no comparison is listed twice. -/
theorem nodup (h : query.WritesOnce registry)
    (compiled : compileQuery registry query = .ok comparisons) : comparisons.Nodup :=
  (pairwise_writtenBefore compiled).imp fun before same => by
    subst same
    exact h.asymm before before

end QueryFilter.WritesOnce

/-- Filters that state the same constraints compile to the same comparisons. -/
theorem mem_iff_of_sameConstraints (compiled : compileQuery registry query = .ok comparisons)
    (compiled' : compileQuery registry other = .ok others)
    (same : query.SameConstraints registry other) {comparison : Comparison} :
    comparison ∈ comparisons ↔ comparison ∈ others := by
  have asks : ∀ filter : QueryFilter, (∃ c ∈ filter.constraints, c.ReadsAs registry comparison)
      ↔ ∃ operand, filter.Asks registry comparison.field comparison.operator.name operand
        ∧ FieldValue.ofJson? comparison.field.type operand = some comparison.value := by
    intro filter
    constructor
    · rintro ⟨c, hc, reads⟩
      exact ⟨c.operand, ⟨c, hc, reads.field, reads.operator.symm, rfl⟩, reads.operand⟩
    · rintro ⟨_, ⟨c, hc, found, operator, rfl⟩, fits⟩
      exact ⟨c, hc, found, operator.symm, fits⟩
  rw [mem_iff_of_compileQuery compiled, mem_iff_of_compileQuery compiled', asks, asks]
  simp only [same comparison.field comparison.operator.name]

/-- Where the fields of two filters are in the same order, so are the comparisons. -/
theorem QueryFilter.SameOrder.writtenBefore (h : query.SameOrder registry other)
    (once : other.WritesOnce registry) (compiled : compileQuery registry other = .ok others)
    {a b : Comparison} (ha : a ∈ others) (hb : b ∈ others)
    (before : query.WrittenBefore registry a b) : other.WrittenBefore registry a b := by
  obtain ⟨c, hc, d, hd, readsC, readsD, before⟩ := before
  obtain ⟨c', hc', readsC'⟩ := (mem_iff_of_compileQuery compiled).1 ha
  obtain ⟨d', hd', readsD'⟩ := (mem_iff_of_compileQuery compiled).1 hb
  have sameC := readsC.field.trans readsC'.field.symm
  have sameD := readsD.field.trans readsD'.field.symm
  refine ⟨c', hc', d', hd', readsC', readsD', ?_⟩
  rcases before with lt | ⟨same, lt⟩
  · exact Or.inl (h c hc d hd c' hc' d' hd' sameC sameD lt)
  · rw [same] at sameC
    refine Or.inr ⟨once c' hc' d' hd' (sameC.symm.trans sameD), ?_⟩
    rwa [← readsC'.operator, ← readsD'.operator, readsC.operator, readsD.operator]

/-- Filters that compile to the same list have their fields in the same order. -/
theorem sameOrder_of_compileQuery (compiled : compileQuery registry query = .ok comparisons)
    (compiled' : compileQuery registry other = .ok comparisons) (once : query.WritesOnce registry)
    (once' : other.WritesOnce registry) : query.SameOrder registry other := by
  intro c hc d hd c' hc' d' hd' sameC sameD lt
  have tied := forall₂_readsAs_of_compileQuery compiled
  obtain ⟨a, ha, readsA⟩ := exists_mem_of_forall₂_left tied hc
  obtain ⟨b, hb, readsB⟩ := exists_mem_of_forall₂_left tied hd
  obtain ⟨x, hx, y, hy, readsX, readsY, before⟩ :=
    rel_of_pairwise (fun _ _ _ _ => once.asymm) (pairwise_writtenBefore compiled)
      (pairwise_writtenBefore compiled') ha hb ⟨c, hc, d, hd, readsA, readsB, Or.inl lt⟩
  have sameX := once' x hx c' hc' (readsX.field.trans (readsA.field.symm.trans sameC))
  have sameY := once' y hy d' hd' (readsY.field.trans (readsB.field.symm.trans sameD))
  rw [← sameX, ← sameY]
  rcases before with lt' | ⟨same, _⟩
  · exact lt'
  · -- The two fields would be one, which is written in one way.
    rw [sameX, sameY] at same
    rw [same] at sameC
    exact absurd (once c hc d hd (sameC.trans sameD.symm) ▸ lt) (String.lt_irrefl _)

end

/--
The comparisons of a property filter are in order of the names of their fields and then of their
operators exactly if the fields are written in that order, as they are by their own names. If two
filters state the same constraints, each writing every field in one way, they compile to the same
comparisons, and to the same list exactly if their fields are written in the same order.
-/
theorem compileQuery_in_written_order {registry : FieldRegistry} {query other : QueryFilter}
    {comparisons others : List Comparison}
    (compiled : compileQuery registry query = .ok comparisons)
    (compiled' : compileQuery registry other = .ok others) :
    (Comparison.Canonical comparisons ↔ query.KeepsOrder registry)
      ∧ (query.UsesNames registry → Comparison.Canonical comparisons)
      ∧ (query.WritesOnce registry → other.WritesOnce registry →
        query.SameConstraints registry other →
          comparisons.Perm others ∧ (comparisons = others ↔ query.SameOrder registry other)) := by
  have ordered := canonical_iff_keepsOrder compiled
  refine ⟨ordered, fun names => ordered.2 names.keepsOrder, fun once once' same => ?_⟩
  have perm : comparisons.Perm others :=
    (List.perm_ext_iff_of_nodup (once.nodup compiled) (once'.nodup compiled')).2 fun _ =>
      mem_iff_of_sameConstraints compiled compiled' same
  refine ⟨perm, fun equal => ?_, fun sameOrder => ?_⟩
  · subst equal
    exact sameOrder_of_compileQuery compiled compiled' once once'
  · have sorted : comparisons.Pairwise (other.WrittenBefore registry) :=
      (pairwise_writtenBefore compiled).imp_of_mem fun ha hb before =>
        sameOrder.writtenBefore once' compiled' (perm.mem_iff.1 ha) (perm.mem_iff.1 hb) before
    exact perm.eq_of_pairwise (fun _ _ _ _ ab ba => absurd ba (once'.asymm ab)) sorted
      (pairwise_writtenBefore compiled')

/-! ## A path among names -/

namespace Sample

/-- A constraint on the height and one on the zoom, whose field is written as given. -/
def heightAndZoom (zoom : String) : QueryFilter :=
  .ofList [("height", .ofList [("ge", .int 1)]), (zoom, .ofList [("le", .int 5)])]

/-- The comparison of the height. -/
def heightAtLeastOne : Comparison := ⟨.property "height" .integer, .ge, .integer 1⟩

/-- The comparison of the zoom. -/
def zoomAtMostFive : Comparison := ⟨.property "cog:maxzoom" .integer, .le, .integer 5⟩

/-- The constraint on the height comes first if the zoom is written by its path. -/
theorem constraints_byPath : (heightAndZoom "properties.cog:maxzoom").constraints
    = [⟨"height", "ge", .int 1⟩, ⟨"properties.cog:maxzoom", "le", .int 5⟩] :=
  rfl

/-- The constraint on the height comes last if the zoom is written by its name. -/
theorem constraints_byName : (heightAndZoom "cog:maxzoom").constraints
    = [⟨"cog:maxzoom", "le", .int 5⟩, ⟨"height", "ge", .int 1⟩] :=
  rfl

/-- The filter with the path and the one with the name state the same constraints. -/
theorem sameConstraints_heightAndZoom :
    (heightAndZoom "properties.cog:maxzoom").SameConstraints .builtin
      (heightAndZoom "cog:maxzoom") := by
  intro field operator operand
  have same : FieldRegistry.builtin.resolve? "properties.cog:maxzoom"
      = FieldRegistry.builtin.resolve? "cog:maxzoom" := rfl
  simp only [Asks, constraints_byPath, constraints_byName, List.mem_cons, List.not_mem_nil,
    or_false, exists_eq_or_imp, exists_eq_left, same]
  exact or_comm

/-- A path puts the height in front of the zoom, which is not the order of their names. -/
theorem written_order_of_heightAndZoom :
    compileQuery .builtin (heightAndZoom "properties.cog:maxzoom")
        = .ok [heightAtLeastOne, zoomAtMostFive]
      ∧ compileQuery .builtin (heightAndZoom "cog:maxzoom") = .ok [zoomAtMostFive, heightAtLeastOne]
      ∧ (¬ Comparison.Canonical [heightAtLeastOne, zoomAtMostFive]
        ∧ Comparison.Canonical [zoomAtMostFive, heightAtLeastOne])
      ∧ [heightAtLeastOne, zoomAtMostFive].Perm [zoomAtMostFive, heightAtLeastOne]
      ∧ [heightAtLeastOne, zoomAtMostFive] ≠ [zoomAtMostFive, heightAtLeastOne] := by
  have byPath : compileQuery .builtin (heightAndZoom "properties.cog:maxzoom")
      = .ok [heightAtLeastOne, zoomAtMostFive] := rfl
  have byName : compileQuery .builtin (heightAndZoom "cog:maxzoom")
      = .ok [zoomAtMostFive, heightAtLeastOne] := rfl
  have once : (heightAndZoom "properties.cog:maxzoom").WritesOnce .builtin := by
    unfold WritesOnce
    decide +kernel
  have once' : (heightAndZoom "cog:maxzoom").WritesOnce .builtin := by
    unfold WritesOnce
    decide +kernel
  have height : FieldRegistry.builtin.resolve? "height" = some heightAtLeastOne.field := rfl
  have path : FieldRegistry.builtin.resolve? "properties.cog:maxzoom" = some zoomAtMostFive.field :=
    rfl
  have name : FieldRegistry.builtin.resolve? "cog:maxzoom" = some zoomAtMostFive.field := rfl
  obtain ⟨ordered, _, sameList⟩ := compileQuery_in_written_order byPath byName
  obtain ⟨perm, sameOrder⟩ := sameList once once' sameConstraints_heightAndZoom
  obtain ⟨_, names, _⟩ := compileQuery_in_written_order byName byPath
  refine ⟨byPath, byName, ⟨fun canonical => ?_, names ?_⟩, perm, fun equal => ?_⟩
  · have inOrder := ordered.1 canonical _ (constraints_byPath ▸ List.mem_cons_self) _
      (constraints_byPath ▸ List.mem_cons_of_mem _ List.mem_cons_self) (by decide) _ _ height path
    revert inOrder
    decide
  · intro c hc f found
    rw [constraints_byName] at hc
    rcases List.mem_cons.1 hc with rfl | hc
    · cases name.symm.trans found
      rfl
    · cases List.mem_singleton.1 hc
      cases height.symm.trans found
      rfl
  · have inOrder := sameOrder.1 equal _ (constraints_byPath ▸ List.mem_cons_self) _
      (constraints_byPath ▸ List.mem_cons_of_mem _ List.mem_cons_self) _
      (constraints_byName ▸ List.mem_cons_of_mem _ List.mem_cons_self) _
      (constraints_byName ▸ List.mem_cons_self) rfl (path.trans name.symm) (by decide)
    exact absurd inOrder (by decide)

end Sample

end CatalogSearch
