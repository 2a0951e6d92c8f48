import CatalogSearch.Proofs.Store.Stages

/-!
# Boxes in query strings

A query string has room for a box: four numbers with commas between them, which count by their
places. A box that is accepted restricts a search to its rectangle and changes nothing else. What is
no box is refused. Entries that are blank do not count, here as in lists of names, so the numbers
behind a blank entry move one place up.

* `Bounds.SaidBy`, `BoxFault` : texts that say a box, and what is wrong with other texts;
* `spatialPredicate?_of_saidBy`, `spatialPredicate?_of_fault` : the filter for a box;
* `planSearch_confined`, `planSearch_spoiled` : plans with and without a box;
* `SearchService.getSearch_box` : a search with a box in its query string.
-/

namespace CatalogSearch

open ExtendedNumber (ofText?)

/-! ## Texts that say a box -/

/-- The texts between the commas of a text, each without the blanks at its two ends. -/
def Text.commaParts (s : String) : List String :=
  (splitOn ',' s).map trim

/-- The bounds of a box by their places. -/
def Bounds.numbers (b : Bounds) : List ExtendedNumber :=
  [.finite b.minX, .finite b.minY, .finite b.maxX, .finite b.maxY]

/-- Texts say the numbers of a box. -/
def Bounds.NumbersOf (b : Bounds) (texts : List String) : Prop :=
  texts.map ofText? = b.numbers.map some

/-- Texts say a box: they are its four numbers, and no lower bound is above the upper one. -/
structure Bounds.SaidBy (b : Bounds) (texts : List String) : Prop where
  numbers : b.NumbersOf texts
  inOrderX : b.minX.units ≤ b.maxX.units
  inOrderY : b.minY.units ≤ b.maxY.units

/-- Why texts say no box. -/
inductive BoxFault (texts : List String) : SearchError → Prop
  | noNumber {text : String} (mem : text ∈ texts) (unread : ofText? text = none) :
      BoxFault texts (.invalidParameter .bbox)
  | wrongLength (read : ∀ text ∈ texts, (ofText? text).isSome = true)
      (notFour : texts.length ≠ 4) :
      BoxFault texts (.invalidSpatialFilter (.wrongLength texts.length))
  | notFinite (read : ∀ text ∈ texts, (ofText? text).isSome = true) (four : texts.length = 4)
      {text : String} (mem : text ∈ texts) (unbounded : ∀ x, ofText? text ≠ some (.finite x)) :
      BoxFault texts (.invalidSpatialFilter .notFinite)
  | inverted {b : Bounds} (numbers : b.NumbersOf texts)
      (outOfOrder : b.maxX.units < b.minX.units ∨ b.maxY.units < b.minY.units) :
      BoxFault texts (.invalidSpatialFilter (.inverted b))

variable {texts : List String} {b : Bounds} {e : SearchError}

/-- Each text of a box says a finite number. -/
theorem Bounds.NumbersOf.exists_finite (said : b.NumbersOf texts) {text : String}
    (mem : text ∈ texts) : ∃ x, ofText? text = some (.finite x) := by
  have mem := List.mem_map_of_mem (f := ofText?) mem
  rw [show texts.map ofText? = b.numbers.map some from said] at mem
  simp only [Bounds.numbers, List.map_cons, List.map_nil, List.mem_cons, List.not_mem_nil,
    or_false] at mem
  rcases mem with read | read | read | read <;> exact ⟨_, read⟩

/-- A blank text says no number, so texts that say a box are those between the commas of a list. -/
theorem Bounds.saidBy_commaParts_iff {raw : String} :
    b.SaidBy (Text.commaParts raw) ↔ "" ∉ Text.commaParts raw ∧ b.SaidBy (Text.listItems raw) := by
  have items : Text.listItems raw = (Text.commaParts raw).filter (· ≠ "") := rfl
  have same (unblank : "" ∉ Text.commaParts raw) : Text.listItems raw = Text.commaParts raw :=
    items.trans (List.filter_eq_self.2 fun text mem =>
      decide_eq_true fun blank => unblank (blank ▸ mem))
  constructor
  · intro said
    have unblank : "" ∉ Text.commaParts raw := by
      intro mem
      obtain ⟨x, read⟩ := said.numbers.exists_finite mem
      cases (show ofText? "" = none from rfl).symm.trans read
    exact ⟨unblank, (same unblank).symm ▸ said⟩
  · rintro ⟨unblank, said⟩
    exact same unblank ▸ said

/-- The bounds of a box that texts say are in order. -/
theorem Bounds.SaidBy.inOrder (said : b.SaidBy texts) :
    ¬ (b.maxX.lt b.minX ∨ b.maxY.lt b.minY) := by
  simp only [Binary64.lt, decide_eq_true_eq, not_or, Int.not_lt]
  exact ⟨said.inOrderX, said.inOrderY⟩

/-- Texts with a fault say no box. -/
theorem BoxFault.not_saidBy (fault : BoxFault texts e) : ¬ b.SaidBy texts := by
  intro said
  cases fault with
  | noNumber mem unread =>
    obtain ⟨x, read⟩ := said.numbers.exists_finite mem
    cases unread.symm.trans read
  | wrongLength _ notFour =>
    have four := congrArg List.length said.numbers
    rw [List.length_map] at four
    exact notFour four
  | notFinite _ _ mem unbounded =>
    obtain ⟨x, read⟩ := said.numbers.exists_finite mem
    exact unbounded x read
  | inverted numbers outOfOrder =>
    have same : b.numbers.map some = _ := said.numbers.symm.trans numbers
    simp only [Bounds.numbers, List.map_cons, List.cons.injEq, Option.some.injEq,
      ExtendedNumber.finite.injEq, and_true, List.map_nil] at same
    obtain ⟨minX, minY, maxX, maxY⟩ := same
    rw [← minX, ← minY, ← maxX, ← maxY] at outOfOrder
    exact outOfOrder.elim (Int.not_lt.2 said.inOrderX) (Int.not_lt.2 said.inOrderY)

/-- Texts say a box, or something is wrong with them. -/
theorem exists_saidBy_or_boxFault (texts : List String) :
    (∃ b : Bounds, b.SaidBy texts) ∨ ∃ e, BoxFault texts e := by
  rcases em (∀ text ∈ texts, (ofText? text).isSome = true) with read | unread
  swap
  · push Not at unread
    obtain ⟨text, mem, unread⟩ := unread
    exact Or.inr ⟨_, .noNumber mem (Option.not_isSome_iff_eq_none.1 unread)⟩
  rcases eq_or_ne texts.length 4 with four | notFour
  swap
  · exact Or.inr ⟨_, .wrongLength read notFour⟩
  rcases em (∀ text ∈ texts, ∃ x, ofText? text = some (.finite x)) with finite | unbounded
  swap
  · push Not at unbounded
    obtain ⟨text, mem, unbounded⟩ := unbounded
    exact Or.inr ⟨_, .notFinite read four mem unbounded⟩
  obtain ⟨s, t, u, v, rfl⟩ := List.length_eq_four.1 four
  simp only [List.forall_mem_cons] at finite
  obtain ⟨⟨minX, hs⟩, ⟨minY, ht⟩, ⟨maxX, hu⟩, ⟨maxY, hv⟩, -⟩ := finite
  have numbers : (Bounds.mk minX minY maxX maxY).NumbersOf [s, t, u, v] := by
    simp only [Bounds.NumbersOf, Bounds.numbers, List.map_cons, List.map_nil, hs, ht, hu, hv]
  rcases em (minX.units ≤ maxX.units ∧ minY.units ≤ maxY.units) with inOrder | outOfOrder
  · exact Or.inl ⟨_, numbers, inOrder.1, inOrder.2⟩
  · rw [not_and_or, Int.not_le, Int.not_le] at outOfOrder
    exact Or.inr ⟨_, .inverted numbers outOfOrder⟩

/-! ## The filter for a box -/

/-- Texts with the numbers of a box are read as these. -/
theorem Bounds.NumbersOf.mapM_eq (numbers : b.NumbersOf texts) :
    texts.mapM ofText? = some b.numbers :=
  mapM_eq_some_iff.2 numbers

/-- The filter for a box whose bounds are in order is that for its rectangle. -/
theorem Bounds.spatialPredicate?_numbers
    (inOrder : ¬ (b.maxX.lt b.minX ∨ b.maxY.lt b.minY)) :
    spatialPredicate? (some b.numbers) none
      = .ok (some (.intersects (.polygon b.toPolygon))) := by
  simp only [spatialPredicate?, Bounds.numbers, spatialShape?, boxPolygon, if_neg inOrder]
  rfl

/-- The filter for texts that say a box is that for its rectangle. -/
theorem spatialPredicate?_of_saidBy (said : b.SaidBy texts) :
    spatialPredicate? (some b.numbers) none
      = .ok (some (.intersects (.polygon b.toPolygon))) :=
  Bounds.spatialPredicate?_numbers said.inOrder

/-- Bounds of which one is not finite make no polygon. -/
theorem boxPolygon_of_unbounded {minX minY maxX maxY x : ExtendedNumber}
    (mem : x ∈ [minX, minY, maxX, maxY]) (unbounded : ∀ y, x ≠ .finite y) :
    boxPolygon minX minY maxX maxY = .error .notFinite := by
  unfold boxPolygon
  split
  · next minX minY maxX maxY =>
    simp only [List.mem_cons, List.not_mem_nil, or_false] at mem
    rcases mem with rfl | rfl | rfl | rfl <;> exact absurd rfl (unbounded _)
  · rfl

/-- No shape comes from bounds that are not four. -/
theorem spatialShape?_of_length {bounds : List ExtendedNumber} (notFour : bounds.length ≠ 4) :
    spatialShape? (some bounds) none = .error (.wrongLength bounds.length) := by
  unfold spatialShape?
  split
  · contradiction
  · contradiction
  · contradiction
  · next same _ =>
    cases same
    contradiction
  · next same _ _ =>
    cases same
    rfl

/-- Texts that are numbers have a list of these. -/
theorem exists_mapM_eq_some (read : ∀ text ∈ texts, (ofText? text).isSome = true) :
    ∃ numbers, texts.mapM ofText? = some numbers ∧ numbers.length = texts.length := by
  have there : texts.mapM ofText? ≠ none := by
    intro missing
    obtain ⟨text, mem, unread⟩ := mapM_eq_none_iff.1 missing
    exact Option.not_isSome_iff_eq_none.2 unread (read text mem)
  obtain ⟨numbers, hnumbers⟩ := Option.ne_none_iff_exists'.1 there
  have length := congrArg List.length (mapM_eq_some_iff.1 hnumbers)
  rw [List.length_map, List.length_map] at length
  exact ⟨numbers, hnumbers, length.symm⟩

/-- The filter for texts that say no box fails with their fault, where these are numbers at all. -/
theorem spatialPredicate?_of_fault (fault : BoxFault texts e) :
    texts.mapM ofText? = none ∧ e = .invalidParameter .bbox
      ∨ ∃ numbers, texts.mapM ofText? = some numbers
        ∧ spatialPredicate? (some numbers) none = .error e := by
  cases fault with
  | noNumber mem unread => exact Or.inl ⟨mapM_eq_none_iff.2 ⟨_, mem, unread⟩, rfl⟩
  | wrongLength read notFour =>
    obtain ⟨numbers, hnumbers, length⟩ := exists_mapM_eq_some read
    rw [← length] at notFour ⊢
    refine Or.inr ⟨numbers, hnumbers, ?_⟩
    rw [spatialPredicate?, spatialShape?_of_length notFour]
    rfl
  | notFinite read four mem unbounded =>
    obtain ⟨numbers, hnumbers, length⟩ := exists_mapM_eq_some read
    refine Or.inr ⟨numbers, hnumbers, ?_⟩
    obtain ⟨minX, minY, maxX, maxY, rfl⟩ := List.length_eq_four.1 (length.trans four)
    have mem := List.mem_map_of_mem (f := ofText?) mem
    rw [mapM_eq_some_iff.1 hnumbers] at mem
    obtain ⟨x, mem, read⟩ := List.mem_map.1 mem
    have failed : boxPolygon minX minY maxX maxY = .error .notFinite :=
      boxPolygon_of_unbounded mem fun y same => unbounded y (same ▸ read.symm)
    simp only [spatialPredicate?, spatialShape?, failed]
    rfl
  | @inverted b numbers outOfOrder =>
    refine Or.inr ⟨_, numbers.mapM_eq, ?_⟩
    have inverted : b.maxX.lt b.minX ∨ b.maxY.lt b.minY := by
      simpa only [Binary64.lt, decide_eq_true_eq] using outOfOrder
    simp only [spatialPredicate?, Bounds.numbers, spatialShape?, boxPolygon, if_pos inverted]
    rfl

/-! ## Plans with a box -/

/-- A plan is another one within an area: items have to meet this area as well. -/
def SearchPlan.Within (area : Polygon) (rest plan : SearchPlan) : Prop :=
  ∃ before after, rest.predicates = before ++ after
    ∧ plan = { rest with predicates := before ++ .intersects (.polygon area) :: after }

/-- With one filter more a search fails as without it, or it is planned as without it in an area. -/
inductive Confined (area : Polygon) :
    Except SearchError SearchPlan → Except SearchError SearchPlan → Prop
  | refused (e : SearchError) : Confined area (.error e) (.error e)
  | planned {rest plan : SearchPlan} (within : rest.Within area plan) :
      Confined area (.ok rest) (.ok plan)

/-- With one filter more a search fails with its fault, or with an error that it had without it. -/
inductive Spoiled (fault : SearchError) :
    Except SearchError SearchPlan → Except SearchError SearchPlan → Prop
  | byFault (without : Except SearchError SearchPlan) : Spoiled fault without (.error fault)
  | anyway (e : SearchError) : Spoiled fault (.error e) (.error e)

/-- A search within an area is planned if it is so without the area. -/
theorem Confined.exists_plan {area : Polygon} {rest : SearchPlan}
    {outcome : Except SearchError SearchPlan} (confined : Confined area (.ok rest) outcome) :
    ∃ plan, outcome = .ok plan ∧ rest.Within area plan := by
  cases confined with
  | planned within => exact ⟨_, rfl, within⟩

/-- A search that is spoiled fails. -/
theorem Spoiled.exists_error {fault : SearchError} {without outcome : Except SearchError SearchPlan}
    (spoiled : Spoiled fault without outcome) : ∃ e, outcome = .error e := by
  cases spoiled with
  | byFault => exact ⟨fault, rfl⟩
  | anyway e => exact ⟨e, rfl⟩

variable {registry : FieldRegistry} {settings : Settings} {request : SearchRequest}
  {numbers : List ExtendedNumber} {area : Polygon}

/-- What is left to plan once the filters of a request are known. -/
def finishPlan (settings : Settings) (request : SearchRequest) (limit : ℕ) (filters : Filters) :
    Except SearchError SearchPlan := do
  let cursor ← checkToken filters.order request.token
  let fields := nonEmpty FieldsRequest.isEmpty request.fields
  let collections := (nonEmpty StringSet.isEmpty request.collections).map Predicate.collections
  return { predicates := collections.toList ++ filters.predicates
           order := filters.order
           cursor, limit
           projection := if settings.capabilities.fields then
               some (.resolve settings.defaultIncludes (fields.getD .none) filters.paths)
             else none }

/-- A request and the same one with a box pass the same checks before their filters are compiled. -/
theorem planSearch_related
    {R : Except SearchError SearchPlan → Except SearchError SearchPlan → Prop}
    (failed : ∀ e, R (.error e) (.error e)) (unnamed : nonEmpty List.isEmpty request.ids = none)
    (filters : ∀ limit, R (compileFilters registry request >>= finishPlan settings request limit)
      (compileFilters registry { request with bbox := some numbers }
        >>= finishPlan settings request limit)) :
    R (planSearch registry settings request)
      (planSearch registry settings { request with bbox := some numbers }) := by
  rw [planSearch, planSearch]
  refine related_bind failed fun limit _ => ?_
  refine related_bind failed fun _ _ => ?_
  refine related_bind failed fun _ _ => ?_
  refine related_bind failed fun _ _ => ?_
  rw [requestFilters, requestFilters, unnamed]
  exact filters limit

/-- A box with a predicate puts this in front of the other ones. -/
theorem compileFilters_of_box {within : Predicate} (noBox : request.bbox = none)
    (noGeometry : request.intersects = none)
    (accepted : spatialPredicate? (some numbers) none = .ok (some within)) :
    compileFilters registry { request with bbox := some numbers }
      = (compileFilters registry request).map fun filters =>
          { filters with predicates := within :: filters.predicates } := by
  have boxed : spatialPredicate? (some numbers) request.intersects = pure (some within) := by
    rw [noGeometry, accepted]
    rfl
  have unboxed : spatialPredicate? request.bbox request.intersects = pure none := by
    rw [noBox, noGeometry]
    rfl
  rw [compileFilters, compileFilters, boxed, unboxed, pure_bind, pure_bind]
  exact bind_eq_map fun datetime => bind_eq_map fun query => bind_eq_map fun order => rfl

/-- A box that is refused is so before the other filters are compiled. -/
theorem compileFilters_of_error (noGeometry : request.intersects = none)
    (refused : spatialPredicate? (some numbers) none = .error e) :
    compileFilters registry { request with bbox := some numbers } = .error e := by
  rw [compileFilters, noGeometry, refused]
  rfl

/-- A request with a box that has a predicate is planned within its area. -/
theorem planSearch_confined (noBox : request.bbox = none) (noGeometry : request.intersects = none)
    (unnamed : nonEmpty List.isEmpty request.ids = none)
    (accepted : spatialPredicate? (some numbers) none
      = .ok (some (.intersects (.polygon area)))) :
    Confined area (planSearch registry settings request)
      (planSearch registry settings { request with bbox := some numbers }) := by
  refine planSearch_related .refused unnamed fun limit => ?_
  rw [compileFilters_of_box noBox noGeometry accepted]
  cases compileFilters registry request with
  | error e => exact .refused e
  | ok filters =>
    exact related_bind (R := Confined area) .refused fun cursor _ => .planned ⟨_, _, rfl, rfl⟩

/-- A request with a box that is refused is not planned. -/
theorem planSearch_spoiled (noGeometry : request.intersects = none)
    (unnamed : nonEmpty List.isEmpty request.ids = none)
    (refused : spatialPredicate? (some numbers) none = .error e) :
    Spoiled e (planSearch registry settings request)
      (planSearch registry settings { request with bbox := some numbers }) := by
  refine planSearch_related .anyway unnamed fun limit => ?_
  rw [compileFilters_of_error noGeometry refused]
  exact .byFault _

/-! ## Boxes in query strings -/

namespace SearchParams

variable {params : SearchParams}

/-- The parameters without a box. -/
def unboxed (params : SearchParams) : SearchParams :=
  { params with bbox := Option.none }

/-- A box is read before the other parts, and what these say does not depend on it. -/
theorem toRequest_eq_bind (params : SearchParams) :
    params.toRequest
      = (parameter (fun _ => .bbox) (fun raw => (Text.listItems raw).mapM ofText?) params.bbox
        >>= fun bbox => params.unboxed.toRequest.map fun request => { request with bbox }) := by
  rw [toRequest]
  refine congrArg _ (funext fun bbox => ?_)
  have noBox : parameter (fun _ => .bbox) (fun raw => (Text.listItems raw).mapM ofText?)
      Option.none = pure Option.none := rfl
  rw [unboxed, toRequest, noBox, pure_bind]
  -- The other parts are read by the same steps.
  refine bind_eq_map fun intersects => bind_eq_map fun limit => bind_eq_map fun query => ?_
  exact bind_eq_map fun sortby => bind_eq_map fun fields => rfl

/-- Parameters without a place do not restrict it. -/
theorem unplaced_of_toRequest (noGeometry : params.intersects = Option.none)
    (unnamed : ∀ ids, params.ids = some ids → Text.listItems ids = []) {request : SearchRequest}
    (h : params.unboxed.toRequest = .ok request) :
    request.bbox = Option.none ∧ request.intersects = Option.none
      ∧ nonEmpty List.isEmpty request.ids = Option.none := by
  rw [unboxed, toRequest, noGeometry] at h
  obtain ⟨bbox, hbbox, h⟩ := exists_of_bind_eq_ok h
  obtain ⟨intersects, hintersects, h⟩ := exists_of_bind_eq_ok h
  obtain ⟨_, _, h⟩ := exists_of_bind_eq_ok h
  obtain ⟨_, _, h⟩ := exists_of_bind_eq_ok h
  obtain ⟨_, _, h⟩ := exists_of_bind_eq_ok h
  obtain ⟨_, _, h⟩ := exists_of_bind_eq_ok h
  cases hbbox
  cases hintersects
  cases h
  refine ⟨rfl, rfl, ?_⟩
  cases ids : params.ids with
  | none => rfl
  | some raw => simp [nonEmpty, unnamed raw ids]

end SearchParams

namespace SearchService

variable {m : Type → Type} [Monad m] {params : SearchParams} {raw : String}

/-- The plan for a request in a query string. -/
def planQuery (service : SearchService) (params : SearchParams) : Except SearchError SearchPlan :=
  params.toRequest >>= service.plan

/-- A search runs the plan for its request. -/
theorem getSearch_eq_run (service : SearchService) (store : Store m) (params : SearchParams) :
    service.getSearch store params
      = service.run store (service.planQuery params) fun rel token =>
        .get rel service.settings.baseUrl "search" params.entries token :=
  rfl

/-- A box of numbers is planned as the box of a request, behind the faults of the other parts. -/
theorem planQuery_related {R : Except SearchError SearchPlan → Except SearchError SearchPlan → Prop}
    (service : SearchService) (given : params.bbox = some raw)
    (read : (Text.listItems raw).mapM ofText? = some numbers)
    (failed : ∀ e, R (.error e) (.error e))
    (planned : ∀ request, params.unboxed.toRequest = .ok request →
      R (service.plan request) (service.plan { request with bbox := some numbers })) :
    R (service.planQuery params.unboxed) (service.planQuery params) := by
  rw [planQuery, planQuery, params.toRequest_eq_bind, given, parameter, read]
  cases said : params.unboxed.toRequest with
  | error e => exact failed e
  | ok request => exact planned request said

/--
A search in a query string with a box, but without a geometry and without names of items, is within
the rectangle of the four numbers of its box, with each number at its place; any other text for a
box spoils the search. The texts that count are those between the commas that are not blank: four
numbers with a blank text among them are no box by their places, but are taken for one.
-/
theorem getSearch_box (service : SearchService) (given : params.bbox = some raw)
    (noGeometry : params.intersects = none)
    (unnamed : ∀ ids, params.ids = some ids → Text.listItems ids = []) :
    (∀ b : Bounds, b.SaidBy (Text.commaParts raw)
        ↔ "" ∉ Text.commaParts raw ∧ b.SaidBy (Text.listItems raw))
      ∧ ((∃ b : Bounds, b.SaidBy (Text.listItems raw)) ∨ ∃ e, BoxFault (Text.listItems raw) e)
      ∧ (∀ b : Bounds, b.SaidBy (Text.listItems raw) → b.toPolygon.IsRectangle b
        ∧ Confined b.toPolygon (service.planQuery params.unboxed) (service.planQuery params))
      ∧ ∀ e, BoxFault (Text.listItems raw) e → (∀ b : Bounds, ¬ b.SaidBy (Text.listItems raw))
        ∧ Spoiled e (service.planQuery params.unboxed) (service.planQuery params)
        ∧ ∃ e', ∀ store : Store m, service.getSearch store params = pure (.error e') := by
  refine ⟨fun b => Bounds.saidBy_commaParts_iff, exists_saidBy_or_boxFault _, ?_, ?_⟩
  · intro b said
    refine ⟨Bounds.isRectangle_toPolygon said.inOrder, ?_⟩
    refine service.planQuery_related given said.numbers.mapM_eq .refused fun request accepted => ?_
    obtain ⟨noBox, noGeometry, unnamed⟩ :=
      SearchParams.unplaced_of_toRequest noGeometry unnamed accepted
    exact planSearch_confined noBox noGeometry unnamed (spatialPredicate?_of_saidBy said)
  · intro e fault
    have spoiled : Spoiled e (service.planQuery params.unboxed) (service.planQuery params) := by
      rcases spatialPredicate?_of_fault fault with ⟨unread, rfl⟩ | ⟨numbers, read, refused⟩
      · have failed : service.planQuery params = .error (.invalidParameter .bbox) := by
          rw [planQuery, params.toRequest_eq_bind, given, parameter, unread]
          rfl
        rw [failed]
        exact .byFault _
      · refine service.planQuery_related given read .anyway fun request accepted => ?_
        obtain ⟨_, noGeometry, unnamed⟩ :=
          SearchParams.unplaced_of_toRequest noGeometry unnamed accepted
        exact planSearch_spoiled noGeometry unnamed refused
    refine ⟨fun b => fault.not_saidBy, spoiled, ?_⟩
    obtain ⟨e', failed⟩ := spoiled.exists_error
    refine ⟨e', fun store => ?_⟩
    rw [getSearch_eq_run, failed]
    rfl

end SearchService

/-! ## A box with a gap -/

namespace Sample

/-- Parameters with a box that has a blank text in the second place. -/
def gappedParams : SearchParams :=
  { SearchParams.none with bbox := some "0, ,0,1,2" }

/-- The box from zero to one and to two, which the parameters do not say by the places. -/
def gappedBox : Bounds := ⟨.zero, .zero, one, two⟩

/-- What is no box by its places is taken for one; with one number less it is refused. -/
theorem box_of_gappedParams :
    (∀ b : Bounds, ¬ b.SaidBy (Text.commaParts "0, ,0,1,2"))
      ∧ (∃ rest plan, countingService.planQuery gappedParams.unboxed = .ok rest
        ∧ countingService.planQuery gappedParams = .ok plan
        ∧ gappedBox.toPolygon.IsRectangle gappedBox ∧ rest.Within gappedBox.toPolygon plan)
      ∧ ∃ e, countingService.getSearch uncountable { gappedParams with bbox := some "0, ,0,1" }
        = .error e := by
  have given : gappedParams.bbox = some "0, ,0,1,2" := rfl
  have given' : { gappedParams with bbox := some "0, ,0,1" : SearchParams }.bbox
      = some "0, ,0,1" := rfl
  have numbers : (Text.listItems "0, ,0,1,2").map ofText? = gappedBox.numbers.map some := by
    decide +kernel
  have said : gappedBox.SaidBy (Text.listItems "0, ,0,1,2") := ⟨numbers, by decide, by decide⟩
  have three : BoxFault (Text.listItems "0, ,0,1") _ := .wrongLength (by decide +kernel) (by decide)
  obtain ⟨byPlaces, _, accepted, _⟩ :=
    SearchService.getSearch_box (m := Id) countingService given rfl nofun
  obtain ⟨_, _, _, refused⟩ :=
    SearchService.getSearch_box (m := Id) countingService given' rfl nofun
  refine ⟨fun b positional => ((byPlaces b).1 positional).1 (by decide), ?_, ?_⟩
  · obtain ⟨rectangle, confined⟩ := accepted gappedBox said
    have planned : countingService.planQuery gappedParams.unboxed = .ok _ := rfl
    rw [planned] at confined ⊢
    obtain ⟨plan, boxed, within⟩ := confined.exists_plan
    exact ⟨_, plan, rfl, boxed, rectangle, within⟩
  · obtain ⟨_, _, e, failed⟩ := refused _ three
    exact ⟨e, failed uncountable⟩

end Sample

end CatalogSearch
