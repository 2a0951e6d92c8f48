import CatalogSearch.Proofs.Request.Faults
import CatalogSearch.Proofs.Store.Dialogue

/-!
# Stages of a search

What is wrong with a request is found before the store is asked anything. After that the store is
scanned, and only a scan that fails makes the search fail. A count comes last, and nothing but the
number of matches depends on it.

* `SearchService.run_cases` : everything that a search with a plan can do;
* `SearchService.run_answeredBy` : a search asks a store what it asks in a dialogue;
* `SearchService.staged` : the stages of all searches.
-/

namespace CatalogSearch

/-! ## Stages -/

/-- Two answers are the same but for the number of all matches. -/
structure SearchResponse.SameUncounted (r s : SearchResponse) : Prop where
  features : r.features = s.features
  links : r.links = s.links
  bbox : r.bbox = s.bbox
  nextToken : r.nextToken = s.nextToken
  previousToken : r.previousToken = s.previousToken
  returned : r.context.map (·.returned) = s.context.map (·.returned)
  limit : r.context.map (·.limit) = s.context.map (·.limit)

/-- A search goes through its stages, `faulty` saying that something is wrong with the request. -/
structure Staged (faulty : Prop) (d : Dialogue (Except SearchError SearchResponse)) : Prop where
  /-- Whatever a store answers, the search comes to a result. -/
  total : ∀ store : Store Id,
    ∃ trace, d.Run trace (d.answeredBy store : Id _) ∧ ∀ x ∈ trace, x.2 = store.answer x.1
  /-- If the request is at fault, it is blamed and the store is asked nothing. -/
  refused : faulty → ∀ trace result, d.Run trace result →
    trace = [] ∧ ∃ e, result = .error e ∧ e.isClientError = true
  /-- Otherwise the store is scanned first and then at most counted. -/
  scans : ¬ faulty → ∀ trace result, d.Run trace result → ∃ request rows rest,
    trace = ⟨.scan request, rows⟩ :: rest
      ∧ ∀ x ∈ rest, ∃ predicates counted, x = ⟨.count predicates, counted⟩
  /-- Otherwise the request is never blamed. -/
  blameless : ¬ faulty → ∀ trace e, d.Run trace (.error e) → e.isClientError = false
  /-- A scan that fails ends the search with the failure of the store. -/
  scanFails : ∀ request fault rest result, d.Run (⟨.scan request, .error fault⟩ :: rest) result →
    rest = [] ∧ result = match fault with
      | .unavailable cause => .error (.storeUnavailable cause)
      | .execution cause => .error (.storeExecution cause)
  /-- After a scan that succeeds there is an answer, however the count comes out. -/
  answers : ∀ request rows rest result, d.Run (⟨.scan request, .ok rows⟩ :: rest) result →
    ∃ response, result = .ok response
  /-- After the same scan the answers are the same but for the number of matches. -/
  sameUncounted : ∀ request rows rest rest' response response',
    d.Run (⟨.scan request, .ok rows⟩ :: rest) (.ok response) →
    d.Run (⟨.scan request, .ok rows⟩ :: rest') (.ok response') → response.SameUncounted response'
  /-- A count is reported. -/
  counted : ∀ scanned predicates n response,
    d.Run [scanned, ⟨.count predicates, .ok n⟩] (.ok response) →
    ∃ context, response.context = some context ∧ context.matched = some n
      ∧ context.toJson.get? "matched" = some (.int n) ∧ context.toJson.get? "partial" = none
  /-- A count that fails leaves the number of matches out, and the answer says it is partial. -/
  countFails : ∀ scanned predicates fault response,
    d.Run [scanned, ⟨.count predicates, .error fault⟩] (.ok response) →
    ∃ context, response.context = some context ∧ context.matched = none
      ∧ context.toJson.get? "matched" = none
      ∧ context.toJson.get? "partial" = some (.bool true)

namespace SearchService

variable {service : SearchService} {plan : Except SearchError SearchPlan} {accepted : SearchPlan}
  {link : LinkRel → String → Link} {trace : List Exchange}
  {result : Except SearchError SearchResponse}

/-! ## Searches with a plan -/

/-- The answer after the rows were scanned and perhaps counted. -/
def answer (accepted : SearchPlan) (rows : List Item) (link : LinkRel → String → Link)
    (counted : Option (Except StoreError Nat)) : SearchResponse :=
  let page := Page.ofRows rows accepted.limit accepted.order accepted.cursor
  .ofPage accepted page (counted.map fun counted =>
    ⟨page.items.length, accepted.limit, counted.toOption⟩) link

/-- The answer without the number of matches does not depend on the count. -/
theorem sameUncounted_answer (rows : List Item) {counted counted' : Option (Except StoreError Nat)}
    (same : counted.isSome = counted'.isSome) :
    (answer accepted rows link counted).SameUncounted (answer accepted rows link counted') := by
  cases counted with
  | none =>
    cases counted' with
    | none => exact ⟨rfl, rfl, rfl, rfl, rfl, rfl, rfl⟩
    | some _ => cases same
  | some _ =>
    cases counted' with
    | none => cases same
    | some _ => exact ⟨rfl, rfl, rfl, rfl, rfl, rfl, rfl⟩

/-- What a search with a plan asks, and what it does with the answers. -/
theorem run_asked (service : SearchService) (accepted : SearchPlan)
    (link : LinkRel → String → Link) :
    service.run .asked (.ok accepted) link = .ask (.scan accepted.scanRequest) fun
      | .error fault => .done (.error (.ofStore fault))
      | .ok rows =>
        if service.settings.capabilities.context then
          .ask (.count accepted.predicates) fun counted =>
            .done (.ok (answer accepted rows link (some counted)))
        else .done (.ok (answer accepted rows link none)) := by
  refine congrArg (Dialogue.ask _) (funext fun scanned => ?_)
  cases scanned with
  | error fault => rfl
  | ok rows =>
    show service.countMatches .asked accepted _ >>= _ = _
    rw [countMatches]
    split <;> rfl

/--
A search with a plan scans. If that fails it is over; else it counts if counting is switched on, and
answers.
-/
theorem run_cases (h : (service.run .asked (.ok accepted) link).Run trace result) :
    (∃ fault, trace = [⟨.scan accepted.scanRequest, .error fault⟩]
      ∧ result = .error (.ofStore fault))
    ∨ (∃ rows, service.settings.capabilities.context = false
      ∧ trace = [⟨.scan accepted.scanRequest, .ok rows⟩]
      ∧ result = .ok (answer accepted rows link none))
    ∨ ∃ rows counted, service.settings.capabilities.context = true
      ∧ trace = [⟨.scan accepted.scanRequest, .ok rows⟩, ⟨.count accepted.predicates, counted⟩]
      ∧ result = .ok (answer accepted rows link (some counted)) := by
  rw [run_asked] at h
  obtain ⟨scanned, rest, rfl, scan⟩ := Dialogue.run_ask_iff.1 h
  cases scanned with
  | error fault =>
    obtain ⟨rfl, rfl⟩ := Dialogue.run_done_iff.1 scan
    exact Or.inl ⟨fault, rfl, rfl⟩
  | ok rows =>
    refine Or.inr ?_
    cases counts : service.settings.capabilities.context with
    | false =>
      simp only [counts, Bool.false_eq_true, if_false] at scan
      obtain ⟨rfl, rfl⟩ := Dialogue.run_done_iff.1 scan
      exact Or.inl ⟨rows, rfl, rfl, rfl⟩
    | true =>
      simp only [counts, if_true] at scan
      obtain ⟨counted, rest, rfl, count⟩ := Dialogue.run_ask_iff.1 scan
      obtain ⟨rfl, rfl⟩ := Dialogue.run_done_iff.1 count
      exact Or.inr ⟨rows, counted, rfl, rfl, rfl⟩

/-- After a scan that succeeds a search answers, with a count exactly if counting is switched on. -/
theorem exists_answer_of_scan {request : ScanRequest} {rows : List Item} {rest : List Exchange}
    (h : (service.run .asked (.ok accepted) link).Run (⟨.scan request, .ok rows⟩ :: rest) result) :
    ∃ counted, counted.isSome = service.settings.capabilities.context
      ∧ result = .ok (answer accepted rows link counted) := by
  rcases run_cases h with ⟨_, same, _⟩ | ⟨_, counts, same, rfl⟩ | ⟨_, counted, counts, same, rfl⟩
  · cases same
  · cases same
    exact ⟨none, counts.symm, rfl⟩
  · cases same
    exact ⟨some counted, counts.symm, rfl⟩

/-- After a count a search answers. -/
theorem exists_answer_of_count {scanned : Exchange} {predicates : List Predicate}
    {counted : Except StoreError ℕ}
    (h : (service.run .asked (.ok accepted) link).Run
      [scanned, ⟨.count predicates, counted⟩] result) :
    ∃ rows, result = .ok (answer accepted rows link (some counted)) := by
  rcases run_cases h with ⟨_, same, _⟩ | ⟨_, _, same, _⟩ | ⟨rows, _, _, same, rfl⟩
  · cases same
  · cases same
  · cases same
    exact ⟨rows, rfl⟩

/-- A search without a plan asks nothing and fails as the plan did. -/
theorem run_refused {e : SearchError} (h : (service.run .asked (.error e) link).Run trace result) :
    trace = [] ∧ result = .error e :=
  Dialogue.run_done_iff.1 h

/-- A search asks a store what it asks in a dialogue. -/
theorem run_answeredBy {m : Type → Type} [Monad m] [LawfulMonad m] (service : SearchService)
    (store : Store m) (plan : Except SearchError SearchPlan) (link : LinkRel → String → Link) :
    service.run store plan link = (service.run .asked plan link).answeredBy store := by
  cases plan with
  | error e => rfl
  | ok accepted =>
    rw [run_asked, Dialogue.answeredBy]
    refine congrArg (store.scan accepted.scanRequest >>= ·) (funext fun scanned => ?_)
    cases scanned with
    | error fault => rfl
    | ok rows =>
      simp only [countMatches]
      split
      · rw [Dialogue.answeredBy, bind_assoc]
        simp only [pure_bind]
        rfl
      · rw [pure_bind]
        rfl

/-! ## All searches -/

/-- A search goes through its stages if whatever its plan refuses blames the request. -/
theorem staged_run {faulty : Prop} (refuses : (∃ e, plan = .error e) ↔ faulty)
    (blames : ∀ e, plan = .error e → e.isClientError = true) :
    Staged faulty (service.run .asked plan link) := by
  cases plan with
  | error e =>
    have isFaulty : faulty := refuses.1 ⟨e, rfl⟩
    have nothing {trace result} (h : (service.run .asked (.error e) link).Run trace result) :
        trace = [] := (run_refused h).1
    exact
      { total := fun store => Dialogue.exists_run store _
        refused := fun _ trace result h => ⟨nothing h, e, (run_refused h).2, blames e rfl⟩
        scans := fun faultless => absurd isFaulty faultless
        blameless := fun faultless => absurd isFaulty faultless
        scanFails := fun _ _ _ _ h => nomatch nothing h
        answers := fun _ _ _ _ h => nomatch nothing h
        sameUncounted := fun _ _ _ _ _ _ h => nomatch nothing h
        counted := fun _ _ _ _ h => nomatch nothing h
        countFails := fun _ _ _ _ h => nomatch nothing h }
  | ok accepted =>
    have faultless : ¬ faulty := fun isFaulty => nomatch refuses.2 isFaulty
    refine
      { total := fun store => Dialogue.exists_run store _
        refused := fun isFaulty => absurd isFaulty faultless
        scans := fun _ trace result h => ?_
        blameless := fun _ trace e h => ?_
        scanFails := fun request fault rest result h => ?_
        answers := fun request rows rest result h => ?_
        sameUncounted := fun request rows rest rest' response response' h h' => ?_
        counted := fun scanned predicates n response h => ?_
        countFails := fun scanned predicates fault response h => ?_ }
    · rcases run_cases h with ⟨fault, rfl, _⟩ | ⟨rows, _, rfl, _⟩ | ⟨rows, counted, _, rfl, _⟩
      · exact ⟨_, _, _, rfl, nofun⟩
      · exact ⟨_, _, _, rfl, nofun⟩
      · exact ⟨_, _, _, rfl, List.forall_mem_singleton.2 ⟨_, counted, rfl⟩⟩
    · rcases run_cases h with ⟨fault, _, same⟩ | ⟨rows, _, _, same⟩ | ⟨rows, counted, _, _, same⟩
      · cases same
        cases fault <;> rfl
      · cases same
      · cases same
    · rcases run_cases h with ⟨fault, same, rfl⟩ | ⟨rows, _, same, _⟩ | ⟨rows, counted, _, same, _⟩
      · cases same
        exact ⟨rfl, by cases fault <;> rfl⟩
      · cases same
      · cases same
    · obtain ⟨_, _, answered⟩ := exists_answer_of_scan h
      exact ⟨_, answered⟩
    · obtain ⟨counted, counts, answered⟩ := exists_answer_of_scan h
      obtain ⟨counted', counts', answered'⟩ := exists_answer_of_scan h'
      cases answered
      cases answered'
      exact sameUncounted_answer rows (counts.trans counts'.symm)
    · obtain ⟨rows, answered⟩ := exists_answer_of_count h
      cases answered
      exact ⟨_, rfl, rfl, rfl, rfl⟩
    · obtain ⟨rows, answered⟩ := exists_answer_of_count h
      cases answered
      exact ⟨_, rfl, rfl, rfl, rfl⟩

/--
Whatever store it runs over, each search goes through its stages, asking the store what it asks in
a dialogue: what is wrong with a request is found before the store is asked, a failing scan is
reported as what it is, and a failing count costs no more than the number of matches.
-/
theorem staged {m : Type → Type} [Monad m] [LawfulMonad m] (service : SearchService)
    (store : Store m) :
    (∀ request, Staged (request.Faulty service.registry service.settings)
        (service.search .asked request)
      ∧ service.search store request = (service.search .asked request).answeredBy store)
    ∧ (∀ params, Staged (params.Faulty service.registry service.settings)
        (service.getSearch .asked params)
      ∧ service.getSearch store params = (service.getSearch .asked params).answeredBy store)
    ∧ ∀ collection limit token, Staged (FaultyListing service.settings limit token)
        (service.itemCollection .asked collection limit token)
      ∧ service.itemCollection store collection limit token
        = (service.itemCollection .asked collection limit token).answeredBy store := by
  refine ⟨fun request => ⟨?_, run_answeredBy service store _ _⟩,
    fun params => ⟨?_, run_answeredBy service store _ _⟩,
    fun collection limit token => ⟨?_, run_answeredBy service store _ _⟩⟩
  · exact staged_run SearchRequest.exists_error_iff fun _ failed => (faulty_of_planSearch failed).2
  · exact staged_run SearchParams.exists_error_iff fun _ failed =>
      (faulty_of_toRequest_plan failed).2
  · exact staged_run exists_error_planItems_iff fun _ failed => (faulty_of_planItems failed).2

end SearchService

/-! ## A store that cannot count -/

namespace Sample

/-- A service that counts. -/
def countingService : SearchService where
  registry := .builtin
  settings := openSettings

/-- A store without items that cannot count them. -/
def uncountable : Store Id where
  scan _ := .ok []
  count _ := .error (.unavailable "offline")
  get _ := .ok none
  collections := .ok []
  getCollection _ := .ok none

/-- A request for pages of no size asks nothing; where counting fails the number is left out. -/
theorem staged_of_uncountable :
    (∀ trace result, (countingService.search .asked { SearchRequest.all with limit := some 0 }).Run
        trace result → trace = [])
      ∧ ∃ response, countingService.search uncountable .all = .ok response
        ∧ ∃ context, response.context = some context ∧ context.matched = none := by
  obtain ⟨searches, _, _⟩ := SearchService.staged countingService uncountable
  have empty : ({ SearchRequest.all with limit := some 0 } : SearchRequest).Faulty
      countingService.registry countingService.settings := .limit (Or.inl rfl)
  obtain ⟨staged, answered⟩ := searches .all
  refine ⟨fun trace result run => ((searches _).1.refused empty trace result run).1, ?_⟩
  have run : (countingService.search .asked .all).Run
      [⟨.scan _, .ok []⟩, ⟨.count _, .error (.unavailable "offline")⟩] (.ok _) :=
    .ask _ (.ask _ (.done _))
  obtain ⟨context, there, uncounted, _⟩ := staged.countFails _ _ _ _ run
  exact ⟨_, answered, context, there, uncounted⟩

end Sample

end CatalogSearch
