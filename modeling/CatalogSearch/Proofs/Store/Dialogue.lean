import CatalogSearch.Store

/-!
# Dialogues with a store

Over a store that only takes down what it is asked, a computation becomes a dialogue: at each
question it stands open what it does for every answer. What holds of a dialogue holds over all
stores, whatever they answer and however they fail.

* `Dialogue.Run` : a run of a dialogue, with its questions and the answers to them;
* `Dialogue.exists_run` : there is a run for the answers of every store;
* `Dialogue.answeredBy` : a dialogue whose questions are put to a store.
-/

namespace CatalogSearch

/-! ## Questions and answers -/

/-- What a store is asked. -/
inductive Question where
  | scan (request : ScanRequest)
  | count (predicates : List Predicate)
  | get (id : String)
  | collections
  | getCollection (id : String)

/-- What is answered to a question. -/
abbrev Question.Answer : Question → Type
  | scan _ => Except StoreError (List Item)
  | count _ => Except StoreError Nat
  | get _ => Except StoreError (Option Item)
  | collections => Except StoreError (List Collection)
  | getCollection _ => Except StoreError (Option Collection)

/-- A question and what was answered to it. -/
abbrev Exchange : Type :=
  (question : Question) × question.Answer

/-- The answer of a store to a question. -/
def Store.answer {m : Type → Type} (store : Store m) : (question : Question) → m question.Answer
  | .scan request => store.scan request
  | .count predicates => store.count predicates
  | .get id => store.get id
  | .collections => store.collections
  | .getCollection id => store.getCollection id

/-! ## Dialogues -/

/-- A computation that asks questions and goes on with the answers. -/
inductive Dialogue (α : Type) : Type where
  | done (result : α)
  | ask (question : Question) (next : question.Answer → Dialogue α)

/-- The store that takes down what it is asked. -/
def Store.asked : Store Dialogue where
  scan request := .ask (.scan request) .done
  count predicates := .ask (.count predicates) .done
  get id := .ask (.get id) .done
  collections := .ask .collections .done
  getCollection id := .ask (.getCollection id) .done

namespace Dialogue

variable {α β : Type} {trace : List Exchange} {result : α}

/-- Goes on with the result of a dialogue. -/
def bind : Dialogue α → (α → Dialogue β) → Dialogue β
  | done result, f => f result
  | ask question next, f => ask question fun answer => (next answer).bind f

instance : Monad Dialogue where
  pure := done
  bind := bind

/-! ## Runs -/

/-- A dialogue has a result after these exchanges. -/
inductive Run : Dialogue α → List Exchange → α → Prop
  | done (result : α) : Run (done result) [] result
  | ask {question : Question} {next : question.Answer → Dialogue α} (answer : question.Answer)
      {trace : List Exchange} {result : α} (run : Run (next answer) trace result) :
      Run (ask question next) (⟨question, answer⟩ :: trace) result

/-- A dialogue that is done asks nothing more. -/
theorem run_done_iff {final : α} : (done final).Run trace result ↔ trace = [] ∧ result = final := by
  constructor
  · rintro ⟨⟩
    exact ⟨rfl, rfl⟩
  · rintro ⟨rfl, rfl⟩
    exact .done _

/-- A dialogue that asks goes on with the answer. -/
theorem run_ask_iff {question : Question} {next : question.Answer → Dialogue α} :
    (ask question next).Run trace result
      ↔ ∃ answer rest, trace = ⟨question, answer⟩ :: rest ∧ (next answer).Run rest result := by
  constructor
  · rintro ⟨⟩
    exact ⟨_, _, rfl, ‹_›⟩
  · rintro ⟨answer, rest, rfl, run⟩
    exact .ask answer run

/-! ## Stores -/

/-- The computation in which the questions of a dialogue are put to a store. -/
def answeredBy {m : Type → Type} [Monad m] (store : Store m) : Dialogue α → m α
  | done result => pure result
  | ask question next => store.answer question >>= fun answer => (next answer).answeredBy store

/-- Every dialogue has a run in which a store answers. -/
theorem exists_run (store : Store Id) (d : Dialogue α) :
    ∃ trace, d.Run trace (d.answeredBy store) ∧ ∀ x ∈ trace, x.2 = store.answer x.1 := by
  induction d with
  | done result => exact ⟨[], .done result, nofun⟩
  | ask question next ih =>
    obtain ⟨trace, run, answers⟩ := ih (store.answer question)
    exact ⟨⟨question, store.answer question⟩ :: trace, .ask _ run,
      List.forall_mem_cons.2 ⟨rfl, answers⟩⟩

end Dialogue

end CatalogSearch
