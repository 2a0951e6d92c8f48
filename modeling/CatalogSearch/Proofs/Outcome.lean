import Mathlib.Data.List.Forall2

/-!
# Computations that can fail

A computation that can fail succeeds only if each of its steps does, and it fails with the error of
its first step that fails.
-/

namespace CatalogSearch

variable {ε α β γ : Type}

/-- A sequence that succeeds has a first step that succeeds. -/
theorem exists_of_bind_eq_ok {x : Except ε α} {f : α → Except ε β} {b : β}
    (h : x >>= f = .ok b) : ∃ a, x = .ok a ∧ f a = .ok b := by
  cases x with
  | error e => cases h
  | ok a => exact ⟨a, rfl, h⟩

/-- An image of a computation that succeeds comes from a result of it. -/
theorem exists_of_map_eq_ok {x : Except ε α} {f : α → β} {b : β} (h : x.map f = .ok b) :
    ∃ a, x = .ok a ∧ f a = b := by
  cases x with
  | error e => cases h
  | ok a => exact ⟨a, rfl, Except.ok.inj h⟩

/-- What is left without the faults is the result of a computation. -/
theorem eq_ok_of_toOption_eq_some {x : Except ε α} {a : α} (h : x.toOption = some a) :
    x = .ok a := by
  cases x with
  | error e => cases h
  | ok b =>
    cases h
    rfl

/-- A computation of which a test holds succeeds. -/
theorem exists_of_toOption_any {x : Except ε α} {test : α → Bool}
    (h : x.toOption.any test = true) : ∃ a, x = .ok a ∧ test a = true := by
  cases x with
  | error e => cases h
  | ok a => exact ⟨a, rfl, h⟩

/-- A sequence that fails does so in its first step, or after it succeeded. -/
theorem error_or_of_bind_eq_error {x : Except ε α} {f : α → Except ε β} {e : ε}
    (h : x >>= f = .error e) : x = .error e ∨ ∃ a, x = .ok a ∧ f a = .error e := by
  cases x with
  | error e' => exact Or.inl (congrArg _ (Except.error.inj h))
  | ok a => exact Or.inr ⟨a, rfl, h⟩

/-- An image of a computation fails as the computation does. -/
theorem eq_error_of_map_eq_error {x : Except ε α} {f : α → β} {e : ε}
    (h : x.map f = .error e) : x = .error e := by
  cases x with
  | error e' => exact congrArg _ (Except.error.inj h)
  | ok a => cases h

/-- An image of a computation fails exactly as the computation does. -/
theorem map_eq_error_iff {x : Except ε α} {f : α → β} {e : ε} :
    x.map f = .error e ↔ x = .error e :=
  ⟨eq_error_of_map_eq_error, fun failed => failed ▸ rfl⟩

/-- The error of a computation whose errors are renamed is the new name of one. -/
theorem exists_of_mapError_eq_error {ε' : Type} {x : Except ε α} {f : ε → ε'} {e : ε'}
    (h : x.mapError f = .error e) : ∃ e', x = .error e' ∧ f e' = e := by
  cases x with
  | error e' => exact ⟨e', rfl, Except.error.inj h⟩
  | ok a => cases h

/-- A computation whose errors are renamed succeeds as it did. -/
theorem mapError_eq_ok_iff {ε' : Type} {x : Except ε α} {f : ε → ε'} {a : α} :
    x.mapError f = .ok a ↔ x = .ok a := by
  cases x with
  | error e => exact iff_of_false nofun nofun
  | ok b =>
    rw [Except.mapError]
    exact ⟨fun same => congrArg _ (Except.ok.inj same), fun same => congrArg _ (Except.ok.inj same)⟩

/--
Sequences with the same first step are in a relation if equal errors are, and what follows where the
step succeeds.
-/
theorem related_bind {R : Except ε β → Except ε γ → Prop} {x : Except ε α} {f : α → Except ε β}
    {g : α → Except ε γ} (failed : ∀ e, R (.error e) (.error e))
    (passed : ∀ a, x = .ok a → R (f a) (g a)) : R (x >>= f) (x >>= g) := by
  cases x with
  | error e => exact failed e
  | ok a => exact passed a rfl

/-- A sequence is an image of another one with the same first step if what follows this step is. -/
theorem bind_eq_map {x : Except ε α} {f : α → Except ε γ} {g : α → Except ε β} {h : β → γ}
    (rest : ∀ a, f a = (g a).map h) : x >>= f = (x >>= g).map h := by
  cases x with
  | error e => rfl
  | ok a => exact rest a

/-- A computation on what is there, if anything is, fails on it. -/
theorem exists_of_optionMapM_eq_error {x : Option α} {f : α → Except ε β} {e : ε}
    (h : x.mapM f = .error e) : ∃ a, f a = .error e := by
  cases x with
  | none => cases h
  | some a => exact ⟨a, eq_error_of_map_eq_error h⟩

/-! ## Rows that are tied -/

/-- Each entry of a row is tied to one of the other row. -/
theorem exists_mem_of_forall₂_left {R : α → β → Prop} {xs : List α} {ys : List β}
    (tied : List.Forall₂ R xs ys) {x : α} (mem : x ∈ xs) : ∃ y ∈ ys, R x y := by
  induction tied with
  | nil => cases mem
  | cons first _ ih =>
    rcases List.mem_cons.1 mem with rfl | mem
    · exact ⟨_, List.mem_cons_self, first⟩
    · obtain ⟨y, hy, related⟩ := ih mem
      exact ⟨y, List.mem_cons_of_mem _ hy, related⟩

/-- Each entry of the other row is tied to one of the row. -/
theorem exists_mem_of_forall₂_right {R : α → β → Prop} {xs : List α} {ys : List β}
    (tied : List.Forall₂ R xs ys) {y : β} (mem : y ∈ ys) : ∃ x ∈ xs, R x y :=
  exists_mem_of_forall₂_left (R := fun y x => R x y) tied.flip mem

/-! ## Lists of computations -/

variable {f : α → Except ε β} {xs : List α} {ys : List β}

/-- A list of computations succeeds only if its first one and the other ones do. -/
theorem exists_of_mapM_cons_eq_ok {x : α} (h : (x :: xs).mapM f = .ok ys) :
    ∃ y rest, f x = .ok y ∧ xs.mapM f = .ok rest ∧ ys = y :: rest := by
  rw [List.mapM_cons] at h
  obtain ⟨y, first, h⟩ := exists_of_bind_eq_ok h
  obtain ⟨rest, others, h⟩ := exists_of_bind_eq_ok h
  exact ⟨y, rest, first, others, (Except.ok.inj h).symm⟩

/-- A list of computations succeeds exactly if each of them does, with their results in order. -/
theorem mapM_eq_ok_iff : xs.mapM f = .ok ys ↔ List.Forall₂ (fun x y => f x = .ok y) xs ys := by
  induction xs generalizing ys with
  | nil =>
    rw [List.forall₂_nil_left_iff, List.mapM_nil]
    exact ⟨fun same => (Except.ok.inj same).symm, fun none => congrArg _ none.symm⟩
  | cons x xs ih =>
    rw [List.forall₂_cons_left_iff]
    constructor
    · intro h
      obtain ⟨y, rest, first, others, rfl⟩ := exists_of_mapM_cons_eq_ok h
      exact ⟨y, rest, first, ih.1 others, rfl⟩
    · rintro ⟨y, rest, first, others, rfl⟩
      rw [List.mapM_cons, first, ih.2 others]
      rfl

/-- Each computation of a list that succeeds does so. -/
theorem exists_of_mapM_eq_ok (h : xs.mapM f = .ok ys) {x : α} (mem : x ∈ xs) :
    ∃ y ∈ ys, f x = .ok y :=
  exists_mem_of_forall₂_left (mapM_eq_ok_iff.1 h) mem

/-- Each result of a list of computations is that of one of them. -/
theorem exists_of_mem_mapM (h : xs.mapM f = .ok ys) {y : β} (mem : y ∈ ys) :
    ∃ x ∈ xs, f x = .ok y :=
  exists_mem_of_forall₂_right (mapM_eq_ok_iff.1 h) mem

/-- A list of computations fails exactly if one of them does behind others that succeed. -/
theorem mapM_eq_error_iff {e : ε} : xs.mapM f = .error e ↔ ∃ before x after,
    xs = before ++ x :: after ∧ (∀ y ∈ before, ∃ b, f y = .ok b) ∧ f x = .error e := by
  induction xs with
  | nil =>
    refine iff_of_false nofun ?_
    rintro ⟨before, x, after, split, _⟩
    exact List.append_ne_nil_of_right_ne_nil _ (List.cons_ne_nil _ _) split.symm
  | cons head xs ih =>
    rw [List.mapM_cons]
    constructor
    · intro h
      rcases error_or_of_bind_eq_error h with failed | ⟨y, first, h⟩
      · exact ⟨[], head, xs, rfl, nofun, failed⟩
      · rcases error_or_of_bind_eq_error h with others | ⟨_, _, h⟩
        · obtain ⟨before, x, after, rfl, passed, failed⟩ := ih.1 others
          exact ⟨head :: before, x, after, rfl, List.forall_mem_cons.2 ⟨⟨y, first⟩, passed⟩, failed⟩
        · cases h
    · rintro ⟨before, x, after, split, passed, failed⟩
      cases before with
      | nil =>
        cases split
        rw [failed]
        rfl
      | cons y before =>
        cases split
        obtain ⟨⟨b, first⟩, passed⟩ := List.forall_mem_cons.1 passed
        rw [first, ih.2 ⟨before, x, after, rfl, passed, failed⟩]
        rfl

/-- A list of computations fails with the error of one of them. -/
theorem exists_of_mapM_eq_error {e : ε} (h : xs.mapM f = .error e) : ∃ x ∈ xs, f x = .error e := by
  obtain ⟨before, x, after, rfl, _, failed⟩ := mapM_eq_error_iff.1 h
  exact ⟨x, List.mem_append_right _ List.mem_cons_self, failed⟩

/-- A fold fails with the error of one of its steps. -/
theorem exists_of_foldlM_eq_error {step : β → α → Except ε β} {b : β} {e : ε}
    (h : xs.foldlM step b = .error e) : ∃ x ∈ xs, ∃ b, step b x = .error e := by
  induction xs generalizing b with
  | nil => cases h
  | cons head xs ih =>
    rw [List.foldlM_cons] at h
    rcases error_or_of_bind_eq_error h with first | ⟨_, _, others⟩
    · exact ⟨head, List.mem_cons_self, b, first⟩
    · obtain ⟨x, mem, failed⟩ := ih others
      exact ⟨x, List.mem_cons_of_mem _ mem, failed⟩

/-! ## Lists of results that may be missing -/

section Missing

variable {f : α → Option β}

/-- A list of computations has results exactly if each of them has one. -/
theorem mapM_eq_some_iff : xs.mapM f = some ys ↔ xs.map f = ys.map some := by
  induction xs generalizing ys with
  | nil => cases ys <;> simp [List.mapM_nil, pure]
  | cons x xs ih =>
    rw [List.mapM_cons]
    cases ys with
    | nil => cases f x <;> cases xs.mapM f <;> simp [bind, pure]
    | cons y ys =>
      rw [List.map_cons, List.map_cons, List.cons.injEq, ← ih]
      cases f x <;> cases xs.mapM f <;> simp [bind, pure]

/-- A list of computations has no results exactly if one of them has none. -/
theorem mapM_eq_none_iff : xs.mapM f = none ↔ ∃ x ∈ xs, f x = none := by
  induction xs with
  | nil => simp [List.mapM_nil, pure]
  | cons x xs ih =>
    rw [List.mapM_cons, List.exists_mem_cons_iff, ← ih]
    cases f x <;> cases xs.mapM f <;> simp [bind, pure]

/-- A list of computations with known results has the list of these. -/
theorem mapM_eq_some_map {g : α → β} (h : ∀ x ∈ xs, f x = some (g x)) :
    xs.mapM f = some (xs.map g) := by
  rw [mapM_eq_some_iff, List.map_map]
  exact List.map_congr_left h

end Missing

end CatalogSearch
