import Mathlib.Data.List.Forall2

/-! # Outcomes of steps that may fail

Steps in sequence succeed when all of them do, and fail with the fault of the first that does not.
-/

namespace TableMapper

variable {ε α β : Type u} {x : Except ε α} {next : α → Except ε β}

theorem exists_of_bind {r : β} (h : x >>= next = .ok r) : ∃ a, x = .ok a ∧ next a = .ok r := by
  cases x with
  | error e => cases h
  | ok a => exact ⟨a, rfl, h⟩

theorem error_of_bind {e : ε} (h : x >>= next = .error e) :
    x = .error e ∨ ∃ a, x = .ok a ∧ next a = .error e := by
  cases x with
  | error e' =>
      cases h
      exact .inl rfl
  | ok a => exact .inr ⟨a, rfl, h⟩

theorem error_of_map {f : α → β} {e : ε} (h : x.map f = .error e) : x = .error e := by
  cases x with
  | error => exact congrArg _ (Except.error.inj h)
  | ok => cases h

theorem exists_of_map {f : α → β} {r : β} (h : x.map f = .ok r) : ∃ a, x = .ok a ∧ f a = r := by
  cases x with
  | error e => cases h
  | ok a => exact ⟨a, rfl, Except.ok.inj h⟩

/-- What is seen of an outcome is seen of a success. -/
theorem exists_of_toOption_bind {g : α → Option β} {b : β} (seen : x.toOption.bind g = some b) :
    ∃ a, x = .ok a ∧ g a = some b := by
  cases x with
  | error => cases seen
  | ok a => exact ⟨a, rfl, seen⟩

theorem exists_of_toOption_map {f : α → β} {b : β} (seen : x.toOption.map f = some b) : ∃ a, x = .ok a ∧ f a = b := by
  cases x with
  | error => cases seen
  | ok a => exact ⟨a, rfl, Option.some.inj seen⟩

theorem ok_of_mapError {ε' : Type v} {f : ε → ε'} {a : α} (h : x.mapError f = .ok a) : x = .ok a := by
  cases x with
  | error e => cases h
  | ok b => exact congrArg _ (Except.ok.inj h)

theorem mapError_eq_ok_iff {ε' : Type v} {f : ε → ε'} {a : α} : x.mapError f = .ok a ↔ x = .ok a := by
  constructor
  · exact ok_of_mapError
  · rintro rfl
    rfl

/-- A list has one that it is related to when every member has. -/
theorem exists_forall₂_iff {α β : Type u} {R : α → β → Prop} {l : List α} :
    (∃ r, List.Forall₂ R l r) ↔ ∀ a ∈ l, ∃ b, R a b := by
  induction l with
  | nil => simp
  | cons a l ih =>
      rw [List.forall_mem_cons, ← ih]
      constructor
      · rintro ⟨_, _ | ⟨first, rest⟩⟩
        exact ⟨⟨_, first⟩, _, rest⟩
      · rintro ⟨⟨b, first⟩, r, rest⟩
        exact ⟨b :: r, .cons first rest⟩

/-- A step for each member of a list succeeds when every one does. -/
theorem mapM_eq_ok {f : α → Except ε β} {l : List α} {r : List β} :
    l.mapM f = .ok r ↔ List.Forall₂ (fun a b => f a = .ok b) l r := by
  induction l generalizing r with
  | nil =>
      rw [List.forall₂_nil_left_iff]
      exact ⟨fun h => (Except.ok.inj h).symm, fun h => h ▸ rfl⟩
  | cons a l ih =>
      rw [List.mapM_cons, List.forall₂_cons_left_iff]
      constructor
      · intro h
        obtain ⟨b, first, h⟩ := exists_of_bind h
        obtain ⟨others, rest, h⟩ := exists_of_bind h
        exact ⟨b, others, first, ih.mp rest, (Except.ok.inj h).symm⟩
      · rintro ⟨b, others, first, rest, rfl⟩
        rw [first, ih.mpr rest]
        rfl

theorem mapM_singleton_eq_iff {f g : α → Except ε β} {a b : α} : [a].mapM f = [b].mapM g ↔ f a = g b := by
  rw [List.mapM_cons, List.mapM_cons]
  cases f a <;> cases g b <;> simp [bind, Except.bind, pure, Except.pure]

theorem forM_eq_ok {ε α : Type} {f : α → Except ε Unit} {l : List α} :
    l.forM f = .ok () ↔ ∀ a ∈ l, f a = .ok () := by
  induction l with
  | nil => exact ⟨fun _ _ member => absurd member List.not_mem_nil, fun _ => rfl⟩
  | cons a l ih =>
      change (f a >>= fun _ => l.forM f) = .ok () ↔ _
      rw [List.forall_mem_cons, ← ih]
      constructor
      · intro h
        obtain ⟨⟨⟩, first, rest⟩ := exists_of_bind h
        exact ⟨first, rest⟩
      · rintro ⟨first, rest⟩
        rw [first]
        exact rest

/-! ## Steps with a state -/

section State

variable {ε σ α β : Type} {step : ExceptT ε (StateM σ) α} {s s' : σ}

theorem run_bind_of_ok {a : α} (first : step.run.run s = (.ok a, s')) (next : α → ExceptT ε (StateM σ) β) :
    (step >>= next).run.run s = (next a).run.run s' := by
  change (ExceptT.bindCont next (step s).1) (step s).2 = next a s'
  change step s = _ at first
  rw [first]
  rfl

theorem run_bind_of_error {e : ε} (first : step.run.run s = (.error e, s'))
    (next : α → ExceptT ε (StateM σ) β) : (step >>= next).run.run s = (.error e, s') := by
  change (ExceptT.bindCont next (step s).1) (step s).2 = _
  change step s = _ at first
  rw [first]
  rfl

theorem exists_of_run_bind {next : α → ExceptT ε (StateM σ) β} {b : β}
    (ran : (step >>= next).run.run s = (.ok b, s')) :
    ∃ a s'', step.run.run s = (.ok a, s'') ∧ (next a).run.run s'' = (.ok b, s') := by
  cases first : step.run.run s with
  | mk result s'' =>
      cases result with
      | error e =>
          rw [run_bind_of_error first] at ran
          cases ran
      | ok a =>
          rw [run_bind_of_ok first] at ran
          exact ⟨a, s'', rfl, ran⟩

theorem error_of_run_bind {next : α → ExceptT ε (StateM σ) β} {e : ε}
    (ran : (step >>= next).run.run s = (.error e, s')) :
    step.run.run s = (.error e, s') ∨
      ∃ a s'', step.run.run s = (.ok a, s'') ∧ (next a).run.run s'' = (.error e, s') := by
  cases first : step.run.run s with
  | mk result s'' =>
      cases result with
      | error e' =>
          rw [run_bind_of_error first] at ran
          cases ran
          exact .inl rfl
      | ok a =>
          rw [run_bind_of_ok first] at ran
          exact .inr ⟨a, s'', rfl, ran⟩

end State

end TableMapper
