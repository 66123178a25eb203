import TableMapper.Mapper.Keyed

/-! # Mappers in steps

Clients that share a database and a cache take turns between the steps of their operations. A look-up looks
into the cache, asks the database and keeps the row; a write runs its statement and forgets the row. The steps
of an operation with nobody between them make up the operation: `all_find`, `all_overwrite`.
-/

namespace TableMapper

variable {σ α β : Type}

/-- Work as one step after the other. A step changes the client, and what comes next depends on the client
that it found. -/
inductive Steps (σ α : Type) where
  | done (answer : Except Error α)
  | step (act : Client σ → Client σ) (next : Client σ → Steps σ α)

namespace Steps

/-- Work in a single step. -/
def atomic (work : Mapping σ α) : Steps σ α :=
  .step (fun c => (work.run.run c).2) fun c => .done (work.run.run c).1

def andThen : Steps σ α → (α → Steps σ β) → Steps σ β
  | .done (.ok a), next => next a
  | .done (.error e), _ => .done (.error e)
  | .step act rest, next => .step act fun c => (rest c).andThen next

instance : Monad (Steps σ) where
  pure a := .done (.ok a)
  bind := andThen

/-- All steps, with nobody between them. -/
def all : Steps σ α → Client σ → Except Error α × Client σ
  | .done answer, c => (answer, c)
  | .step act next, c => (next c).all (act c)

theorem all_andThen (p : Steps σ α) (next : α → Steps σ β) (c : Client σ) :
    (p.andThen next).all c =
      match p.all c with
      | (.ok a, c') => (next a).all c'
      | (.error e, c') => (.error e, c') := by
  induction p generalizing c with
  | done answer => cases answer <;> rfl
  | step act rest ih => exact ih c (act c)

/-- Steps that make up given work, for a given client. -/
def MakeUp (p : Steps σ α) (work : Mapping σ α) (c : Client σ) : Prop := p.all c = work.run.run c

namespace MakeUp

variable {c : Client σ}

theorem atomic (work : Mapping σ α) : (Steps.atomic work).MakeUp work c := rfl

theorem pure (a : α) : (Pure.pure a : Steps σ α).MakeUp (Pure.pure a) c := rfl

theorem done (answer : Except Error α) : (Steps.done answer).MakeUp (Mapping.ofExcept answer) c := by
  cases answer <;> rfl

theorem bind {p : Steps σ α} {work : Mapping σ α} {next : α → Steps σ β} {rest : α → Mapping σ β}
    (first : p.MakeUp work c)
    (others : ∀ a c', work.run.run c = (.ok a, c') → (next a).MakeUp (rest a) c') :
    (p >>= next).MakeUp (work >>= rest) c := by
  refine (all_andThen p next c).trans ?_
  rw [show p.all c = work.run.run c from first]
  simp only [ExceptT.run_bind, StateT.run_bind]
  cases ran : work.run.run c with
  | mk answer c' =>
      cases answer with
      | error e => rfl
      | ok a => exact others a c' ran

end MakeUp

end Steps

/-! ## Operations -/

namespace Mapping

/-- A look-up of a client with a cache: the steps are those into the cache, into the database and back into
the cache. -/
def lookUp (α : Type) [Entity α] (x : Executor σ) (key : String) (q : Query) : Steps σ (Option α) := do
  match ← .atomic (cached? key) with
  | some row => do pure (some (← .done (Decodable.ofRow row)))
  | none =>
    let statement ← .done (q.build .select)
    match ← .atomic (onDatabase (x.fetchFirst statement)) with
    | none => pure none
    | some row =>
      let e ← .done (Decodable.ofRow row)
      .atomic (keep key row)
      pure (some e)

theorem makeUp_lookUp [Entity α] (x : Executor σ) (key : String) (q : Query) (s : σ) (cache : Cache) :
    (lookUp α x key q).MakeUp (fetchOneCached α x key q) ⟨s, some cache⟩ := by
  have looked : (fetchOneCached α x key q).run.run ⟨s, some cache⟩ =
      (do
        match ← cached? key with
        | some row => do pure (some (← ofExcept (Decodable.ofRow row)))
        | none =>
          let statement ← ofExcept (q.build .select)
          match ← onDatabase (x.fetchFirst statement) with
          | none => pure none
          | some row =>
            let e ← ofExcept (Decodable.ofRow row)
            keep key row
            pure (some e) : Mapping σ (Option α)).run.run ⟨s, some cache⟩ := rfl
  refine Eq.trans ?_ looked.symm
  refine Steps.MakeUp.bind (.atomic _) fun held _ _ => ?_
  cases held with
  | some row => exact .bind (.done _) fun _ _ _ => .pure _
  | none =>
      refine .bind (.done _) fun statement _ _ => .bind (.atomic _) fun found _ _ => ?_
      cases found with
      | none => exact .pure _
      | some row => exact .bind (.done _) fun e _ _ => .bind (.atomic _) fun _ _ _ => .pure _

end Mapping

namespace RecordType

variable {t : RecordType}

/-- A look-up by key in a table that is cached, for a client with a cache. -/
def findSteps (t : RecordType) (x : Executor σ) (key : List (String × Value)) : Steps σ (Option (Record t)) := do
  let q ← .done (Select.addPrimaryKey (Record t) key (Select.baseQuery (Record t)))
  Mapping.lookUp (Record t) x (t.cacheKey key) q

theorem all_find (cached : t.cacheEnabled = true) (x : Executor σ) (key : List (String × Value)) (s : σ)
    (cache : Cache) : (t.findSteps x key).all ⟨s, some cache⟩ = (t.find x key).run.run ⟨s, some cache⟩ := by
  refine Steps.MakeUp.bind (.done _) fun q c ran => ?_
  have same : c = ⟨s, some cache⟩ := by
    cases built : Select.addPrimaryKey (Record t) key (Select.baseQuery (Record t)) <;>
      rw [built] at ran <;> cases ran
    rfl
  rw [same, if_pos cached]
  exact Mapping.makeUp_lookUp x _ q s cache

/-- A write of a record that forgets its cached row. -/
inductive Overwrite (t : RecordType) where
  | update (r : Record t)
  | delete (r : Record t)

namespace Overwrite

def record : Overwrite t → Record t
  | update r => r
  | delete r => r

/-- What the write does in the database. -/
def work (x : Executor σ) : Overwrite t → Access σ Nat
  | update r => Write.update x r
  | delete r => Write.delete x r

def perform (x : Executor σ) : Overwrite t → Mapping σ Nat
  | update r => t.update x r
  | delete r => t.delete x r

/-- A write in a table that is cached. -/
def steps (w : Overwrite t) (x : Executor σ) : Steps σ Nat := do
  let affected ← .atomic (Mapping.onDatabase (w.work x))
  .atomic (Mapping.forget (t.cacheKey (Entity.keyValues w.record)))
  pure affected

theorem all_overwrite (w : Overwrite t) (cached : t.cacheEnabled = true) (x : Executor σ) (c : Client σ) :
    (w.steps x).all c = (w.perform x).run.run c := by
  have forgets (r : Record t) :
      (t.invalidate r : Mapping σ Unit) = Mapping.forget (t.cacheKey (Entity.keyValues r)) := if_pos cached
  cases w with
  | update r | delete r =>
      refine Steps.MakeUp.bind (.atomic _) fun _ _ _ => ?_
      rw [forgets]
      exact .bind (.atomic _) fun _ _ _ => .pure _

end Overwrite

end RecordType

end TableMapper
