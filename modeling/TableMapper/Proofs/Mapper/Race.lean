import TableMapper.Proofs.Mapper.Cached
import TableMapper.Proofs.Mapper.Steps
import TableMapper.Proofs.Outcome

/-! # Races between mappers

A look-up and a write of one row by clients that share a database and a cache. Nothing keeps the clients apart,
and the order in which they take turns decides whether the cache has the row of the database in the end. It
has, or has none, in every order but one: when the row is fetched before it is written, and kept after it was
forgotten. Main statement: `find_beside_overwrite`.
-/

namespace TableMapper

variable {σ α β : Type}

/-- Whose turn it is. -/
inductive Party where
  | reader | writer
  deriving DecidableEq

open Party

namespace Steps

/-- The answers and the client after the parties have taken turns in a given order, if these are the turns that
it takes both to finish. -/
def interleave : List Party → Steps σ α → Steps σ β → Client σ →
    Option (Except Error α × Except Error β × Client σ)
  | [], .done a, .done b, c => some (a, b, c)
  | reader :: turns, .step act next, q, c => interleave turns (next c) q (act c)
  | writer :: turns, p, .step act next, c => interleave turns p (next c) (act c)
  | _, _, _, _ => none

/-- In whatever order the parties take turns, what they leave has a property. -/
def Always (p : Steps σ α) (q : Steps σ β) (s : σ) (cache : Cache) (post : List Party → σ → Cache → Prop) :
    Prop :=
  ∀ turns a b c, interleave turns p q ⟨s, some cache⟩ = some (a, b, c) →
    ∃ s' cache', c = ⟨s', some cache'⟩ ∧ post turns s' cache'

namespace Always

variable {s s₁ s₂ : σ} {cache cache₁ cache₂ : Cache} {post : List Party → σ → Cache → Prop}
  {act act' : Client σ → Client σ} {next : Client σ → Steps σ α} {next' : Client σ → Steps σ β}

theorem mono {p : Steps σ α} {q : Steps σ β} {weaker : List Party → σ → Cache → Prop}
    (always : Always p q s cache post) (weaken : ∀ turns s cache, post turns s cache → weaker turns s cache) :
    Always p q s cache weaker := by
  intro turns a b c taken
  obtain ⟨s', cache', left, held⟩ := always turns a b c taken
  exact ⟨s', cache', left, weaken turns s' cache' held⟩

/-- The turns are all the writer's where the reader has finished. -/
theorem reader_done {a : Except Error α} {q : Steps σ β} (always : Always (.done a) q s cache post) :
    Always (.done a) q s cache fun turns s' cache' => reader ∉ turns ∧ post turns s' cache' := by
  have absent : ∀ turns (q : Steps σ β) c out, interleave turns (.done a) q c = some out → reader ∉ turns := by
    intro turns
    induction turns with
    | nil => exact fun _ _ _ _ => List.not_mem_nil
    | cons party turns ih =>
        intro q c out taken
        cases party with
        | reader => cases taken
        | writer =>
            cases q with
            | done => cases taken
            | step act next => simpa using ih _ _ _ taken
  intro turns a' b c taken
  obtain ⟨s', cache', left, held⟩ := always turns a' b c taken
  exact ⟨s', cache', left, absent _ _ _ _ taken, held⟩

theorem done_done {a : Except Error α} {b : Except Error β} (held : post [] s cache) :
    Always (.done a) (.done b) s cache post := by
  rintro turns a' b' c taken
  cases turns with
  | nil =>
      cases taken
      exact ⟨s, cache, rfl, held⟩
  | cons party turns => cases party <;> cases taken

theorem step_done {b : Except Error β} (acted : act ⟨s, some cache⟩ = ⟨s₁, some cache₁⟩)
    (rest : Always (next ⟨s, some cache⟩) (.done b) s₁ cache₁ fun turns => post (reader :: turns)) :
    Always (.step act next) (.done b) s cache post := by
  rintro turns a' b' c taken
  cases turns with
  | nil => cases taken
  | cons party turns =>
      cases party with
      | reader => exact rest turns a' b' c (acted ▸ taken)
      | writer => cases taken

theorem done_step {a : Except Error α} (acted : act' ⟨s, some cache⟩ = ⟨s₂, some cache₂⟩)
    (rest : Always (.done a) (next' ⟨s, some cache⟩) s₂ cache₂ fun turns => post (writer :: turns)) :
    Always (.done a) (.step act' next') s cache post := by
  rintro turns a' b' c taken
  cases turns with
  | nil => cases taken
  | cons party turns =>
      cases party with
      | reader => cases taken
      | writer => exact rest turns a' b' c (acted ▸ taken)

theorem step_step (acted : act ⟨s, some cache⟩ = ⟨s₁, some cache₁⟩)
    (acted' : act' ⟨s, some cache⟩ = ⟨s₂, some cache₂⟩)
    (first : Always (next ⟨s, some cache⟩) (.step act' next') s₁ cache₁ fun turns => post (reader :: turns))
    (second : Always (.step act next) (next' ⟨s, some cache⟩) s₂ cache₂ fun turns => post (writer :: turns)) :
    Always (.step act next) (.step act' next') s cache post := by
  rintro turns a' b' c taken
  cases turns with
  | nil => cases taken
  | cons party turns =>
      cases party with
      | reader => exact first turns a' b' c (acted ▸ taken)
      | writer => exact second turns a' b' c (acted' ▸ taken)

end Always

end Steps

namespace RecordType

variable {t : RecordType} {x : Executor σ} {k : t.Key}

/-! ## Stages -/

/-- A row was fetched, and is kept next. -/
def holding (t : RecordType) (key : String) (row : Row) (found : Option (Record t)) :
    Steps σ (Option (Record t)) :=
  .step (fun c => { c with cache := c.cache.map (·.insert key row) }) fun _ => .done (.ok found)

/-- The database has answered. -/
def fetched (t : RecordType) (key : String) : Except Error (Option Row) → Steps σ (Option (Record t))
  | .error e => .done (.error e)
  | .ok none => .done (.ok none)
  | .ok (some row) =>
    match t.read (some row) with
    | .error e => .done (.error e)
    | .ok found => holding t key row found

/-- The cache had no row, and the database is asked next. -/
def missed (t : RecordType) (x : Executor σ) (k : t.Key) : Steps σ (Option (Record t)) :=
  let select := x.fetchFirst (.selectWhere t.table t.columns k.cells)
  .step (fun c => { c with database := (select.run.run c.database).2 })
    fun c => fetched t (t.cacheKey k.cells) (select.run.run c.database).1

theorem findSteps_eq (h : t.Keyed) (x : Executor σ) (k : t.Key) : t.findSteps x k.cells =
    .step (fun c => c) fun c =>
      match c.cache.bind (·.get? (t.cacheKey k.cells)) with
      | some row => .done (t.read (some row))
      | none => missed t x k := by
  obtain ⟨q, added, built⟩ := h.selectStatement_eq k
  have keeps (row : Row) : (do
      let e ← .done (Decodable.ofRow row)
      .atomic (Mapping.keep (t.cacheKey k.cells) row)
      pure (some e) : Steps σ (Option (Record t))) = fetched t (t.cacheKey k.cells) (.ok (some row)) := by
    simp only [fetched, read]
    cases (Decodable.ofRow row : Except Error (Record t)) <;> rfl
  rw [findSteps, added]
  refine congrArg (Steps.step fun c => c) (funext fun c => ?_)
  change Steps.andThen (.done (.ok (c.cache.bind (·.get? (t.cacheKey k.cells))))) _ = _
  cases c.cache.bind (·.get? (t.cacheKey k.cells)) with
  | some row =>
      change Steps.andThen (.done (Decodable.ofRow row)) _ = Steps.done ((Decodable.ofRow row).map some)
      cases (Decodable.ofRow row : Except Error (Record t)) <;> rfl
  | none =>
      simp only [Steps.andThen]
      rw [built]
      refine congrArg₂ Steps.step (funext fun c => ?_) (funext fun c => ?_)
      · exact congrArg Prod.snd (Mapping.run_onDatabase _ c)
      · change Steps.andThen (.done ((Mapping.onDatabase _).run.run c).1) _ = _
        rw [Mapping.run_onDatabase]
        cases ((x.fetchFirst (.selectWhere t.table t.columns k.cells)).run.run c.database).1 with
        | error e => rfl
        | ok found =>
            cases found with
            | none => rfl
            | some row => exact keeps row

/-- The row was written, and is forgotten next. -/
def forgetting (t : RecordType) (k : t.Key) (affected : Nat) : Steps σ Nat :=
  .step (fun c => { c with cache := c.cache.map (·.erase (t.cacheKey k.cells)) }) fun _ => .done (.ok affected)

/-- The statement of a write has run. -/
def executed (t : RecordType) (k : t.Key) : Except Error Nat → Steps σ Nat
  | .error e => .done (.error e)
  | .ok affected => forgetting t k affected

/-- The statement of a write runs next. -/
def unwritten (w : Overwrite t) (x : Executor σ) : Steps σ Nat :=
  .step (fun c => { c with database := ((w.work x).run.run c.database).2 })
    fun c => executed t w.record.key ((w.work x).run.run c.database).1

theorem Overwrite.steps_eq (h : t.Keyed) (w : Overwrite t) (x : Executor σ) : w.steps x = unwritten w x := by
  have keys : Entity.keyValues w.record = w.record.key.cells := w.record.keyValues_eq h.distinct
  rw [steps, keys]
  refine congrArg₂ Steps.step (funext fun c => ?_) (funext fun c => ?_)
  · exact congrArg Prod.snd (Mapping.run_onDatabase _ c)
  · change Steps.andThen (.done ((Mapping.onDatabase _).run.run c).1) _ = _
    rw [Mapping.run_onDatabase]
    cases ((w.work x).run.run c.database).1 <;> rfl

def Overwrite.statement : Overwrite t → Except Error Statement
  | update r => Write.updateStatement r
  | delete r => Write.deleteStatement r

theorem Overwrite.run_work (w : Overwrite t) (x : Executor σ) (s : σ) : (w.work x).run.run s =
    match w.statement with
    | .error e => (.error e, s)
    | .ok st => (((x.execute st).run.run s).1.map (·.rowsAffected), ((x.execute st).run.run s).2) := by
  cases built : w.statement with
  | error e => cases w <;> exact Access.run_of_error built _ s
  | ok st => cases w <;> exact Access.run_execute built _ s

/-! ## One row -/

/-- An executor over a row with a key: a look-up answers the row, if it does not fail, and changes nothing
about it, and neither does a statement that fails. -/
structure KeepsRow (x : Executor σ) (t : RecordType) (k : t.Key) (row : σ → Option Row) : Prop where
  select : ∀ s rows, ((x.fetchAll (.selectWhere t.table t.columns k.cells)).run.run s).1 = .ok rows →
    rows = (row s).toList
  unchanged : ∀ s, row ((x.fetchAll (.selectWhere t.table t.columns k.cells)).run.run s).2 = row s
  failed : ∀ s st e s', (x.execute st).run.run s = (.error e, s') → row s' = row s

variable {row : σ → Option Row}

theorem run_fetchFirst_eq (x : Executor σ) (st : Statement) (s : σ) : (x.fetchFirst st).run.run s =
    (((x.fetchAll st).run.run s).1.map (·.head?), ((x.fetchAll st).run.run s).2) := by
  simp only [Executor.fetchFirst, ExceptT.run_bind, StateT.run_bind]
  cases (x.fetchAll st).run.run s with
  | mk answer s' => cases answer <;> rfl

namespace KeepsRow

theorem of_fetchFirst (keeps : KeepsRow x t k row) {s : σ} {found : Option Row}
    (answered : ((x.fetchFirst (.selectWhere t.table t.columns k.cells)).run.run s).1 = .ok found) :
    row s = found := by
  rw [run_fetchFirst_eq] at answered
  obtain ⟨rows, selected, first⟩ := exists_of_map answered
  rw [keeps.select s rows selected] at first
  simpa using first

theorem fetchFirst_unchanged (keeps : KeepsRow x t k row) (s : σ) :
    row ((x.fetchFirst (.selectWhere t.table t.columns k.cells)).run.run s).2 = row s := by
  rw [run_fetchFirst_eq]
  exact keeps.unchanged s

theorem of_failed (keeps : KeepsRow x t k row) (w : Overwrite t) {s : σ} {e : Error}
    (failed : ((w.work x).run.run s).1 = .error e) : row ((w.work x).run.run s).2 = row s := by
  rw [w.run_work] at failed ⊢
  cases statement : w.statement with
  | error e => rfl
  | ok st =>
      rw [statement] at failed
      exact keeps.failed s st _ _ (Prod.ext (error_of_map failed) rfl)

end KeepsRow

/-- The cache has the row of the database, or none. -/
def Fresh (row : σ → Option Row) (k : t.Key) (s : σ) (cache : Cache) : Prop :=
  ∀ kept, cache.get? (t.cacheKey k.cells) = some kept → row s = some kept

namespace Fresh

variable {s s' : σ} {cache : Cache}

theorem empty : Fresh row k s .empty := fun _ held => nomatch held

theorem erase : Fresh row k s (cache.erase (t.cacheKey k.cells)) := by
  intro kept held
  rw [Cache.get?_erase, if_pos rfl] at held
  cases held

theorem insert {r : Row} (stored : row s = some r) : Fresh row k s (cache.insert (t.cacheKey k.cells) r) := by
  intro kept held
  rw [Cache.get?_insert, if_pos rfl] at held
  rw [stored, held]

theorem congr (fresh : Fresh row k s cache) (same : row s' = row s) : Fresh row k s' cache := by
  intro kept held
  rw [same, fresh kept held]

end Fresh

/-- What a race comes to: in one order the cache has the old row, in the others it is fresh. -/
def Outcome (row : σ → Option Row) (k : t.Key) (old : Option Row) (late : List Party) (turns : List Party)
    (s : σ) (cache : Cache) : Prop :=
  turns = late ∧ old ≠ none ∧ cache.get? (t.cacheKey k.cells) = old ∨ turns ≠ late ∧ Fresh row k s cache

namespace Outcome

variable {old : Option Row} {late turns : List Party} {s : σ} {cache : Cache}

theorem cons (outcome : Outcome row k old late turns s cache) (party : Party) :
    Outcome row k old (party :: late) (party :: turns) s cache := by
  rcases outcome with ⟨same, held⟩ | ⟨differ, fresh⟩
  · exact .inl ⟨congrArg _ same, held⟩
  · exact .inr ⟨fun same => differ (List.cons.inj same).2, fresh⟩

/-- The first turn was another's. -/
theorem other {party party' : Party} (fresh : Fresh row k s cache) (differ : party' ≠ party) :
    Outcome row k old (party :: late) (party' :: turns) s cache :=
  .inr ⟨fun same => differ (List.cons.inj same).1, fresh⟩

end Outcome

/-- What is left of a write whose statement has run. -/
def Settling (row : σ → Option Row) (k : t.Key) (s : σ) (cache : Cache) (q : Steps σ Nat) : Prop :=
  (∃ answer, q = .done answer) ∧ Fresh row k s cache ∨ ∃ affected, q = forgetting t k affected

open Steps (Always)

section Stages

variable {s : σ} {cache : Cache} {q : Steps σ Nat} {w : Overwrite t}

theorem always_done_settling (answer : Except Error α) (settling : Settling row k s cache q) :
    Always (.done answer) q s cache fun _ => Fresh row k := by
  rcases settling with ⟨⟨_, rfl⟩, fresh⟩ | ⟨affected, rfl⟩
  · exact .done_done fresh
  · exact .done_step rfl (.done_done .erase)

/-- A write leaves a fresh cache to be forgotten from, or fails and leaves the row. -/
theorem settling_executed (keeps : KeepsRow x t w.record.key row) (fresh : Fresh row w.record.key s cache) :
    Settling row w.record.key ((w.work x).run.run s).2 cache
      (executed t w.record.key ((w.work x).run.run s).1) := by
  cases ran : ((w.work x).run.run s).1 with
  | error e => exact .inl ⟨⟨_, rfl⟩, fresh.congr (keeps.of_failed w ran)⟩
  | ok affected => exact .inr ⟨affected, rfl⟩

/-- A step of a reader beside what is left of a write. It has to do well with whatever is left. -/
theorem always_step_settling {act : Client σ → Client σ} {next : Client σ → Steps σ α}
    (each : ∀ cache q, Settling row k s cache q → ∃ s₁ cache₁, act ⟨s, some cache⟩ = ⟨s₁, some cache₁⟩ ∧
      Always (next ⟨s, some cache⟩) q s₁ cache₁ fun _ => Fresh row k)
    (settling : Settling row k s cache q) : Always (.step act next) q s cache fun _ => Fresh row k := by
  obtain ⟨s₁, cache₁, acted, reads⟩ := each cache q settling
  rcases settling with ⟨⟨answer, rfl⟩, -⟩ | ⟨affected, rfl⟩
  · exact .step_done acted reads
  · obtain ⟨s₂, cache₂, acted', reads'⟩ := each _ (.done (.ok affected)) (.inl ⟨⟨_, rfl⟩, .erase⟩)
    exact .step_step acted rfl reads (.step_done acted' reads')

/-- A reader that holds the row of the database keeps a fresh cache, whatever is left of the write. -/
theorem always_holding_settling {r : Row} (stored : row s = some r) {found : Option (Record t)}
    (settling : Settling row k s cache q) :
    Always (holding t (t.cacheKey k.cells) r found) q s cache fun _ => Fresh row k := by
  refine always_step_settling (fun cache q settling => ⟨s, _, rfl, always_done_settling _ ?_⟩) settling
  exact settling.imp_left (And.imp_right fun _ => .insert stored)

theorem always_fetched_settling {answer : Except Error (Option Row)}
    (stored : ∀ r, answer = .ok (some r) → row s = some r) (settling : Settling row k s cache q) :
    Always (fetched t (t.cacheKey k.cells) answer) q s cache fun _ => Fresh row k := by
  unfold fetched
  split
  · exact always_done_settling _ settling
  · exact always_done_settling _ settling
  · next r =>
    split
    · exact always_done_settling _ settling
    · exact always_holding_settling (stored r rfl) settling

theorem always_missed_settling (keeps : KeepsRow x t k row) (settling : Settling row k s cache q) :
    Always (missed t x k) q s cache fun _ => Fresh row k := by
  refine always_step_settling (fun cache q settling => ⟨_, cache, rfl, always_fetched_settling ?_ ?_⟩) settling
  · exact fun r answered => (keeps.fetchFirst_unchanged s).trans (keeps.of_fetchFirst answered)
  · exact settling.imp_left (And.imp_right fun fresh => fresh.congr (keeps.fetchFirst_unchanged s))

theorem always_find_settling (h : t.Keyed) (keeps : KeepsRow x t k row) (settling : Settling row k s cache q) :
    Always (t.findSteps x k.cells) q s cache fun _ => Fresh row k := by
  rw [findSteps_eq h]
  refine always_step_settling (fun cache q settling => ⟨s, cache, rfl, ?_⟩) settling
  dsimp only [Option.bind_some]
  split
  · exact always_done_settling _ settling
  · exact always_missed_settling keeps settling

/-! ## From the start of the write -/

theorem always_done_unwritten (keeps : KeepsRow x t w.record.key row) (fresh : Fresh row w.record.key s cache)
    (answer : Except Error α) : Always (.done answer) (unwritten w x) s cache fun _ => Fresh row w.record.key :=
  .done_step rfl (always_done_settling answer (settling_executed keeps fresh))

/-- A reader that has finished early takes no part in the order that goes wrong. -/
theorem always_done_outcome (keeps : KeepsRow x t w.record.key row) (fresh : Fresh row w.record.key s cache)
    (answer : Except Error α) {old : Option Row} {late : List Party} (later : reader ∈ late) :
    Always (.done answer) (unwritten w x) s cache (Outcome row w.record.key old late) := by
  refine (Always.reader_done (always_done_unwritten keeps fresh answer)).mono
    fun turns _ _ left => .inr ⟨?_, left.2⟩
  rintro rfl
  exact left.1 later

/-- A row that was fetched earlier stays in the cache if it is kept after it was forgotten. -/
theorem always_holding_forgetting {r : Row} {found : Option (Record t)} {affected : Nat} :
    Always (holding t (t.cacheKey k.cells) r found) (forgetting t k affected) s cache
      (Outcome row k (some r) [writer, reader]) := by
  refine .step_step rfl rfl ?_ (.step_done rfl (.done_done (.inl ⟨rfl, by simp, ?_⟩)))
  · have settling : Settling row k s (cache.insert (t.cacheKey k.cells) r) (forgetting t k affected) :=
      .inr ⟨affected, rfl⟩
    exact (always_done_settling (.ok found) settling).mono fun _ _ _ fresh => .other fresh (by decide)
  · rw [Cache.get?_insert, if_pos rfl]

theorem always_holding_unwritten (keeps : KeepsRow x t w.record.key row) {r : Row} (stored : row s = some r)
    {found : Option (Record t)} :
    Always (holding t (t.cacheKey w.record.key.cells) r found) (unwritten w x) s cache
      (Outcome row w.record.key (some r) [writer, writer, reader]) := by
  refine .step_step rfl rfl ?_ ?_
  · exact (always_done_unwritten keeps (.insert stored) _).mono fun _ _ _ fresh => .other fresh (by decide)
  · cases ran : ((w.work x).run.run s).1 with
    | error e =>
        -- the write has failed, so the row that is kept is still the one in the database
        have same := keeps.of_failed w ran
        exact .step_done rfl (.done_done (.inr ⟨by simp, .insert (same.trans stored)⟩))
    | ok affected => exact always_holding_forgetting.mono fun _ _ _ outcome => outcome.cons writer

theorem always_fetched_unwritten (keeps : KeepsRow x t w.record.key row)
    (fresh : Fresh row w.record.key s cache) {answer : Except Error (Option Row)}
    (stored : ∀ r, answer = .ok (some r) → row s = some r) :
    Always (fetched t (t.cacheKey w.record.key.cells) answer) (unwritten w x) s cache
      (Outcome row w.record.key (row s) [writer, writer, reader]) := by
  unfold fetched
  split
  · exact always_done_outcome keeps fresh _ (by simp)
  · exact always_done_outcome keeps fresh _ (by simp)
  · next r =>
    split
    · exact always_done_outcome keeps fresh _ (by simp)
    · rw [stored r rfl]
      exact always_holding_unwritten keeps (stored r rfl)

theorem always_missed_unwritten (keeps : KeepsRow x t w.record.key row)
    (fresh : Fresh row w.record.key s cache) :
    Always (missed t x w.record.key) (unwritten w x) s cache
      (Outcome row w.record.key (row s) [reader, writer, writer, reader]) := by
  refine .step_step rfl rfl ?_ ?_
  · have same := keeps.fetchFirst_unchanged s
    have reads := always_fetched_unwritten keeps (fresh.congr same) (w := w)
      fun r answered => same.trans (keeps.of_fetchFirst answered)
    rw [same] at reads
    exact reads.mono fun _ _ _ outcome => outcome.cons reader
  · exact (always_missed_settling keeps (settling_executed keeps fresh)).mono
      fun _ _ _ fresh => .other fresh (by decide)

theorem always_find_unwritten (h : t.Keyed) (keeps : KeepsRow x t w.record.key row)
    (fresh : Fresh row w.record.key s cache) :
    Always (t.findSteps x w.record.key.cells) (unwritten w x) s cache
      (Outcome row w.record.key (row s) [reader, reader, writer, writer, reader]) := by
  rw [findSteps_eq h]
  refine .step_step rfl rfl ?_ ?_
  · dsimp only [Option.bind_some]
    split
    · exact (always_done_outcome keeps fresh _ (by simp)).mono fun _ _ _ outcome => outcome.cons reader
    · exact (always_missed_unwritten keeps fresh).mono fun _ _ _ outcome => outcome.cons reader
  · rw [← findSteps_eq h]
    exact (always_find_settling h keeps (settling_executed keeps fresh)).mono
      fun _ _ _ fresh => .other fresh (by decide)

end Stages

/-! ## Afterwards -/

/-- The answers of a number of look-ups, one after the other. -/
def findTimes (t : RecordType) (x : Executor σ) (key : List (String × Value)) :
    Nat → Client σ → List (Except Error (Option (Record t)))
  | 0, _ => []
  | n + 1, c =>
    let (answer, c) := (t.find x key).run.run c
    answer :: findTimes t x key n c

/-- An answer is the row of the database, or the failure of a statement that asked for it. -/
def Tells (x : Executor σ) (k : t.Key) (row : Option Row) (answer : Except Error (Option (Record t))) : Prop :=
  answer = t.read row ∨ ∃ e s, answer = .error e ∧
    ((x.fetchAll (.selectWhere t.table t.columns k.cells)).run.run s).1 = .error e

theorem find_of_fresh (h : t.Keyed) (cached : t.cacheEnabled = true) (keeps : KeepsRow x t k row) {s : σ}
    {cache : Cache} (fresh : Fresh row k s cache) : ∃ answer s' cache',
    (t.find x k.cells).run.run ⟨s, some cache⟩ = (answer, ⟨s', some cache'⟩) ∧ Tells x k (row s) answer ∧
      row s' = row s ∧ Fresh row k s' cache' := by
  rw [← all_find cached, findSteps_eq h]
  simp only [Steps.all, Option.bind_some]
  cases held : cache.get? (t.cacheKey k.cells) with
  | some r => exact ⟨_, s, cache, rfl, .inl (by rw [fresh r held]), rfl, fresh⟩
  | none =>
      have same := keeps.fetchFirst_unchanged s
      simp only [missed, Steps.all]
      cases answered : ((x.fetchFirst (.selectWhere t.table t.columns k.cells)).run.run s).1 with
      | error e =>
          rw [run_fetchFirst_eq] at answered
          exact ⟨_, _, cache, rfl, .inr ⟨e, s, rfl, error_of_map answered⟩, same, fresh.congr same⟩
      | ok found =>
          have stored := keeps.of_fetchFirst answered
          cases found with
          | none => exact ⟨_, _, cache, rfl, .inl (by rw [stored]; rfl), same, fresh.congr same⟩
          | some r =>
              simp only [fetched]
              cases decoded : t.read (some r) with
              | error e => exact ⟨_, _, cache, rfl, .inl (by rw [stored, decoded]), same, fresh.congr same⟩
              | ok found =>
                  exact ⟨_, _, _, rfl, .inl (by rw [stored, decoded]), same, .insert (same.trans stored)⟩

theorem findTimes_of_fresh (h : t.Keyed) (cached : t.cacheEnabled = true) (keeps : KeepsRow x t k row) (n : Nat)
    {s : σ} {cache : Cache} (fresh : Fresh row k s cache) :
    ∀ answer ∈ t.findTimes x k.cells n ⟨s, some cache⟩, Tells x k (row s) answer := by
  induction n generalizing s cache with
  | zero => exact fun _ member => nomatch member
  | succ n ih =>
      obtain ⟨answer, s', cache', ran, tells, same, fresh'⟩ := find_of_fresh h cached keeps fresh
      rw [findTimes, ran, List.forall_mem_cons]
      exact ⟨tells, same ▸ ih fresh'⟩

/-- A look-up and a write of one row, by clients that share a database and a cache which is fresh at first. When
both have finished, the cache is fresh, and all further look-ups tell the row of the database, unless the
reader has missed and fetched before the write and has kept the row after it was forgotten. In that order the
cache has the row from before. -/
theorem find_beside_overwrite (h : t.Keyed) (cached : t.cacheEnabled = true) {w : Overwrite t}
    (keeps : KeepsRow x t w.record.key row) {s : σ} {cache : Cache} (fresh : Fresh row w.record.key s cache)
    {turns : List Party} {a : Except Error (Option (Record t))} {b : Except Error Nat} {c : Client σ}
    (taken : Steps.interleave turns (t.findSteps x w.record.key.cells) (w.steps x) ⟨s, some cache⟩ =
      some (a, b, c)) :
    ∃ s' cache', c = ⟨s', some cache'⟩ ∧
      (turns ≠ [reader, reader, writer, writer, reader] → Fresh row w.record.key s' cache' ∧
        ∀ n, ∀ answer ∈ t.findTimes x w.record.key.cells n c, Tells x w.record.key (row s') answer) ∧
      (turns = [reader, reader, writer, writer, reader] →
        row s ≠ none ∧ cache'.get? (t.cacheKey w.record.key.cells) = row s) := by
  rw [Overwrite.steps_eq h] at taken
  obtain ⟨s', cache', rfl, outcome⟩ := always_find_unwritten h keeps fresh turns a b c taken
  refine ⟨s', cache', rfl, fun differ => ?_, fun late => ?_⟩
  · have fresh' := (outcome.resolve_left fun left => differ left.1).2
    exact ⟨fresh', fun n => findTimes_of_fresh h cached keeps n fresh'⟩
  · exact (outcome.resolve_right fun left => left.1 late).2

end RecordType

/-! ## A race in memory -/

namespace Memory

open RecordType (Fresh KeepsRow Overwrite Tells)

theorem keepsRow (k : RowKey) : KeepsRow executor k.1.type k.2 fun m => rows m k where
  select := by
    intro m found selected
    rw [keyedTables.select m k.1 k.2] at selected
    exact (Except.ok.inj selected).symm
  unchanged := fun m => by rw [keyedTables.select m k.1 k.2]
  failed := fun m st e m' ran => congrFun (keyedTables.failed m st e m' ran) k

def oneUser : Record Shop.user := (Record.new _).setGeneratedId 1

/-- One user is stored. -/
def withUser : Memory := empty.set .user oneUser.key.cells (some ⟨Entity.values oneUser⟩)

/-- The user is deleted between the steps of a look-up, which keeps it before it is forgotten. -/
theorem find_beside_delete_fresh : ∃ a b c,
    Steps.interleave [reader, reader, writer, reader, writer]
      (Shop.user.findSteps executor oneUser.key.cells) ((Overwrite.delete oneUser).steps executor)
      ⟨withUser, some .empty⟩ = some (a, b, c) ∧
    ∃ m cache, c = ⟨m, some cache⟩ ∧ Fresh (fun m => rows m ⟨.user, oneUser.key⟩) oneUser.key m cache ∧
      ∀ n, ∀ answer ∈ Shop.user.findTimes executor oneUser.key.cells n c,
        Tells executor oneUser.key (rows m ⟨.user, oneUser.key⟩) answer := by
  have finished : (Steps.interleave [reader, reader, writer, reader, writer]
      (Shop.user.findSteps executor oneUser.key.cells) ((Overwrite.delete oneUser).steps executor)
      ⟨withUser, some .empty⟩).isSome = true := by decide +kernel
  obtain ⟨⟨a, b, c⟩, taken⟩ := Option.isSome_iff_exists.mp finished
  obtain ⟨m, cache, left, fresh, -⟩ := RecordType.find_beside_overwrite (CachedTable.keyed .user) rfl
    (w := .delete oneUser) (keepsRow ⟨.user, oneUser.key⟩) .empty taken
  exact ⟨a, b, c, taken, m, cache, left, fresh (by decide)⟩

/-- The user is deleted after it was fetched, and kept after it was forgotten: the cache has a user that the
table has not. -/
theorem find_beside_delete_not_fresh : ∃ a b m cache,
    Steps.interleave [reader, reader, writer, writer, reader]
      (Shop.user.findSteps executor oneUser.key.cells) ((Overwrite.delete oneUser).steps executor)
      ⟨withUser, some .empty⟩ = some (a, b, ⟨m, some cache⟩) ∧
    cache.get? (Shop.user.cacheKey oneUser.key.cells) = some ⟨Entity.values oneUser⟩ ∧
    rows m ⟨.user, oneUser.key⟩ = none ∧ ¬ Fresh (fun m => rows m ⟨.user, oneUser.key⟩) oneUser.key m cache := by
  have shown : (Steps.interleave [reader, reader, writer, writer, reader]
      (Shop.user.findSteps executor oneUser.key.cells) ((Overwrite.delete oneUser).steps executor)
      ⟨withUser, some .empty⟩).map (fun (_, _, c) =>
        (c.cache.map (·.get? (Shop.user.cacheKey oneUser.key.cells)), rows c.database ⟨.user, oneUser.key⟩)) =
      some (some (some ⟨Entity.values oneUser⟩), none) := by decide +kernel
  obtain ⟨⟨a, b, m, cache⟩, taken, seen⟩ := Option.map_eq_some_iff.mp shown
  obtain ⟨kept, gone⟩ := Prod.mk.inj seen
  obtain ⟨cache, rfl, held⟩ := Option.map_eq_some_iff.mp kept
  refine ⟨a, b, m, cache, taken, held, gone, fun fresh => ?_⟩
  exact nomatch gone.symm.trans (fresh _ held)

end Memory

end TableMapper
