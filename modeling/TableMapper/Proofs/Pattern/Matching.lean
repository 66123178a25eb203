import TableMapper.Pattern.Match

/-! # What patterns match

A pattern spans the part of a text between two places, in a way that follows its form: a character, a condition on
the one place, parts one after the other, one of two choices, or a part several times over. Matching by sets of
places finds exactly the spans. Repetition without limit needs no more rounds than there are places, as every round
but the last marks a place that was not marked. Main statements: `follows_reach`, `matchesIn_iff`.
-/

namespace TableMapper.Pattern

/-! ## Spans -/

/-- A relation applied `n` times, one after the other. -/
def Steps (R : Nat → Nat → Prop) : Nat → Nat → Nat → Prop
  | 0, i, j => i = j
  | n + 1, i, j => ∃ k, R i k ∧ Steps R n k j

theorem steps_zero_iff {R : Nat → Nat → Prop} {i j : Nat} : Steps R 0 i j ↔ i = j := Iff.rfl

theorem steps_succ_iff {R : Nat → Nat → Prop} {n i j : Nat} :
    Steps R (n + 1) i j ↔ ∃ k, R i k ∧ Steps R n k j := Iff.rfl

theorem steps_add {R : Nat → Nat → Prop} {m n i j : Nat} :
    Steps R (m + n) i j ↔ ∃ k, Steps R m i k ∧ Steps R n k j := by
  induction m generalizing i with
  | zero => simp [steps_zero_iff]
  | succ m ih =>
      rw [Nat.add_right_comm]
      simp only [steps_succ_iff, ih]
      constructor
      · rintro ⟨k, first, k', front, back⟩
        exact ⟨k', ⟨k, first, front⟩, back⟩
      · rintro ⟨k', ⟨k, first, front⟩, back⟩
        exact ⟨k, first, k', front, back⟩

/-- The character before a place of a text. -/
def charBefore (text : List Char) : Nat → Option Char
  | 0 => none
  | i + 1 => text[i]?

/-- A pattern matches the part of a text between two places. -/
def Spans (text : List Char) : Pattern → Nat → Nat → Prop
  | .empty, i, j => i = j
  | .char k, i, j => j = i + 1 ∧ ∃ c, text[i]? = some c ∧ k.holds c = true
  | .place p, i, j => i = j ∧ p.holds (charBefore text i) text[i]? = true
  | .seq p q, i, j => ∃ k, Spans text p i k ∧ Spans text q k j
  | .alt p q, i, j => Spans text p i j ∨ Spans text q i j
  | .times p least most, i, j =>
      ∃ n, least ≤ n ∧ (∀ m ∈ most, n ≤ max least m) ∧ Steps (Spans text p) n i j

section

variable {text : List Char} {p q : Pattern} {i j : Nat}

theorem spans_empty_iff : Spans text .empty i j ↔ i = j := Iff.rfl

theorem spans_char_iff {k : CharSet} :
    Spans text (.char k) i j ↔ j = i + 1 ∧ ∃ c, text[i]? = some c ∧ k.holds c = true := Iff.rfl

theorem spans_place_iff {condition : Place} :
    Spans text (.place condition) i j ↔ i = j ∧ condition.holds (charBefore text i) text[i]? = true := Iff.rfl

theorem spans_seq_iff : Spans text (.seq p q) i j ↔ ∃ k, Spans text p i k ∧ Spans text q k j := Iff.rfl

theorem spans_alt_iff : Spans text (.alt p q) i j ↔ Spans text p i j ∨ Spans text q i j := Iff.rfl

theorem spans_times_iff {least : Nat} {most : Option Nat} : Spans text (.times p least most) i j ↔
    ∃ n, least ≤ n ∧ (∀ m ∈ most, n ≤ max least m) ∧ Steps (Spans text p) n i j := Iff.rfl

end

/-! ## Sets of places -/

/-- A place is in a set. -/
def Marked (s : Places) (i : Nat) : Prop := s[i]? = some true

theorem marked_union {s t : Places} (same : s.length = t.length) {i : Nat} :
    Marked (s.union t) i ↔ Marked s i ∨ Marked t i := by
  unfold Marked Places.union
  rw [List.getElem?_zipWith]
  by_cases inside : i < s.length
  · rw [List.getElem?_eq_getElem inside, List.getElem?_eq_getElem (same ▸ inside)]
    simp
  · rw [List.getElem?_eq_none (Nat.not_lt.mp inside), List.getElem?_eq_none (same ▸ Nat.not_lt.mp inside)]
    simp

theorem length_union {s t : Places} (same : s.length = t.length) : (s.union t).length = s.length := by
  rw [Places.union, List.length_zipWith, ← same, Nat.min_self]

/-- A union that changes a set marks a place that was not marked. -/
theorem union_eq_or_count_lt {s t : Places} (same : s.length = t.length) :
    s.union t = s ∨ s.count true < (s.union t).count true := by
  induction s generalizing t with
  | nil => exact .inl rfl
  | cons a s ih =>
      cases t with
      | nil => cases same
      | cons b t =>
          have first : Places.union (a :: s) (b :: t) = (a || b) :: Places.union s t := rfl
          rw [first]
          obtain equal | more := ih (Nat.succ.inj same)
          · rw [equal]
            cases a <;> cases b <;> simp
          · right
            cases a <;> cases b <;> simp <;> omega

theorem any_iff_exists_marked {s : Places} : s.any id = true ↔ ∃ i, Marked s i := by
  simp [Marked, List.mem_iff_getElem?]

/-! ## Rounds -/

/-- A step takes every set of places of a text to the places that a relation leads to from there. -/
def Follows (size : Nat) (step : Places → Places) (R : Nat → Nat → Prop) : Prop :=
  ∀ s : Places, s.length = size →
    (step s).length = size ∧ ∀ j, Marked (step s) j ↔ ∃ i, Marked s i ∧ R i j

variable {size : Nat} {step : Places → Places} {R : Nat → Nat → Prop}

theorem follows_iterate (follows : Follows size step R) (n : Nat) : Follows size (iterate step n) (Steps R n) := by
  induction n with
  | zero => exact fun s long => ⟨long, fun j => by simp [iterate, steps_zero_iff]⟩
  | succ n ih =>
      intro s long
      obtain ⟨long', once⟩ := follows s long
      obtain ⟨long'', more⟩ := ih (step s) long'
      rw [iterate]
      split
      · refine ⟨long'', fun j => (more j).trans ?_⟩
        constructor
        · rintro ⟨k, marked, rest⟩
          obtain ⟨i, start, first⟩ := (once k).mp marked
          exact ⟨i, start, k, first, rest⟩
        · rintro ⟨i, start, k, first, rest⟩
          exact ⟨k, (once k).mpr ⟨i, start, first⟩, rest⟩
      · next empty =>
        have none : ∀ i, ¬ Marked s i := fun i marked => empty (any_iff_exists_marked.mpr ⟨i, marked⟩)
        exact ⟨long, fun j => iff_of_false (none j) fun ⟨i, marked, _⟩ => none i marked⟩

/-- A set that a relation does not lead out of. -/
def Closed (R : Nat → Nat → Prop) (s : Places) : Prop := ∀ i j, Marked s i → R i j → Marked s j

theorem Closed.marked_of_steps {s : Places} (closed : Closed R s) {n i j : Nat} (start : Marked s i)
    (steps : Steps R n i j) : Marked s j := by
  induction n generalizing i with
  | zero => exact steps ▸ start
  | succ n ih =>
      obtain ⟨k, first, rest⟩ := steps
      exact ih (closed i k start first) rest

theorem Follows.closed_of_union_eq (follows : Follows size step R) {s : Places} (long : s.length = size)
    (equal : s.union (step s) = s) : Closed R s := by
  intro i j start leads
  obtain ⟨long', once⟩ := follows s long
  rw [← equal, marked_union (long.trans long'.symm)]
  exact .inr ((once j).mpr ⟨i, start, leads⟩)

theorem Follows.closed_of_full (follows : Follows size step R) {s : Places} (long : s.length = size)
    (full : size ≤ s.count true) : Closed R s := by
  intro i j start leads
  obtain ⟨long', once⟩ := follows s long
  have inside : j < s.length := by
    have marked : (step s)[j]? = some true := (once j).mpr ⟨i, start, leads⟩
    obtain ⟨bound, -⟩ := List.getElem?_eq_some_iff.mp marked
    exact long ▸ long' ▸ bound
  have all : ∀ b ∈ s, true = b := List.count_eq_length.mp (Nat.le_antisymm List.count_le_length (long ▸ full))
  exact List.getElem?_eq_some_iff.mpr ⟨inside, (all _ (List.getElem_mem inside)).symm⟩

/-- Every round of `closure` and of `within` adds what one more step leads to. -/
theorem Follows.exists_steps_union (follows : Follows size step R) {s : Places} (long : s.length = size) {j n : Nat} :
    (∃ i, Marked (s.union (step s)) i ∧ Steps R n i j) ↔
      ∃ i, Marked s i ∧ (Steps R n i j ∨ Steps R (n + 1) i j) := by
  obtain ⟨long', once⟩ := follows s long
  simp only [marked_union (long.trans long'.symm), once]
  constructor
  · rintro ⟨k, marked | ⟨i, marked, first⟩, rest⟩
    · exact ⟨k, marked, .inl rest⟩
    · exact ⟨i, marked, .inr ⟨k, first, rest⟩⟩
  · rintro ⟨i, marked, steps | ⟨k, first, rest⟩⟩
    · exact ⟨i, .inl marked, steps⟩
    · exact ⟨k, .inr ⟨i, marked, first⟩, rest⟩

/-- With a round for every place that is not marked, all places are found that the relation leads to. -/
theorem marked_closure (follows : Follows size step R) (fuel : Nat) (s : Places) (long : s.length = size)
    (rounds : size ≤ fuel + s.count true) : (closure step fuel s).length = size ∧
      ∀ j, Marked (closure step fuel s) j ↔ ∃ n i, Marked s i ∧ Steps R n i j := by
  -- a set that is closed has all that can be reached from it, by no step at all
  have done {s : Places} (closed : Closed R s) (j : Nat) : Marked s j ↔ ∃ n i, Marked s i ∧ Steps R n i j :=
    ⟨fun marked => ⟨0, j, marked, rfl⟩, fun ⟨_, _, start, steps⟩ => closed.marked_of_steps start steps⟩
  induction fuel generalizing s with
  | zero =>
      rw [Nat.zero_add] at rounds
      exact ⟨long, done (follows.closed_of_full long rounds)⟩
  | succ fuel ih =>
      have long' := (follows s long).1
      rw [closure]
      split
      · next equal => exact ⟨long, done (follows.closed_of_union_eq long equal)⟩
      · next changed =>
        have more := (union_eq_or_count_lt (long.trans long'.symm)).resolve_left changed
        obtain ⟨length, found⟩ := ih (s.union (step s)) ((length_union (long.trans long'.symm)).trans long) (by omega)
        refine ⟨length, fun j => (found j).trans ?_⟩
        simp only [follows.exists_steps_union long]
        constructor
        · rintro ⟨n, i, start, steps | steps⟩
          · exact ⟨n, i, start, steps⟩
          · exact ⟨n + 1, i, start, steps⟩
        · rintro ⟨n, i, start, steps⟩
          exact ⟨n, i, start, .inl steps⟩

theorem marked_within (follows : Follows size step R) (most : Nat) (s : Places) (long : s.length = size) :
    (within step most s).length = size ∧
      ∀ j, Marked (within step most s) j ↔ ∃ n, n ≤ most ∧ ∃ i, Marked s i ∧ Steps R n i j := by
  induction most generalizing s with
  | zero => exact ⟨long, fun j => by simp [within, steps_zero_iff]⟩
  | succ most ih =>
      have long' := (follows s long).1
      rw [within]
      split
      · next equal =>
        have closed := follows.closed_of_union_eq long equal
        refine ⟨long, fun j => ⟨fun marked => ⟨0, Nat.zero_le _, j, marked, rfl⟩, ?_⟩⟩
        rintro ⟨_, -, _, start, steps⟩
        exact closed.marked_of_steps start steps
      · obtain ⟨length, found⟩ := ih (s.union (step s)) ((length_union (long.trans long'.symm)).trans long)
        refine ⟨length, fun j => (found j).trans ?_⟩
        simp only [follows.exists_steps_union long]
        constructor
        · rintro ⟨n, few, i, start, steps | steps⟩
          · exact ⟨n, by omega, i, start, steps⟩
          · exact ⟨n + 1, by omega, i, start, steps⟩
        · rintro ⟨n, few, i, start, steps⟩
          cases n with
          | zero => exact ⟨0, Nat.zero_le _, i, start, .inl steps⟩
          | succ n => exact ⟨n, by omega, i, start, .inr steps⟩

/-! ## Patterns -/

theorem length_neighbours (before : Option Char) (text : List Char) :
    (neighbours before text).length = text.length + 1 := by
  induction text generalizing before with
  | nil => rfl
  | cons c text ih => rw [neighbours, List.length_cons, ih, List.length_cons]

theorem getElem?_neighbours {text : List Char} {i : Nat} (inside : i ≤ text.length) :
    (neighbours none text)[i]? = some (charBefore text i, text[i]?) := by
  have behind : ∀ (text : List Char) (before : Option Char) (i : Nat), i ≤ text.length →
      (neighbours before text)[i]? = some (if i = 0 then before else text[i - 1]?, text[i]?) := by
    intro text
    induction text with
    | nil =>
        intro before i inside
        obtain rfl := Nat.le_zero.mp inside
        rfl
    | cons c text ih =>
        intro before i inside
        cases i with
        | zero => rfl
        | succ i =>
            rw [neighbours, List.getElem?_cons_succ, ih _ i (Nat.le_of_succ_le_succ inside)]
            cases i <;> rfl
  rw [behind text none i inside]
  cases i <;> rfl

section

variable {text : List Char} {s : Places} {p q : Pattern} {least : Nat}

theorem reach_empty : reach text .empty s = s := rfl

theorem reach_char {k : CharSet} :
    reach text (.char k) s = false :: List.zipWith (fun here c => here && k.holds c) s text := rfl

theorem reach_place {p : Place} :
    reach text (.place p) s =
      List.zipWith (fun here (before, after) => here && p.holds before after) s (neighbours none text) := rfl

theorem reach_seq : reach text (.seq p q) s = reach text q (reach text p s) := rfl

theorem reach_alt : reach text (.alt p q) s = (reach text p s).union (reach text q s) := rfl

theorem reach_times_unlimited :
    reach text (.times p least none) s =
      closure (reach text p) (text.length + 1) (iterate (reach text p) least s) := rfl

theorem reach_times_limited {most : Nat} :
    reach text (.times p least (some most)) s =
      within (reach text p) (most - least) (iterate (reach text p) least s) := rfl

end

theorem follows_char (text : List Char) (k : CharSet) :
    Follows (text.length + 1) (reach text (.char k)) (Spans text (.char k)) := by
  intro s long
  constructor
  · rw [reach_char, List.length_cons, List.length_zipWith, long]
    omega
  · intro j
    cases j with
    | zero => simp [reach_char, Marked, spans_char_iff]
    | succ j =>
        have from' : (∃ i, Marked s i ∧ Spans text (.char k) i (j + 1)) ↔
            Marked s j ∧ ∃ c, text[j]? = some c ∧ k.holds c = true := by
          constructor
          · rintro ⟨i, marked, next, held⟩
            obtain rfl : j = i := Nat.succ.inj next
            exact ⟨marked, held⟩
          · rintro ⟨marked, held⟩
            exact ⟨j, marked, rfl, held⟩
        rw [from', reach_char, Marked, List.getElem?_cons_succ, List.getElem?_zipWith, Marked]
        cases s[j]? <;> cases text[j]? <;> simp

theorem follows_place (text : List Char) (p : Place) :
    Follows (text.length + 1) (reach text (.place p)) (Spans text (.place p)) := by
  intro s long
  constructor
  · rw [reach_place, List.length_zipWith, length_neighbours, long, Nat.min_self]
  · intro j
    have here : (∃ i, Marked s i ∧ Spans text (.place p) i j) ↔
        Marked s j ∧ p.holds (charBefore text j) text[j]? = true := by
      constructor
      · rintro ⟨i, marked, rfl, held⟩
        exact ⟨marked, held⟩
      · rintro ⟨marked, held⟩
        exact ⟨j, marked, rfl, held⟩
    rw [here, reach_place, Marked, List.getElem?_zipWith, Marked]
    by_cases inside : j ≤ text.length
    · rw [getElem?_neighbours inside]
      cases s[j]? <;> simp
    · have none : s[j]? = none := List.getElem?_eq_none (by omega)
      simp [none]

theorem follows_times_unlimited {text : List Char} {p : Pattern}
    (follows : Follows (text.length + 1) (reach text p) (Spans text p)) (least : Nat) :
    Follows (text.length + 1) (reach text (.times p least none)) (Spans text (.times p least none)) := by
  intro s long
  obtain ⟨long', first⟩ := follows_iterate follows least s long
  obtain ⟨length, found⟩ := marked_closure follows (text.length + 1) _ long' (by omega)
  refine ⟨length, fun j => ?_⟩
  rw [reach_times_unlimited, found]
  simp only [first, spans_times_iff, Option.mem_def, reduceCtorEq, false_implies, implies_true, true_and]
  constructor
  · rintro ⟨n, k, ⟨i, start, front⟩, back⟩
    exact ⟨i, start, least + n, Nat.le_add_right .., steps_add.mpr ⟨k, front, back⟩⟩
  · rintro ⟨i, start, n, enough, steps⟩
    obtain ⟨n, rfl⟩ := Nat.exists_eq_add_of_le enough
    obtain ⟨k, front, back⟩ := steps_add.mp steps
    exact ⟨n, k, ⟨i, start, front⟩, back⟩

theorem follows_times_limited {text : List Char} {p : Pattern}
    (follows : Follows (text.length + 1) (reach text p) (Spans text p)) (least most : Nat) :
    Follows (text.length + 1) (reach text (.times p least (some most))) (Spans text (.times p least (some most))) := by
  intro s long
  obtain ⟨long', first⟩ := follows_iterate follows least s long
  obtain ⟨length, found⟩ := marked_within follows (most - least) _ long'
  refine ⟨length, fun j => ?_⟩
  rw [reach_times_limited, found]
  simp only [first, spans_times_iff, Option.mem_def, Option.some.injEq, forall_eq']
  constructor
  · rintro ⟨n, few, k, ⟨i, start, front⟩, back⟩
    exact ⟨i, start, least + n, Nat.le_add_right .., by omega, steps_add.mpr ⟨k, front, back⟩⟩
  · rintro ⟨i, start, n, enough, few, steps⟩
    obtain ⟨n, rfl⟩ := Nat.exists_eq_add_of_le enough
    obtain ⟨k, front, back⟩ := steps_add.mp steps
    exact ⟨n, by omega, k, ⟨i, start, front⟩, back⟩

/-- From a set of places, matching finds the places where the spans from there end. -/
theorem follows_reach (text : List Char) (p : Pattern) :
    Follows (text.length + 1) (reach text p) (Spans text p) := by
  induction p with
  | empty => exact fun s long => ⟨long, fun j => by simp [reach_empty, spans_empty_iff]⟩
  | char k => exact follows_char text k
  | place p => exact follows_place text p
  | seq p q ihp ihq =>
      intro s long
      obtain ⟨long', first⟩ := ihp s long
      obtain ⟨length, second⟩ := ihq (reach text p s) long'
      refine ⟨length, fun j => ?_⟩
      simp only [reach_seq, spans_seq_iff, second, first]
      constructor
      · rintro ⟨k, ⟨i, start, front⟩, back⟩
        exact ⟨i, start, k, front, back⟩
      · rintro ⟨i, start, k, front, back⟩
        exact ⟨k, ⟨i, start, front⟩, back⟩
  | alt p q ihp ihq =>
      intro s long
      obtain ⟨length, first⟩ := ihp s long
      obtain ⟨length', second⟩ := ihq s long
      have same := length.trans length'.symm
      refine ⟨(length_union same).trans length, fun j => ?_⟩
      rw [reach_alt, marked_union same, first, second]
      simp only [spans_alt_iff, and_or_left, exists_or]
  | times p least most ih =>
      cases most with
      | none => exact follows_times_unlimited ih least
      | some most => exact follows_times_limited ih least most

/-- A pattern matches somewhere in a text exactly when it spans a part of the text. -/
theorem matchesIn_iff {p : Pattern} {s : String} :
    p.matchesIn s = true ↔ ∃ i j, i ≤ s.toList.length ∧ Spans s.toList p i j := by
  have found := (follows_reach s.toList p (List.replicate (s.toList.length + 1) true) List.length_replicate).2
  have start (i : Nat) : Marked (List.replicate (s.toList.length + 1) true) i ↔ i ≤ s.toList.length := by
    rw [Marked, List.getElem?_replicate]
    split <;> simp <;> omega
  calc p.matchesIn s = true
    _ ↔ ∃ j, Marked (reach s.toList p (List.replicate (s.toList.length + 1) true)) j := any_iff_exists_marked
    _ ↔ ∃ j i, i ≤ s.toList.length ∧ Spans s.toList p i j := by simp only [found, start]
    _ ↔ ∃ i j, i ≤ s.toList.length ∧ Spans s.toList p i j := exists_comm

theorem spans_textStart_iff {text : List Char} {i j : Nat} (inside : i ≤ text.length) :
    Spans text (.place .textStart) i j ↔ i = 0 ∧ j = 0 := by
  cases i with
  | zero => simp [spans_place_iff, charBefore, Place.holds, eq_comm]
  | succ i =>
      have before : text[i]? = some text[i] := List.getElem?_eq_getElem inside
      simp [spans_place_iff, charBefore, Place.holds, before]

theorem spans_textEnd_iff {text : List Char} {i j : Nat} :
    Spans text (.place .textEnd) i j ↔ i = j ∧ text.length ≤ i := by
  simp [spans_place_iff, Place.holds]

/-- Characters of a set come so many in a row from a place on. -/
theorem steps_char_iff {text : List Char} {k : CharSet} {n i j : Nat} :
    Steps (Spans text (.char k)) n i j ↔
      j = i + n ∧ ((text.drop i).take n).length = n ∧ ∀ c ∈ (text.drop i).take n, k.holds c = true := by
  induction n generalizing i with
  | zero => simpa [steps_zero_iff] using eq_comm
  | succ n ih =>
      have next : Steps (Spans text (.char k)) (n + 1) i j ↔
          (∃ c, text[i]? = some c ∧ k.holds c = true) ∧ Steps (Spans text (.char k)) n (i + 1) j := by
        constructor
        · rintro ⟨_, ⟨rfl, held⟩, rest⟩
          exact ⟨held, rest⟩
        · rintro ⟨held, rest⟩
          exact ⟨i + 1, ⟨rfl, held⟩, rest⟩
      rw [next, ih]
      by_cases inside : i < text.length
      · rw [List.getElem?_eq_getElem inside, List.drop_eq_getElem_cons inside, List.take_succ_cons]
        simp only [Option.some.injEq, exists_eq_left', List.length_cons, Nat.add_right_cancel_iff,
          List.forall_mem_cons, Nat.add_assoc, Nat.add_comm 1]
        exact ⟨fun ⟨first, stop, long, rest⟩ => ⟨stop, long, first, rest⟩,
          fun ⟨stop, long, first, rest⟩ => ⟨first, stop, long, rest⟩⟩
      · rw [List.getElem?_eq_none (Nat.not_lt.mp inside), List.drop_eq_nil_of_le (Nat.not_lt.mp inside)]
        simp

/-! ## Languages -/

/-- The characters between two places of a text. -/
def Part (text : List Char) (i : Nat) (cs : List Char) (j : Nat) : Prop := cs <+: text.drop i ∧ j = i + cs.length

theorem part_nil_iff {text : List Char} {i j : Nat} : Part text i [] j ↔ i = j := by
  simp [Part, eq_comm]

theorem part_append_iff {text front back : List Char} {i j : Nat} :
    Part text i (front ++ back) j ↔ ∃ k, Part text i front k ∧ Part text k back j := by
  have behind (rest : List Char) (whole : text.drop i = front ++ rest) : text.drop (i + front.length) = rest := by
    rw [← List.drop_drop, whole, List.drop_left]
  constructor
  · rintro ⟨⟨rest, whole⟩, rfl⟩
    rw [List.append_assoc] at whole
    refine ⟨i + front.length, ⟨⟨back ++ rest, whole⟩, rfl⟩, ⟨rest, (behind _ whole.symm).symm⟩, ?_⟩
    rw [List.length_append, Nat.add_assoc]
  · rintro ⟨_, ⟨⟨rest, whole⟩, rfl⟩, ⟨rest', whole'⟩, rfl⟩
    rw [behind rest whole.symm] at whole'
    refine ⟨⟨rest', ?_⟩, ?_⟩
    · rw [List.append_assoc, whole', whole]
    · rw [List.length_append, Nat.add_assoc]

/-- A pattern spans the parts of texts that are in a language, wherever they stand. -/
def Spells (p : Pattern) (L : List Char → Prop) : Prop :=
  ∀ text i j, Spans text p i j ↔ ∃ cs, L cs ∧ Part text i cs j

namespace Spells

variable {p q : Pattern} {L M : List Char → Prop}

theorem congr (spells : Spells p L) (same : ∀ cs, L cs ↔ M cs) : Spells p M := by
  intro text i j
  simp only [spells text, same]

theorem empty : Spells .empty fun cs => cs = [] := by
  intro text i j
  simp only [spans_empty_iff, exists_eq_left, part_nil_iff]

theorem char (k : CharSet) : Spells (.char k) fun cs => ∃ c, cs = [c] ∧ k.holds c = true := by
  intro text i j
  have one (c : Char) : [c] <+: text.drop i ↔ text[i]? = some c := by
    rw [← List.head?_drop]
    cases text.drop i <;> simp [eq_comm]
  constructor
  · rintro ⟨rfl, c, found, held⟩
    exact ⟨[c], ⟨c, rfl, held⟩, (one c).mpr found, rfl⟩
  · rintro ⟨_, ⟨c, rfl, held⟩, found, rfl⟩
    exact ⟨rfl, c, (one c).mp found, held⟩

theorem seq (first : Spells p L) (second : Spells q M) :
    Spells (.seq p q) fun cs => ∃ front back, cs = front ++ back ∧ L front ∧ M back := by
  intro text i j
  simp only [spans_seq_iff, first text, second text]
  constructor
  · rintro ⟨k, ⟨front, member, part⟩, back, member', part'⟩
    exact ⟨front ++ back, ⟨front, back, rfl, member, member'⟩, part_append_iff.mpr ⟨k, part, part'⟩⟩
  · rintro ⟨_, ⟨front, back, rfl, member, member'⟩, part⟩
    obtain ⟨k, part, part'⟩ := part_append_iff.mp part
    exact ⟨k, ⟨front, member, part⟩, back, member', part'⟩

theorem steps (each : Spells p L) {text : List Char} {n i j : Nat} : Steps (Spans text p) n i j ↔
    ∃ pieces : List (List Char), pieces.length = n ∧ (∀ piece ∈ pieces, L piece) ∧ Part text i pieces.flatten j := by
  induction n generalizing i with
  | zero => simp [steps_zero_iff, part_nil_iff]
  | succ n ih =>
      simp only [steps_succ_iff, each text, ih]
      constructor
      · rintro ⟨k, ⟨piece, member, part⟩, pieces, rfl, members, part'⟩
        exact ⟨piece :: pieces, rfl, List.forall_mem_cons.mpr ⟨member, members⟩, part_append_iff.mpr ⟨k, part, part'⟩⟩
      · rintro ⟨_ | ⟨piece, pieces⟩, count, members, part⟩
        · cases count
        · obtain ⟨member, members⟩ := List.forall_mem_cons.mp members
          obtain ⟨k, part, part'⟩ := part_append_iff.mp part
          exact ⟨k, ⟨piece, member, part⟩, pieces, Nat.succ.inj count, members, part'⟩

theorem times (each : Spells p L) (least : Nat) : Spells (.times p least none) fun cs =>
    ∃ pieces : List (List Char), cs = pieces.flatten ∧ least ≤ pieces.length ∧ ∀ piece ∈ pieces, L piece := by
  intro text i j
  simp only [spans_times_iff, each.steps]
  constructor
  · rintro ⟨n, enough, -, pieces, rfl, members, part⟩
    exact ⟨_, ⟨pieces, rfl, enough, members⟩, part⟩
  · rintro ⟨_, ⟨pieces, rfl, enough, members⟩, part⟩
    exact ⟨pieces.length, enough, nofun, pieces, rfl, members, part⟩

/-- Characters of a set in a row, in given numbers. -/
theorem chars (k : CharSet) (least : Nat) (most : Option Nat) : Spells (.times (.char k) least most) fun cs =>
    least ≤ cs.length ∧ (∀ m ∈ most, cs.length ≤ max least m) ∧ ∀ c ∈ cs, k.holds c = true := by
  intro text i j
  simp only [spans_times_iff, steps_char_iff]
  constructor
  · rintro ⟨n, enough, bound, rfl, long, held⟩
    exact ⟨(text.drop i).take n, ⟨by rwa [long], by rwa [long], held⟩, List.take_prefix .., by rw [long]⟩
  · rintro ⟨cs, ⟨enough, bound, held⟩, front, rfl⟩
    have same := List.prefix_iff_eq_take.mp front
    exact ⟨cs.length, enough, bound, rfl, by rw [← same], by rwa [← same]⟩

/-- A pattern of two parts that is bound to both ends matches the texts that are one part and the other. -/
theorem matchesIn_iff (first : Spells p L) (second : Spells q M) {s : String} :
    (Pattern.seq (.seq (.seq (.seq .empty (.place .textStart)) p) q) (.place .textEnd)).matchesIn s = true ↔
      ∃ front back, s.toList = front ++ back ∧ L front ∧ M back := by
  have both := first.seq second s.toList
  rw [Pattern.matchesIn_iff]
  constructor
  · rintro ⟨i, j, inside, k, ⟨k', ⟨_, ⟨_, rfl, start⟩, front⟩, back⟩, stop⟩
    obtain ⟨rfl, rfl⟩ := (spans_textStart_iff inside).mp start
    obtain ⟨rfl, all⟩ := spans_textEnd_iff.mp stop
    obtain ⟨cs, member, part, rfl⟩ := (both 0 k).mp ⟨k', front, back⟩
    rw [List.drop_zero] at part
    rw [Nat.zero_add] at all
    exact part.eq_of_length_le all ▸ member
  · intro member
    have part : Part s.toList 0 s.toList s.toList.length := ⟨by simp, (Nat.zero_add _).symm⟩
    obtain ⟨k, front, back⟩ := (both 0 _).mpr ⟨s.toList, member, part⟩
    have start : Spans s.toList (.place .textStart) 0 0 := (spans_textStart_iff (Nat.zero_le _)).mpr ⟨rfl, rfl⟩
    exact ⟨0, s.toList.length, Nat.zero_le _, s.toList.length, ⟨k, ⟨0, ⟨0, rfl, start⟩, front⟩, back⟩,
      spans_textEnd_iff.mpr ⟨rfl, Nat.le_refl _⟩⟩

end Spells

end TableMapper.Pattern
