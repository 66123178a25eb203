import TableMapper.Proofs.Query.Freshness

/-! # Names that are handed out

A base that is free is handed out itself. A base that is taken gets numbers behind it, from one on, until a name is
free. The numbers give different names and none of them is the base, which takes one of the places, so there are
not enough placeholders to hold as many of them as there are places: the search ends, and what stands in its stead if
it did not is never used. Main statement: `allocate_least`.
-/

namespace TableMapper.Bindings

variable {b : Bindings} {base : String} {n m : Nat}

/-- The search through the numbered names of a base, from `n` on and with no end in sight, stops at the number `m`. -/
inductive Seeks (b : Bindings) (base : String) : Nat → Nat → Prop
  | free {n : Nat} (new : candidate base n ∉ b.placeholders) : Seeks b base n n
  | taken {n m : Nat} (held : candidate base n ∈ b.placeholders) (rest : Seeks b base (n + 1) m) : Seeks b base n m

namespace Seeks

theorem le (h : b.Seeks base n m) : n ≤ m := by
  induction h with
  | free => exact Nat.le_refl _
  | taken _ _ ih => exact Nat.le_of_succ_le ih

theorem not_mem (h : b.Seeks base n m) : candidate base m ∉ b.placeholders := by
  induction h with
  | free new => exact new
  | taken _ _ ih => exact ih

/-- Every number that the search has passed is taken. -/
theorem mem (h : b.Seeks base n m) {k : Nat} (low : n ≤ k) (high : k < m) :
    candidate base k ∈ b.placeholders := by
  induction h with
  | free => omega
  | taken held _ ih =>
      obtain rfl | later := Nat.eq_or_lt_of_le low
      · exact held
      · exact ih later high

/-- A search that looks at enough numbers gives the name at which the endless one stops. -/
theorem firstFree_eq (h : b.Seeks base n m) {steps : Nat} (enough : m < n + steps) :
    b.firstFree base steps n = candidate base m := by
  induction h generalizing steps with
  | @free n new =>
      obtain ⟨steps, rfl⟩ : ∃ more, steps = more + 1 := ⟨steps - 1, by omega⟩
      rw [firstFree, if_neg fun held => new (contains_iff.mp held)]
  | @taken n m held rest ih =>
      have low := rest.le
      obtain ⟨steps, rfl⟩ : ∃ more, steps = more + 1 := ⟨steps - 1, by omega⟩
      rw [firstFree, if_pos (contains_iff.mpr held)]
      exact ih (by omega)

end Seeks

/-- The search stops if some number is free. -/
theorem exists_seeks {k : Nat} (low : n ≤ k) (new : candidate base k ∉ b.placeholders) :
    ∃ m ≤ k, b.Seeks base n m := by
  induction low using Nat.decreasingInduction with
  | self => exact ⟨k, Nat.le_refl k, .free new⟩
  | of_succ n low ih =>
      by_cases held : candidate base n ∈ b.placeholders
      · obtain ⟨m, high, rest⟩ := ih
        exact ⟨m, high, .taken held rest⟩
      · exact ⟨n, Nat.le_of_succ_le low, .free held⟩

/-! ## Counting names -/

theorem candidate_ne_base (base : String) (n : Nat) : candidate base n ≠ base := by
  intro same
  have length := congrArg String.length same
  simp only [candidate, String.length_append] at length
  have one : "_".length = 1 := rfl
  omega

/-- A base that is taken takes one of the places, so one of as many numbers as there are places is free. -/
theorem exists_free_number (taken : base ∈ b.placeholders) :
    ∃ k, 1 ≤ k ∧ k ≤ b.size ∧ candidate base k ∉ b.placeholders := by
  have apart : base ∉ (List.range' 1 b.size).map (candidate base) := by
    intro member
    obtain ⟨k, -, same⟩ := List.mem_map.mp member
    exact candidate_ne_base base k same
  have distinct : (base :: (List.range' 1 b.size).map (candidate base)).Nodup :=
    List.nodup_cons.mpr ⟨apart, List.Nodup.map (candidate_injective base) List.nodup_range'⟩
  obtain ⟨p, member, new⟩ := b.exists_free distinct (by simp)
  obtain rfl | numbered := List.mem_cons.mp member
  · exact (new taken).elim
  · obtain ⟨k, range, rfl⟩ := List.mem_map.mp numbered
    obtain ⟨low, high⟩ := List.mem_range'_1.mp range
    exact ⟨k, low, by omega, new⟩

/-- What is handed out is free. It is the base where that is free, and otherwise the base with the least number from
one on that makes it free: the endless search stops at this number, which is no greater than the count of the
placeholders, and a search that looks at this many numbers or more finds it, so that no other name takes its place. -/
theorem allocate_least (b : Bindings) (base : String) :
    b.allocate base ∉ b.placeholders ∧
      (base ∉ b.placeholders ∧ b.allocate base = base ∨
        base ∈ b.placeholders ∧ ∃ n, b.Seeks base 1 n ∧ b.allocate base = candidate base n ∧
          1 ≤ n ∧ n ≤ b.size ∧ candidate base n ∉ b.placeholders ∧
          (∀ k, 1 ≤ k → k < n → candidate base k ∈ b.placeholders) ∧
          ∀ steps, n ≤ steps → b.firstFree base steps 1 = candidate base n) := by
  refine ⟨b.allocate_not_mem base, ?_⟩
  by_cases taken : base ∈ b.placeholders
  · obtain ⟨k, low, high, new⟩ := exists_free_number taken
    obtain ⟨n, least, seeks⟩ := exists_seeks low new
    have found : b.allocate base = candidate base n := by
      rw [allocate, if_pos (contains_iff.mpr taken), seeks.firstFree_eq (by omega)]
    exact .inr ⟨taken, n, seeks, found, seeks.le, least.trans high, seeks.not_mem, fun k => seeks.mem,
      fun steps enough => seeks.firstFree_eq (by omega)⟩
  · exact .inl ⟨taken, allocate_of_free taken⟩

/-- A field that is named like a numbered placeholder only makes the search go on. -/
example : (Bindings.mk [⟨"a_1", "a_1", .null⟩, ⟨"a", "a", .null⟩] []).allocate "a" = "a_2" := by decide +kernel

end TableMapper.Bindings
