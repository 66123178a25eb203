import TableMapper.Cache
import Mathlib.Data.List.Basic

/-! # Texts with dots between them

A cache key is its prefix and the texts of the key values with dots between them. Two lists of texts come
to the same key when they are equal, or when a dot that separates two texts of one list stands inside of a
text of the other. The second is the exact condition under which a key fails to tell two lists apart.
-/

namespace TableMapper

/-- Texts with dots between them. -/
def dotted (texts : List String) : String := ".".intercalate texts

@[simp] theorem dotted_singleton (x : String) : dotted [x] = x := String.intercalate_singleton ..

theorem dotted_cons {x : String} {xs : List String} (h : xs ≠ []) :
    dotted (x :: xs) = x ++ "." ++ dotted xs := by
  cases xs with
  | nil => exact absurd rfl h
  | cons y ys => exact String.intercalate_cons_cons ..

/-- A cache key has dots between its prefix and the texts of the key. -/
theorem cacheKey_eq_dotted (start : String) (keyTexts : List String) :
    cacheKey start keyTexts = dotted (start :: keyTexts) := by
  induction keyTexts generalizing start with
  | nil => exact (dotted_singleton start).symm
  | cons text rest ih =>
      have next : cacheKey start (text :: rest) = cacheKey (start ++ "." ++ text) rest := rfl
      rw [next, ih, dotted_cons (List.cons_ne_nil text rest)]
      cases rest with
      | nil => simp only [dotted_singleton]
      | cons second rest =>
          rw [dotted_cons (List.cons_ne_nil second rest), dotted_cons (List.cons_ne_nil second rest)]
          simp only [String.append_assoc]

/-- After the same texts, the next text of the first list ends at a dot that stands inside of the next
text of the second list; what is behind that dot agrees with the rest of the first list. -/
def CutsInto (xs ys : List String) : Prop :=
  ∃ same x xs' r ys', xs = same ++ x :: xs' ∧ ys = same ++ (x ++ "." ++ r) :: ys' ∧ xs' ≠ [] ∧
    dotted xs' = dotted (r :: ys')

theorem CutsInto.cons {xs ys : List String} (h : CutsInto xs ys) (x : String) :
    CutsInto (x :: xs) (x :: ys) := by
  obtain ⟨same, z, xs', r, ys', rfl, rfl, more, rest⟩ := h
  exact ⟨x :: same, z, xs', r, ys', rfl, rfl, more, rest⟩

/-- A dot of one list inside of a text of the other makes no difference to what they come to. -/
theorem CutsInto.dotted_eq {xs ys : List String} (h : CutsInto xs ys) : dotted xs = dotted ys := by
  obtain ⟨same, x, xs', r, ys', rfl, rfl, more, rest⟩ := h
  induction same with
  | nil =>
      rw [List.nil_append, List.nil_append, dotted_cons more, rest]
      cases ys' with
      | nil => simp only [dotted_singleton]
      | cons y ys' =>
          rw [dotted_cons (List.cons_ne_nil y ys'), dotted_cons (List.cons_ne_nil y ys')]
          simp only [String.append_assoc]
  | cons z same ih =>
      rw [List.cons_append, List.cons_append, dotted_cons (by simp), ih, ← dotted_cons (by simp)]

/-- A text and the dot behind it, against another text and the dot behind that. -/
theorem append_dot_eq_append_dot {x y s t : String} (h : x ++ "." ++ s = y ++ "." ++ t) :
    (x = y ∧ s = t) ∨ (∃ r, y = x ++ "." ++ r ∧ s = r ++ "." ++ t) ∨
      ∃ r, x = y ++ "." ++ r ∧ t = r ++ "." ++ s := by
  have dot : ".".toList = ['.'] := rfl
  have chars : x.toList ++ '.' :: s.toList = y.toList ++ '.' :: t.toList := by
    simpa only [String.toList_append, dot, List.append_assoc, List.singleton_append]
      using congrArg String.toList h
  -- the longer of the two starts with the other, and with the dot behind that if it is strictly longer
  have longer : ∀ {x y s t : String} {more : List Char}, y.toList = x.toList ++ more →
      '.' :: s.toList = more ++ '.' :: t.toList →
      (x = y ∧ s = t) ∨ ∃ r, y = x ++ "." ++ r ∧ s = r ++ "." ++ t := by
    intro x y s t more starts rest
    cases more with
    | nil =>
        simp only [List.append_nil, List.nil_append, List.cons.injEq, true_and] at starts rest
        exact .inl ⟨String.toList_injective starts.symm, String.toList_injective rest⟩
    | cons c more =>
        rw [List.cons_append] at rest
        obtain ⟨rfl, behind⟩ := List.cons.inj rest
        refine .inr ⟨String.ofList more, String.toList_injective ?_, String.toList_injective ?_⟩
        · simpa only [String.toList_append, String.toList_ofList, dot, List.append_assoc,
            List.singleton_append] using starts
        · simpa only [String.toList_append, String.toList_ofList, dot, List.append_assoc,
            List.singleton_append] using behind
  obtain ⟨more, starts, rest⟩ | ⟨more, starts, rest⟩ := List.append_eq_append_iff.1 chars
  · exact (longer starts rest).imp_right .inl
  · obtain ⟨same, rest⟩ | cut := longer starts rest
    · exact .inl ⟨same.symm, rest.symm⟩
    · exact .inr (.inr cut)

/-- Lists of texts come to the same with dots between them exactly when they are equal, or a dot between
two texts of one stands inside of a text of the other. -/
theorem dotted_eq_iff {xs ys : List String} (hx : xs ≠ []) (hy : ys ≠ []) :
    dotted xs = dotted ys ↔ xs = ys ∨ CutsInto xs ys ∨ CutsInto ys xs := by
  constructor
  · induction xs generalizing ys with
    | nil => exact absurd rfl hx
    | cons x xs ih =>
        intro h
        cases ys with
        | nil => exact absurd rfl hy
        | cons y ys =>
            by_cases endsX : xs = [] <;> by_cases endsY : ys = []
            · subst endsX endsY
              rw [dotted_singleton, dotted_singleton] at h
              exact .inl (congrArg ([·]) h)
            · subst endsX
              rw [dotted_singleton, dotted_cons endsY] at h
              exact .inr (.inr ⟨[], y, ys, dotted ys, [], rfl, congrArg ([·]) h, endsY,
                (dotted_singleton _).symm⟩)
            · subst endsY
              rw [dotted_singleton, dotted_cons endsX] at h
              exact .inr (.inl ⟨[], x, xs, dotted xs, [], rfl, congrArg ([·]) h.symm, endsX,
                (dotted_singleton _).symm⟩)
            · rw [dotted_cons endsX, dotted_cons endsY] at h
              obtain ⟨rfl, rest⟩ | ⟨r, rfl, rest⟩ | ⟨r, rfl, rest⟩ := append_dot_eq_append_dot h
              · obtain rfl | cut | cut := ih endsX endsY rest
                · exact .inl rfl
                · exact .inr (.inl (cut.cons x))
                · exact .inr (.inr (cut.cons x))
              · rw [← dotted_cons endsY] at rest
                exact .inr (.inl ⟨[], x, xs, r, ys, rfl, rfl, endsX, rest⟩)
              · rw [← dotted_cons endsX] at rest
                exact .inr (.inr ⟨[], y, ys, r, xs, rfl, rfl, endsY, rest⟩)
  · rintro (rfl | cut | cut)
    · rfl
    · exact cut.dotted_eq
    · exact cut.dotted_eq.symm

/-- A list is cut into only where one of its texts has a dot. -/
theorem CutsInto.exists_dot {xs ys : List String} (h : CutsInto xs ys) : ∃ y ∈ ys, '.' ∈ y.toList := by
  obtain ⟨same, x, xs', r, ys', -, rfl, -, -⟩ := h
  exact ⟨x ++ "." ++ r, by simp, by simp⟩

/-- Behind the first texts, or in them: where one list cuts into another. -/
theorem CutsInto.of_cons {x y : String} {xs ys : List String} (h : CutsInto (x :: xs) (y :: ys)) :
    (x = y ∧ CutsInto xs ys) ∨ ∃ r, y = x ++ "." ++ r ∧ xs ≠ [] ∧ dotted xs = dotted (r :: ys) := by
  obtain ⟨same, z, xs', r, ys', left, right, more, rest⟩ := h
  cases same with
  | nil =>
      obtain ⟨rfl, rfl⟩ := List.cons.inj left
      obtain ⟨rfl, rfl⟩ := List.cons.inj right
      exact .inr ⟨r, rfl, more, rest⟩
  | cons w same =>
      obtain ⟨rfl, rfl⟩ := List.cons.inj left
      obtain ⟨rfl, rfl⟩ := List.cons.inj right
      exact .inl ⟨rfl, same, z, xs', r, ys', rfl, rfl, more, rest⟩

/-- Key texts without dots, behind prefixes of which none goes on where the other ends, are told apart by
their cache keys. -/
theorem eq_of_cacheKey_eq {start start' : String} {texts texts' : List String}
    (plain : ∀ text ∈ texts, '.' ∉ text.toList) (plain' : ∀ text ∈ texts', '.' ∉ text.toList)
    (apart : ¬ (start ++ ".").toList <+: start'.toList) (apart' : ¬ (start' ++ ".").toList <+: start.toList)
    (same : cacheKey start texts = cacheKey start' texts') : start = start' ∧ texts = texts' := by
  have noCut : ∀ {start start' : String} {texts texts' : List String},
      (∀ text ∈ texts', '.' ∉ text.toList) → ¬ (start ++ ".").toList <+: start'.toList →
      ¬ CutsInto (start :: texts) (start' :: texts') := by
    intro start start' texts texts' plain apart cut
    obtain ⟨-, behind⟩ | ⟨r, goesOn, -, -⟩ := cut.of_cons
    · obtain ⟨text, member, dot⟩ := behind.exists_dot
      exact plain text member dot
    · refine apart ⟨r.toList, ?_⟩
      rw [goesOn, ← String.toList_append]
  rw [cacheKey_eq_dotted, cacheKey_eq_dotted,
    dotted_eq_iff (List.cons_ne_nil _ _) (List.cons_ne_nil _ _)] at same
  obtain equal | cut | cut := same
  · exact List.cons.inj equal
  · exact absurd cut (noCut plain' apart)
  · exact absurd cut (noCut plain apart')

end TableMapper
