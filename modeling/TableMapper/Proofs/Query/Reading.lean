import Mathlib.Data.List.TakeWhile
import TableMapper.Proofs.Query.Identifier
import TableMapper.Query.Condition

/-! # Reading placeholders in statements

A statement is read one character at a time. A placeholder is a colon with a name behind it. Colons in
literals and in quoted names make none, and two colons are a cast. A backslash takes the next character
along in a literal, but not between backticks. A quote that is doubled closes and opens again, with
nothing between.
-/

namespace TableMapper.Reading

open Fragment (isNameChar)

/-- What the characters before a place say about the ones to come. -/
inductive Mode where
  | plain
  /-- Behind a colon that is not the second one of a cast. -/
  | colon
  /-- In the name of a placeholder. -/
  | name (read : List Char)
  /-- Behind a colon and a digit, which name no placeholder. -/
  | number
  /-- In a literal or a quoted name. -/
  | quoted (quote : Char)
  /-- Behind a backslash in a literal. -/
  | escaped (quote : Char)
  deriving DecidableEq

/-- The quotes of literals and of names. -/
def isQuote (c : Char) : Bool := c == '\'' || c == '"' || c == Identifier.quote

namespace Mode

/-- The mode behind a character that belongs to no name. -/
def start (c : Char) : Mode := if isQuote c then quoted c else if c = ':' then colon else plain

/-- The mode behind one more character. -/
def next (m : Mode) (c : Char) : Mode :=
  match m with
  | plain => start c
  | colon =>
    if c = ':' then plain
    else if isNameChar c then (if c.isDigit then number else name [c])
    else start c
  | name cs => if isNameChar c then name (cs ++ [c]) else start c
  | number => if isNameChar c then number else start c
  | quoted q => if c = q then plain else if c = '\\' ∧ q ≠ Identifier.quote then escaped q else quoted q
  | escaped q => quoted q

/-- The name that is complete if nothing more belongs to it. -/
def pending : Mode → List (List Char)
  | name cs => [cs]
  | _ => []

/-- The name that a character completes. -/
def ended (m : Mode) (c : Char) : List (List Char) := if isNameChar c then [] else m.pending

def after (m : Mode) (cs : List Char) : Mode := cs.foldl next m

def outside : Mode → Bool
  | quoted _ => false
  | escaped _ => false
  | _ => true

end Mode

/-- The names of the placeholders in a text that starts in a mode. -/
def read (m : Mode) : List Char → List (List Char)
  | [] => m.pending
  | c :: cs => m.ended c ++ read (m.next c) cs

/-- The names of the placeholders in a text, in order. -/
def placeholders (text : String) : List String := (read .plain text.toList).map String.ofList

/-- The text ends outside of literals and quoted names. -/
def Complete (text : String) : Prop := (Mode.plain.after text.toList).outside = true

instance (text : String) : Decidable (Complete text) := by unfold Complete; infer_instance

/-- A character that neither continues a name nor makes a cast. -/
def separates (c : Char) : Bool := !isNameChar c && c != ':'

/-- The text starts with a character that separates it from the text before. -/
def Apart (text : String) : Prop := text.toList.head?.any separates = true

instance (text : String) : Decidable (Apart text) := by unfold Apart; infer_instance

/-! ## Reading in parts -/

namespace Mode

theorem ended_of_pending {m : Mode} (h : m.pending = []) (c : Char) : m.ended c = [] := by
  rw [ended, h, ite_self]

@[simp] theorem after_cons (m : Mode) (c : Char) (cs : List Char) :
    m.after (c :: cs) = (m.next c).after cs := rfl

@[simp] theorem after_append (m : Mode) (cs ds : List Char) :
    m.after (cs ++ ds) = (m.after cs).after ds := List.foldl_append ..

/-- Outside of quotes, a character that separates is read as at the start. -/
theorem next_of_outside {m : Mode} (h : m.outside = true) {c : Char} (apart : separates c = true) :
    m.next c = start c ∧ m.ended c = m.pending := by
  obtain ⟨other, colon⟩ := (Bool.and_eq_true _ _).mp apart
  replace other : isNameChar c = false := by simpa only [Bool.not_eq_true'] using other
  refine ⟨?_, by rw [ended, other, if_neg Bool.false_ne_true]⟩
  cases m with
  | quoted | escaped => exact absurd h Bool.false_ne_true
  | plain => rfl
  | colon => rw [next, if_neg (bne_iff_ne.1 colon), other, if_neg Bool.false_ne_true]
  | name | number => rw [next, other, if_neg Bool.false_ne_true]

/-- Whether a text is read behind a mode as it is at the start. -/
def Meets (m : Mode) (ds : List Char) : Prop :=
  m = plain ∨ m.outside = true ∧ ∃ c cs, ds = c :: cs ∧ separates c = true

theorem Meets.after {m : Mode} {ds : List Char} (h : m.Meets ds) : m.after ds = plain.after ds := by
  obtain rfl | ⟨out, c, cs, rfl, apart⟩ := h
  · rfl
  · rw [after_cons, after_cons, (next_of_outside out apart).1, next]

theorem Meets.read {m : Mode} {ds : List Char} (h : m.Meets ds) :
    read m ds = m.pending ++ read plain ds := by
  obtain rfl | ⟨out, c, cs, rfl, apart⟩ := h
  · rfl
  · obtain ⟨same, ends⟩ := next_of_outside out apart
    rw [Reading.read, Reading.read, same, ends, ended_of_pending rfl, List.nil_append, next]

end Mode

theorem read_cons {m : Mode} (h : m.pending = []) (c : Char) (cs : List Char) :
    read m (c :: cs) = read (m.next c) cs := by
  rw [read, Mode.ended_of_pending h, List.nil_append]

/-- A text is read in two parts where the second is read as at the start. -/
theorem read_append {m : Mode} {cs ds : List Char} (h : (m.after cs).Meets ds) :
    read m (cs ++ ds) = read m cs ++ read .plain ds := by
  induction cs generalizing m with
  | nil => exact h.read
  | cons c cs ih => rw [List.cons_append, read, read, ih h, List.append_assoc]

/-! ## Texts and their placeholders -/

/-- A text that ends outside of quotes, with its placeholders. -/
structure Reads (text : String) (names : List String) : Prop where
  complete : Complete text
  names : placeholders text = names

/-- A text without placeholders, behind which any text is read as at the start. -/
structure Silent (text : String) : Prop where
  plain : Mode.plain.after text.toList = .plain
  names : placeholders text = []

instance (text : String) : Decidable (Silent text) :=
  decidable_of_iff (Mode.plain.after text.toList = .plain ∧ placeholders text = [])
    ⟨fun h => ⟨h.1, h.2⟩, fun h => ⟨h.plain, h.names⟩⟩

theorem Complete.reads {text : String} (h : Complete text) : Reads text (placeholders text) := ⟨h, rfl⟩

theorem Silent.reads {text : String} (h : Silent text) : Reads text [] :=
  ⟨by rw [Complete, h.plain]; rfl, h.names⟩

theorem placeholders_append {a b : String} (h : (Mode.plain.after a.toList).Meets b.toList) :
    placeholders (a ++ b) = placeholders a ++ placeholders b := by
  rw [placeholders, String.toList_append, read_append h, List.map_append]
  rfl

theorem Apart.cons {text : String} (h : Apart text) :
    ∃ c cs, text.toList = c :: cs ∧ separates c = true := by
  unfold Apart at h
  cases ht : text.toList with
  | nil => rw [ht] at h; exact absurd h Bool.false_ne_true
  | cons c cs => rw [ht] at h; exact ⟨c, cs, rfl, h⟩

theorem Apart.meets {m : Mode} (h : m.outside = true) {text : String} (apart : Apart text) :
    m.Meets text.toList :=
  .inr ⟨h, apart.cons⟩

theorem Silent.append {a b : String} (ha : Silent a) (hb : Silent b) : Silent (a ++ b) := by
  refine ⟨?_, ?_⟩
  · rw [String.toList_append, Mode.after_append, ha.plain, hb.plain]
  · rw [placeholders_append (.inl ha.plain), ha.names, hb.names, List.append_nil]

theorem Silent.join {a b : String} (ha : Silent a) (separator : String) (silent : Silent separator)
    (hb : Silent b) : Silent (a ++ separator ++ b) :=
  (ha.append silent).append hb

/-- Behind a silent text any other reads as it does alone. -/
theorem Silent.append_reads {a b : String} {names : List String} (ha : Silent a) (hb : Reads b names) :
    Reads (a ++ b) names := by
  refine ⟨?_, ?_⟩
  · rw [Complete, String.toList_append, Mode.after_append, ha.plain]
    exact hb.complete
  · rw [placeholders_append (.inl ha.plain), ha.names, hb.names, List.nil_append]

theorem Reads.append {a b : String} {ns ms : List String} (ha : Reads a ns) (hb : Reads b ms)
    (apart : Apart b) : Reads (a ++ b) (ns ++ ms) := by
  have meets := apart.meets ha.complete
  refine ⟨?_, ?_⟩
  · rw [Complete, String.toList_append, Mode.after_append, meets.after]
    exact hb.complete
  · rw [placeholders_append meets, ha.names, hb.names]

theorem Reads.append_silent {a b : String} {names : List String} (ha : Reads a names) (hb : Silent b)
    (apart : Apart b) : Reads (a ++ b) names := by
  have both := ha.append hb.reads apart
  rwa [List.append_nil] at both

theorem Apart.append {a : String} (h : Apart a) (b : String) : Apart (a ++ b) := by
  obtain ⟨c, cs, ha, apart⟩ := h.cons
  rw [Apart, String.toList_append, ha]
  exact apart

/-- A separator between two texts lets each read as it does alone. -/
theorem Reads.join {a b separator : String} {ns ms : List String} (ha : Reads a ns) (hb : Reads b ms)
    (silent : Silent separator) (apart : Apart separator) : Reads (a ++ separator ++ b) (ns ++ ms) := by
  rw [String.append_assoc]
  exact ha.append (silent.append_reads hb) (apart.append b)

theorem reads_empty : Reads "" [] := ⟨by decide, by decide⟩

theorem reads_intercalate {α : Type} (separator : String) (silent : Silent separator)
    (apart : Apart separator) {text : α → String} {names : α → List String} {xs : List α}
    (each : ∀ x ∈ xs, Reads (text x) (names x)) :
    Reads (separator.intercalate (xs.map text)) (xs.flatMap names) := by
  induction xs with
  | nil => exact reads_empty
  | cons x xs ih =>
      have first := each x (List.mem_cons_self ..)
      have rest := ih fun y hy => each y (List.mem_cons_of_mem _ hy)
      cases xs with
      | nil =>
          rw [List.map_singleton, String.intercalate_singleton, List.flatMap_singleton]
          exact first
      | cons y ys =>
          rw [List.map_cons, List.map_cons, String.intercalate_cons_cons, List.flatMap_cons]
          exact first.join rest silent apart

/-- Texts with the placeholders in all of them. -/
inductive ReadsAll : List String → List String → Prop where
  | nil : ReadsAll [] []
  | cons {text : String} {texts ns ms : List String} :
    Reads text ns → ReadsAll texts ms → ReadsAll (text :: texts) (ns ++ ms)

theorem ReadsAll.silent {text : String} {texts names : List String} (h : Silent text)
    (rest : ReadsAll texts names) : ReadsAll (text :: texts) names :=
  .cons h.reads rest

/-- Empty texts may be left out from between the separators. -/
theorem ReadsAll.intercalate_filled (separator : String) (silent : Silent separator)
    (apart : Apart separator) {texts names : List String} (h : ReadsAll texts names) :
    Reads (separator.intercalate (texts.filter fun text => !text.isEmpty)) names := by
  induction h with
  | nil => exact reads_empty
  | @cons text texts ns ms first _ ih =>
      cases blank : text.isEmpty with
      | true =>
          rw [String.isEmpty_iff.mp blank] at first
          have none : ns = [] := first.names.symm.trans reads_empty.names
          rw [List.filter_cons_of_neg (by rw [blank]; exact Bool.false_ne_true), none, List.nil_append]
          exact ih
      | false =>
          rw [List.filter_cons_of_pos (by rw [blank]; rfl)]
          cases rest : texts.filter fun text => !text.isEmpty with
          | nil =>
              rw [rest, String.intercalate_nil] at ih
              have none : ms = [] := ih.names.symm.trans reads_empty.names
              rw [String.intercalate_singleton, none, List.append_nil]
              exact first
          | cons second others =>
              rw [rest] at ih
              rw [String.intercalate_cons_cons]
              exact first.join ih silent apart

theorem silent_empty : Silent "" := ⟨rfl, rfl⟩

theorem silent_intercalate (separator : String) (silent : Silent separator) {texts : List String}
    (each : ∀ text ∈ texts, Silent text) : Silent (separator.intercalate texts) := by
  induction texts with
  | nil => exact silent_empty
  | cons text texts ih =>
      have first := each text (List.mem_cons_self ..)
      have rest := ih fun other h => each other (List.mem_cons_of_mem _ h)
      cases texts with
      | nil => exact String.intercalate_singleton ▸ first
      | cons _ _ => exact String.intercalate_cons_cons ▸ first.join separator silent rest

theorem silent_of_all {text : String} (h : ∀ c ∈ text.toList, isQuote c = false ∧ c ≠ ':') :
    Silent text := by
  have stays : ∀ cs : List Char, (∀ c ∈ cs, isQuote c = false ∧ c ≠ ':') →
      Mode.plain.after cs = .plain ∧ read .plain cs = [] := by
    intro cs
    induction cs with
    | nil => exact fun _ => ⟨rfl, rfl⟩
    | cons c cs ih =>
        intro h
        obtain ⟨noQuote, noColon⟩ := h c (List.mem_cons_self ..)
        have same : Mode.plain.next c = .plain := by
          rw [Mode.next, Mode.start, noQuote, if_neg Bool.false_ne_true, if_neg noColon]
        rw [Mode.after_cons, read_cons rfl, same]
        exact ih fun d hd => h d (List.mem_cons_of_mem _ hd)
  obtain ⟨plain, nothing⟩ := stays text.toList h
  exact ⟨plain, congrArg (List.map String.ofList) nothing⟩

theorem silent_number (n : Nat) : Silent (toString n) := by
  refine silent_of_all fun c hc => ?_
  have member : c ∈ Nat.toDigits 10 n := Nat.toList_repr ▸ hc
  have digit : c.isDigit = true := Nat.isDigit_of_mem_toDigits (by decide) (by decide) member
  refine ⟨?_, ?_⟩
  · simp only [isQuote, Bool.or_eq_false_iff, beq_eq_false_iff_ne]
    refine ⟨⟨?_, ?_⟩, ?_⟩ <;> rintro rfl <;> exact absurd digit (by decide)
  · rintro rfl
    exact absurd digit (by decide)

/-! ## Quoted names -/

/-- Between backticks nothing is read, and doubled backticks close and open again. -/
theorem read_doubled (body : List Char) :
    (Mode.quoted Identifier.quote).after
        (body.flatMap (fun c => if c = Identifier.quote then [c, c] else [c]) ++ [Identifier.quote]) =
      .plain ∧
    read (.quoted Identifier.quote)
        (body.flatMap (fun c => if c = Identifier.quote then [c, c] else [c]) ++ [Identifier.quote]) =
      [] := by
  induction body with
  | nil => exact ⟨rfl, rfl⟩
  | cons c body ih =>
      rw [List.flatMap_cons, List.append_assoc]
      split
      · next same =>
        subst same
        exact ih
      · next other =>
        have stays : (Mode.quoted Identifier.quote).next c = .quoted Identifier.quote := by
          rw [Mode.next, if_neg other, if_neg fun h => h.2 rfl]
        rw [List.singleton_append, Mode.after_cons, read_cons rfl, stays]
        exact ih

theorem silent_escapePart (part : List Char) : Silent (String.ofList (Identifier.escapePart part)) := by
  unfold Identifier.escapePart
  split
  · next star => subst star; decide
  · obtain ⟨closes, nothing⟩ := read_doubled (Text.trimList (· == Identifier.quote) part)
    refine ⟨?_, ?_⟩
    · rw [String.toList_ofList]
      exact closes
    · rw [placeholders, String.toList_ofList]
      exact congrArg (List.map String.ofList) nothing

/-- A quoted name makes no placeholder, whatever it is. -/
theorem silent_escape (name : String) : Silent (Identifier.escape name) := by
  have parts : Identifier.escape name = ".".intercalate
      ((name.toList.splitOn '.').map fun part => String.ofList (Identifier.escapePart part)) := by
    apply String.toList_injective
    rw [Identifier.escape, String.toList_ofList, String.toList_intercalate, List.map_map]
    refine congrArg (List.intercalate ['.']) (List.map_congr_left fun part _ => ?_)
    rw [Function.comp_apply, String.toList_ofList]
  rw [parts]
  refine silent_intercalate "." (by decide) fun text member => ?_
  obtain ⟨part, -, rfl⟩ := List.mem_map.mp member
  exact silent_escapePart part

/-! ## References -/

/-- Name characters behind a name belong to it, and what follows them is read as at the start. -/
theorem read_name (pre cs : List Char) :
    read (.name pre) cs =
      (pre ++ cs.takeWhile isNameChar) :: read .plain (cs.dropWhile isNameChar) := by
  induction cs generalizing pre with
  | nil => rw [List.takeWhile_nil, List.append_nil]; rfl
  | cons c cs ih =>
      cases named : isNameChar c with
      | true =>
          rw [read, Mode.next, Mode.ended, named, if_pos rfl, if_pos rfl, ih,
            List.takeWhile_cons_of_pos named, List.dropWhile_cons_of_pos named]
          simp only [List.nil_append, List.append_assoc, List.singleton_append]
      | false =>
          have other : ¬ isNameChar c = true := by rw [named]; exact Bool.false_ne_true
          rw [read, Mode.next, Mode.ended, if_neg other, if_neg other, List.takeWhile_cons_of_neg other,
            List.dropWhile_cons_of_neg other, List.append_nil, read_cons rfl]
          rfl

/-- No name starts with a digit, and what stands behind the digit is passed over with it. -/
theorem read_number (cs : List Char) :
    read .number cs = read .plain (cs.dropWhile isNameChar) := by
  induction cs with
  | nil => rfl
  | cons c cs ih =>
      cases named : isNameChar c with
      | true =>
          rw [read_cons rfl, Mode.next, named, if_pos rfl, ih, List.dropWhile_cons_of_pos named]
      | false =>
          have other : ¬ isNameChar c = true := by rw [named]; exact Bool.false_ne_true
          rw [read_cons rfl, Mode.next, if_neg other, List.dropWhile_cons_of_neg other, read_cons rfl,
            Mode.next]

/-- Behind a colon that a second one does not follow stands a name, unless a digit does. -/
theorem read_colon {cs : List Char} (single : cs.head? ≠ some ':') :
    read .colon cs =
      match cs.takeWhile isNameChar with
      | [] => read .plain (cs.dropWhile isNameChar)
      | first :: rest =>
        if first.isDigit then read .plain (cs.dropWhile isNameChar)
        else (first :: rest) :: read .plain (cs.dropWhile isNameChar) := by
  cases cs with
  | nil => rfl
  | cons c cs =>
      have colon : c ≠ ':' := fun same => single (congrArg some same)
      rw [read_cons rfl, Mode.next, if_neg colon]
      cases named : isNameChar c with
      | true =>
          rw [List.takeWhile_cons_of_pos named, List.dropWhile_cons_of_pos named, if_pos rfl]
          cases digit : c.isDigit with
          | true =>
              simp only [digit, if_true]
              exact read_number cs
          | false =>
              simp only [digit, Bool.false_eq_true, if_false]
              exact read_name [c] cs
      | false =>
          have other : ¬ isNameChar c = true := by rw [named]; exact Bool.false_ne_true
          rw [List.takeWhile_cons_of_neg other, List.dropWhile_cons_of_neg other,
            if_neg Bool.false_ne_true, read_cons rfl, Mode.next]

theorem after_name {cs : List Char} (named : cs.all isNameChar = true) (pre : List Char) :
    (Mode.name pre).after cs = .name (pre ++ cs) := by
  induction cs generalizing pre with
  | nil => rw [List.append_nil]; rfl
  | cons c cs ih =>
      rw [List.all_cons, Bool.and_eq_true] at named
      rw [Mode.after_cons, Mode.next, if_pos named.1, ih named.2, List.append_assoc]
      rfl

theorem reads_reference {name : String} (h : Identifier.IsName name.toList) :
    Reads (reference name) [name] := by
  have cut : (reference name).toList = ':' :: name.toList := String.toList_append ..
  have noColon : ':' ∉ name.toList := h.not_mem (by decide)
  have all : ∀ c ∈ name.toList, isNameChar c = true := List.all_eq_true.mp h.all
  have start : Mode.plain.next ':' = .colon := rfl
  cases hn : name.toList with
  | nil => exact absurd hn h.ne_nil
  | cons c cs =>
      rw [hn] at cut noColon all h
      have other : c ≠ ':' := fun same => noColon (same ▸ List.mem_cons_self ..)
      have begins : Mode.colon.next c = .name [c] := by
        rw [Mode.next, if_neg other, if_pos (all c (List.mem_cons_self ..)), h.1]
        rfl
      refine ⟨?_, ?_⟩
      · have rest : cs.all isNameChar = true :=
          List.all_eq_true.mpr fun d hd => all d (List.mem_cons_of_mem _ hd)
        rw [Complete, cut, Mode.after_cons, start, Mode.after_cons, begins, after_name rest]
        rfl
      · have single : (c :: cs).head? ≠ some ':' := fun same => other (Option.some.inj same)
        rw [placeholders, cut, read_cons rfl, start, read_colon single,
          List.takeWhile_eq_self_iff.mpr all, List.dropWhile_eq_nil_iff.mpr all]
        simp only [h.1, Bool.false_eq_true, if_false]
        rw [← hn]
        exact congrArg (fun text => [text]) String.ofList_toList

end TableMapper.Reading
