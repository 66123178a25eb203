import TableMapper.Proofs.Query.Reading
import TableMapper.Query.Clause

/-! # Conditions read as alternatives

A database reads a condition as alternatives between the words OR, each of them as predicates between the
words AND. Only words outside of quotes and parentheses join predicates, and a comment makes the rest of a
text unreadable. What renders a list of predicates is read as the predicates in their order, cut where one
was attached with OR.
-/

namespace TableMapper.Alternatives

open Reading (isQuote)

/-! ## Words -/

/-- Where a reader stands: how many parentheses are open, and in which quotes. -/
inductive Place where
  | outside (depth : Nat)
  | quoted (quote : Char) (depth : Nat)
  /-- Behind a backslash in a literal. -/
  | escaped (quote : Char) (depth : Nat)
  deriving DecidableEq

/-- Whether a comment starts with a character, given what follows it. -/
def opensComment (c : Char) (rest : List Char) : Bool :=
  c == '#' || (c == '-' && rest.head? == some '-') || (c == '/' && rest.head? == some '*')

/-- The place behind one more character. There is none behind a parenthesis that closes nothing, and none
in a comment. -/
def Place.next? : Place → Char → List Char → Option Place
  | .outside depth, c, rest =>
    if opensComment c rest then none
    else if isQuote c then some (.quoted c depth)
    else if c = '(' then some (.outside (depth + 1))
    else if c = ')' then (if depth = 0 then none else some (.outside (depth - 1)))
    else some (.outside depth)
  | .quoted q depth, c, _ =>
    if c = q then some (.outside depth)
    else if c = '\\' ∧ q ≠ Identifier.quote then some (.escaped q depth)
    else some (.quoted q depth)
  | .escaped q depth, _, _ => some (.quoted q depth)

/-- The words of a text, between the blanks outside of quotes and parentheses. `word` is what was read of
the first one. -/
def words (place : Place) (word : List Char) : List Char → Option (List (List Char))
  | [] => if place = .outside 0 then some [word] else none
  | c :: cs =>
    if place = .outside 0 ∧ c = ' ' then (words (.outside 0) [] cs).map (word :: ·)
    else (place.next? c cs).bind fun place => words place (word ++ [c]) cs

def textWords (text : String) : Option (List (List Char)) := words (.outside 0) [] text.toList

def ofWords (ws : List (List Char)) : String := String.ofList ([' '].intercalate ws)

def predicates (ws : List (List Char)) : List String := (ws.splitOn Concat.and.sql.toList).map ofWords

/-- A condition as alternatives, each a list of predicates: AND binds tighter than OR. -/
def read (text : String) : Option (List (List String)) :=
  (textWords text).map fun ws => (ws.splitOn Concat.or.sql.toList).map predicates

/-- A clause as alternatives. A clause without predicates holds of every row, as an alternative without
predicates does. -/
def readClause (keyword text : String) : Option (List (List String)) :=
  if text = "" then some [[]] else (Text.dropPrefix? (keyword ++ " ") text).bind read

def holds (truth : String → Bool) (alternatives : List (List String)) : Bool :=
  alternatives.any fun predicates => predicates.all truth

/-- No word of a text joins predicates. -/
def Unjoined (text : String) : Prop :=
  ∃ ws, textWords text = some ws ∧ ∀ c : Concat, c.sql.toList ∉ ws

theorem intercalate_words {place : Place} {word cs : List Char} {ws : List (List Char)}
    (h : words place word cs = some ws) : [' '].intercalate ws = word ++ cs ∧ ws ≠ [] := by
  induction cs generalizing place word ws with
  | nil =>
      unfold words at h
      split at h
      · cases h
        exact ⟨by rw [List.intercalate_singleton, List.append_nil], List.cons_ne_nil _ _⟩
      · cases h
  | cons c cs ih =>
      unfold words at h
      split at h
      · next blank =>
        obtain ⟨more, rest, rfl⟩ := Option.map_eq_some_iff.mp h
        obtain ⟨joined, some⟩ := ih rest
        refine ⟨?_, List.cons_ne_nil _ _⟩
        obtain ⟨w, ws, rfl⟩ := List.exists_cons_of_ne_nil some
        rw [List.intercalate_cons_cons, joined, blank.2, List.nil_append, List.append_assoc]
        rfl
      · obtain ⟨next, -, rest⟩ := Option.bind_eq_some_iff.mp h
        obtain ⟨joined, some⟩ := ih rest
        exact ⟨by rw [joined, List.append_assoc, List.singleton_append], some⟩

theorem ofWords_textWords {text : String} {ws : List (List Char)} (h : textWords text = some ws) :
    ofWords ws = text := by
  rw [ofWords, (intercalate_words h).1, List.nil_append, String.ofList_toList]

/-- What follows matters to a comment only where it goes on with it. -/
theorem opensComment_append {c d : Char} (hd : d ≠ '-' ∧ d ≠ '*') (cs rest : List Char) :
    opensComment c (cs ++ d :: rest) = opensComment c cs := by
  have dash : (some d == some '-') = false := beq_eq_false_iff_ne.mpr fun same => hd.1 (Option.some.inj same)
  have star : (some d == some '*') = false := beq_eq_false_iff_ne.mpr fun same => hd.2 (Option.some.inj same)
  cases cs with
  | nil => simp only [opensComment, List.nil_append, List.head?_cons, List.head?_nil, dash, star]; rfl
  | cons => rfl

theorem Place.next?_append {d : Char} (hd : d ≠ '-' ∧ d ≠ '*') (place : Place) (c : Char)
    (cs rest : List Char) : place.next? c (cs ++ d :: rest) = place.next? c cs := by
  cases place with
  | outside depth => simp only [next?, opensComment_append hd]
  | quoted | escaped => rfl

theorem words_append {place : Place} {word cs : List Char} {ws : List (List Char)}
    (h : words place word cs = some ws) (rest : List Char) :
    words place word (cs ++ ' ' :: rest) = (words (.outside 0) [] rest).map (ws ++ ·) := by
  induction cs generalizing place word ws with
  | nil =>
      unfold words at h
      split at h
      · next here =>
        cases h
        rw [List.nil_append, words, if_pos ⟨here, rfl⟩]
        rfl
      · cases h
  | cons c cs ih =>
      unfold words at h
      rw [List.cons_append, words]
      split at h
      · next blank =>
        obtain ⟨more, read, rfl⟩ := Option.map_eq_some_iff.mp h
        rw [if_pos blank, ih read, Option.map_map]
        rfl
      · next inside =>
        obtain ⟨next, read, rest⟩ := Option.bind_eq_some_iff.mp h
        rw [if_neg inside, Place.next?_append (by decide), read, Option.bind_some, ih rest]

theorem textWords_join {a b : String} {ws vs : List (List Char)} (ha : textWords a = some ws)
    (hb : textWords b = some vs) : textWords (a ++ " " ++ b) = some (ws ++ vs) := by
  have cut : (a ++ " " ++ b).toList = a.toList ++ ' ' :: b.toList := by
    simp only [String.toList_append, List.append_assoc]
    rfl
  unfold textWords at ha hb
  rw [textWords, cut, words_append ha, hb, Option.map_some]

theorem Unjoined.join {a b : String} (ha : Unjoined a) (hb : Unjoined b) : Unjoined (a ++ " " ++ b) := by
  obtain ⟨ws, readA, freeA⟩ := ha
  obtain ⟨vs, readB, freeB⟩ := hb
  refine ⟨ws ++ vs, textWords_join readA readB, fun c member => ?_⟩
  obtain left | right := List.mem_append.mp member
  · exact freeA c left
  · exact freeB c right

/-! ## Texts of one word -/

/-- A text that belongs to the word it stands in and leaves the place as it is, inside of so many
parentheses or more. -/
def Whole (least : Nat) (cs : List Char) : Prop :=
  ∀ depth, least ≤ depth → ∀ word rest,
    words (.outside depth) word (cs ++ rest) = words (.outside depth) (word ++ cs) rest

theorem Whole.deeper {cs : List Char} (h : Whole 0 cs) : Whole 1 cs := fun depth _ => h depth (Nat.zero_le _)

theorem whole_nil (least : Nat) : Whole least [] := by
  intro depth _ word rest
  rw [List.nil_append, List.append_nil]

theorem Whole.append {least : Nat} {cs ds : List Char} (hc : Whole least cs) (hd : Whole least ds) :
    Whole least (cs ++ ds) := by
  intro depth deep word rest
  rw [List.append_assoc, hc depth deep, hd depth deep, List.append_assoc]

theorem whole_intercalate {least : Nat} {separator : String} (hs : Whole least separator.toList)
    {texts : List String} (each : ∀ text ∈ texts, Whole least text.toList) :
    Whole least (separator.intercalate texts).toList := by
  induction texts with
  | nil =>
      rw [String.intercalate_nil]
      exact whole_nil least
  | cons text texts ih =>
      rw [List.forall_mem_cons] at each
      cases texts with
      | nil =>
          rw [String.intercalate_singleton]
          exact each.1
      | cons =>
          rw [String.intercalate_cons_cons, String.toList_append, String.toList_append]
          exact (each.1.append hs).append (ih each.2)

/-- A character that is neither quote nor parenthesis, and starts no comment. -/
def isPlain (c : Char) : Bool :=
  !isQuote c && c != '(' && c != ')' && c != '#' && c != '-' && c != '/'

theorem next?_of_plain {c : Char} (h : isPlain c = true) (depth : Nat) (rest : List Char) :
    (Place.outside depth).next? c rest = some (.outside depth) := by
  simp only [isPlain, Bool.and_eq_true, Bool.not_eq_true', bne_iff_ne] at h
  obtain ⟨⟨⟨⟨⟨quote, opening⟩, closing⟩, hash⟩, dash⟩, slash⟩ := h
  simp [Place.next?, opensComment, quote, opening, closing, hash, dash, slash]

/-- Blanks belong to a word only inside of parentheses. -/
theorem whole_of_plain {least : Nat} {cs : List Char}
    (h : cs.all (fun c => isPlain c && (c != ' ' || least != 0)) = true) : Whole least cs := by
  intro depth deep word rest
  induction cs generalizing word with
  | nil => exact whole_nil least depth deep word rest
  | cons c cs ih =>
      simp only [List.all_cons, Bool.and_eq_true, Bool.or_eq_true, bne_iff_ne] at h
      obtain ⟨⟨plain, filled⟩, others⟩ := h
      have inside : ¬ (Place.outside depth = .outside 0 ∧ c = ' ') := by
        rintro ⟨here, blank⟩
        cases here
        exact filled.elim (fun other => other blank) fun some => some (Nat.le_zero.mp deep)
      rw [List.cons_append, words, if_neg inside, next?_of_plain plain, Option.bind_some, ih others,
        List.append_assoc, List.singleton_append]

theorem words_doubled (body : List Char) (depth : Nat) (word rest : List Char) :
    words (.quoted Identifier.quote depth) word
        (body.flatMap (fun c => if c = Identifier.quote then [c, c] else [c]) ++ Identifier.quote :: rest) =
      words (.outside depth)
        (word ++ body.flatMap (fun c => if c = Identifier.quote then [c, c] else [c]) ++ [Identifier.quote])
        rest := by
  have inside : ∀ c : Char, ¬ (Place.quoted Identifier.quote depth = .outside 0 ∧ c = ' ') :=
    fun _ blank => nomatch blank.1
  have closes : ∀ cs, (Place.quoted Identifier.quote depth).next? Identifier.quote cs =
      some (.outside depth) := by
    intro cs
    rw [Place.next?, if_pos rfl]
  have reopens : ∀ cs, (Place.outside depth).next? Identifier.quote cs =
      some (.quoted Identifier.quote depth) := fun _ => rfl
  induction body generalizing word with
  | nil =>
      rw [List.flatMap_nil, List.nil_append, words, if_neg (inside _), closes, Option.bind_some,
        List.append_nil]
  | cons c body ih =>
      rw [List.flatMap_cons]
      split
      · next same =>
        -- a doubled backtick closes the quotes and opens them again
        subst same
        simp only [List.append_assoc, List.cons_append, List.nil_append]
        rw [words, if_neg (inside _), closes, Option.bind_some, words,
          if_neg fun blank => absurd blank.2 (by decide), reopens, Option.bind_some, ih]
        simp only [List.append_assoc, List.cons_append, List.nil_append]
      · next other =>
        have stays : ∀ cs, (Place.quoted Identifier.quote depth).next? c cs =
            some (.quoted Identifier.quote depth) := by
          intro cs
          rw [Place.next?, if_neg other, if_neg fun slash => slash.2 rfl]
        rw [List.cons_append, List.cons_append, words, if_neg (inside _), stays, Option.bind_some,
          List.nil_append, ih]
        simp only [List.append_assoc, List.cons_append, List.nil_append]

theorem whole_escapePart (part : List Char) : Whole 0 (Identifier.escapePart part) := by
  unfold Identifier.escapePart
  split
  · next star =>
    rw [star]
    exact whole_of_plain rfl
  · intro depth _ word rest
    have opens : ∀ cs, (Place.outside depth).next? Identifier.quote cs =
        some (.quoted Identifier.quote depth) := fun _ => rfl
    rw [List.append_assoc, List.cons_append, words, if_neg fun blank => absurd blank.2 (by decide), opens,
      Option.bind_some, List.singleton_append, words_doubled]
    simp only [List.append_assoc, List.cons_append, List.nil_append]

theorem whole_escape (name : String) : Whole 0 (Identifier.escape name).toList := by
  have joined : Identifier.escape name =
      ".".intercalate ((name.toList.splitOn '.').map fun part => String.ofList (Identifier.escapePart part)) := by
    apply String.toList_inj.mp
    rw [Identifier.escape, String.toList_ofList, String.toList_intercalate, List.map_map]
    simp only [Function.comp_def, String.toList_ofList]
    rfl
  rw [joined]
  apply whole_intercalate (whole_of_plain rfl)
  intro text member
  obtain ⟨part, -, rfl⟩ := List.mem_map.mp member
  rw [String.toList_ofList]
  exact whole_escapePart part

theorem isPlain_of_isNameChar {c : Char} (h : Fragment.isNameChar c = true) :
    (isPlain c && (c != ' ' || 0 != 0)) = true := by
  have other : ∀ d : Char, Fragment.isNameChar d = false → c ≠ d := by
    rintro d no rfl
    rw [no] at h
    exact Bool.false_ne_true h
  simp only [isPlain, isQuote, Bool.and_eq_true, Bool.not_eq_true', Bool.or_eq_false_iff, bne_iff_ne,
    beq_eq_false_iff_ne, bne_self_eq_false, Bool.or_false]
  refine ⟨⟨⟨⟨⟨⟨⟨⟨?_, ?_⟩, ?_⟩, ?_⟩, ?_⟩, ?_⟩, ?_⟩, ?_⟩, ?_⟩ <;> exact other _ (by decide)

theorem whole_reference {name : String} (h : Identifier.IsName name.toList) :
    Whole 0 (reference name).toList := by
  have plain : name.toList.all (fun c => isPlain c && (c != ' ' || 0 != 0)) = true := by
    apply List.all_eq_true.mpr
    intro c member
    exact isPlain_of_isNameChar (List.all_eq_true.mp h.all c member)
  rw [reference, String.toList_append]
  exact Whole.append (whole_of_plain rfl) (whole_of_plain plain)

/-! ## Parentheses -/

/-- Behind an opening parenthesis the text is read up to the one that closes it. -/
theorem whole_parens {cs : List Char}
    (h : ∀ depth word rest, words (.outside (depth + 1)) word (cs ++ ')' :: rest) =
      words (.outside (depth + 1)) (word ++ cs) (')' :: rest)) : Whole 0 ('(' :: (cs ++ [')'])) := by
  intro depth _ word rest
  have opens : ∀ ds, (Place.outside depth).next? '(' ds = some (.outside (depth + 1)) := fun _ => rfl
  have closes : ∀ ds, (Place.outside (depth + 1)).next? ')' ds = some (.outside depth) := fun _ => rfl
  rw [List.cons_append, words, if_neg fun blank => absurd blank.2 (by decide), opens, Option.bind_some,
    List.append_assoc, List.singleton_append, h, words, if_neg fun blank => absurd blank.2 (by decide), closes,
    Option.bind_some]
  simp only [List.append_assoc, List.cons_append, List.nil_append]

theorem Whole.parens {cs : List Char} (h : Whole 1 cs) : Whole 0 ('(' :: (cs ++ [')'])) := by
  apply whole_parens
  intro depth word rest
  exact h (depth + 1) (Nat.le_add_left 1 depth) word (')' :: rest)

def Place.after? (place : Place) : List Char → Option Place
  | [] => some place
  | c :: cs => (place.next? c cs).bind fun place => place.after? cs

/-- A fragment that leaves neither quotes nor parentheses open, closes none that it did not open, and starts
no comment. -/
def Contained (fragment : String) : Prop :=
  (Place.outside 0).after? fragment.toList = some (.outside 0)

instance (fragment : String) : Decidable (Contained fragment) := by unfold Contained; infer_instance

def Place.deeper (more : Nat) : Place → Place
  | .outside depth => .outside (depth + more)
  | .quoted q depth => .quoted q (depth + more)
  | .escaped q depth => .escaped q (depth + more)

theorem Place.next?_deeper {place next : Place} {c : Char} {cs : List Char} (more : Nat)
    (h : place.next? c cs = some next) : (place.deeper more).next? c cs = some (next.deeper more) := by
  -- a parenthesis that closes one inside closes one further out as well; all else takes no count of them
  cases place with
  | outside depth =>
      simp only [next?, deeper] at h ⊢
      split at h
      · cases h
      · next code =>
        rw [if_neg code]
        split at h
        · next quote => cases h; rw [if_pos quote]
        · next bare =>
          rw [if_neg bare]
          split at h
          · next opening =>
            cases h
            rw [if_pos opening, Nat.add_right_comm]
          · next other =>
            rw [if_neg other]
            split at h
            · next closing =>
              split at h
              · cases h
              · cases h
                next open' =>
                rw [if_pos closing, if_neg (by omega), Nat.sub_add_comm (by omega)]
            · next plain => cases h; rw [if_neg plain]
  | quoted q depth =>
      simp only [next?, deeper] at h ⊢
      split at h
      · next closing => cases h; rw [if_pos closing]
      · next open' =>
        rw [if_neg open']
        split at h
        · next slash => cases h; rw [if_pos slash]
        · next plain => cases h; rw [if_neg plain]
  | escaped q depth => cases h; rfl

theorem words_of_after? {place last : Place} {cs : List Char} (h : place.after? cs = some last)
    (depth : Nat) (word rest : List Char) :
    words (place.deeper (depth + 1)) word (cs ++ ')' :: rest) =
      words (last.deeper (depth + 1)) (word ++ cs) (')' :: rest) := by
  have inside : ∀ (place : Place) (c : Char), ¬ (place.deeper (depth + 1) = .outside 0 ∧ c = ' ') := by
    rintro place c ⟨same, -⟩
    cases place <;> cases same
  induction cs generalizing place word with
  | nil =>
      cases h
      rw [List.nil_append, List.append_nil]
  | cons c cs ih =>
      obtain ⟨next, step, rest⟩ := Option.bind_eq_some_iff.mp h
      rw [List.cons_append, words, if_neg (inside _ _), Place.next?_append (by decide),
        Place.next?_deeper _ step, Option.bind_some, ih rest, List.append_assoc, List.singleton_append]

theorem Contained.parens {fragment : String} (h : Contained fragment) :
    Whole 0 ('(' :: (fragment.toList ++ [')'])) := by
  apply whole_parens
  intro depth word rest
  have read := words_of_after? h depth word rest
  simpa only [Place.deeper, Nat.zero_add] using read

/-! ## Texts that no connective cuts -/

theorem Whole.textWords {text : String} (h : Whole 0 text.toList) : textWords text = some [text.toList] := by
  have read := h 0 (Nat.le_refl 0) [] []
  rw [List.append_nil, List.nil_append] at read
  rw [Alternatives.textWords, read, words, if_pos rfl]

/-- A text of one word joins nothing if it starts otherwise than the words that do. -/
theorem unjoined_of_whole {text : String} {c : Char} (h : Whole 0 text.toList)
    (starts : text.toList.head? = some c) (other : c ≠ 'A' ∧ c ≠ 'O') : Unjoined text := by
  refine ⟨_, h.textWords, fun concat member => ?_⟩
  have same := List.mem_singleton.mp member
  rw [← same] at starts
  cases concat with
  | and => exact other.1 (Option.some.inj starts).symm
  | or => exact other.2 (Option.some.inj starts).symm

theorem head?_escapePart (part : List Char) :
    ∃ c, (Identifier.escapePart part).head? = some c ∧ c ≠ 'A' ∧ c ≠ 'O' := by
  unfold Identifier.escapePart
  split
  · next star => exact ⟨'*', by rw [star]; rfl, by decide⟩
  · exact ⟨Identifier.quote, rfl, by decide⟩

theorem unjoined_escape (name : String) : Unjoined (Identifier.escape name) := by
  obtain ⟨part, parts, cut⟩ := List.exists_cons_of_ne_nil (List.splitOn_ne_nil '.' name.toList)
  obtain ⟨c, starts, other⟩ := head?_escapePart part
  refine unjoined_of_whole (c := c) (whole_escape name) ?_ other
  rw [Identifier.escape, String.toList_ofList, cut, List.map_cons]
  cases parts with
  | nil => rw [List.map_nil, List.intercalate_singleton, starts]
  | cons =>
      rw [List.map_cons, List.intercalate_cons_cons, List.append_assoc, List.head?_append, starts]
      rfl

theorem unjoined_reference {name : String} (h : Identifier.IsName name.toList) :
    Unjoined (reference name) :=
  unjoined_of_whole (c := ':') (whole_reference h) (by rw [reference, String.toList_append]; rfl) (by decide)

theorem unjoined_operator (op : Operator) : Unjoined op.sql := by
  cases op with
  | isNot => exact ⟨["IS".toList, "NOT".toList], rfl, by rintro (_ | _) <;> decide⟩
  | is | eq | notEq | differs | greater | greaterEq | less | lessEq | nullSafeEq | like | regexp =>
      exact ⟨[_], rfl, by rintro (_ | _) <;> decide⟩

end TableMapper.Alternatives
