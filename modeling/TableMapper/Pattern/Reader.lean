import TableMapper.Number.Digits
import TableMapper.Pattern.Basic
import TableMapper.Text.Hex

/-! # Reading patterns

The written form of patterns: sequences, choices, groups with flags, repetitions, escapes and bracketed
sets of characters with set operations. A text that is no pattern is refused; why is not reported.
-/

namespace TableMapper.Pattern

/-- The flags that change how the rest of a group is read. -/
structure Flags where
  anyCase : Bool := false
  multiLine : Bool := false
  dotAll : Bool := false
  lazy : Bool := false
  unicode : Bool := true
  verbose : Bool := false
  crlf : Bool := false
  deriving DecidableEq, Repr

namespace Reader

/-- Passes over blanks and comments where the flags ask for it. -/
def skipNotes (flags : Flags) : Nat → List Char → List Char
  | 0, cs => cs
  | fuel + 1, cs =>
    if flags.verbose then
      match cs with
      | '#' :: rest => skipNotes flags fuel (rest.dropWhile (· != '\n'))
      | c :: rest => if Text.isBlank c then skipNotes flags fuel rest else cs
      | [] => []
    else cs

/-- Passes over blanks and comments where the flags ask for it. -/
def skip (flags : Flags) (cs : List Char) : List Char := skipNotes flags (cs.length + 1) cs

/-- A set of characters that stands for itself or for its variants in case. -/
def cased (flags : Flags) (s : CharSet) : CharSet := if flags.anyCase then .anyCase s else s

def anyChar : CharSet := .range (Char.ofNat 0) (Char.ofNat 0x10FFFF)

def asciiDigit : CharSet := .range '0' '9'

/-- ASCII letters, digits and the underscore. -/
def asciiWord : CharSet :=
  .or (.or (.range 'a' 'z') (.range 'A' 'Z')) (.or asciiDigit (.one '_'))

/-- ASCII white space. -/
def asciiSpace : CharSet := .or (.range '\t' '\r') (.one ' ')

/-- The set that a letter names after a backslash, in lower case. -/
def classOf (flags : Flags) : Char → Option CharSet
  | 'd' => some (if flags.unicode then .property .digit else asciiDigit)
  | 's' => some (if flags.unicode then .property .space else asciiSpace)
  | 'w' => some (if flags.unicode then .property .word else asciiWord)
  | _ => none

/-- The named sets of ASCII characters. -/
def asciiClasses : List (String × CharSet) :=
  let upper := CharSet.range 'A' 'Z'
  let lower := CharSet.range 'a' 'z'
  let alpha := CharSet.or upper lower
  let alnum := CharSet.or alpha asciiDigit
  let graph := CharSet.range '!' '~'
  [("alnum", alnum), ("alpha", alpha), ("ascii", .range '\x00' '\x7f'),
   ("blank", .or (.one ' ') (.one '\t')), ("cntrl", .or (.range '\x00' '\x1f') (.one '\x7f')),
   ("digit", asciiDigit), ("graph", graph), ("lower", lower), ("print", .range ' ' '~'),
   ("punct", graph.minus alnum), ("space", asciiSpace), ("upper", upper), ("word", asciiWord),
   ("xdigit", .or asciiDigit (.or (.range 'A' 'F') (.range 'a' 'f')))]

/-- The general categories by their short and long names, in lower case without separators. -/
def categoryNames : List (String × List Text.Category) :=
  let letters : List Text.Category := [.lu, .ll, .lt, .lm, .lo]
  let marks : List Text.Category := [.mn, .mc, .me]
  let numbers : List Text.Category := [.nd, .nl, .no]
  let punctuation : List Text.Category := [.pc, .pd, .ps, .pe, .pi, .pf, .po]
  let symbols : List Text.Category := [.sm, .sc, .sk, .so]
  let separators : List Text.Category := [.zs, .zl, .zp]
  let others : List Text.Category := [.cc, .cf, .cs, .co, .cn]
  [("l", letters), ("letter", letters), ("m", marks), ("mark", marks), ("combiningmark", marks),
   ("n", numbers), ("number", numbers), ("p", punctuation), ("punctuation", punctuation),
   ("punct", punctuation), ("s", symbols), ("symbol", symbols), ("z", separators),
   ("separator", separators), ("c", others), ("other", others),
   ("lc", [.lu, .ll, .lt]), ("casedletter", [.lu, .ll, .lt]),
   ("lu", [.lu]), ("uppercaseletter", [.lu]), ("ll", [.ll]), ("lowercaseletter", [.ll]),
   ("lt", [.lt]), ("titlecaseletter", [.lt]), ("lm", [.lm]), ("modifierletter", [.lm]),
   ("lo", [.lo]), ("otherletter", [.lo]), ("mn", [.mn]), ("nonspacingmark", [.mn]),
   ("mc", [.mc]), ("spacingmark", [.mc]), ("me", [.me]), ("enclosingmark", [.me]),
   ("nd", [.nd]), ("decimalnumber", [.nd]), ("digit", [.nd]), ("nl", [.nl]), ("letternumber", [.nl]),
   ("no", [.no]), ("othernumber", [.no]), ("pc", [.pc]), ("connectorpunctuation", [.pc]),
   ("pd", [.pd]), ("dashpunctuation", [.pd]), ("ps", [.ps]), ("openpunctuation", [.ps]),
   ("pe", [.pe]), ("closepunctuation", [.pe]), ("pi", [.pi]), ("initialpunctuation", [.pi]),
   ("pf", [.pf]), ("finalpunctuation", [.pf]), ("po", [.po]), ("otherpunctuation", [.po]),
   ("sm", [.sm]), ("mathsymbol", [.sm]), ("sc", [.sc]), ("currencysymbol", [.sc]),
   ("sk", [.sk]), ("modifiersymbol", [.sk]), ("so", [.so]), ("othersymbol", [.so]),
   ("zs", [.zs]), ("spaceseparator", [.zs]), ("zl", [.zl]), ("lineseparator", [.zl]),
   ("zp", [.zp]), ("paragraphseparator", [.zp]), ("cc", [.cc]), ("control", [.cc]),
   ("cntrl", [.cc]), ("cf", [.cf]), ("format", [.cf]), ("co", [.co]), ("privateuse", [.co]),
   ("cn", [.cn]), ("unassigned", [.cn])]

/-- The other properties of characters by name, in lower case without separators. -/
def propertyNames : List (String × CharSet) :=
  [("any", anyChar), ("ascii", .range '\x00' '\x7f'), ("assigned", .not (.property (.categories [.cn]))),
   ("alphabetic", .property .alphabetic), ("alpha", .property .alphabetic),
   ("lowercase", .property .lowercase), ("lower", .property .lowercase),
   ("uppercase", .property .uppercase), ("upper", .property .uppercase),
   ("whitespace", .property .space), ("wspace", .property .space), ("space", .property .space)]

/-- A name of a property as it is compared: lower case, without blanks, dashes and underscores. -/
def looseName (cs : List Char) : String :=
  String.ofList ((cs.filter fun c => c != ' ' && c != '-' && c != '_').map Char.toLower)

/-- The set that a property name stands for: a property, a general category or a script. -/
def property? (cs : List Char) : Option CharSet :=
  let name := looseName cs
  match propertyNames.lookup name with
  | some s => some s
  | none =>
    match categoryNames.lookup name with
    | some list => some (.property (.categories list))
    | none => (Text.scripts.lookup name).map fun _ => .property (.script name)

/-- The set of a property name with a value, such as `sc=Greek`. -/
def valuedProperty? (name value : List Char) : Option CharSet :=
  let kind := looseName name
  let value := looseName value
  if kind = "generalcategory" ∨ kind = "gc" then
    (categoryNames.lookup value).map fun list => .property (.categories list)
  else if kind = "script" ∨ kind = "sc" ∨ kind = "scriptextensions" ∨ kind = "scx" then
    (Text.scripts.lookup value).map fun _ => .property (.script value)
  else none

/-- The set that stands between the braces of a property. -/
def braced? (cs : List Char) : Option CharSet :=
  match cs with
  | '^' :: name => (property? name).map .not
  | _ =>
    match Text.splitFirst '=' cs with
    | some (before, value) =>
      match before.reverse with
      | '!' :: name => (valuedProperty? name.reverse value).map .not
      | _ => valuedProperty? before value
    | none =>
      match Text.splitFirst ':' cs with
      | some (name, value) => valuedProperty? name value
      | none => property? cs

/-- Reads what follows `\p`: a letter, or a name between braces. -/
def readProperty? (negated : Bool) (cs : List Char) : Option (CharSet × List Char) := do
  let (set, rest) ←
    match cs with
    | '\x7b' :: rest => do
      let (name, rest) ← Text.splitFirst '\x7d' rest
      let set ← braced? name
      pure (set, rest)
    | c :: rest => (property? [c]).map (·, rest)
    | [] => none
  pure (if negated then .not set else set, rest)

/-- Reads a character number in base 16: as many digits as given, or any number between braces. -/
def readNumbered? (width : Nat) (cs : List Char) : Option (Char × List Char) := do
  let (ds, rest) ←
    match cs with
    | '\x7b' :: rest => Text.splitFirst '\x7d' rest
    | _ => if cs.length < width then none else some (cs.take width, cs.drop width)
  if ds.isEmpty || 8 < ds.length then none
  let values ← ds.mapM Text.hexValue?
  let n := values.foldl (fun n d => n * 16 + d) 0
  if n < 0xD800 ∨ (0xE000 ≤ n ∧ n < 0x110000) then some (Char.ofNat n, rest) else none

/-- What an escape stands for. -/
inductive Escape where
  | literal (c : Char)
  | set (s : CharSet)
  | place (p : Place)

/-- The conditions on places that stand between braces after `\b`. -/
def wordPlaces (ascii : Bool) : List (String × Place) :=
  [("start", .wordStart ascii), ("end", .wordEnd ascii), ("start-half", .wordStartHalf ascii),
   ("end-half", .wordEndHalf ascii)]

/-- Reads what follows `\b`: usually nothing, or the name of an edge between braces. Braces that do
not start with a name belong to what comes next. -/
def readWordEdge? (flags : Flags) (cs : List Char) : Option (Escape × List Char) :=
  let plain := some (Escape.place (.wordEdge !flags.unicode), cs)
  match cs with
  | '\x7b' :: rest =>
    match skip flags rest with
    | c :: _ =>
      if c.isAlpha || c == '-' then do
        let (name, rest) ← Text.splitFirst '\x7d' rest
        let place ← (wordPlaces !flags.unicode).lookup (Text.trim (String.ofList name))
        pure (.place place, rest)
      else plain
    | [] => none
  | _ => plain

/-- Whether a character may follow a backslash to stand for itself. -/
def isEscapable (c : Char) : Bool :=
  c.toNat < 128 && !c.isAlphanum && c != '<' && c != '>'

/-- Reads what follows a backslash. -/
def readEscape? (flags : Flags) : List Char → Option (Escape × List Char)
  | 'x' :: rest => (readNumbered? 2 rest).map fun (c, rest) => (.literal c, rest)
  | 'u' :: rest => (readNumbered? 4 rest).map fun (c, rest) => (.literal c, rest)
  | 'U' :: rest => (readNumbered? 8 rest).map fun (c, rest) => (.literal c, rest)
  | 'p' :: rest =>
    if flags.unicode then (readProperty? false rest).map fun (s, rest) => (.set s, rest) else none
  | 'P' :: rest =>
    if flags.unicode then (readProperty? true rest).map fun (s, rest) => (.set s, rest) else none
  | 'a' :: rest => some (.literal '\x07', rest)
  | 'f' :: rest => some (.literal '\x0c', rest)
  | 't' :: rest => some (.literal '\t', rest)
  | 'n' :: rest => some (.literal '\n', rest)
  | 'r' :: rest => some (.literal '\r', rest)
  | 'v' :: rest => some (.literal '\x0b', rest)
  | 'A' :: rest => some (.place .textStart, rest)
  | 'z' :: rest => some (.place .textEnd, rest)
  | 'b' :: rest => readWordEdge? flags rest
  | 'B' :: rest => some (.place (.noWordEdge !flags.unicode), rest)
  | '<' :: rest => some (.place (.wordStart !flags.unicode), rest)
  | '>' :: rest => some (.place (.wordEnd !flags.unicode), rest)
  | c :: rest =>
    match classOf flags c with
    | some s => some (.set s, rest)
    | none =>
      match classOf flags c.toLower with
      | some s => if flags.unicode then some (.set (.not s), rest) else none
      | none => if isEscapable c then some (.literal c, rest) else none
  | [] => none

/-- Reads a named set of ASCII characters, after its opening bracket and colon. -/
def readAsciiClass? (cs : List Char) : Option (CharSet × List Char) := do
  let (negated, cs) :=
    match cs with
    | '^' :: rest => (true, rest)
    | _ => (false, cs)
  let name := cs.takeWhile (· != ':')
  match cs.dropWhile (· != ':') with
  | ':' :: ']' :: rest =>
    let s ← asciiClasses.lookup (String.ofList name)
    pure (if negated then .not s else s, rest)
  | _ => none

/-- A member of a bracketed set: one character, which may start a range, or a set. -/
inductive Member where
  | literal (c : Char)
  | set (s : CharSet)

/-- Reads one member of a bracketed set. -/
def readMember? (flags : Flags) : List Char → Option (Member × List Char)
  | '\\' :: rest =>
    match readEscape? flags rest with
    | some (.literal c, rest) => some (.literal c, rest)
    | some (.set s, rest) => some (.set s, rest)
    | _ => none
  | c :: rest => some (.literal c, rest)
  | [] => none

/-- An operation between the parts of a bracketed set. -/
inductive SetOp where
  | intersection
  | difference
  | symmetric

/-- Joins what was read of a bracketed set with the part after its last operation. -/
def joinSets (pending : Option (CharSet × SetOp)) (s : CharSet) : CharSet :=
  match pending with
  | none => s
  | some (left, .intersection) => .and left s
  | some (left, .difference) => left.minus s
  | some (left, .symmetric) => left.differ s

/-- Reads dashes at the start of a bracketed set, which stand for themselves. -/
def readDashes (flags : Flags) : Nat → CharSet → List Char → CharSet × List Char
  | 0, s, cs => (s, cs)
  | fuel + 1, s, cs =>
    match cs with
    | '-' :: rest => readDashes flags fuel (.or s (.one '-')) (skip flags rest)
    | _ => (s, cs)

mutual

/-- Reads a bracketed set, after its opening bracket. -/
def readSet? (flags : Flags) : Nat → List Char → Option (CharSet × List Char)
  | 0, _ => none
  | fuel + 1, cs => do
    let cs := skip flags cs
    let (negated, cs) :=
      match cs with
      | '^' :: rest => (true, skip flags rest)
      | _ => (false, cs)
    let (start, cs') := readDashes flags fuel .none cs
    -- a closing bracket right at the start stands for itself
    let (start, cs') :=
      match start, cs' with
      | .none, ']' :: rest => (CharSet.one ']', rest)
      | _, _ => (start, cs')
    let (s, rest) ← readMembers? flags fuel none start cs'
    pure (if negated then .not s else s, rest)

/-- Reads the members of a bracketed set up to its closing bracket. -/
def readMembers? (flags : Flags) :
    Nat → Option (CharSet × SetOp) → CharSet → List Char → Option (CharSet × List Char)
  | 0, _, _, _ => none
  | fuel + 1, pending, sofar, cs =>
    match skip flags cs with
    | [] => none
    | ']' :: rest => some (joinSets pending (cased flags sofar), rest)
    | '&' :: '&' :: rest =>
      readMembers? flags fuel (some (joinSets pending (cased flags sofar), .intersection)) .none rest
    | '-' :: '-' :: rest =>
      readMembers? flags fuel (some (joinSets pending (cased flags sofar), .difference)) .none rest
    | '~' :: '~' :: rest =>
      readMembers? flags fuel (some (joinSets pending (cased flags sofar), .symmetric)) .none rest
    | '[' :: rest =>
      let named :=
        match rest with
        | ':' :: name => readAsciiClass? name
        | _ => none
      match named with
      | some (s, rest) => readMembers? flags fuel pending (.or sofar s) rest
      | none => do
        let (s, rest) ← readSet? flags fuel rest
        readMembers? flags fuel pending (.or sofar s) rest
    | cs => do
      let (first, rest) ← readMember? flags cs
      let rest := skip flags rest
      let single :=
        match first with
        | .literal c => CharSet.one c
        | .set s => s
      match rest with
      | '-' :: after =>
        match skip flags after with
        | ']' :: _ => readMembers? flags fuel pending (.or sofar single) rest
        | '-' :: _ => readMembers? flags fuel pending (.or sofar single) rest
        | after => do
          let (last, rest) ← readMember? flags after
          match first, last with
          | .literal a, .literal b =>
            if a ≤ b then readMembers? flags fuel pending (.or sofar (.range a b)) rest else none
          | _, _ => none
      | _ => readMembers? flags fuel pending (.or sofar single) rest

end

/-- Reads a number with blanks around it. -/
def readCount? (cs : List Char) : Option (Nat × List Char) :=
  let cs := cs.dropWhile Text.isBlank
  let run := cs.takeWhile Char.isDigit
  let n := Number.ofDigits run
  if run.isEmpty || Nat.pow 2 32 ≤ n then none
  else some (n, (cs.dropWhile Char.isDigit).dropWhile Text.isBlank)

/-- Reads the counts of a repetition, after the opening brace. -/
def readCounts? (flags : Flags) (cs : List Char) : Option ((Nat × Option Nat) × List Char) := do
  let (least, rest) ← readCount? (skip flags cs)
  match rest with
  | '\x7d' :: rest => pure ((least, some least), rest)
  | ',' :: rest =>
    match skip flags rest with
    | '\x7d' :: rest => pure ((least, none), rest)
    | rest => do
      let (most, rest) ← readCount? rest
      match rest with
      | '\x7d' :: rest => if least ≤ most then pure ((least, some most), rest) else none
      | _ => none
  | _ => none

/-- Sets or clears the flag that a letter names. -/
def setFlag? (on : Bool) (flags : Flags) : Char → Option Flags
  | 'i' => some { flags with anyCase := on }
  | 'm' => some { flags with multiLine := on }
  | 's' => some { flags with dotAll := on }
  | 'U' => some { flags with lazy := on }
  | 'u' => some { flags with unicode := on }
  | 'x' => some { flags with verbose := on }
  | 'R' => some { flags with crlf := on }
  | _ => none

/-- Reads flags up to the colon or parenthesis after them, which stays. No letter may stand twice, and
one must follow the dash. -/
def readFlags? (on : Bool) (seen : List Char) (flags : Flags) : List Char → Option (Flags × List Char)
  | ':' :: rest => if !on && seen.head? = some '-' then none else some (flags, ':' :: rest)
  | ')' :: rest => if !on && seen.head? = some '-' then none else some (flags, ')' :: rest)
  | '-' :: rest => if on then readFlags? false ('-' :: seen) flags rest else none
  | c :: rest =>
    if seen.contains c then none
    else
      match setFlag? on flags c with
      | some flags => readFlags? on (c :: seen) flags rest
      | none => none
  | [] => none

/-- Whether a character may stand in the name of a group. -/
def isNameChar (first : Bool) (c : Char) : Bool :=
  if first then c == '_' || Text.isAlphabetic c
  else c == '_' || c == '.' || c == '[' || c == ']' || Text.isAlphanumeric c

/-- Reads the name of a group up to the angle that ends it. -/
def readName? (cs : List Char) : Option (String × List Char) := do
  let (name, rest) ← Text.splitFirst '>' cs
  match name with
  | [] => none
  | c :: more =>
    if isNameChar true c && more.all (isNameChar false) then pure (String.ofList name, rest) else none

/-- The character `.` stands for. -/
def dot (flags : Flags) : CharSet :=
  if flags.dotAll then anyChar
  else if flags.crlf then anyChar.minus (.or (.one '\n') (.one '\r'))
  else anyChar.minus (.one '\n')

/-- The place that `^` stands for. -/
def caret (flags : Flags) : Place :=
  if !flags.multiLine then .textStart else if flags.crlf then .crlfStart else .lineStart

/-- The place that `$` stands for. -/
def dollar (flags : Flags) : Place :=
  if !flags.multiLine then .textEnd else if flags.crlf then .crlfEnd else .lineEnd

/-- Whether a set may stand where the flags have put it: without Unicode, a set holds ASCII alone. -/
def permits (flags : Flags) (s : CharSet) : Bool :=
  flags.unicode || (List.range 128).all fun n => !s.holds (Char.ofNat (128 + n))

/-- Reads a repetition sign: how often at least, how often at most. -/
def readRepetition? (flags : Flags) : List Char → Option (Option ((Nat × Option Nat) × List Char))
  | '*' :: rest => some (some ((0, none), rest))
  | '+' :: rest => some (some ((1, none), rest))
  | '?' :: rest => some (some ((0, some 1), rest))
  | '\x7b' :: rest => (readCounts? flags rest).map some
  | _ => some none

/-- Passes over the question mark that makes a repetition take as little as it can; whether a text
matches does not depend on it. -/
def skipLazy : List Char → List Char
  | '?' :: rest => rest
  | cs => cs

/-- What reading a sequence depends on and changes: the flags, and the names of the groups so far. -/
structure State where
  flags : Flags
  names : List String

mutual

/-- Reads choices up to a closing parenthesis or the end. -/
def readChoices? : Nat → State → List Char → Option (Pattern × State × List Char)
  | 0, _, _ => none
  | fuel + 1, st, cs => do
    let (p, st, rest) ← readSequence? fuel st .empty cs
    match rest with
    | '|' :: rest => do
      let (q, st, rest) ← readChoices? fuel st rest
      pure (.alt p q, st, rest)
    | _ => pure (p, st, rest)

/-- Reads the parts of a sequence, each with its repetition signs, and joins them to what was read of
it. -/
def readSequence? : Nat → State → Pattern → List Char → Option (Pattern × State × List Char)
  | 0, _, _, _ => none
  | fuel + 1, st, sofar, cs =>
    match skip st.flags cs with
    | [] => some (sofar, st, [])
    | '|' :: rest => some (sofar, st, '|' :: rest)
    | ')' :: rest => some (sofar, st, ')' :: rest)
    | cs => do
      let (part, st, rest) ← readPart? fuel st cs
      match part with
      | none => readSequence? fuel st sofar rest
      | some p => do
        let (p, rest) ← readRepetitions? fuel st p rest
        readSequence? fuel st (.seq sofar p) rest

/-- Reads the repetition signs after a part. -/
def readRepetitions? : Nat → State → Pattern → List Char → Option (Pattern × List Char)
  | 0, _, _, _ => none
  | fuel + 1, st, p, cs => do
    match ← readRepetition? st.flags (skip st.flags cs) with
    | none => pure (p, cs)
    | some ((least, most), rest) =>
      readRepetitions? fuel st (.times p least most) (skipLazy (skip st.flags rest))

/-- Reads one part of a sequence. A setting of flags is no part by itself. -/
def readPart? : Nat → State → List Char → Option (Option Pattern × State × List Char)
  | 0, _, _ => none
  | fuel + 1, st, cs =>
    match cs with
    | '(' :: rest => readGroup? fuel st (skip st.flags rest)
    | '[' :: rest => do
      let (s, rest) ← readSet? st.flags fuel rest
      if permits st.flags s then pure (some (.char s), st, rest) else none
    | '.' :: rest => if st.flags.unicode then some (some (.char (dot st.flags)), st, rest) else none
    | '^' :: rest => some (some (.place (caret st.flags)), st, rest)
    | '$' :: rest => some (some (.place (dollar st.flags)), st, rest)
    | '*' :: _ | '+' :: _ | '?' :: _ | '\x7b' :: _ => none
    | '\\' :: rest =>
      (readEscape? st.flags rest).bind fun (escape, rest) =>
        match escape with
        | .literal c => some (some (.char (cased st.flags (.one c))), st, rest)
        | .set s => if permits st.flags s then some (some (.char s), st, rest) else none
        | .place p => some (some (.place p), st, rest)
    | c :: rest => some (some (.char (cased st.flags (.one c))), st, rest)
    | [] => none

/-- Reads a group, after its opening parenthesis. Flags set inside end with it. -/
def readGroup? : Nat → State → List Char → Option (Option Pattern × State × List Char)
  | 0, _, _ => none
  | fuel + 1, st, cs => do
    let body := fun (inner : State) (rest : List Char) => do
      let (p, after, rest) ← readChoices? fuel inner rest
      match rest with
      | ')' :: rest => pure (some p, { st with names := after.names }, rest)
      | _ => none
    let named := fun (rest : List Char) => do
      let (name, rest) ← readName? rest
      if st.names.contains name then none else body { st with names := name :: st.names } rest
    match cs with
    | '?' :: 'P' :: '<' :: rest => named rest
    | '?' :: '<' :: '=' :: _ | '?' :: '<' :: '!' :: _ => none
    | '?' :: '<' :: rest => named rest
    | '?' :: ')' :: _ => none
    | '?' :: rest => do
      let (flags, rest) ← readFlags? true [] st.flags rest
      match rest with
      | ':' :: rest => body { st with flags := flags } rest
      | ')' :: rest => pure (none, { st with flags := flags }, rest)
      | _ => none
    | _ => body st cs

end

end Reader

def read? (s : String) : Option Pattern :=
  let cs := s.toList
  match Reader.readChoices? (4 * cs.length + 8) ⟨{}, []⟩ cs with
  | some (p, _, []) => some p
  | _ => none

end TableMapper.Pattern
