import TableMapper.Number.Shortest

/-! # JSON values

Documents as trees. Whole numbers are kept exactly as long as 64 bits hold them; all others are
floating-point numbers. The members of an object stand in the order of their names, one for a name.
-/

namespace TableMapper

open Number (Double)

inductive JsonNumber where
  /-- A whole number of 64 bits, with or without a sign. -/
  | whole (n : Int)
  /-- Any other finite number. -/
  | real (x : Double)
  deriving DecidableEq, Repr

/-- A JSON value. -/
inductive Json where
  | null
  | bool (b : Bool)
  | number (n : JsonNumber)
  | text (s : String)
  | array (items : List Json)
  | object (members : List (String × Json))
  deriving Repr

namespace Json

section

variable (number : JsonNumber → JsonNumber → Bool)

mutual

/-- Whether two values are the same, up to which numbers count as the same. -/
def sameBy : Json → Json → Bool
  | .null, .null => true
  | .bool a, .bool b => a == b
  | .number a, .number b => number a b
  | .text a, .text b => a == b
  | .array as, .array bs => sameItemsBy as bs
  | .object as, .object bs => sameMembersBy as bs
  | _, _ => false

/-- Whether two lists hold the same values. -/
def sameItemsBy : List Json → List Json → Bool
  | [], [] => true
  | a :: as, b :: bs => sameBy a b && sameItemsBy as bs
  | _, _ => false

/-- Whether two objects hold the same members. -/
def sameMembersBy : List (String × Json) → List (String × Json) → Bool
  | [], [] => true
  | (k, a) :: as, (l, b) :: bs => k == l && sameBy a b && sameMembersBy as bs
  | _, _ => false

end

end

/-- Whether two values are the same. -/
def same : Json → Json → Bool := sameBy (· == ·)

mutual

theorem eq_of_same : ∀ {a b : Json}, sameBy (· == ·) a b = true → a = b
  | .null, b, h => by cases b <;> simp_all [sameBy]
  | .bool _, b, h => by cases b <;> simp_all [sameBy]
  | .number _, b, h => by cases b <;> simp_all [sameBy]
  | .text _, b, h => by cases b <;> simp_all [sameBy]
  | .array as, b, h => by
    cases b with
    | array bs => exact congrArg Json.array (eq_of_sameItems (by simpa [sameBy] using h))
    | _ => simp [sameBy] at h
  | .object as, b, h => by
    cases b with
    | object bs => exact congrArg Json.object (eq_of_sameMembers (by simpa [sameBy] using h))
    | _ => simp [sameBy] at h

theorem eq_of_sameItems : ∀ {as bs : List Json}, sameItemsBy (· == ·) as bs = true → as = bs
  | [], bs, h => by cases bs <;> simp_all [sameItemsBy]
  | a :: as, bs, h => by
    cases bs with
    | nil => simp [sameItemsBy] at h
    | cons b bs =>
      simp only [sameItemsBy, Bool.and_eq_true] at h
      rw [eq_of_same h.1, eq_of_sameItems h.2]

theorem eq_of_sameMembers : ∀ {as bs : List (String × Json)}, sameMembersBy (· == ·) as bs = true → as = bs
  | [], bs, h => by cases bs <;> simp_all [sameMembersBy]
  | (k, a) :: as, bs, h => by
    cases bs with
    | nil => simp [sameMembersBy] at h
    | cons b bs =>
      obtain ⟨l, b⟩ := b
      simp only [sameMembersBy, Bool.and_eq_true, beq_iff_eq] at h
      rw [h.1.1, eq_of_same h.1.2, eq_of_sameMembers h.2]

end

mutual

theorem same_self : ∀ a : Json, sameBy (· == ·) a a = true
  | .null => by simp [sameBy]
  | .bool _ => by simp [sameBy]
  | .number _ => by simp [sameBy]
  | .text _ => by simp [sameBy]
  | .array as => by simpa [sameBy] using sameItems_self as
  | .object as => by simpa [sameBy] using sameMembers_self as

theorem sameItems_self : ∀ as : List Json, sameItemsBy (· == ·) as as = true
  | [] => by simp [sameItemsBy]
  | a :: as => by simp [sameItemsBy, same_self a, sameItems_self as]

theorem sameMembers_self : ∀ as : List (String × Json), sameMembersBy (· == ·) as as = true
  | [] => by simp [sameMembersBy]
  | (k, a) :: as => by simp [sameMembersBy, same_self a, sameMembers_self as]

end

instance : DecidableEq Json := fun a b =>
  if h : same a b = true then isTrue (eq_of_same h)
  else isFalse fun e => h (e ▸ same_self a)

/-- Puts a member in its place; a member of the same name is replaced. -/
def insertMember (name : String) (value : Json) : List (String × Json) → List (String × Json)
  | [] => [(name, value)]
  | (other, old) :: rest =>
    if name = other then (name, value) :: rest
    else if name < other then (name, value) :: (other, old) :: rest
    else (other, old) :: insertMember name value rest

/-- The object of a list of members; of two members of one name the later stays. -/
def ofMembers (members : List (String × Json)) : Json :=
  .object (members.foldl (fun sorted (name, value) => insertMember name value sorted) [])

/-- The member of an object with a given name. -/
def member? (name : String) : Json → Option Json
  | .object members => members.lookup name
  | _ => none

end Json

end TableMapper
