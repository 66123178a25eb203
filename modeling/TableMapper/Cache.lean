import TableMapper.Row

/-! # The row cache

Rows that lookups by key have fetched, under keys made of a table's cache prefix and the key values.
-/

namespace TableMapper

/-- The key of a row: the prefix and the texts of the key values, with dots between them. -/
def cacheKey (start : String) (keyTexts : List String) : String :=
  keyTexts.foldl (fun key t => key ++ "." ++ t) start

/-- Rows under keys, one for a key. -/
structure Cache where
  entries : List (String × Row)
  deriving DecidableEq

namespace Cache

/-- The cache without rows. -/
def empty : Cache := ⟨[]⟩

/-- The row under a key. -/
def get? (c : Cache) (key : String) : Option Row := c.entries.lookup key

/-- The cache without the row under a key. -/
def erase (c : Cache) (key : String) : Cache := ⟨c.entries.filter fun (k, _) => k != key⟩

/-- The cache with a row under a key, in place of the one that was there. -/
def insert (c : Cache) (key : String) (r : Row) : Cache := ⟨(key, r) :: (c.erase key).entries⟩

/-- How many rows the cache holds. -/
def size (c : Cache) : Nat := c.entries.length

end Cache

end TableMapper
