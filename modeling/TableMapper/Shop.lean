import TableMapper.Entity.Record
import TableMapper.Mapper.Joined

/-! # The tables of a shop

Six tables that between them have every kind of key, of column and of rule, with the joins between them.
-/

namespace TableMapper.Shop

/-- A field type without NULL. -/
def required (s : ScalarType) : FieldType := ⟨s, false⟩

/-- A field type with NULL. -/
def optional (s : ScalarType) : FieldType := ⟨s, true⟩

/-- People with an account. -/
def user : RecordType :=
  { table := "user"
    fields :=
      [{ column := "usr_id", name := "id", type := required (.integer .uint32), primary := true
         autoIncrement := true },
       { column := "usr_email", name := "email", type := required .text, rule := some ⟨.email, { hostname := true }⟩ },
       { column := "usr_score", name := "score", type := required (.integer .int32)
         rule := some ⟨.integer, { least := some 0, greatest := some 100 }⟩ },
       { column := "usr_type", name := "type", type := required .text },
       { column := "usr_active", name := "active", type := required .bool },
       { column := "usr_balance", name := "balance", type := optional .decimal },
       { column := "usr_created_at", name := "created_at", type := required .dateTime },
       { column := "usr_address_id", name := "address_id", type := optional (.integer .int64) }]
    cacheStart := "shop.user"
    cacheEnabled := true }

/-- Places. -/
def address : RecordType :=
  { table := "address"
    fields :=
      [{ column := "id", name := "id", type := required (.integer .int64), primary := true
         autoIncrement := true },
       { column := "city", name := "city", type := required .text },
       { column := "zip", name := "zip", type := optional .text }]
    cacheStart := "shop.address" }

/-- What users may do, under a key of two columns. -/
def userRole : RecordType :=
  { table := "user_role"
    fields :=
      [{ column := "user_id", name := "user_id", type := required (.integer .uint32), primary := true },
       { column := "role", name := "role", type := required .text, primary := true },
       { column := "granted_at", name := "granted_at", type := optional .date }]
    cacheStart := "shop.userrole" }

/-- What happened, without a key. -/
def auditLog : RecordType :=
  { table := "audit_log"
    fields :=
      [{ column := "event", name := "event", type := required .text },
       { column := "payload", name := "payload", type := optional .json }]
    cacheStart := "shop.auditlog" }

/-- Pairs of numbers, which are nothing but a key. -/
def tagLink : RecordType :=
  { table := "tag_link"
    fields :=
      [{ column := "left_id", name := "left_id", type := required (.integer .int64), primary := true },
       { column := "right_id", name := "right_id", type := required (.integer .int64), primary := true }]
    cacheStart := "shop.taglink"
    cacheEnabled := true }

/-- A field of every type. -/
def sample : RecordType :=
  { table := "sample"
    fields :=
      [{ column := "s_id", name := "id", type := required (.integer .uint8), primary := true
         autoIncrement := true },
       { column := "s_flag", name := "flag", type := required .bool, rule := some ⟨.boolean, {}⟩ },
       { column := "s_host", name := "host", type := required .text
         rule := some ⟨.domain, { hostname := true }⟩ },
       { column := "s_code", name := "code", type := optional .text
         rule := some ⟨.regexp, { pattern := some "^[A-Z]\x7b2\x7d\\d+$", allowNull := true }⟩ },
       { column := "s_level", name := "level", type := optional (.integer .int16)
         rule := some ⟨.integer, { preset := some .tinyInt, allowNull := true }⟩ },
       { column := "s_ratio", name := "ratio", type := optional .single },
       { column := "s_score", name := "score", type := required .double },
       { column := "s_blob", name := "blob", type := optional .bytes },
       { column := "s_at", name := "at", type := optional .time },
       { column := "s_day", name := "day", type := required .date },
       { column := "s_doc", name := "doc", type := required .json },
       { column := "s_big", name := "big", type := optional (.integer .uint64) }]
    cacheStart := "my.sample.x"
    cacheEnabled := true }

/-- The tables in order. -/
def tables : List RecordType := [user, address, userRole, auditLog, tagLink, sample]

def userAddress : EntityJoin :=
  .plain "address" ⟨.leftOuter, "address", "user", "usr_address_id", "address", "id"⟩

def userRoles : EntityJoin := .plain "roles" ⟨.leftOuter, "user_role", "user", "usr_id", "roles", "user_id"⟩

/-- The user that a sample belongs to. -/
def sampleOwner : EntityJoin := .plain "owner" ⟨.inner, "user", "sample", "s_level", "own", "usr_id"⟩

end TableMapper.Shop
