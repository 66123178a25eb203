import TableMapper.Code.Generation

/-! # Databases by URL

A database is named by a URL, which is checked as soon as it is used. A connection is made only when a table
is described, and there is none to be had without a network.
-/

namespace TableMapper.DatabaseUrl

/-- Characters that cannot stand in the name of a host. -/
def isForbidden (c : Char) : Bool :=
  ['\x00', '\t', '\n', '\r', ' ', '#', '/', ':', '<', '>', '?', '@', '[', '\\', ']', '^', '|'].contains c

/-- Whether a text names a host: an address in brackets, or a name. -/
def isHost (cs : List Char) : Bool :=
  match cs with
  | '[' :: rest => rest.getLast? == some ']' && rest.dropLast.all fun c => c.isAlphanum || c == ':' || c == '.'
  | _ => !cs.isEmpty && cs.all fun c => !isForbidden c

/-- Whether a text is the number that may follow a host, or empty. -/
def isSocketNumber (cs : List Char) : Bool := cs.all Char.isDigit && Number.ofDigits cs ≤ 65535

/-- Whether a text names a host, with a number or without. -/
def isAddress (cs : List Char) : Bool :=
  match Text.splitLast ':' cs with
  | some (host, number) => (isHost host && isSocketNumber number) || isHost cs
  | none => isHost cs

/-- The options that may follow a question mark. -/
def options : List String :=
  ["pool_min", "pool_max", "inactive_connection_ttl", "ttl_check_interval", "conn_ttl", "abs_conn_ttl",
   "abs_conn_ttl_jitter", "tcp_keepalive", "max_allowed_packet", "wait_timeout", "enable_cleartext_plugin",
   "reset_connection", "tcp_nodelay", "stmt_cache_size", "prefer_socket", "secure_auth",
   "client_found_rows", "socket", "compression", "require_ssl", "verify_ca", "verify_identity",
   "built_in_roots"]

/-- Whether every option is a known one. -/
def hasKnownOptions (cs : List Char) : Bool :=
  let query := (((cs.takeWhile (· != '#')).dropWhile (· != '?')).drop 1).splitOn '&'
  (query.filter fun pair => !pair.isEmpty).all fun pair =>
    options.contains (String.ofList (pair.takeWhile (· != '=')))

/-- Whether a text is the URL of a database. -/
def isValid (url : String) : Bool :=
  let cs := Text.trimList (fun c => c.toNat ≤ 0x20) url.toList
  let scheme := (cs.takeWhile (· != ':')).map Char.toLower
  match cs.dropWhile (· != ':') with
  | ':' :: '/' :: '/' :: rest =>
    let authority := rest.takeWhile fun c => c != '/' && c != '?' && c != '#'
    let address := match Text.splitLast '@' authority with
      | some (_, address) => address
      | none => authority
    scheme == "mysql".toList && isAddress address && hasKnownOptions rest
  | _ => false

/-- The schema of a database. -/
def connect (url : String) : Except GenerationError Schema :=
  if isValid url then .ok fun _ => .error (.database (.query "no connection to the database"))
  else .error (.database (.query "invalid connection URL: not the URL of a database"))

end TableMapper.DatabaseUrl
