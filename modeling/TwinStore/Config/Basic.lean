import TwinStore.Fault
import TwinStore.Text.Path
import TwinStore.Text.Percent

/-!
# Configuration

A configuration says where the two stores are and how the program talks.

Main definitions:

- `Connection`: the parts of the address of a database.
- `Config`: the configuration.
- `Config.databaseUrl`, `Config.engineUrl`, `Config.cacheUrl`: the addresses, if they are
  configured.
-/

namespace TwinStore

/-- The parts of the address of a database; the number behind the host is kept as it is
written. -/
structure Connection where
  user : String
  password : String
  host : String := "localhost"
  portText : String := "5432"
  database : String := "postgres"
deriving DecidableEq, Repr

/-- The address of a connection; user and password are encoded. -/
def Connection.url (c : Connection) : String :=
  "postgresql://" ++ Text.percentEncode c.user ++ ":" ++ Text.percentEncode c.password ++ "@" ++
    c.host ++ ":" ++ c.portText ++ "/" ++ c.database

/-- Where the stores are, how the cache names its sets and greets, and what is logged where. -/
structure Config where
  databaseText : Option String := none
  connection : Option Connection := none
  echoesSql : Bool := false
  cacheText : Option String := none
  namespaceText : String := ""
  greets : Bool := true
  logLevel : Int := 20
  logDirectory : Option String := none
  engineOptions : Entries Value := []

namespace Config

/-- A text that says something. -/
def nonempty? (s : Option String) : Option String := s.filter (!·.isEmpty)

/-- A text with its beginning replaced, if it begins so. -/
def replaceStart (old new s : String) : String :=
  if s.startsWith old then new ++ String.ofList (s.toList.drop old.length) else s

/-- The address of the database: as it is given, or put together from the connection. -/
def databaseUrl (c : Config) : Except ConfigError String :=
  match nonempty? c.databaseText, c.connection with
  | some url, _ => .ok (replaceStart "postgres://" "postgresql://" url)
  | none, some connection => .ok (replaceStart "postgres://" "postgresql://" connection.url)
  | none, none => .error .noDatabase

/-- The address of the database with the driver that is used. -/
def engineUrl (c : Config) : Except ConfigError String := do
  return replaceStart "postgresql://" "postgresql+psycopg://" (← c.databaseUrl)

/-- The address of the cache. -/
def cacheUrl (c : Config) : Except ConfigError String :=
  match nonempty? c.cacheText with
  | some url => .ok url
  | none => .error .noCache

/-- An address as an outcome. -/
def ofAddress (x : Except ConfigError String) : Outcome String := x.mapError .config

end Config

end TwinStore
