import Listing.Connection.Address

/-!
# Drivers

Which addresses an engine can be opened at. The driver must be one of a known dialect, it must be
there, and it must not block; an address of an embedded database names neither user nor host.
-/

namespace Listing

/-- A driver of a dialect. -/
structure Driver where
  dialect : String
  /-- Empty for the driver that a dialect takes if the address names none. -/
  name : String
  installed : Bool := false
  blocking : Bool := false
  /-- Whether the database is a file or in memory. -/
  embedded : Bool := false
deriving DecidableEq, Inhabited

namespace Driver

def embeddedDrivers : List Driver := [
  { dialect := "sqlite", name := "", installed := true, blocking := true, embedded := true },
  { dialect := "sqlite", name := "pysqlite", installed := true, blocking := true, embedded := true },
  { dialect := "sqlite", name := "aiosqlite", installed := true, embedded := true },
  { dialect := "sqlite", name := "pysqlcipher", blocking := true, embedded := true }]

def serverDrivers : List (String × List String) :=
  let mysql := ["", "mysqldb", "pymysql", "mysqlconnector", "mariadbconnector", "cymysql", "pyodbc",
    "aiomysql", "asyncmy"]
  [("postgresql", ["", "psycopg", "psycopg2", "psycopg2cffi", "asyncpg", "pg8000"]),
    ("mysql", mysql), ("mariadb", mysql),
    ("oracle", ["", "cx_oracle", "oracledb"]),
    ("mssql", ["", "pyodbc", "pymssql", "aioodbc"])]

def known : List Driver :=
  embeddedDrivers ++ serverDrivers.flatMap fun (dialect, names) =>
    names.map fun name => { dialect := dialect, name := name }

/-- The driver of a name, with the dialect before a plus sign. -/
def ofName (s : String) : Except Failure Driver :=
  let find (dialect name : List Char) : Except Failure Driver :=
    match known.find? fun d => d.dialect.toList == dialect && d.name.toList == name with
    | some d => .ok d
    | none => .error .unknownDialect
  match Text.splitAt '+' s.toList with
  | [dialect] => find dialect []
  | [_, []] => .error .unknownDialect
  | [dialect, name] => find dialect name
  | _ => .error .tooManyToUnpack

end Driver

namespace Address

/-- The name of the option that asks for plugins, of which there are none. -/
def pluginOption : String := "plugin"

/-- Whether an address names a user or a host. -/
def isRemote (a : Address) : Bool :=
  a.user.any (· != "") || a.password.any (· != "") || a.host.isSome || a.service.any (· != 0)

def checkDriver (a : Address) : Except Failure Unit := do
  if a.options.any (·.1 == pluginOption) then throw .unknownDialect
  let driver ← Driver.ofName a.driver
  if !driver.installed then throw .missingDriver
  if driver.embedded && a.isRemote then throw .unparsableUrl
  if driver.blocking then throw .blockingDriver

/-- Checks that an engine can be opened at the address that a text writes. -/
def checkOpen (s : String) : Except Failure Unit := do (← read s).checkDriver

end Address
end Listing
