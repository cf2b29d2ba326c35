import Listing.Sql.Schema

/-!
# A sample database

Users in teams, with posts: a schema that has a column of every type, columns that may be null, a
column with another name in its table, a computed number, a synonym, and relations in both directions.
-/

namespace Listing.Sql.Sample

def integerColumn (table name : String) : Column := ⟨table, name, name, .integer⟩

def textColumn (table name : String) : Column := ⟨table, name, name, .text⟩

def commonMembers : List String := ["metadata", "registry", "mro"]

/-- A team and its users. -/
def team : Model where
  name := "Team"
  table := "teams"
  columns := [integerColumn "teams" "id", textColumn "teams" "name"]
  relations := [⟨"users", "User", "teams", "id", "users", "team_id", true⟩]
  members := commonMembers

/-- A user with a team and posts. -/
def user : Model where
  name := "User"
  table := "users"
  columns := [integerColumn "users" "id", textColumn "users" "name", textColumn "users" "email",
    textColumn "users" "status", integerColumn "users" "age", ⟨"users", "score", "score", .real⟩,
    ⟨"users", "deletedAt", "deleted_at", .text⟩, integerColumn "users" "team_id"]
  computed := [⟨"age_in_months", integerColumn "users" "age", 12⟩]
  relations := [⟨"team", "Team", "users", "team_id", "teams", "id", false⟩,
    ⟨"posts", "Post", "users", "id", "posts", "user_id", true⟩]
  synonyms := [("nick", "name")]
  members := "older_than" :: commonMembers

/-- A post of a user. -/
def post : Model where
  name := "Post"
  table := "posts"
  columns := [integerColumn "posts" "id", textColumn "posts" "title",
    integerColumn "posts" "user_id"]
  relations := [⟨"user", "User", "posts", "user_id", "users", "id", false⟩]
  members := commonMembers

def schema : Schema := [team, user, post]

def row (m : Model) (cells : List Cell) : Row := fun name =>
  (((m.columns.map (·.stored)).zip cells).lookup name).getD .null

/-- A floating-point number of some tenths, hundredths and so on. -/
def decimal (digits : Int) (exponent : Int) : Cell :=
  .real (.ofDecimal (digits < 0) digits.natAbs exponent)

def teams : List Row := [
  row team [.integer 1, .text "Core"],
  row team [.integer 2, .text "Growth"],
  row team [.integer 3, .text "core%"],
  row team [.integer 4, .text "Empty"]]

def users : List Row := [
  row user [.integer 1, .text "Anna", .text "anna@example.com", .text "active", .integer 31,
    decimal 45 (-1), .null, .integer 1],
  row user [.integer 2, .text "bob", .text "bob@corp.io", .text "pending", .integer 17,
    .null, .null, .integer 2],
  row user [.integer 3, .text "Carla", .text "carla@example.com", .text "banned", .integer 45,
    decimal (-125) (-2), .text "2024-01-01", .integer 1],
  row user [.integer 4, .text "dave", .text "dave@ANNEX.org", .text "active", .integer 22,
    decimal 0 0, .null, .null],
  row user [.integer 5, .text "Eve", .text "eve@example.com", .text "pending", .integer 28,
    decimal 100 0, .null, .integer 2],
  row user [.integer 6, .text "100% Zoë", .text "zoe_z@corp.io", .text "active", .integer 64,
    decimal 3 0, .text "2023-12-31", .integer 3],
  row user [.integer 7, .text "a_b/c", .text "a/b@corp.io", .text "Active", .integer 0,
    decimal 25 (-1), .text "", .null],
  row user [.integer 8, .text "ÉMILE", .text "emile@example.com", .text "null", .integer (-3),
    decimal 1 300, .text "null", .integer 3],
  row user [.integer 9, .text "O'Neil", .text "o'neil@example.com", .text "", .integer 19,
    decimal 1 (-1), .null, .integer 1],
  row user [.integer 10, .text "42", .text "42@corp.io", .text "true", .integer 42,
    decimal 42 0, .text "42", .integer 2]]

def posts : List Row := [
  row post [.integer 1, .text "Hello SQL", .integer 1],
  row post [.integer 2, .text "100% pure", .integer 4],
  row post [.integer 3, .text "Rust notes", .integer 5],
  row post [.integer 4, .text "hello_world", .integer 1],
  row post [.integer 5, .text "a/b testing", .integer 7],
  row post [.integer 6, .text "", .integer 9],
  row post [.integer 7, .text "Straße", .integer 8],
  row post [.integer 8, .text "SQL again", .integer 3]]

def database : Database
  | "teams" => teams
  | "users" => users
  | "posts" => posts
  | _ => []

end Listing.Sql.Sample
