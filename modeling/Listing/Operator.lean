/-!
# Filter operators

The vocabulary of conditions: fourteen operators with a client token each (`$eq`), which may be
written bare (`eq`) where the place admits it, and a native key (`equals`) that stores understand.
Two operators share the native key `not`.
-/

namespace Listing

/-- A key of a native condition. -/
inductive NativeKey where
  | equals | not | gt | gte | lt | lte
  | isIn | notIn
  | contains | startsWith | endsWith | mode
  | is
deriving DecidableEq, Repr, Inhabited

namespace NativeKey

def all : List NativeKey :=
  [.equals, .not, .gt, .gte, .lt, .lte, .isIn, .notIn, .contains, .startsWith, .endsWith, .mode, .is]

def name : NativeKey → String
  | equals => "equals" | not => "not" | gt => "gt" | gte => "gte" | lt => "lt" | lte => "lte"
  | isIn => "in" | notIn => "notIn"
  | contains => "contains" | startsWith => "startsWith" | endsWith => "endsWith" | mode => "mode"
  | is => "is"

def ofName? (s : String) : Option NativeKey := all.find? (·.name == s)

end NativeKey

/-- An operator of a filter condition. -/
inductive Operator where
  | eq | gt | gte | lt | lte | ne
  | isIn | notIn
  | contains | startsWith | endsWith | mode
  | not | is
deriving DecidableEq, Repr, Inhabited

namespace Operator

def all : List Operator :=
  [.eq, .gt, .gte, .lt, .lte, .ne, .isIn, .notIn, .contains, .startsWith, .endsWith, .mode, .not, .is]

/-- The token without its mark. -/
def word : Operator → String
  | eq => "eq" | gt => "gt" | gte => "gte" | lt => "lt" | lte => "lte" | ne => "ne"
  | isIn => "in" | notIn => "nin"
  | contains => "contains" | startsWith => "startsWith" | endsWith => "endsWith" | mode => "mode"
  | not => "not" | is => "is"

/-- The token by which a client names the operator. -/
def token (op : Operator) : String := "$" ++ op.word

def name : Operator → String
  | eq => "EQ" | gt => "GT" | gte => "GTE" | lt => "LT" | lte => "LTE" | ne => "NE"
  | isIn => "IN" | notIn => "NOT_IN"
  | contains => "CONTAINS" | startsWith => "STARTS_WITH" | endsWith => "ENDS_WITH" | mode => "MODE"
  | not => "NOT" | is => "IS"

def native : Operator → NativeKey
  | eq => .equals | gt => .gt | gte => .gte | lt => .lt | lte => .lte | ne => .not
  | isIn => .isIn | notIn => .notIn
  | contains => .contains | startsWith => .startsWith | endsWith => .endsWith | mode => .mode
  | not => .not | is => .is

/-- The name of the native key that stands for the operator. -/
def nativeKey (op : Operator) : String := op.native.name

/-- Whether the operand is a collection of values. -/
def isSet : Operator → Bool
  | isIn | notIn => true
  | _ => false

/-- The operators that search in a text; a mode acts only beside one of them. -/
def textual : List Operator := [.contains, .startsWith, .endsWith]

def ofToken? (s : String) : Option Operator := all.find? (·.token == s)

/-- The operator that a token names, with or without its mark. -/
def ofWord? (s : String) : Option Operator := (ofToken? s).or (all.find? (·.word == s))

end Operator

end Listing
