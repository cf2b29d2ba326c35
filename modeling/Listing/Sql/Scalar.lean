import Listing.Sql.Cell
import Listing.Failure

/-!
# Scalar statements

The value of a statement that selects expressions without a table: numbers, texts and null, joined by
comparison, arithmetic and concatenation. Null spreads through every operator, integers that leave
their range become floating-point numbers, and a division by zero is null.
-/

namespace Listing.Sql

/-! ## Tokens -/

inductive Token where
  | literal (c : Cell)
  /-- A word, in lower case. -/
  | word (s : List Char)
  | mark (s : String)
deriving DecidableEq

namespace Token

/-- The marks of two characters, then those of one. -/
def marks : List String :=
  ["||", "<=", ">=", "<>", "!=", "==", "+", "-", "*", "/", "%", "=", "<", ">", "(", ")", ",", ";"]

def mark? (cs : List Char) : Option String := marks.find? fun m => m.toList.isPrefixOf cs

def number? (cs : List Char) : Option (Cell × List Char) :=
  match cs with
  | c :: _ =>
    if c.isDigit || c == '.' then do
      let (parts, rest) ← Numeral.splitDecimal? cs
      let written := String.ofList (cs.take (cs.length - rest.length))
      return ((Cell.numberOfText? written).getD (.real parts.toBinary64), rest)
    else none
  | [] => none

def quote : Char := '\''

/-- The text after an opening quote, and the rest after the closing one; two quotes are one. -/
def quoted? : List Char → Option (List Char × List Char)
  | [] => none
  | [c] => if c = quote then some ([], []) else none
  | c :: d :: cs =>
    if c = quote then
      if d = quote then (quoted? cs).map fun (s, rest) => (quote :: s, rest)
      else some ([], d :: cs)
    else (quoted? (d :: cs)).map fun (s, rest) => (c :: s, rest)

def next? (cs : List Char) : Option (Token × List Char) :=
  if cs.head? = some quote then
    (quoted? (cs.drop 1)).map fun (s, rest) => (literal (.text (String.ofList s)), rest)
  else
    match number? cs, mark? cs, cs.takeWhile Char.isAlpha with
    | some (c, rest), _, _ => some (literal c, rest)
    | none, some m, _ => some (mark m, cs.drop m.length)
    | none, none, [] => none
    | none, none, w => some (word (w.map Cell.lowerAscii), cs.drop w.length)

/-- The tokens of a text, at most `fuel` of them. -/
def read? (fuel : Nat) (cs : List Char) : Option (List Token) :=
  match fuel, cs.dropWhile Cell.isBlank with
  | _, [] => some []
  | 0, _ => none
  | n + 1, cs => do
    let (t, rest) ← next? cs
    return t :: (← read? n rest)

end Token

/-! ## Operators -/

namespace Cell

/-- The number that a cell counts as: that which a text starts with, or zero. -/
def asNumber : Cell → Cell
  | text s =>
    match Numeral.splitDecimal? s.toList with
    | some (parts, rest) =>
      (numberOfText? (String.ofList (s.toList.take (s.length - rest.length)))).getD
        (real parts.toBinary64)
    | none => integer 0
  | blob _ => integer 0
  | c => c

def asReal (c : Cell) : Binary64 :=
  match c.asNumber with
  | integer n => .ofInt n
  | real x => x
  | _ => .nan

/-- A floating-point result; what is not a number is null. -/
def ofResult : Binary64 → Cell
  | .nan => null
  | x => real x

/-- An operation on numbers, exact on integers where the result fits. -/
def arithmetic (exact : Int → Int → Int) (approximate : Binary64 → Binary64 → Binary64)
    (a b : Cell) : Cell :=
  match a.asNumber, b.asNumber with
  | null, _ | _, null => null
  | integer m, integer n =>
    if fits (exact m n) then integer (exact m n)
    else ofResult (approximate (.ofInt m) (.ofInt n))
  | x, y => ofResult (approximate x.asReal y.asReal)

/-- A quotient, cut to an integer for integers. -/
def quotient (a b : Cell) : Cell :=
  match b.asNumber with
  | integer 0 => null
  | b => if b.asReal.isZero then null else arithmetic Int.tdiv Binary64.div a b

def asInteger (c : Cell) : Int :=
  match c.asNumber with
  | integer n => n
  | real x => x.toDyadic?.elim 0 Dyadic.trunc
  | _ => 0

/-- A remainder of integers, with the sign of the dividend. -/
def remainder (a b : Cell) : Cell :=
  if a.isNull || b.isNull || b.asInteger == 0 then null else integer (a.asInteger.tmod b.asInteger)

def concatenation (a b : Cell) : Cell :=
  match a.text?, b.text? with
  | some s, some t => text (s ++ t)
  | _, _ => null

def comparison (holds : Ordering → Bool) (a b : Cell) : Cell :=
  match a.compare? b with
  | some o => integer (if holds o then 1 else 0)
  | none => null

end Cell

abbrev BinaryOperator := String × (Cell → Cell → Cell)

/-- The operators, those that bind least tightly first. -/
def binaryOperators : List (List BinaryOperator) := [
  [("=", Cell.comparison (· == .eq)), ("==", Cell.comparison (· == .eq)),
    ("!=", Cell.comparison (· != .eq)), ("<>", Cell.comparison (· != .eq))],
  [("<", Cell.comparison (· == .lt)), ("<=", Cell.comparison (· != .gt)),
    (">", Cell.comparison (· == .gt)), (">=", Cell.comparison (· != .lt))],
  [("+", Cell.arithmetic (· + ·) Binary64.add), ("-", Cell.arithmetic (· - ·) Binary64.sub)],
  [("*", Cell.arithmetic (· * ·) Binary64.mul), ("/", Cell.quotient), ("%", Cell.remainder)],
  [("||", Cell.concatenation)]]

/-! ## Expressions -/

mutual

/-- The value of the expression of some levels that a row of tokens starts with, and the rest. -/
def expression? (fuel : Nat) (levels : List (List BinaryOperator)) (ts : List Token) :
    Option (Cell × List Token) :=
  match fuel, levels with
  | 0, _ => none
  | n + 1, [] => operand? n ts
  | n + 1, operators :: inner => do
    let (a, rest) ← expression? n inner ts
    operations? n operators inner a rest

/-- Goes on with an expression after its first operand. -/
def operations? (fuel : Nat) (operators : List BinaryOperator)
    (inner : List (List BinaryOperator)) (a : Cell) (ts : List Token) : Option (Cell × List Token) :=
  match fuel, ts with
  | 0, _ => none
  | n + 1, .mark m :: tail =>
    match operators.lookup m with
    | some op => do
      let (b, rest) ← expression? n inner tail
      operations? n operators inner (op a b) rest
    | none => some (a, ts)
  | _, ts => some (a, ts)

/-- The value of an operand: a literal, a word for one, a sign before an operand, or an expression in
parentheses. -/
def operand? (fuel : Nat) (ts : List Token) : Option (Cell × List Token) :=
  match fuel, ts with
  | 0, _ => none
  | _, .literal c :: rest => some (c, rest)
  | _, .word w :: rest =>
    if w = "null".toList then some (.null, rest)
    else if w = "true".toList then some (.integer 1, rest)
    else if w = "false".toList then some (.integer 0, rest)
    else none
  | n + 1, .mark "-" :: tail => do
    let (a, rest) ← operand? n tail
    return (Cell.arithmetic (· - ·) Binary64.sub (.integer 0) a, rest)
  | n + 1, .mark "+" :: tail => operand? n tail
  | n + 1, .mark "(" :: tail => do
    match ← expression? n binaryOperators tail with
    | (a, .mark ")" :: rest) => some (a, rest)
    | _ => none
  | _, _ => none

end

/-- The values of the expressions between commas, up to the end of a statement. -/
def selected? (fuel : Nat) (ts : List Token) : Option (List Cell) :=
  match fuel with
  | 0 => none
  | n + 1 => do
    match ← expression? (8 * (ts.length + 1)) binaryOperators ts with
    | (a, []) | (a, [.mark ";"]) => some [a]
    | (a, .mark "," :: rest) => return a :: (← selected? n rest)
    | _ => none

/-- The first value that a statement without a table selects. -/
def scalar (sql : String) : Except Failure Value :=
  match Token.read? sql.length sql.toList with
  | some (.word w :: ts) =>
    match w == "select".toList, selected? (ts.length + 1) ts with
    | true, some (a :: _) => .ok a.toValue
    | _, _ => .error .invalidSql
  | _ => .error .invalidSql

end Listing.Sql
