import Listing.Number.Binary64
import Listing.Text.Blank
import Listing.Text.Digit

/-!
# Reading numbers

Integers and decimals as they are written by hand: digits of any script, an optional sign, blanks
around. Whether a text looks like a number and whether it can be read as one are two questions, since
a number may be too long or be surrounded by separators that reading refuses.
-/

namespace Listing

/-- Integers of more digits than this are neither read nor written. -/
def digitLimit : Nat := 4300

/-- The number that a row of digits stands for. -/
def ofDigits (digits : List Nat) : Nat := digits.foldl (fun n d => 10 * n + d) 0

/-- Puts the sign to a magnitude. -/
def signed (negative : Bool) (n : Nat) : Int := if negative then -(n : Int) else n

namespace Numeral

open Text

/-- The digits that a text starts with, and the rest of the text. -/
def splitDigits (cs : List Char) : List Nat × List Char :=
  ((cs.takeWhile isDigit).filterMap digitValue?, cs.dropWhile isDigit)

/-- The sign that a text starts with, if any (whether it is a minus), and the rest of the text. -/
def splitSign : List Char → Bool × List Char
  | '+' :: rest => (false, rest)
  | '-' :: rest => (true, rest)
  | rest => (false, rest)

/-- The parts of a decimal: the digits before and after the point, and the exponent. -/
structure Parts where
  negative : Bool
  whole : List Nat
  fraction : List Nat
  exponent : Int
deriving Inhabited

/-- The exponent that a text starts with, and the rest; a mark without digits is no exponent. -/
def splitExponent (cs : List Char) : Int × List Char :=
  match cs with
  | mark :: rest =>
    if mark = 'e' ∨ mark = 'E' then
      let (negative, rest) := splitSign rest
      match splitDigits rest with
      | ([], _) => (0, cs)
      | (digits, rest) => (signed negative (ofDigits digits), rest)
    else (0, cs)
  | [] => (0, cs)

/-- The decimal that a text starts with, and the rest: digits on at least one side of the point. -/
def splitDecimal? (cs : List Char) : Option (Parts × List Char) :=
  let (negative, rest) := splitSign cs
  let (whole, rest) := splitDigits rest
  let (fraction, rest) := match rest with
    | '.' :: tail => if whole.isEmpty && (splitDigits tail).1.isEmpty then ([], rest) else splitDigits tail
    | _ => ([], rest)
  if whole.isEmpty && fraction.isEmpty then none
  else
    let (exponent, rest) := splitExponent rest
    some (⟨negative, whole, fraction, exponent⟩, rest)

def Parts.toBinary64 (p : Parts) : Binary64 :=
  .ofDecimal p.negative (ofDigits (p.whole ++ p.fraction)) (p.exponent - p.fraction.length)

/-- What may be read from a text: nothing, a value, or a number that looks right and is refused. -/
inductive Reading (α : Type) where
  | absent
  | refused
  | read (value : α)

/-- The integer that a text starts with, after blanks; `refused` if it has too many digits. -/
def leadingInteger (cs : List Char) : Reading Int :=
  let (negative, rest) := splitSign (cs.dropWhile isBlank)
  match (splitDigits rest).1 with
  | [] => .absent
  | digits => if digitLimit < digits.length then .refused else .read (signed negative (ofDigits digits))

/-- Whether the blanks at both ends of a text are such as number reading accepts. -/
def cleanEnds (cs : List Char) : Bool := trimBy isBlank cs == trimBy isNumberBlank cs

/-- Reads a text that is an integer up to blanks. -/
def integer (cs : List Char) : Reading Int :=
  let (negative, rest) := splitSign (trimBy isBlank cs)
  match splitDigits rest with
  | (d :: ds, []) =>
    if cleanEnds cs && (d :: ds).length ≤ digitLimit then .read (signed negative (ofDigits (d :: ds)))
    else .refused
  | _ => .absent

/-- Reads a text that is a decimal up to blanks. -/
def decimal (cs : List Char) : Reading Binary64 :=
  match splitDecimal? (trimBy isBlank cs) with
  | some (parts, []) => if cleanEnds cs then .read parts.toBinary64 else .refused
  | _ => .absent

/-- The digits that a text is made of; single underscores may stand between them. -/
def underscored? : List Char → Option (List Nat)
  | [] => none
  | c :: cs => do
    let d ← digitValue? c
    match cs with
    | [] => some [d]
    | '_' :: rest => (underscored? rest).map (d :: ·)
    | rest => (underscored? rest).map (d :: ·)

/-- Reads a text that is an integer up to blanks and underscores: its sign and its digits. -/
def integerDigits? (cs : List Char) : Option (Bool × List Nat) :=
  let (negative, rest) := splitSign (trimBy isNumberBlank cs)
  (underscored? rest).map (negative, ·)

end Numeral
end Listing
