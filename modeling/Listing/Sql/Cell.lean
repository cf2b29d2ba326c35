import Listing.Number.Reading
import Listing.Number.Shortest
import Listing.Value.Order

/-!
# Cells

What a database column holds: null, a 64-bit integer, a floating-point number, a text or a byte
string. Numbers go before texts and texts before byte strings; null has no order but in sorting, where
it goes first. A column draws what it is compared with towards its own type.
-/

namespace Listing.Sql

/-- The content of one column of one row. -/
inductive Cell where
  | null
  | integer (n : Int)
  | real (x : Binary64)
  | text (s : String)
  | blob (b : List UInt8)
deriving DecidableEq, Inhabited

/-- The type that a column is declared with. -/
inductive ColumnType where
  | integer | text | real
deriving DecidableEq, Inhabited

def minInteger : Int := -(Nat.pow 2 63)

/-- The integers from here on are not stored. -/
def integerLimit : Int := Nat.pow 2 63

def fits (n : Int) : Bool := minInteger ≤ n && n < integerLimit

namespace Cell

def isNull : Cell → Bool
  | null => true
  | _ => false

/-- Floating-point numbers turned into texts have 15 digits at most. -/
def realDigits : Nat := 15

def writeReal : Binary64 → String
  | .nan => ""
  | .infinite negative => if negative then "-Inf" else "Inf"
  | .finite negative m e =>
    let sign := if negative then ['-'] else []
    String.ofList (sign ++
      if m = 0 then ['0', '.', '0']
      else Decimal.Format.write ⟨-4, 15, true⟩
        (Decimal.ofRatio realDigits (m * Nat.pow 2 e.toNat) (Nat.pow 2 (-e).toNat)))

/-- The text that a cell stands for; null has none. -/
def text? : Cell → Option String
  | null => none
  | integer n => some (toString n)
  | real x => some (writeReal x)
  | text s => some s
  | blob b => some (String.ofList (b.map fun x => Char.ofNat x.toNat))

/-- Whether a character is an ASCII blank. -/
def isBlank (c : Char) : Bool := c == ' ' || (9 ≤ c.toNat && c.toNat ≤ 13)

/-- The number that a whole text writes in ASCII, if it does. -/
def numberOfText? (s : String) : Option Cell :=
  let cs := Text.trimBy isBlank s.toList
  if cs.all fun c => c.toNat < 128 then
    match Numeral.splitDecimal? cs with
    | some (parts, []) =>
      let digits := (Numeral.splitSign cs).2
      let whole := signed parts.negative (ofDigits parts.whole)
      if digits.all Char.isDigit && fits whole then some (integer whole)
      else some (real parts.toBinary64)
    | _ => none
  else none

/-- A bound cell as it is compared with a column of a type; without a type it stays as it is. -/
def drawn (t : Option ColumnType) (c : Cell) : Cell :=
  match t, c with
  | some .integer, text s | some .real, text s => (numberOfText? s).getD (text s)
  | some .text, integer n => text (toString n)
  | some .text, real x => text (writeReal x)
  | _, c => c

def number? : Cell → Option (Dyadic ⊕ Binary64)
  | integer n => some (.inl ⟨n, 0⟩)
  | real x => some (match x.toDyadic? with
    | some d => .inl d
    | none => .inr x)
  | _ => none

/-- The place of a kind of cell in the order of kinds. -/
def rank : Cell → Nat
  | null => 0
  | integer _ | real _ => 1
  | text _ => 2
  | blob _ => 3

/-- The order of two cells as a sort sees it. -/
def order (a b : Cell) : Ordering :=
  (compare a.rank b.rank).then
    (match a, b with
      | text s, text t => Value.compareTexts s t
      | blob x, blob y => Value.compareBytes x y
      | a, b =>
        match a.number?, b.number? with
        | some x, some y => (Value.compareNumbers? x y).getD .eq
        | _, _ => .eq)

/-- The order of two cells as a comparison sees it: none with null. -/
def compare? (a b : Cell) : Option Ordering :=
  if a.isNull || b.isNull then none else some (a.order b)

/-- A cell times an integer; what is no number has no multiple. -/
def times (c : Cell) (factor : Int) : Cell :=
  match c with
  | integer n =>
    if fits (n * factor) then integer (n * factor)
    else real ((Binary64.ofInt n).mul (.ofInt factor))
  | real x => real (x.mul (.ofInt factor))
  | _ => null

/-- An ASCII letter in lower case; any other character as it is. -/
def lowerAscii (c : Char) : Char :=
  if 'A' ≤ c ∧ c ≤ 'Z' then Char.ofNat (c.toNat + 32) else c

/-- The text of a cell with its ASCII letters in lower case. -/
def lower (c : Cell) : Cell :=
  match c.text? with
  | some s => text (String.ofList (s.toList.map lowerAscii))
  | none => null

def toValue : Cell → Value
  | null => .none
  | integer n => .int n
  | real x => .float x
  | text s => .text s
  | blob b => .bytes b

end Cell

/-! ## Patterns -/

/-- One part of a pattern: any run of characters, any one character, or a character, which stands for
its other case too if it is an ASCII letter. -/
inductive PatternPart where
  | run
  | one
  | char (c : Char)
deriving DecidableEq

namespace Pattern

/-- The character that takes a pattern's next character literally. -/
def escape : Char := '/'

/-- Reads a pattern: `%` is any run, `_` any one character, and both are literal after an escape. -/
def read : List Char → List PatternPart
  | [] => []
  | [c] => if c = escape then [] else [if c = '%' then .run else if c = '_' then .one else .char c]
  | c :: d :: rest =>
    if c = escape then .char d :: read rest
    else (if c = '%' then .run else if c = '_' then .one else .char c) :: read (d :: rest)

def accepts : List PatternPart → List Char → Bool
  | [], cs => cs.isEmpty
  | .run :: parts, [] => accepts parts []
  | .run :: parts, c :: cs => accepts parts (c :: cs) || accepts (.run :: parts) cs
  | .one :: parts, _ :: cs => accepts parts cs
  | .char d :: parts, c :: cs => Cell.lowerAscii c == Cell.lowerAscii d && accepts parts cs
  | _ :: _, [] => false
termination_by parts cs => (parts.length, cs.length)

/-- What a search sees of a text or of a pattern: a character of code zero ends it. -/
def seen (cs : List Char) : List Char := cs.takeWhile fun c => c.toNat != 0

/-- A text as a pattern that matches only it. -/
def literal : List Char → List Char
  | [] => []
  | c :: cs => if c = escape ∨ c = '%' ∨ c = '_' then escape :: c :: literal cs else c :: literal cs

end Pattern
end Listing.Sql
