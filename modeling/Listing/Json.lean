import Listing.Number.Reading
import Listing.Text.Hex
import Listing.Value.Basic

/-!
# Reading JSON

Reads one JSON document, with blanks around and nothing else. Beyond the standard it takes the
words `NaN`, `Infinity` and `-Infinity`; it refuses control characters inside strings, integers of
more than `digitLimit` digits and documents nested beyond `Json.maxNesting`. A repeated member keeps
its first place and its last value.
-/

namespace Listing.Json

/-- Documents nested deeper than this are refused. -/
def maxNesting : Nat := 980

/-- Whether a character is a blank between the tokens of a document. -/
def isSpace (c : Char) : Bool := c == ' ' || c == '\t' || c == '\n' || c == '\r'

def skip (cs : List Char) : List Char := cs.dropWhile isSpace

/-- The four hexadecimal digits that a text starts with, and the rest. -/
def unit? : List Char → Option (Nat × List Char)
  | a :: b :: c :: d :: rest => do
    let a ← Text.hexDigit? a
    let b ← Text.hexDigit? b
    let c ← Text.hexDigit? c
    let d ← Text.hexDigit? d
    return (((a * 16 + b) * 16 + c) * 16 + d, rest)
  | _ => none

def letterEscape? : Char → Option Char
  | '"' => some '"' | '\\' => some '\\' | '/' => some '/'
  | 'b' => some '\x08' | 'f' => some '\x0c' | 'n' => some '\n' | 'r' => some '\r' | 't' => some '\t'
  | _ => none

/-- The character of an escape by code unit, after its `u`: a pair of surrogates is one character. -/
def unitEscape? (cs : List Char) : Option (Char × List Char) := do
  let (high, rest) ← unit? cs
  if 0xD800 ≤ high ∧ high < 0xDC00 then
    match rest with
    | '\\' :: 'u' :: more =>
      match unit? more with
      | some (low, rest') =>
        if 0xDC00 ≤ low ∧ low < 0xE000 then
          return (Char.ofNat (0x10000 + (high - 0xD800) * 0x400 + (low - 0xDC00)), rest')
        else return ('\ufffd', rest)
      | none => return ('\ufffd', rest)
    | _ => return ('\ufffd', rest)
  else if 0xDC00 ≤ high ∧ high < 0xE000 then return ('\ufffd', rest)
  else return (Char.ofNat high, rest)

/-- The rest of a string after its opening quote: its characters, and what follows it. -/
def string? : Nat → List Char → Option (List Char × List Char)
  | 0, _ => none
  | _ + 1, [] => none
  | fuel + 1, c :: rest =>
    if c = '"' then some ([], rest)
    else if c = '\\' then
      match rest with
      | 'u' :: more => do
        let (x, rest) ← unitEscape? more
        let (xs, rest) ← string? fuel rest
        return (x :: xs, rest)
      | e :: more => do
        let x ← letterEscape? e
        let (xs, rest) ← string? fuel more
        return (x :: xs, rest)
      | [] => none
    else if c.toNat < 0x20 then none
    else do
      let (xs, rest) ← string? fuel rest
      return (c :: xs, rest)

def isDigit (c : Char) : Bool := '0' ≤ c && c ≤ '9'

def digits (cs : List Char) : List Nat × List Char :=
  ((cs.takeWhile isDigit).map fun c => c.toNat - '0'.toNat, cs.dropWhile isDigit)

/-- The fraction that a text starts with, if a point and a digit do. -/
def fraction? : List Char → Option (List Nat × List Char)
  | '.' :: rest =>
    match digits rest with
    | ([], _) => none
    | found => some found
  | _ => none

/-- The exponent that a text starts with, if a mark and a digit do. -/
def exponent? : List Char → Option (Int × List Char)
  | mark :: rest =>
    if mark = 'e' ∨ mark = 'E' then
      let (negative, rest) := Numeral.splitSign rest
      match digits rest with
      | ([], _) => none
      | (ds, rest) => some (signed negative (ofDigits ds), rest)
    else none
  | [] => none

/-- The number that a text starts with: whole digits without a leading zero, then a fraction and an
exponent if they are there. -/
def number? (cs : List Char) : Option (Value × List Char) :=
  let (negative, rest) := match cs with
    | '-' :: rest => (true, rest)
    | rest => (false, rest)
  let (whole, rest) := match rest with
    | '0' :: rest => ([0], rest)
    | rest => digits rest
  if whole.isEmpty then none
  else
    match fraction? rest, exponent? ((fraction? rest).elim rest (·.2)) with
    | none, none =>
      if digitLimit < whole.length then none
      else some (.int (signed negative (ofDigits whole)), rest)
    | f, e =>
      let fraction := f.elim [] (·.1)
      let exponent := e.elim 0 (·.1)
      let value := Binary64.ofDecimal negative (ofDigits (whole ++ fraction))
        (exponent - fraction.length)
      some (.float value, e.elim (f.elim rest (·.2)) (·.2))

def word? (cs : List Char) : Option (Value × List Char) :=
  let after (w : String) : Option (List Char) :=
    if w.toList.isPrefixOf cs then some (cs.drop w.length) else none
  let read (w : String) (v : Value) : Option (Value × List Char) := (after w).map (v, ·)
  (read "null" .none).or <| (read "true" (.bool true)).or <| (read "false" (.bool false)).or <|
    (read "NaN" (.float .nan)).or <| (read "Infinity" (.float (.infinite false))).or <|
      read "-Infinity" (.float (.infinite true))

mutual

/-- The value that a text starts with, and the rest; `nesting` is how deep it may still go. -/
def value? : Nat → Nat → List Char → Option (Value × List Char)
  | 0, _, _ => none
  | fuel + 1, nesting, cs =>
    match cs with
    | '"' :: rest => do
      let (s, rest) ← string? (rest.length + 1) rest
      return (.text (String.ofList s), rest)
    | '{' :: rest =>
      match nesting with
      | 0 => none
      | nesting + 1 =>
        match skip rest with
        | '}' :: rest => some (.map [], rest)
        | rest => do
          let (members, rest) ← members? fuel nesting rest
          return (.map (Entries.ofPairs members), rest)
    | '[' :: rest =>
      match nesting with
      | 0 => none
      | nesting + 1 =>
        match skip rest with
        | ']' :: rest => some (.list [], rest)
        | rest => do
          let (elements, rest) ← elements? fuel nesting rest
          return (.list elements, rest)
    | cs => (number? cs).or (word? cs)

/-- The elements of an array up to its end. -/
def elements? : Nat → Nat → List Char → Option (List Value × List Char)
  | 0, _, _ => none
  | fuel + 1, nesting, cs => do
    let (v, rest) ← value? fuel nesting cs
    match skip rest with
    | ']' :: rest => return ([v], rest)
    | ',' :: rest =>
      let (vs, rest) ← elements? fuel nesting (skip rest)
      return (v :: vs, rest)
    | _ => none

/-- The members of an object up to its end. -/
def members? : Nat → Nat → List Char → Option (List (Key × Value) × List Char)
  | 0, _, _ => none
  | fuel + 1, nesting, cs =>
    match cs with
    | '"' :: rest => do
      let (name, rest) ← string? (rest.length + 1) rest
      match skip rest with
      | ':' :: rest =>
        let (v, rest) ← value? fuel nesting (skip rest)
        let entry := (Key.text (String.ofList name), v)
        match skip rest with
        | '}' :: rest => return ([entry], rest)
        | ',' :: rest =>
          let (entries, rest) ← members? fuel nesting (skip rest)
          return (entry :: entries, rest)
        | _ => none
      | _ => none
    | _ => none

end

/-- The document that a text is, if it is one. -/
def parse? (s : String) : Option Value :=
  let cs := skip s.toList
  match value? (2 * cs.length + 2) maxNesting cs with
  | some (v, rest) => if (skip rest).isEmpty then some v else none
  | none => none

end Listing.Json
