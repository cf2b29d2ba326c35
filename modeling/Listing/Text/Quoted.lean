import Listing.Text.Hex
import Listing.Text.Printable

/-!
# Quoted texts

A text or a byte string as it appears inside a message: in single quotes, or in double quotes when it
holds single quotes only, with everything that is not printable escaped.
-/

namespace Listing.Text

/-- The quote for a text: double if the text holds single quotes and no double ones. -/
def quoteFor (cs : List Char) : Char := if cs.contains '\'' && !cs.contains '"' then '"' else '\''

/-- The escape of a character that stands for itself in no quoted text. -/
def escapeChar (c : Char) : List Char :=
  if c = '\n' then ['\\', 'n'] else if c = '\r' then ['\\', 'r'] else if c = '\t' then ['\\', 't']
  else
    let n := c.toNat
    if n < 0x100 then '\\' :: 'x' :: hex 2 n
    else if n < 0x10000 then '\\' :: 'u' :: hex 4 n
    else '\\' :: 'U' :: hex 8 n

def quoteChar (quote c : Char) : List Char :=
  if c = quote ∨ c = '\\' then ['\\', c] else if isPrintable c then [c] else escapeChar c

def quoted (s : String) : String :=
  let cs := s.toList
  let q := quoteFor cs
  String.ofList (q :: cs.flatMap (quoteChar q) ++ [q])

/-- A byte string in quotes, marked by a `b`: printable ASCII as it is, all else escaped. -/
def quotedBytes (bytes : List UInt8) : String :=
  let cs := bytes.map fun b => Char.ofNat b.toNat
  let q := quoteFor cs
  let one (c : Char) : List Char :=
    if c = q ∨ c = '\\' then ['\\', c]
    else if 32 ≤ c.toNat ∧ c.toNat < 127 then [c] else escapeChar c
  String.ofList ('b' :: q :: cs.flatMap one ++ [q])

end Listing.Text
