import Listing.Text.Hex
import Listing.Text.Utf8

/-!
# Percent escapes

Texts whose characters are written as the escaped bytes of their UTF-8 form. Writing escapes all but
some ASCII characters; reading leaves a character that is not ASCII as it is and puts a replacement
character for bytes that are no UTF-8.
-/

namespace Listing.Text.Percent

def isAscii (c : Char) : Bool := c.toNat < 128

/-! ## Reading -/

/-- The bytes of a run of ASCII characters, with its percent escapes resolved. An escape that is not
two hexadecimal digits stands for itself. -/
def unescape : List Char → List UInt8
  | '%' :: a :: b :: rest =>
    match hexDigit? a, hexDigit? b with
    | some x, some y => (x * 16 + y).toUInt8 :: unescape rest
    | _, _ => '%'.toNat.toUInt8 :: unescape (a :: b :: rest)
  | c :: rest => c.toNat.toUInt8 :: unescape rest
  | [] => []

/-- Decodes a text: each run of ASCII characters on its own, all others as they are. `run` is the
current run, backwards. -/
def decodeRuns (run : List Char) : List Char → List Char
  | [] => decodeUtf8 (unescape run.reverse)
  | c :: cs =>
    if isAscii c then decodeRuns (c :: run) cs
    else decodeUtf8 (unescape run.reverse) ++ c :: decodeRuns [] cs

def decode (cs : List Char) : String := String.ofList (decodeRuns [] cs)

/-- Reads a text with percent escapes in which `+` is a blank. -/
def decodeForm (cs : List Char) : String := decode (cs.map fun c => if c = '+' then ' ' else c)

/-! ## Writing -/

/-- Whether a character is never escaped: an ASCII letter or digit, or one of four marks. -/
def isPlain (c : Char) : Bool :=
  c.isAlphanum || c == '_' || c == '.' || c == '-' || c == '~'

def escapeByte (b : UInt8) : List Char := '%' :: (hex 2 b.toNat).map Char.toUpper

/-- Writes a text with all but the plain characters and the safe ones escaped. -/
def encode (safe : List Char) (s : String) : String :=
  String.ofList (s.toList.flatMap fun c =>
    if isPlain c || safe.contains c then [c] else (String.singleton c).toUTF8.toList.flatMap escapeByte)

/-- Writes a text with a `+` for each blank and all other characters but the plain ones escaped. -/
def encodeForm (s : String) : String :=
  String.ofList ((encode [' '] s).toList.map fun c => if c = ' ' then '+' else c)

end Listing.Text.Percent
