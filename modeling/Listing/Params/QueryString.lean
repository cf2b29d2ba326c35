import Listing.Text.Percent
import Listing.Text.Split
import Listing.Value.Basic

/-!
# Query strings

Reads a URL query string: fields between `&`, a name and a value around the first `=`, `+` for a
blank, and percent escapes of UTF-8 bytes. A character that is not ASCII reaches the reader as its
bytes, each taken for a character of its own, and is left so.
-/

namespace Listing.QueryString

/-- The name and value of a field; a field without `=` has an empty value. -/
def field (cs : List Char) : String × String :=
  let (name, value) := (Text.splitFirst? '=' cs).getD (cs, [])
  (Text.Percent.decodeForm name, Text.Percent.decodeForm value)

/-- The names and values of a query string, in order; empty fields are skipped. -/
def pairs (query : String) : List (String × String) :=
  let cs := query.toUTF8.toList.map fun b => Char.ofNat b.toNat
  ((Text.splitAt '&' cs).filter (!·.isEmpty)).map field

def toValue (query : String) : Value :=
  .items ((pairs query).map fun (k, v) => (.text k, .text v))

end Listing.QueryString
