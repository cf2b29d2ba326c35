/-!
# Blanks

Two notions of a blank character: the wide one of pattern matching and trimming, and the narrower
one of number reading, which refuses the four information separators.
-/

namespace Listing.Text

/-- Whether a character is white space in the wide sense: the blanks of ASCII with the information
separators, and every Unicode space or line separator. -/
def isBlank (c : Char) : Bool :=
  let n := c.toNat
  (9 ≤ n && n ≤ 13) || (28 ≤ n && n ≤ 32) || n == 0x85 || n == 0xA0 || n == 0x1680 ||
    (0x2000 ≤ n && n ≤ 0x200A) || n == 0x2028 || n == 0x2029 || n == 0x202F || n == 0x205F ||
    n == 0x3000

/-- Whether a character may surround a number: a blank other than an information separator. -/
def isNumberBlank (c : Char) : Bool :=
  isBlank c && !(28 ≤ c.toNat && c.toNat ≤ 31)

/-- Removes the blanks of the given kind at both ends. -/
def trimBy (blank : Char → Bool) (cs : List Char) : List Char :=
  ((cs.dropWhile blank).reverse.dropWhile blank).reverse

def trim (s : String) : String := String.ofList (trimBy isBlank s.toList)

end Listing.Text
