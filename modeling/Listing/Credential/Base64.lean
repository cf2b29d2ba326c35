/-!
# Base64 without padding

Each character stands for six bits. Bits that make no whole byte are zero in what is written, and
refused otherwise in what is read.
-/

namespace Listing.Base64

/-- The characters in the order of their values. -/
def alphabet : List Char :=
  "ABCDEFGHIJKLMNOPQRSTUVWXYZabcdefghijklmnopqrstuvwxyz0123456789+/".toList

def charOf (n : Nat) : Char := alphabet.getD n 'A'

def valueOf? (c : Char) : Option Nat := alphabet.idxOf? c

/-- Writes bytes, three at a time. -/
def encode : List UInt8 → List Char
  | a :: b :: c :: rest =>
    let n := (a.toNat * 256 + b.toNat) * 256 + c.toNat
    charOf (n / 262144) :: charOf (n / 4096 % 64) :: charOf (n / 64 % 64) :: charOf (n % 64) ::
      encode rest
  | [a, b] =>
    let n := (a.toNat * 256 + b.toNat) * 4
    [charOf (n / 4096), charOf (n / 64 % 64), charOf (n % 64)]
  | [a] => [charOf (a.toNat / 4), charOf (a.toNat * 16 % 64)]
  | [] => []

/-- The bytes of values of six bits; none if bits are left over that are not zero, or too many. -/
def bytesOf? : List Nat → Option (List UInt8)
  | a :: b :: c :: d :: rest => do
    let n := ((a * 64 + b) * 64 + c) * 64 + d
    return (n / 65536).toUInt8 :: (n / 256 % 256).toUInt8 :: (n % 256).toUInt8 :: (← bytesOf? rest)
  | [a, b, c] =>
    let n := (a * 64 + b) * 64 + c
    if n % 4 = 0 then some [(n / 1024).toUInt8, (n / 4 % 256).toUInt8] else none
  | [a, b] => if b % 16 = 0 then some [(a * 4 + b / 16).toUInt8] else none
  | [_] => none
  | [] => some []

/-- Reads the bytes that a text starts with, and the rest from the first other character on. -/
def read? (cs : List Char) : Option (List UInt8 × List Char) := do
  let digits := cs.takeWhile fun c => (valueOf? c).isSome
  return (← bytesOf? (digits.filterMap valueOf?), cs.drop digits.length)

/-- The number of bytes that a number of characters stands for. -/
def decodedLength (n : Nat) : Nat :=
  n / 4 * 3 + (if n % 4 = 3 then 2 else if n % 4 = 2 then 1 else 0)

end Listing.Base64
