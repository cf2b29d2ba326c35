/-!
# Decoding UTF-8

Reads bytes as UTF-8 and puts one replacement character for each longest part of a sequence that
cannot be completed.
-/

namespace Listing.Text

/-- The number of bytes that follow a lead byte, with the range that the first of them must be in;
none for a byte that cannot lead. -/
def leadRule? (b : Nat) : Option (Nat × Nat × Nat) :=
  if 0xC2 ≤ b ∧ b ≤ 0xDF then some (1, 0x80, 0xBF)
  else if b = 0xE0 then some (2, 0xA0, 0xBF)
  else if b = 0xED then some (2, 0x80, 0x9F)
  else if 0xE1 ≤ b ∧ b ≤ 0xEF then some (2, 0x80, 0xBF)
  else if b = 0xF0 then some (3, 0x90, 0xBF)
  else if 0xF1 ≤ b ∧ b ≤ 0xF3 then some (3, 0x80, 0xBF)
  else if b = 0xF4 then some (3, 0x80, 0x8F)
  else none

/-- A sequence that is being read: the bits so far, the bytes still due, and the range of the next. -/
structure PartialChar where
  code : Nat
  due : Nat
  low : Nat
  high : Nat

/-- The state after a byte that starts something new, and the character it completes, if any. -/
def startChar (b : Nat) : Option PartialChar × List Char :=
  if b < 0x80 then (none, [Char.ofNat b])
  else match leadRule? b with
    | some (due, low, high) => (some ⟨b % Nat.pow 2 (6 - due), due, low, high⟩, [])
    | none => (none, ['\ufffd'])

def decodeFrom : Option PartialChar → List UInt8 → List Char
  | none, [] => []
  | some _, [] => ['\ufffd']
  | none, b :: bs =>
    let (state, out) := startChar b.toNat
    out ++ decodeFrom state bs
  | some p, b :: bs =>
    if p.low ≤ b.toNat ∧ b.toNat ≤ p.high then
      let code := p.code * 64 + b.toNat % 64
      if p.due ≤ 1 then Char.ofNat code :: decodeFrom none bs
      else decodeFrom (some ⟨code, p.due - 1, 0x80, 0xBF⟩) bs
    else
      let (state, out) := startChar b.toNat
      '\ufffd' :: out ++ decodeFrom state bs
termination_by structural _ bs => bs

def decodeUtf8 (bytes : List UInt8) : List Char := decodeFrom none bytes

end Listing.Text
