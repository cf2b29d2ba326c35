/-!
# BLAKE2b

The unkeyed hash function BLAKE2b: a message is compressed in blocks of 128 bytes, the last of which is
padded with zeros, into a digest of 1 to 64 bytes.
-/

namespace Listing.Blake2b

/-! ## Words -/

/-- A word turned to the right. -/
@[inline] def rotate (x : UInt64) (n : UInt64) : UInt64 := (x >>> n) ||| (x <<< (64 - n))

/-- The word of up to eight bytes, the least significant first. -/
def wordOf : List UInt8 → UInt64
  | [] => 0
  | b :: bs => b.toUInt64 ||| (wordOf bs <<< 8)

/-- The lowest `n` bytes of a word, the least significant first. -/
def bytesOf : Nat → UInt64 → List UInt8
  | 0, _ => []
  | n + 1, x => x.toUInt8 :: bytesOf n (x >>> 8)

/-- The next word of a row of bytes, for each of `n` places. -/
def wordsOf : Nat → List UInt8 → List UInt64
  | 0, _ => []
  | n + 1, bs => wordOf (bs.take 8) :: wordsOf n (bs.drop 8)

/-! ## Compression -/

def initial : Vector UInt64 8 := #v[
  0x6A09E667F3BCC908, 0xBB67AE8584CAA73B, 0x3C6EF372FE94F82B, 0xA54FF53A5F1D36F1,
  0x510E527FADE682D1, 0x9B05688C2B3E6C1F, 0x1F83D9ABFB41BD6B, 0x5BE0CD19137E2179]

/-- The order in which a round takes the words of a message. -/
def schedule : List (Vector (Fin 16) 16) := [
  #v[0, 1, 2, 3, 4, 5, 6, 7, 8, 9, 10, 11, 12, 13, 14, 15],
  #v[14, 10, 4, 8, 9, 15, 13, 6, 1, 12, 0, 2, 11, 7, 5, 3],
  #v[11, 8, 12, 0, 5, 2, 15, 13, 10, 14, 3, 6, 7, 1, 9, 4],
  #v[7, 9, 3, 1, 13, 12, 11, 14, 2, 6, 5, 10, 4, 0, 15, 8],
  #v[9, 0, 5, 7, 2, 4, 10, 15, 14, 1, 11, 12, 6, 8, 3, 13],
  #v[2, 12, 6, 10, 0, 11, 8, 3, 4, 13, 7, 5, 15, 14, 1, 9],
  #v[12, 5, 1, 15, 14, 13, 4, 10, 0, 7, 6, 3, 9, 2, 8, 11],
  #v[13, 11, 7, 14, 12, 1, 3, 9, 5, 0, 15, 4, 8, 6, 2, 10],
  #v[6, 15, 14, 9, 11, 3, 0, 8, 12, 2, 13, 7, 1, 4, 10, 5],
  #v[10, 2, 8, 4, 7, 6, 1, 5, 15, 11, 9, 14, 3, 12, 13, 0],
  #v[0, 1, 2, 3, 4, 5, 6, 7, 8, 9, 10, 11, 12, 13, 14, 15],
  #v[14, 10, 4, 8, 9, 15, 13, 6, 1, 12, 0, 2, 11, 7, 5, 3]]

/-- The places that a round mixes: four columns, then four diagonals. -/
def quarters : List (Fin 16 × Fin 16 × Fin 16 × Fin 16) := [
  (0, 4, 8, 12), (1, 5, 9, 13), (2, 6, 10, 14), (3, 7, 11, 15),
  (0, 5, 10, 15), (1, 6, 11, 12), (2, 7, 8, 13), (3, 4, 9, 14)]

/-- Mixes two words of a message into four of the state. -/
def mix (v : Vector UInt64 16) (q : Fin 16 × Fin 16 × Fin 16 × Fin 16) (x y : UInt64) :
    Vector UInt64 16 :=
  let (i, j, k, l) := q
  let a := v[i] + v[j] + x
  let d := rotate (v[l] ^^^ a) 32
  let c := v[k] + d
  let b := rotate (v[j] ^^^ c) 24
  let a := a + b + y
  let d := rotate (d ^^^ a) 16
  let c := c + d
  let b := rotate (b ^^^ c) 63
  (((v.set i a).set j b).set k c).set l d

/-- The words of a message in the order of a round, two by two. -/
def pairsOf (m : Vector UInt64 16) (order : Vector (Fin 16) 16) : List (UInt64 × UInt64) :=
  (List.finRange 8).map fun i => (m[order[2 * i.val]], m[order[2 * i.val + 1]])

def round (m : Vector UInt64 16) (v : Vector UInt64 16) (order : Vector (Fin 16) 16) :
    Vector UInt64 16 :=
  (quarters.zip (pairsOf m order)).foldl (fun v (q, x, y) => mix v q x y) v

/-- The state before the rounds, after `count` bytes of a message. -/
def start (h : Vector UInt64 8) (count : Nat) (last : Bool) : Vector UInt64 16 :=
  let v := h ++ initial
  let v := v.set 12 (v[12] ^^^ (UInt64.ofNat count))
  let v := v.set 13 (v[13] ^^^ (UInt64.ofNat (count / Nat.pow 2 64)))
  if last then v.set 14 (~~~ v[14]) else v

/-- Compresses a block into the chaining value. -/
def compress (h : Vector UInt64 8) (block : List UInt8) (count : Nat) (last : Bool) :
    Vector UInt64 8 :=
  let words := wordsOf 16 block
  let m := Vector.ofFn fun i : Fin 16 => words.getD i.val 0
  let v := schedule.foldl (round m) (start h count last)
  Vector.ofFn fun i : Fin 8 => h[i] ^^^ v[i.val] ^^^ v[i.val + 8]

/-! ## Digests -/

def blockSize : Nat := 128

/-- Compresses what is left of a message after `count` bytes. -/
def absorb (h : Vector UInt64 8) (count : Nat) (message : List UInt8) : Vector UInt64 8 :=
  if blockSize < message.length then
    absorb (compress h (message.take blockSize) (count + blockSize) false) (count + blockSize)
      (message.drop blockSize)
  else compress h message (count + message.length) true
termination_by message.length
decreasing_by simp [blockSize] at *; omega

/-- The digest of a message, of `size` bytes, at most 64. -/
def digest (size : Nat) (message : List UInt8) : List UInt8 :=
  let h := initial.set 0 (initial[0] ^^^ 0x01010000 ^^^ UInt64.ofNat size)
  ((absorb h 0 message).toList.flatMap (bytesOf 8)).take size

end Listing.Blake2b
