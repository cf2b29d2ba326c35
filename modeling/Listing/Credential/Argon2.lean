import Listing.Credential.Blake2b

/-!
# Argon2

A password-hashing function that fills a memory of blocks, several times over if asked to, each block
from the one before it and one that is picked further back. What picks it is pseudo-random: a block of
addresses, or the block before. The memory is made of lanes, and each lane of four segments.
-/

namespace Listing.Argon2

/-- How blocks are picked: by the block before, by addresses, or by addresses in the first half of the
first pass and by the block before from then on. -/
inductive Variant where
  | d | i | id
deriving DecidableEq, Inhabited

namespace Variant

def code : Variant → Nat
  | d => 0 | i => 1 | id => 2

def name : Variant → String
  | d => "argon2d" | i => "argon2i" | id => "argon2id"

def all : List Variant := [d, i, id]

end Variant

structure Costs where
  /-- The number of passes over the memory. -/
  time : Nat
  /-- The size of the memory in blocks. -/
  memory : Nat
  lanes : Nat
deriving DecidableEq, Inhabited

/-- What a hash is derived from. -/
structure Input where
  variant : Variant
  version : Nat
  costs : Costs
  password : List UInt8
  salt : List UInt8
  /-- The size of the hash in bytes. -/
  size : Nat

/-! ## Limits -/

/-- The number of segments of a lane. -/
def segments : Nat := 4

/-- The least number of blocks in a segment. -/
def minSegment : Nat := 2

def maxLanes : Nat := 0xFFFFFF

def minSalt : Nat := 8

def minSize : Nat := 4

/-- More blocks than this do not fit into memory. -/
def maxMemory : Nat := Nat.pow 2 24

def Input.isValid (x : Input) : Bool :=
  minSize ≤ x.size && minSalt ≤ x.salt.length && 1 ≤ x.costs.time &&
    1 ≤ x.costs.lanes && x.costs.lanes ≤ maxLanes &&
    minSegment * segments * x.costs.lanes ≤ x.costs.memory && x.costs.memory ≤ maxMemory

/-! ## Blocks -/

/-- A block of 1024 bytes. -/
abbrev Block := Vector UInt64 128

namespace Block

def zero : Block := Vector.replicate 128 0

def xor (a b : Block) : Block := Vector.zipWith (· ^^^ ·) a b

def ofBytes (bs : List UInt8) : Block :=
  let words := Blake2b.wordsOf 128 bs
  Vector.ofFn fun i => words.getD i.val 0

def toBytes (b : Block) : List UInt8 := b.toList.flatMap (Blake2b.bytesOf 8)

/-- A sum of two words with twice the product of their lower halves. -/
@[inline] def sum (x y : UInt64) : UInt64 := x + y + 2 * (x &&& 0xFFFFFFFF) * (y &&& 0xFFFFFFFF)

@[inline] def mix (v : Block) (i j k l : Fin 128) : Block :=
  let a := sum v[i] v[j]
  let d := Blake2b.rotate (v[l] ^^^ a) 32
  let c := sum v[k] d
  let b := Blake2b.rotate (v[j] ^^^ c) 24
  let a := sum a b
  let d := Blake2b.rotate (d ^^^ a) 16
  let c := sum c d
  let b := Blake2b.rotate (b ^^^ c) 63
  (((v.set i a).set j b).set k c).set l d

@[specialize] def round (places : Fin 16 → Fin 128) (v : Block) : Block :=
  Blake2b.quarters.foldl (fun v (i, j, k, l) => mix v (places i) (places j) (places k) (places l)) v

@[inline] def row (r : Fin 8) (i : Fin 16) : Fin 128 := ⟨16 * r.val + i.val, by omega⟩

@[inline] def column (c : Fin 8) (i : Fin 16) : Fin 128 :=
  ⟨16 * (i.val / 2) + 2 * c.val + i.val % 2, by omega⟩

/-- Mixes all rows and then all columns of a block. -/
def permute (v : Block) : Block :=
  let v := (List.finRange 8).foldl (fun v r => round (row r) v) v
  (List.finRange 8).foldl (fun v c => round (column c) v) v

def compress (a b : Block) : Block :=
  let r := a.xor b
  r.xor r.permute

end Block

/-! ## Digests of any size -/

/-- The lowest four bytes of a number. -/
def word32 (n : Nat) : List UInt8 := Blake2b.bytesOf 4 (UInt64.ofNat n)

/-- The bytes of a long digest: the first half of each digest of a chain, and all of the last one,
which is as long as it has to be. -/
def chained (size : Nat) (v : List UInt8) : List UInt8 :=
  if 64 < size then v.take 32 ++ chained (size - 32) (Blake2b.digest (min 64 (size - 32)) v)
  else v
termination_by size

/-- A digest of any size. -/
def digest (size : Nat) (message : List UInt8) : List UInt8 :=
  chained size (Blake2b.digest (min 64 size) (word32 size ++ message))

/-! ## Filling the memory -/

/-- The blocks of all lanes, one lane after the other. -/
abbrev Memory := Array Block

/-- A place in the memory, and the pass that fills it. -/
structure Position where
  pass : Nat
  segment : Nat
  lane : Nat
  /-- The place within the segment. -/
  index : Nat

namespace Input

def segmentLength (x : Input) : Nat := x.costs.memory / (segments * x.costs.lanes)

def laneLength (x : Input) : Nat := segments * x.segmentLength

/-- A row of bytes after its length. -/
def measured (bs : List UInt8) : List UInt8 := word32 bs.length ++ bs

/-- The digest of all that a hash depends on; there is no secret and no associated data. -/
def seed (x : Input) : List UInt8 :=
  Blake2b.digest 64 <|
    [x.costs.lanes, x.size, x.costs.memory, x.costs.time, x.version, x.variant.code].flatMap word32 ++
      [x.password, x.salt, [], []].flatMap measured

def firstBlock (x : Input) (seed : List UInt8) (lane place : Nat) : Block :=
  if place < 2 ∧ lane < x.costs.lanes then
    .ofBytes (digest 1024 (seed ++ word32 place ++ word32 lane))
  else .zero

def firstMemory (x : Input) : Memory :=
  let seed := x.seed
  (List.range x.costs.lanes).foldl (fun m lane =>
      (m.setIfInBounds (lane * x.laneLength) (x.firstBlock seed lane 0)).setIfInBounds
        (lane * x.laneLength + 1) (x.firstBlock seed lane 1))
    (Array.replicate (x.costs.lanes * x.laneLength) Block.zero)

def usesAddresses (x : Input) (p : Position) : Bool :=
  match x.variant with
  | .d => false
  | .i => true
  | .id => p.pass == 0 && p.segment < segments / 2

def addresses (x : Input) (p : Position) (number : Nat) : Block :=
  let words := [p.pass, p.lane, p.segment, x.costs.lanes * x.laneLength, x.costs.time,
    x.variant.code, number + 1]
  let b : Block := Vector.ofFn fun i => UInt64.ofNat (words.getD i.val 0)
  Block.zero.compress (Block.zero.compress b)

/-- The number of blocks in a lane from which one may be picked. -/
def available (x : Input) (p : Position) (sameLane : Bool) : Nat :=
  let complete := if p.pass = 0 then p.segment * x.segmentLength else x.laneLength - x.segmentLength
  if sameLane then complete + p.index - 1 else if p.index = 0 then complete - 1 else complete

def picked (x : Input) (p : Position) (random : UInt64) : Nat :=
  let lane :=
    if p.pass = 0 ∧ p.segment = 0 then p.lane else (random >>> 32).toNat % x.costs.lanes
  let count := x.available p (lane == p.lane)
  let low := (random &&& 0xFFFFFFFF).toNat
  let back := count * (low * low / Nat.pow 2 32) / Nat.pow 2 32
  let origin :=
    if p.pass = 0 ∨ p.segment = segments - 1 then 0 else (p.segment + 1) * x.segmentLength
  lane * x.laneLength + (origin + (count - 1 - back)) % x.laneLength

/-- The version whose later passes overwrite the memory; all others join new blocks to old ones. -/
def overwritingVersion : Nat := 0x10

def fillBlock (x : Input) (addressBlocks : Array Block) (p : Position) (m : Memory) : Memory :=
  let start := p.lane * x.laneLength
  let offset := p.segment * x.segmentLength + p.index
  let previous := m.getD (start + (offset + x.laneLength - 1) % x.laneLength) .zero
  let random :=
    if x.usesAddresses p then
      (addressBlocks.getD (p.index / 128) .zero).get ⟨p.index % 128, Nat.mod_lt _ (by decide)⟩
    else previous[0]
  let block := previous.compress (m.getD (x.picked p random) .zero)
  let block :=
    if p.pass = 0 ∨ x.version = overwritingVersion then block
    else block.xor (m.getD (start + offset) .zero)
  m.setIfInBounds (start + offset) block

/-- Fills one segment; the first two blocks of a lane are there before the first pass. -/
def fillSegment (x : Input) (pass segment lane : Nat) (m : Memory) : Memory :=
  let p (index : Nat) : Position := ⟨pass, segment, lane, index⟩
  let addressBlocks :=
    if x.usesAddresses (p 0) then
      ((List.range ((x.segmentLength + 127) / 128)).map (x.addresses (p 0))).toArray
    else #[]
  let first := if pass = 0 ∧ segment = 0 then 2 else 0
  (List.range' first (x.segmentLength - first)).foldl (fun m i => x.fillBlock addressBlocks (p i) m) m

def fillPass (x : Input) (m : Memory) (pass : Nat) : Memory :=
  (List.range segments).foldl (fun m segment =>
    (List.range x.costs.lanes).foldl (fun m lane => x.fillSegment pass segment lane m) m) m

def lastMemory (x : Input) : Memory := (List.range x.costs.time).foldl x.fillPass x.firstMemory

/-- The hash, from the last blocks of all lanes; none for costs and sizes that are refused. -/
def hash? (x : Input) : Option (List UInt8) :=
  if x.isValid then
    let m := x.lastMemory
    let last := (List.range x.costs.lanes).foldl
      (fun b lane => b.xor (m.getD ((lane + 1) * x.laneLength - 1) .zero)) Block.zero
    some (digest x.size last.toBytes)
  else none

end Input
end Listing.Argon2
