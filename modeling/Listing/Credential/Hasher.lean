import Listing.Credential.StoredHash
import Listing.Value.Basic

/-!
# Password hashing

Derives the hash of a password that is to be stored, checks a password against a stored hash, and tells
whether a stored hash was derived with other settings than those in use.
-/

namespace Listing

/-- A password hasher: the costs of the hashes that it makes. They are checked when a hash is made. -/
structure Hasher where
  timeCost : Int := 3
  memoryCost : Int := 65536
  parallelism : Int := 4
deriving DecidableEq, Inhabited

namespace Hasher

def variant : Argon2.Variant := .id

def version : Nat := 0x13

def saltLength : Nat := 16

def hashLength : Nat := 32

/-! ## Making a hasher -/

/-- The integer that a cost is; truth values count as one and zero. -/
def cost? : Value → Option Int
  | .int n => some n
  | .bool b => some b.toInt
  | _ => none

/-- The costs given by name that are no integers, with their kinds. -/
def defects (given : List (String × Value)) : List (String × String) :=
  given.filterMap fun (name, v) => if (cost? v).isSome then none else some (name, v.kind)

/-- The hasher of some costs; null leaves a cost at its default. -/
def ofCosts (timeCost memoryCost parallelism : Value) : Except Failure Hasher :=
  let d : Hasher := {}
  let given (v : Value) (default : Int) : Value :=
    match v with
    | .none => .int default
    | v => v
  let timeCost := given timeCost d.timeCost
  let memoryCost := given memoryCost d.memoryCost
  let parallelism := given parallelism d.parallelism
  match cost? timeCost, cost? memoryCost, cost? parallelism with
  | some t, some m, some p => .ok ⟨t, m, p⟩
  | _, _, _ =>
    .error (.parameterTypes (defects [("time_cost", timeCost), ("memory_cost", memoryCost),
      ("parallelism", parallelism)]))

/-! ## Hashing -/

/-- The bytes of a password. -/
def secret (password : String) : List UInt8 := password.toUTF8.toList

/-- A cost as a number of 32 bits. -/
def word32 (n : Int) : Except Failure Nat :=
  if n < 0 then .error .negativeWord
  else if Nat.pow 2 64 ≤ n then .error .longWord
  else if Nat.pow 2 32 ≤ n then .error (.wordPastRange n)
  else .ok n.toNat

def costs (h : Hasher) : Except Failure Argon2.Costs := do
  let time ← word32 h.timeCost
  let memory ← word32 h.memoryCost
  let lanes ← word32 h.parallelism
  return ⟨time, memory, lanes⟩

def derive (h : Hasher) (salt : List UInt8) (password : String) : Except Failure StoredHash := do
  let costs ← h.costs
  match Argon2.Input.hash? ⟨variant, version, costs, secret password, salt, hashLength⟩ with
  | some hash => return ⟨variant, version, costs, salt, hash⟩
  | none => throw .unhashablePassword

/-- The text of the hash of a password with a salt. -/
def hash (h : Hasher) (salt : List UInt8) (password : String) : Except Failure String :=
  (h.derive salt password).map StoredHash.write

/-! ## Checking -/

/-- Refuses a text with a character that is not ASCII, telling where the first run of such is. -/
def checkAscii (s : String) : Except Failure Unit :=
  let (plain, rest) := (s.toList.takeWhile (·.toNat < 128), s.toList.dropWhile (·.toNat < 128))
  match rest with
  | [] => .ok ()
  | c :: _ =>
    let run := rest.takeWhile (128 ≤ ·.toNat)
    .error (.nonAscii plain.length (plain.length + run.length - 1) c)

def admits (password : String) (h : StoredHash) : Bool :=
  Argon2.Input.hash? ⟨h.variant, h.version, h.costs, secret password, h.salt, h.hash.length⟩ ==
    some h.hash

/-- Whether a password has the hash that a text stores; a text that stores none admits none. The text
ends at its first null character. -/
def verify (hashed password : String) : Except Failure Bool := do
  checkAscii hashed
  return (StoredHash.read? (hashed.toList.takeWhile (· != '\x00'))).any (admits password)

def settings (h : Hasher) : StoredHash.Settings where
  variant := variant
  version := version
  saltLength := saltLength
  hashLength := hashLength
  time := h.timeCost
  memory := h.memoryCost
  lanes := h.parallelism

/-- Whether a stored hash was made with other settings, or with none that can be told. -/
def needsRehash (h : Hasher) (hashed : String) : Bool :=
  StoredHash.settings? hashed != some h.settings

end Hasher
end Listing
