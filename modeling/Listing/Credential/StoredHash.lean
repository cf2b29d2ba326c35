import Listing.Credential.Argon2
import Listing.Credential.Base64
import Listing.Text.Split
import Listing.Value.Whole

/-!
# Stored hashes

A hash as it is stored, with all that is needed to derive it again:
`$variant$v=version$m=memory,t=time,p=lanes$salt$hash`. To check a password the text is read strictly;
whether it should be renewed is told from a looser reading of its settings.
-/

namespace Listing

structure StoredHash where
  variant : Argon2.Variant
  version : Nat
  costs : Argon2.Costs
  salt : List UInt8
  hash : List UInt8
deriving DecidableEq, Inhabited

namespace StoredHash

/-! ## Writing -/

/-- The costs of a hash, as they are written. -/
def writeCosts (c : Argon2.Costs) : String :=
  "m=" ++ toString c.memory ++ ",t=" ++ toString c.time ++ ",p=" ++ toString c.lanes

def write (h : StoredHash) : String :=
  "$" ++ h.variant.name ++ "$v=" ++ toString h.version ++ "$" ++ writeCosts h.costs ++ "$" ++
    String.ofList (Base64.encode h.salt) ++ "$" ++ String.ofList (Base64.encode h.hash)

/-! ## Reading -/

/-- The rest of a text after a beginning. -/
def after? (beginning : String) (cs : List Char) : Option (List Char) :=
  if beginning.toList.isPrefixOf cs then some (cs.drop beginning.length) else none

/-- The number of 32 bits that a text starts with, and the rest; it has no leading zeros. -/
def number? (cs : List Char) : Option (Nat × List Char) :=
  let digits := cs.takeWhile Char.isDigit
  let n := ofDigits (digits.map fun c => c.toNat - 48)
  if digits.isEmpty || (digits.length != 1 && digits.head? == some '0') || Nat.pow 2 32 ≤ n then none
  else some (n, cs.drop digits.length)

def numberAfter? (beginning : String) (cs : List Char) : Option (Nat × List Char) := do
  number? (← after? beginning cs)

/-- The version of a hash whose text tells none. -/
def oldestVersion : Nat := 0x10

def version? (cs : List Char) : Option (Nat × List Char) :=
  match after? "$v=" cs with
  | some rest => number? rest
  | none => some (oldestVersion, cs)

/-- The variant whose name a text starts with, up to the dollar sign that ends it, and the rest from
there on. -/
def variant? (cs : List Char) : Option (Argon2.Variant × List Char) :=
  Argon2.Variant.all.findSome? fun v =>
    match after? ("$" ++ v.name) cs with
    | some ('$' :: rest) => some (v, '$' :: rest)
    | _ => none

/-- Reads the text of a stored hash; nothing may follow it. -/
def read? (cs : List Char) : Option StoredHash := do
  let (variant, cs) ← variant? cs
  let (version, cs) ← version? cs
  let (memory, cs) ← numberAfter? "$m=" cs
  let (time, cs) ← numberAfter? ",t=" cs
  let (lanes, cs) ← numberAfter? ",p=" cs
  let (salt, cs) ← Base64.read? (← after? "$" cs)
  let (hash, cs) ← Base64.read? (← after? "$" cs)
  if cs.isEmpty then some ⟨variant, version, ⟨time, memory, lanes⟩, salt, hash⟩ else none

/-! ## Settings -/

/-- The settings that a hash was derived with. -/
structure Settings where
  variant : Argon2.Variant
  version : Int
  saltLength : Nat
  hashLength : Nat
  time : Int
  memory : Int
  lanes : Int
deriving DecidableEq

/-- The version of a hash whose text leaves it out, as far as its settings tell. -/
def assumedVersion : String := "v=18"

/-- A setting: a name, an equals sign and an integer. -/
def setting? (cs : List Char) : Option (String × Int) :=
  match Text.splitAt '=' cs with
  | [name, value] => do
    return (String.ofList name, ← (Value.wholeOfText (String.ofList value)).toOption)
  | _ => none

/-- The names that must be set, each at least once, and no others. -/
def settingNames : List String := ["v", "m", "t", "p"]

/-- The settings of five parts of a text after its first dollar sign. The last value of a name that
is set twice counts. -/
def settingsOf? (name version costs salt hash : List Char) : Option Settings := do
  let variant ← Argon2.Variant.all.find? fun v => v.name.toList == name
  let set ← (version :: Text.splitAt ',' costs).mapM setting?
  if set.any fun (k, _) => !settingNames.contains k then none
  else
    let value? (name : String) : Option Int := set.reverse.lookup name
    return {
      variant := variant
      version := ← value? "v"
      saltLength := Base64.decodedLength salt.length
      hashLength := Base64.decodedLength hash.length
      time := ← value? "t"
      memory := ← value? "m"
      lanes := ← value? "p" }

def settings? (s : String) : Option Settings :=
  match Text.splitAt '$' s.toList with
  | [[], name, version, costs, salt, hash] => settingsOf? name version costs salt hash
  | [[], name, costs, salt, hash] => settingsOf? name assumedVersion.toList costs salt hash
  | _ => none

end StoredHash
end Listing
