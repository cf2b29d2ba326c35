import Listing.Number.Reading
import Listing.Value.Basic

/-!
# Page information

What is told about a page beside its records. It is read from a mapping under short or long names;
integers may be given as integral numbers or as texts, and all that does not fit is reported at once.
-/

namespace Listing

/-- What is told about a page. -/
structure PageInfo where
  currentPage : Int
  itemsPerPage : Int
  totalPages : Int
  totalItems : Int
  filters : Fields := []
  sorts : List (Key × String) := []
  search : String := ""

namespace PageInfo

/-- Defects with the places where they are. -/
abbrev Faults := List (Defect × List Key)

/-- The greatest number of characters in the text of an integer. -/
def maxIntegerText : Nat := 4300

def digits? (cs : List Char) : Option (List Nat) :=
  if cs.all fun c => c.isDigit || c == '_' then Numeral.underscored? cs else none

/-- The part of a text before a point that only zeros follow. -/
def dropZeroFraction (cs : List Char) : List Char :=
  match cs.dropWhile (· != '.') with
  | '.' :: zeros => if zeros.all (· == '0') then cs.takeWhile (· != '.') else cs
  | _ => cs

/-- The integer that a text is. -/
def integerOfText (s : String) : Except Defect Int :=
  let trimmed := Text.trimBy Text.isNumberBlank s.toList
  if maxIntegerText < (String.ofList trimmed).utf8ByteSize then .error .intParsingSize
  else
    let (negative, rest) := Numeral.splitSign (dropZeroFraction trimmed)
    match digits? rest with
    | some ds => .ok (signed negative (ofDigits ds))
    | none => .error .intParsing

/-- The integer that a floating-point number is, within 64 bits. -/
def integerOfFloat (x : Binary64) : Except Defect Int :=
  match x.toDyadic? with
  | none => .error .finiteNumber
  | some d =>
    let n := d.trunc
    if d.compare ⟨n, 0⟩ != .eq then .error .intFromFloat
    else if -(Nat.pow 2 63) ≤ n ∧ n < Nat.pow 2 63 then .ok n else .error .intParsingSize

def integer (v : Value) : Except Defect Int :=
  match v with
  | .int n => .ok n
  | .bool b => .ok b.toInt
  | .float x => integerOfFloat x
  | .bytes b => ((String.fromUTF8? ⟨b.toArray⟩).map integerOfText).getD (.error .intParsing)
  | v =>
    match v.text? with
    | some s => integerOfText s
    | none => .error .intType

def string (v : Value) : Except Defect String :=
  match v with
  | .bytes b => ((String.fromUTF8? ⟨b.toArray⟩).map .ok).getD (.error .stringUnicode)
  | v => (v.text?.map .ok).getD (.error .stringType)

def mapping (v : Value) : Except Defect Fields := (v.fields?.map .ok).getD (.error .dictType)

def keyPlace : Key := .text "[key]"

/-- A result with its defect put to a place. -/
def placed {α : Type} (place : List Key) : Except Defect α → Except Faults α
  | .ok a => .ok a
  | .error d => .error [(d, place)]

def faults {α : Type} : Except Faults α → Faults
  | .ok _ => []
  | .error fs => fs

/-- Reads every entry of a mapping at a place; the keys must be texts. -/
def entries {α : Type} (place : Key) (read : Value → Except Defect α) (v : Value) :
    Except Faults (List (Key × α)) := do
  let es ← placed [place] (mapping v)
  let results := es.map fun (k, x) =>
    (placed [place, k, keyPlace] (string (.ofKey k)), k, placed [place, k] (read x))
  match results.flatMap fun (name, _, x) => faults name ++ faults x with
  | [] => return results.filterMap fun (_, k, x) => x.toOption.map (k, ·)
  | fs => throw fs

/-- A field: its short name, which is looked up first, and its long name. -/
structure Field where
  short : String
  long : String

/-- The value of a field and the name it was found under. -/
def Field.find? (f : Field) (es : Fields) : Option (Key × Value) :=
  match es.find f.short with
  | some v => some (.text f.short, v)
  | none => (es.find f.long).map (.text f.long, ·)

def Field.required {α : Type} (f : Field) (es : Fields) (read : Key → Value → Except Faults α) :
    Except Faults α :=
  match f.find? es with
  | some (name, v) => read name v
  | none => .error [(.missing, [.text f.short])]

def Field.optional {α : Type} (f : Field) (es : Fields) (default : α)
    (read : Key → Value → Except Faults α) : Except Faults α :=
  match f.find? es with
  | some (name, v) => read name v
  | none => .ok default

def ofFields (es : Fields) : Except Failure PageInfo :=
  let number (f : Field) := f.required es fun name v => placed [name] (integer v)
  let page := number ⟨"currentPage", "current_page"⟩
  let size := number ⟨"itemsPerPage", "items_per_page"⟩
  let pages := number ⟨"totalPages", "total_pages"⟩
  let items := number ⟨"totalItems", "total_items"⟩
  let filters := Field.optional ⟨"filters", "filters"⟩ es [] fun name => entries name .ok
  let sorts := Field.optional ⟨"sorts", "sorts"⟩ es [] fun name => entries name string
  let search := Field.optional ⟨"search", "search"⟩ es "" fun name v => placed [name] (string v)
  match page, size, pages, items, filters, sorts, search with
  | .ok currentPage, .ok itemsPerPage, .ok totalPages, .ok totalItems, .ok filters, .ok sorts,
      .ok search =>
    .ok { currentPage, itemsPerPage, totalPages, totalItems, filters, sorts, search }
  | _, _, _, _, _, _, _ =>
    .error (.invalidMeta (faults page ++ faults size ++ faults pages ++ faults items ++
      faults filters ++ faults sorts ++ faults search))

def ofValue (v : Value) : Except Failure PageInfo :=
  match v with
  | .map es => ofFields es
  | _ => .error (.invalidMeta [(.modelType, [])])

/-- What comes of assigning to a member of page information: it never changes, though a private name
does no harm. -/
def assign (info : PageInfo) (name : String) : Except Failure PageInfo :=
  if name.toList.head? = some '_' then .ok info
  else .error (.invalidMeta [(.frozen, [.text name])])

end PageInfo
end Listing
