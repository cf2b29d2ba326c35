import Listing.Journal
import Listing.Value.Vocabulary

/-!
# Sort under a policy

Keeps of a client's sort what the policy allows. A direction that the policy forces wins over the
client's.
-/

namespace Listing

/-- Fields and directions to sort by, the most significant first. -/
abbrev SortOrder := Entries Direction

/-- What becomes of one entry of a sort. -/
inductive SortVerdict where
  | sorted (d : Direction)
  | unsortable
  | undirected

namespace FieldPolicy

def judgeSort (p : FieldPolicy) (k : Key) (v : Value) : SortVerdict :=
  match k.name?.bind p.sortable.find with
  | some (.forced d) => .sorted d
  | some (.allowed true) =>
    match Direction.ofValue? v with
    | some d => .sorted d
    | none => .undirected
  | _ => .unsortable

def sanitizeSort (p : FieldPolicy) (sort : Fields) : SortOrder :=
  sort.filterMap fun (k, v) =>
    match p.judgeSort k v with
    | .sorted d => some (k, d)
    | _ => none

def sortJournal (p : FieldPolicy) (sort : Fields) : Journal :=
  sort.filterMap fun (k, v) =>
    match p.judgeSort k v with
    | .sorted _ => none
    | .unsortable => some (.unsortableField k)
    | .undirected => some (.invalidDirection k)

end FieldPolicy
end Listing
