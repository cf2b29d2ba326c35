import Listing.Proofs.Sql.Lowered
import Listing.Proofs.Sql.Single
import Listing.Proofs.Sql.TextConditions

/-!
# Searches take their operand literally

What a client searches for becomes part of a pattern, where `%` stands for any run of characters and `_`
for any one of them. They are escaped, as is the escape itself, so each character of the operand matches
itself only, a letter of ASCII in either case, and a search selects the texts that hold the operand.
-/

namespace Listing
namespace Sql

open Outcome Predicate
open Text (cased IsSeen)

/-! ## Places -/

/-- What is to be found of a part of a row of characters at a place. -/
def Place.Finds : Place → List Char → List Char → Prop
  | anywhere, part, cs => part <:+: cs
  | start, part, cs => part <+: cs
  | finish, part, cs => part <:+ cs

theorem Place.finds_iff {place : Place} {part cs : List Char} :
    place.finds part cs = true ↔ place.Finds part cs := by
  cases place with
  | anywhere => exact Text.occurs_iff
  | start => exact List.isPrefixOf_iff_prefix
  | finish => exact List.isSuffixOf_iff_suffix

/-- The characters with a meaning in patterns. -/
def Pattern.special : List Char := ['%', '_', Pattern.escape]

theorem Pattern.lowerAscii_eq_iff {c d : Char} (hd : d ∈ special) : Cell.lowerAscii c = d ↔ c = d := by
  rcases Nat.lt_or_ge c.toNat 128 with h | h
  · have hall := Text.forall_ascii
      (P := fun c => special.all fun d => Cell.lowerAscii c = d ↔ c = d) (by decide) h
    exact of_decide_eq_true (List.all_eq_true.mp hall d hd)
  · rw [Text.lowerAscii_of_le h]

theorem Pattern.lowerAscii_eq_special_iff {c : Char} (hc : c ∈ special) (d : Char) :
    Cell.lowerAscii d = Cell.lowerAscii c ↔ d = c := by
  rw [(lowerAscii_eq_iff hc).mpr rfl, lowerAscii_eq_iff hc]

/-! ## Clauses -/

theorem standardApply_search {key : NativeKey} {place : Place} (hplace : key.place? = some place)
    (t : Term) (v : String) (insensitive : Bool) :
    NativeOperator.standardApply key t (.text v) insensitive = .ok (.like insensitive t place v) := by
  cases key with
  | contains | startsWith | endsWith =>
    obtain rfl := Option.some.inj hplace
    rfl
  | _ => nomatch hplace

/-- A search is true of a row whose text holds the operand, ASCII letters taken for the same in either
case. -/
theorem selects_like {db : Database} {row : Row} {col : Column} {place : Place} {v s : String}
    (hv : IsSeen v) (hs : IsSeen s) (hrow : row col.stored = .text s) (lowered : Bool) :
    Clause.selects db (.like lowered (.column col) place v) row = true ↔
      place.Finds (cased true v) (cased true s) := by
  have htruth : Clause.truthOf db row (.like lowered (.column col) place v) =
      some (Pattern.accepts (Clause.pattern place v) (Pattern.seen s.toList)) := by
    have hcell : (Term.column col).cell row = .text s := hrow
    rw [Clause.truthOf, hcell]
    rfl
  rw [Clause.selects, htruth, Pattern.accepts_pattern_of_isSeen place hv hs, ← Place.finds_iff]
  simp

/-- **Literal searches.** A condition that searches a column for a text, with or without regard to case,
has a clause that can be bound, and the store counts the rows that it selects. Where neither the operand
nor the text of a row has a character of code zero, which ends a text for the matcher, the row is selected
if and only if its text holds the operand at the place asked for, ASCII letters taken for the same in
either case; no other character passes for a special one. -/
theorem search_selects_iff {schema : Schema} {m : Model} {k : Key} {col : Column} {key : NativeKey}
    {place : Place} (hschema : schema.Sound) (hm : m ∈ schema)
    (hk : junction? k = none) (hcol : k.name?.bind m.column? = some col)
    (hplace : key.place? = some place) (v : String) (insensitive : Bool) :
    ∃ clause,
      compile schema .standard m (.map [(k, .map (testing key (.text v) insensitive))]) =
        .ok clause ∧
      (∀ db, (tables schema db m).count (.map [(k, .map (testing key (.text v) insensitive))]) =
        .ok ((db m.table).filter (clause.selects db)).length) ∧
      (∀ db row s, row col.stored = .text s → IsSeen v → IsSeen s →
        (clause.selects db row = true ↔ place.Finds (cased true v) (cased true s))) ∧
      ∀ c ∈ Pattern.special, ∀ d, Cell.lowerAscii d = Cell.lowerAscii c ↔ d = c := by
  have hstorable : (Clause.like insensitive (.column col) place v).Storable := by
    intro b hb
    obtain rfl := List.mem_singleton.mp hb
    exact storable_text _
  have hmode : key ≠ .mode := by
    rintro rfl
    nomatch hplace
  obtain ⟨clause, hclause, hbinds, hselects⟩ := compile_testing hschema hm hk hcol hmode rfl
    (standardApply_search hplace (.column col) v insensitive) hstorable
  refine ⟨clause, hclause, fun db => count_tables hclause hbinds, fun db row s hrow hv hs => ?_,
    fun c hc d => Pattern.lowerAscii_eq_special_iff hc d⟩
  rw [hselects]
  exact selects_like hv hs hrow insensitive

open Sample

theorem search_special_selects :
    IsSeen "_b/" ∧ ∃ clause,
      compile schema .standard user
        (.map [(.text "name", .map (testing .contains (.text "_b/") true))]) = .ok clause ∧
      ∀ db row s, row "name" = .text s → IsSeen s →
        (clause.selects db row = true ↔ cased true "_b/" <:+: cased true s) := by
  have hv : IsSeen "_b/" := by decide
  have hname : (Key.text "name").name?.bind user.column? = some (textColumn "users" "name") := rfl
  have hplace : NativeKey.contains.place? = some .anywhere := rfl
  obtain ⟨clause, hclause, -, hselects, -⟩ :=
    search_selects_iff schema_sound (by decide) rfl hname hplace "_b/" true
  exact ⟨hv, clause, hclause, fun db row s hrow hs => hselects db row s hrow hv hs⟩

end Sql
end Listing
