import Listing.Proofs.Sql.Lowered
import Listing.Proofs.Sql.Single
import Listing.Proofs.Sql.TextConditions

/-!
# Disregarding case widens

The mode that disregards case keeps what a test finds, for every test that finds rather than excludes. In
memory that is so of all texts. A database lowers the ASCII letters of what it holds but all letters of a
text that it is asked for, so it loses a text that is asked for itself if a letter outside ASCII is lowered.
-/

namespace Listing

open Outcome Predicate
open Text (cased LowersAlike IsAscii)

/-! ## Tests that find -/

/-- Whether a key finds an operand: one text or, for the key that asks for it, a row of texts. -/
inductive NativeKey.Finds : NativeKey → Value → Prop
  | text {key : NativeKey} {e : String} :
      key ∈ [.equals, .isIn, .contains, .startsWith, .endsWith] → Finds key (.text e)
  | row {texts : List String} : Finds .isIn (.list (texts.map .text))

variable {key : NativeKey} {v : Value} {s e : String}

theorem NativeKey.Finds.ne_mode (h : key.Finds v) : key ≠ .mode := by
  rintro rfl
  cases h with
  | text hkey => simp at hkey

theorem NativeKey.Finds.fields? (h : key.Finds v) : v.fields? = none := by
  cases h <;> rfl

/-! ## In memory -/

theorem equal_widens (h : equal false (.text s) (.text e) = true) :
    equal true (.text s) (.text e) = true := by
  have hplain : (s == e) = true := h
  have hfolded : equal true (.text s) (.text e) = (Text.fold s == Text.fold e) := rfl
  rw [hfolded, beq_iff_eq.mp hplain, beq_self_eq_true]

theorem any_equal_widens {xs : List Value} (hxs : ∀ x ∈ xs, ∃ e, x = .text e)
    (h : xs.any (equal false (.text s)) = true) : xs.any (equal true (.text s)) = true := by
  obtain ⟨x, hx, hequal⟩ := List.any_eq_true.mp h
  obtain ⟨e, rfl⟩ := hxs x hx
  exact List.any_eq_true.mpr ⟨_, hx, equal_widens hequal⟩

theorem test_place {place : Sql.Place} (hplace : key.place? = some place) (fold : Bool)
    (s e : String) : test fold (.text s) key (.text e) = .ok (if fold then
      place.finds (Text.fold e).toList (Text.fold s).toList else place.finds e.toList s.toList) := by
  cases key with
  | contains | startsWith | endsWith =>
    obtain rfl := Option.some.inj hplace
    cases fold <;> rfl
  | _ => cases hplace

theorem test_widens (h : key.Finds v) (s : String) :
    ∃ plain folded, test false (.text s) key v = .ok plain ∧ test true (.text s) key v = .ok folded ∧
      (plain = true → folded = true) := by
  cases h with
  | @text _ e hkey =>
    have hsearch : ∀ place, key.place? = some place → ∃ plain folded,
        test false (.text s) key (.text e) = .ok plain ∧ test true (.text s) key (.text e) = .ok folded ∧
          (plain = true → folded = true) := by
      intro place hplace
      refine ⟨_, _, test_place hplace false s e, test_place hplace true s e, fun hfound => ?_⟩
      simp only [if_true, Text.fold, String.toList_ofList]
      exact Sql.Place.finds_flatMap Text.foldChar hfound
    simp only [List.mem_cons, List.not_mem_nil, or_false] at hkey
    rcases hkey with rfl | rfl | rfl | rfl | rfl
    · exact ⟨_, _, rfl, rfl, equal_widens⟩
    · exact ⟨_, _, rfl, rfl, any_equal_widens (List.forall_mem_singleton.mpr ⟨e, rfl⟩)⟩
    · exact hsearch _ rfl
    · exact hsearch _ rfl
    · exact hsearch _ rfl
  | @row texts =>
    exact ⟨_, _, rfl, rfl, any_equal_widens (List.forall_mem_map.mpr fun e _ => ⟨e, rfl⟩)⟩

namespace Sql

/-! ## Over a database -/

variable {col : Column}

theorem equality_widens_iff (htype : col.type = .text) (e : String) {db : Database} {row : Row}
    (hs : row col.stored = .text s) :
    ((Clause.compare false (.column col) .eq ⟨.plain, .text e⟩).selects db row = true →
        (Clause.compare true (.column col) .eq ⟨.plain, .text (Text.lower e)⟩).selects db row = true) ↔
      (e = s → LowersAlike s) := by
  have hplain : (Clause.compare false (.column col) .eq ⟨.plain, .text e⟩).truthOf db row =
      some (s.toList == e.toList) := truthOf_equality htype false e hs
  have hfolded : (Clause.compare true (.column col) .eq ⟨.plain, .text (Text.lower e)⟩).truthOf db row =
      some (cased true s == (Text.lower e).toList) := truthOf_equality htype true e hs
  have htrue : ∀ b : Bool, (some b == some true) = true ↔ b = true := by decide
  rw [Clause.selects, Clause.selects, hplain, hfolded, htrue, htrue, beq_iff_eq, beq_iff_eq,
    String.toList_inj]
  constructor
  · rintro h rfl
    exact (Text.toList_lower_iff e).mp (h rfl).symm
  · rintro h rfl
    exact ((Text.toList_lower_iff s).mpr (h rfl)).symm

theorem exists_widening (htype : col.type = .text) (h : key.Finds v) :
    ∃ plain folded, NativeOperator.standardApply key (.column col) v false = .ok plain ∧
      NativeOperator.standardApply key (.column col) v true = .ok folded ∧
      plain.Storable ∧ folded.Storable ∧
      ∀ db row s, row col.stored = .text s →
        ((plain.selects db row = true → folded.selects db row = true) ↔
          (key = .equals → v = .text s → LowersAlike s)) := by
  -- apart from equality, the two clauses are true of the same rows
  have hother : ∀ {plain folded : Clause}, key ≠ .equals →
      (∀ db row, folded.truthOf db row = plain.truthOf db row) → ∀ db row s, row col.stored = .text s →
        ((plain.selects db row = true → folded.selects db row = true) ↔
          (key = .equals → v = .text s → LowersAlike s)) := by
    intro plain folded hkey htruth db row s _
    refine iff_of_true (fun h => ?_) fun h => absurd h hkey
    rwa [Clause.selects, htruth]
  have hlike : ∀ fold place (e : String), (Clause.like fold (.column col) place e).Storable := by
    intro fold place e b hb
    obtain rfl := List.mem_singleton.mp hb
    exact storable_text _
  cases h with
  | @text _ e hkey =>
    simp only [List.mem_cons, List.not_mem_nil, or_false] at hkey
    rcases hkey with rfl | rfl | rfl | rfl | rfl
    · refine ⟨_, _, standardApply_equality false true, standardApply_equality true true,
        storable_equality _ _, storable_equality _ _, fun db row s hs => ?_⟩
      refine (equality_widens_iff htype e hs).trans ⟨fun h _ hv => h (Value.text.inj hv), fun h hsame => ?_⟩
      exact h rfl (congrArg Value.text hsame)
    · have hone := takes_texts htype [e]
      exact ⟨_, _, rfl, rfl, storable_member hone, storable_member hone, hother (by decide) fun _ _ => rfl⟩
    · exact ⟨_, _, rfl, rfl, hlike _ _ _, hlike _ _ _, hother (by decide) fun _ _ => rfl⟩
    · exact ⟨_, _, rfl, rfl, hlike _ _ _, hlike _ _ _, hother (by decide) fun _ _ => rfl⟩
    · exact ⟨_, _, rfl, rfl, hlike _ _ _, hlike _ _ _, hother (by decide) fun _ _ => rfl⟩
  | @row texts =>
    have hall := takes_texts htype texts
    have hrow : NativeOperator.standardApply .isIn (.column col) (.list (texts.map .text)) false =
        .ok (.member (.column col) true ((texts.map .text).map (Bind.mk .plain))) :=
      congrArg Except.ok (membership_of_takes hall true)
    exact ⟨_, _, hrow, hrow, storable_member hall, storable_member hall, hother (by decide) fun _ _ => rfl⟩

end Sql

open Sql

/-- **Disregarding case widens.** In memory a record whose text is found by a test is found without regard
to case, whatever the texts. Over a database the same is so, but for one case: a text that is asked for
itself is still selected exactly if nothing in it but ASCII letters has a lower case, as is so of any
ASCII text. -/
theorem insensitive_widens_iff {schema : Schema} {db : Database} {m : Model} {col : Column} {k : Key}
    {key : NativeKey} {v : Value} (hschema : schema.Sound) (hm : m ∈ schema) (hk : junction? k = none)
    (hcol : k.name?.bind m.column? = some col) (htype : col.type = .text) (hfinds : key.Finds v) :
    (∀ record s, record.get k = .ok (.text s) → ∃ plain folded,
      valueHolds record (.map [(k, .map (testing key v false))]) = .ok plain ∧
      valueHolds record (.map [(k, .map (testing key v true))]) = .ok folded ∧
      (plain = true → folded = true)) ∧
    (∃ plain folded,
      compile schema .standard m (.map [(k, .map (testing key v false))]) = .ok plain ∧
      compile schema .standard m (.map [(k, .map (testing key v true))]) = .ok folded ∧
      plain.Storable ∧ folded.Storable ∧
      ∀ row s, row col.stored = .text s →
        ((plain.selects db row = true → folded.selects db row = true) ↔
          (key = .equals → v = .text s → LowersAlike s))) ∧
    ∀ s, IsAscii s → LowersAlike s := by
  refine ⟨fun record s hget => ?_, ?_, fun s hs => ?_⟩
  · obtain ⟨plain, folded, hplain, hfolded, hwidens⟩ := test_widens hfinds s
    refine ⟨plain, folded, ?_, ?_, hwidens⟩
    · rw [valueHolds_testing hk hget hfinds.ne_mode hfinds.fields?, hplain]
    · rw [valueHolds_testing hk hget hfinds.ne_mode hfinds.fields?, hfolded]
  · obtain ⟨plain, folded, hplain, hfolded, hbound, hbound', hwidens⟩ := exists_widening htype hfinds
    obtain ⟨clause, hclause, hstorable, hselects⟩ :=
      compile_testing hschema hm hk hcol hfinds.ne_mode hfinds.fields? hplain hbound
    obtain ⟨clause', hclause', hstorable', hselects'⟩ :=
      compile_testing hschema hm hk hcol hfinds.ne_mode hfinds.fields? hfolded hbound'
    refine ⟨clause, clause', hclause, hclause', hstorable, hstorable', fun row s hs => ?_⟩
    rw [hselects, hselects']
    exact hwidens db row s hs
  · exact (Text.toList_lower_iff s).mp (Text.toList_lower hs)

/-! ## Users by name -/

open Sample

theorem insensitive_widens_anna :
    NativeKey.equals.Finds (.text "Anna") ∧ LowersAlike "Anna" ∧ ∃ plain folded,
      compile schema .standard user (.map [(.text "name", .map (testing .equals (.text "Anna") false))]) =
        .ok plain ∧
      compile schema .standard user (.map [(.text "name", .map (testing .equals (.text "Anna") true))]) =
        .ok folded ∧
      ∀ row, row "name" = .text "Anna" → plain.selects database row = true →
        folded.selects database row = true := by
  have hfinds : NativeKey.equals.Finds (.text "Anna") := .text (by decide)
  obtain ⟨-, ⟨plain, folded, hplain, hfolded, -, -, hwidens⟩, hascii⟩ :=
    insensitive_widens_iff (k := .text "name") schema_sound
      (List.mem_cons_of_mem team List.mem_cons_self) rfl rfl rfl hfinds
  have halike : LowersAlike "Anna" := hascii "Anna" (by decide)
  exact ⟨hfinds, halike, plain, folded, hplain, hfolded,
    fun row hrow => (hwidens row "Anna" hrow).mpr fun _ _ => halike⟩

/-- **The failure.** A user whose name is in letters that a database does not lower is found by name, and
not without regard to case. -/
theorem emile_lost_without_case :
    (tables schema database user).count
        (.map [(.text "name", .map (testing .equals (.text "ÉMILE") false))]) = .ok 1 ∧
      (tables schema database user).count
        (.map [(.text "name", .map (testing .equals (.text "ÉMILE") true))]) = .ok 0 :=
  ⟨rfl, rfl⟩

end Listing
