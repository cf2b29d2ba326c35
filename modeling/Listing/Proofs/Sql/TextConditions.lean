import Listing.Proofs.Sql.Stores
import Listing.Proofs.Sql.Texts

/-!
# Text columns in the two stores

The clause of a condition on a column of ASCII texts selects the rows whose texts pass the condition as
a database reads it, and the store in memory selects the objects whose texts pass it as memory reads it.
So the stores select the same rows where the two ways of reading agree.
-/

namespace Listing

open Outcome Predicate
open Text (cased IsAscii)

namespace Sql

variable {col : Column} {key : NativeKey} {v : Value} {es : Fields} {s e : String}

/-! ## Over a database -/

/-- Whether a clause can be bound and is true of exactly the ASCII texts in a column that pass a test. -/
def Clause.Reads (c : Clause) (col : Column) (test : String → Bool) : Prop :=
  c.Storable ∧ ∀ db row s, row col.stored = .text s → IsAscii s → c.truthOf db row = some (test s)

theorem storable_text (s : String) : Bind.Storable ⟨.plain, .text s⟩ := ⟨.text s, rfl⟩

theorem compareCells_text (a b : String) :
    Clause.compareCells .eq (.text a) (.text b) = some (a == b) := by
  have horder : Clause.compareCells .eq (.text a) (.text b) =
      some (Value.compareTexts a b == .eq) := rfl
  rw [horder, Option.some.injEq, Bool.eq_iff_iff, beq_iff_eq, beq_iff_eq, Value.compareTexts_eq_iff]

theorem truthOf_equality (htype : col.type = .text) (fold : Bool) (e : String) {db : Database} {row : Row}
    (hs : row col.stored = .text s) :
    (Clause.compare fold (.column col) .eq
        ⟨.plain, .text (if fold then Text.lower e else e)⟩).truthOf db row =
      some (cased fold s == (if fold then Text.lower e else e).toList) := by
  rw [Clause.truthOf, Term.cell, hs]
  cases fold with
  | false =>
    have hdrawn : ((Cell.text e).drawn (Term.column col).draws) = .text e := by
      rw [Term.draws, htype]
      rfl
    have hbound : (Bind.mk .plain (.text e)).cellOrNull = .text e := rfl
    rw [if_neg Bool.false_ne_true, if_neg Bool.false_ne_true, hbound, hdrawn, compareCells_text,
      beq_toList]
    rfl
  | true =>
    have hlower : (Cell.text s).lower = .text (String.ofList (cased true s)) := rfl
    have hbound : (Bind.mk .plain (.text (Text.lower e))).cellOrNull = .text (Text.lower e) := rfl
    rw [if_pos rfl, if_pos rfl, hlower, hbound, compareCells_text, beq_toList, String.toList_ofList]

theorem storable_equality (fold : Bool) (e : String) :
    (Clause.compare fold (.column col) .eq ⟨.plain, .text e⟩).Storable := by
  intro b hb
  obtain rfl := List.mem_singleton.mp hb
  exact storable_text _

theorem reads_equality (htype : col.type = .text) (fold : Bool) (he : IsAscii e) :
    (Clause.compare fold (.column col) .eq ⟨.plain, .text (if fold then Text.lower e else e)⟩).Reads col
      fun s => cased fold s == cased fold e := by
  refine ⟨storable_equality fold _, fun db row s hs _ => ?_⟩
  rw [truthOf_equality htype fold e hs]
  cases fold with
  | false => rfl
  | true => rw [if_pos rfl, Text.toList_lower he]

theorem takes_texts (htype : col.type = .text) (texts : List String) :
    ∀ x ∈ texts.map Value.text, col.type.Takes x := by
  rw [List.forall_mem_map, htype]
  exact fun e _ => ⟨e, rfl⟩

theorem reads_member (htype : col.type = .text) {texts : List String}
    (htexts : ∀ e ∈ texts, IsAscii e) :
    (Clause.member (.column col) true ((texts.map Value.text).map (Bind.mk .plain))).Reads col
      fun s => texts.any fun e => cased false s == cased false e := by
  have htakes := takes_texts htype texts
  refine ⟨storable_member htakes, fun db row s hs hascii => ?_⟩
  have hholds : col.type.Holds (.text s) := by
    rw [htype]
    exact .inr ⟨s, rfl⟩
  have hfull : true = true → Cell.text s ≠ .null := by simp
  have hmember := (memberOf_answers htakes hholds hfull).eq_some
  rw [Cell.toValue, any_equal_texts false hascii htexts] at hmember
  rw [Clause.truthOf, Term.cell, hs]
  exact hmember

theorem reads_search (fold : Bool) (place : Place) (he : IsAscii e) :
    (Clause.like fold (.column col) place e).Reads col
      fun s => place.finds (cased true e) (cased true s) := by
  refine ⟨fun b hb => ?_, fun db row s hs hascii => ?_⟩
  · obtain rfl := List.mem_singleton.mp hb
    exact storable_text _
  · rw [Clause.truthOf, Term.cell, hs]
    exact congrArg some (Pattern.accepts_pattern place he hascii)

theorem Clause.Reads.congr {c : Clause} {test test' : String → Bool} (h : c.Reads col test)
    (htest : ∀ s, test s = test' s) : c.Reads col test' := by
  rwa [← funext htest]

theorem Clause.Reads.negate {c d : Clause} {test : String → Bool} (h : c.Reads col test)
    (hd : c.negate = .clause d) : d.Reads col fun s => !test s := by
  refine ⟨?_, fun db row s hs hascii => ?_⟩
  · have hstorable := storable_negate h.1
    rwa [hd] at hstorable
  · have htruth := truthOf_negate db row c
    rw [hd, h.2 db row s hs hascii] at htruth
    exact htruth

theorem standardApply_equality (fold : Bool) (equal : Bool) :
    NativeOperator.standardApply (if equal then .equals else .not) (.column col) (.text e) fold =
      .ok (.compare fold (.column col) (if equal then .eq else .ne)
        ⟨.plain, .text (if fold then Text.lower e else e)⟩) := by
  cases equal <;> cases fold <;> rfl

theorem exists_reads (htype : col.type = .text) (h : key.TakesTexts v) (fold : Bool) :
    ∃ c, NativeOperator.standardApply key (.column col) v fold = .ok c ∧
      c.Reads col fun s => Folding.database.tests fold key s (operandTexts v) := by
  cases h with
  | @text e hkey he =>
    have hequality := reads_equality htype fold he
    have hmember := reads_member htype (List.forall_mem_singleton.mpr he)
    have hsearch : ∀ place, key.place? = some place → key.negates = false →
        (Clause.like fold (.column col) place e).Reads col
          fun s => Folding.database.meets fold key s e != key.negates := by
      intro place hplace hplain
      simp only [Folding.meets, hplace, hplain, Bool.bne_false]
      exact reads_search fold place he
    simp only [Folding.tests_text]
    simp only [List.mem_cons, List.not_mem_nil, or_false] at hkey
    rcases hkey with rfl | rfl | rfl | rfl | rfl | rfl | rfl
    · exact ⟨_, standardApply_equality fold true, hequality.congr fun s => (Bool.bne_false _).symm⟩
    · exact ⟨_, standardApply_equality fold false,
        (hequality.negate rfl).congr fun s => (Bool.bne_true _).symm⟩
    · exact ⟨_, rfl, hmember.congr fun s => (Bool.or_false _).trans (Bool.bne_false _).symm⟩
    · exact ⟨_, rfl, (hmember.negate rfl).congr fun s =>
        (congrArg (!·) (Bool.or_false _)).trans (Bool.bne_true _).symm⟩
    · exact ⟨_, rfl, hsearch _ rfl rfl⟩
    · exact ⟨_, rfl, hsearch _ rfl rfl⟩
    · exact ⟨_, rfl, hsearch _ rfl rfl⟩
  | @row texts hrow htexts =>
    have hmember := reads_member htype htexts
    simp only [operandTexts_row]
    cases key with
    | isIn =>
      exact ⟨_, congrArg Except.ok (membership_of_takes (takes_texts htype texts) true),
        hmember.congr fun s => (Bool.bne_false _).symm⟩
    | notIn =>
      exact ⟨_, congrArg Except.ok (membership_of_takes (takes_texts htype texts) false),
        (hmember.negate rfl).congr fun s => (Bool.bne_true _).symm⟩
    | _ => cases hrow

theorem conditionParts_mode {m : Model} {term : Term} {fold : Bool} {k : Key} {word : String}
    {rest : Fields} (hk : nativeKey? k = some .mode) :
    conditionParts .standard m term fold ((k, .text word) :: rest) =
      conditionParts .standard m term fold rest := by
  have hmode : isModeKey k = true := isModeKey_eq (nativeKey?_eq_some.mp hk)
  rw [conditionParts, hmode]
  cases conditionParts .standard m term fold rest <;> rfl

theorem conditionParts_text (m : Model) (htype : col.type = .text) (h : TextCondition es)
    (fold : Bool) : ∃ parts, conditionParts .standard m (.column col) fold es = .ok parts ∧
      (∀ p ∈ parts, p.Storable) ∧ ∀ db row s, row col.stored = .text s → IsAscii s →
        Truth.all (parts.map (Conjunct.truthOf db row)) = some (Folding.database.passes fold s es) := by
  induction h generalizing fold with
  | nil => exact ⟨[], rfl, by simp, fun _ _ _ _ _ => rfl⟩
  | @mode k word rest hk _ ih =>
    obtain ⟨ps, hps, hstorable, htruth⟩ := ih fold
    refine ⟨ps, by rw [conditionParts_mode hk, hps], hstorable, fun db row s hs hascii => ?_⟩
    rw [htruth db row s hs hascii, Folding.passes, Folding.passesEntry_of_skip (.inr hk) rfl,
      Bool.true_and]
  | @test k key v rest hk hv _ ih =>
    obtain ⟨ps, hps, hstorable, htruth⟩ := ih fold
    obtain ⟨c, hc, hreads⟩ := exists_reads htype hv fold
    have hpart : conditionPart .standard m (.column col) fold k v = .ok (.clause c) := by
      rw [conditionPart_of_operand hv.fields?,
        applyOperator_standard (nativeKey?_eq_some.mp hk) hv.ne_mode, hc]
      rfl
    refine ⟨.clause c :: ps, conditionParts_cons hk hv.ne_mode hpart hps,
      List.forall_mem_cons.mpr ⟨hreads.1, hstorable⟩, fun db row s hs hascii => ?_⟩
    rw [List.map_cons, Truth.all_cons, Conjunct.truthOf, hreads.2 db row s hs hascii,
      htruth db row s hs hascii, Folding.passes,
      Folding.passesEntry_of_operand hk hv.ne_mode hv.fields?]
    exact Truth.and_some _ _
  | @negation k es rest hk hes _ ihes ih =>
    -- a negated condition reads its own mode, not the one around it
    obtain ⟨qs, hqs, hqstorable, hqtruth⟩ := ihes (isInsensitive es)
    obtain ⟨ps, hps, hstorable, htruth⟩ := ih fold
    have hpart : conditionPart .standard m (.column col) fold k (.map es) =
        .ok (Clause.conjunction qs).negate := by
      rw [conditionPart, isNotKey_eq (nativeKey?_eq_some.mp hk), hqs]
      rfl
    refine ⟨_, conditionParts_cons hk (by decide) hpart hps, ?_,
      fun db row s hs hascii => ?_⟩
    · exact List.forall_mem_cons.mpr
        ⟨Clause.storable_negate (Clause.storable_conjunction hqstorable), hstorable⟩
    · rw [List.map_cons, Truth.all_cons, Clause.truthOf_negate, Clause.truthOf_conjunction,
        hqtruth db row s hs hascii, htruth db row s hs hascii, Folding.passes, Folding.passesEntry]
      exact Truth.and_some _ _

/-! ## Both stores -/

section

variable {schema : Schema} {db : Database} {identity : Model → Row → Nat} {m : Model} {k : Key}

/-- Whether each row of a model holds an ASCII text in a column, never null. -/
def HoldsTexts (db : Database) (m : Model) (col : Column) : Prop :=
  ∀ row ∈ db m.table, ∃ s, row col.stored = .text s ∧ IsAscii s

theorem selects_eq {f : Folding} {row : Row} (hs : row col.stored = .text s) :
    f.selects col es row = f.passes (isInsensitive es) s es := by
  rw [Folding.selects, hs]
  rfl

/-- A condition on a text column has a clause that can be bound and that selects the rows whose texts
pass it as a database reads it. -/
theorem compile_text (hschema : schema.Sound) (hm : m ∈ schema) (hk : junction? k = none)
    (hcol : k.name?.bind m.column? = some col) (htype : col.type = .text) (hes : TextCondition es)
    (htexts : HoldsTexts db m col) :
    ∃ clause, compile schema .standard m (.map [(k, .map es)]) = .ok clause ∧ clause.Storable ∧
      ∀ row ∈ db m.table, clause.selects db row = Folding.database.selects col es row := by
  obtain ⟨parts, hparts, hstorable, htruth⟩ := conditionParts_text m htype hes (isInsensitive es)
  have hpart : predicatePart schema .standard m k (.map es) =
      .ok (.clause (Clause.conjunction parts)) := by
    rw [predicatePart_column hschema hm hk hcol hes.isNativeCondition, compileCondition, hparts]
    rfl
  have hcompile : compile schema .standard m (.map [(k, .map es)]) =
      .ok (Clause.conjunction [.clause (Clause.conjunction parts)]) := by
    rw [compile, predicateClause, predicateParts, hpart]
    rfl
  refine ⟨_, hcompile, Clause.storable_conjunction (List.forall_mem_singleton.mpr
    (Clause.storable_conjunction hstorable)), fun row hrow => ?_⟩
  obtain ⟨s, hs, hascii⟩ := htexts row hrow
  have hrow : Clause.truthOf db row (Clause.conjunction parts) =
      some (Folding.database.passes (isInsensitive es) s es) := by
    rw [Clause.truthOf_conjunction, htruth db row s hs hascii]
  rw [Clause.selects, Clause.truthOf_conjunction, List.map_singleton, Conjunct.truthOf, hrow,
    selects_eq hs]
  cases Folding.database.passes (isInsensitive es) s es <;> rfl

theorem matching_text (n : Nat) (hk : junction? k = none) (hcol : k.name?.bind m.column? = some col)
    (hes : TextCondition es) (htexts : HoldsTexts db m col) :
    MemoryStore.matching (.map [(k, .map es)]) (objects schema db identity n m).records =
      .ok (((db m.table).filter (Folding.memory.selects col es)).map
        (graph schema db identity n m)) := by
  refine matching_map fun row hrow => ?_
  obtain ⟨s, hs, hascii⟩ := htexts row hrow
  have hentry : entryHolds (graph schema db identity n m row) k (.map es) =
      .ok (Folding.memory.selects col es row) := by
    rw [entryHolds_column hk hcol hes.isNativeCondition, hs, Cell.toValue, satisfies,
      passes_text hes _ hascii, selects_eq hs]
  rw [valueHolds, holds_cons_of hentry (b := true) rfl, Bool.and_true]

theorem counts_text (identity : Model → Row → Nat) (n : Nat) (hschema : schema.Sound) (hm : m ∈ schema)
    (hk : junction? k = none) (hcol : k.name?.bind m.column? = some col) (htype : col.type = .text)
    (hes : TextCondition es) (htexts : HoldsTexts db m col) :
    (tables schema db m).count (.map [(k, .map es)]) =
        .ok ((db m.table).filter (Folding.database.selects col es)).length ∧
      (objects schema db identity n m).count (.map [(k, .map es)]) =
        .ok ((db m.table).filter (Folding.memory.selects col es)).length := by
  obtain ⟨clause, hclause, hstorable, hselects⟩ := compile_text hschema hm hk hcol htype hes htexts
  constructor
  · rw [count_tables hclause hstorable, List.filter_congr hselects]
  · rw [MemoryStore.count, matching_text n hk hcol hes htexts]
    exact congrArg Except.ok (List.length_map _)

end
end Sql

open Sql

/-- **Agreement on texts.** Asked for a condition on a column of ASCII texts, each store answers and
selects the rows whose texts pass the condition as it reads it. They agree where searches are asked to
disregard case and rows of texts are not. -/
theorem text_conditions_agree {schema : Schema} {db : Database} {m : Model} {col : Column} {k : Key}
    {es : Fields} (identity : Model → Row → Nat) (n : Nat) (hschema : schema.Sound) (hm : m ∈ schema)
    (hk : junction? k = none) (hcol : k.name?.bind m.column? = some col) (htype : col.type = .text)
    (hes : TextCondition es) (htexts : HoldsTexts db m col) :
    (∃ clause, compile schema .standard m (.map [(k, .map es)]) = .ok clause ∧ clause.Storable ∧
        ∀ row ∈ db m.table, clause.selects db row = Folding.database.selects col es row) ∧
      MemoryStore.matching (.map [(k, .map es)]) (objects schema db identity n m).records =
        .ok (((db m.table).filter (Folding.memory.selects col es)).map
          (graph schema db identity n m)) ∧
      (Folding.isUniform (isInsensitive es) es = true →
        StoresAgree schema db identity n m [(k, .map es)]) := by
  have hcompile := compile_text hschema hm hk hcol htype hes htexts
  have hmatching : MemoryStore.matching _ (objects schema db identity n m).records = _ :=
    matching_text n hk hcol hes htexts
  refine ⟨hcompile, hmatching, fun huniform => ?_⟩
  obtain ⟨clause, hclause, hstorable, hselects⟩ := hcompile
  obtain ⟨c, hc⟩ := hschema.key m hm
  have hrows : (db m.table).filter (Folding.memory.selects col es) =
      (db m.table).filter (clause.selects db) := by
    refine List.filter_congr fun row hrow => ?_
    rw [hselects row hrow, Folding.selects, Folding.selects, Folding.passes_of_isUniform _ es _ huniform]
  rw [hrows] at hmatching
  exact .of_matching hc hclause hstorable hmatching

/-! ## Teams by name -/

namespace Sql.Sample

theorem teams_holdTexts : HoldsTexts database team (textColumn "teams" "name") := by
  refine List.forall_mem_cons.mpr ⟨⟨"Core", rfl, by decide⟩, ?_⟩
  refine List.forall_mem_cons.mpr ⟨⟨"Growth", rfl, by decide⟩, ?_⟩
  refine List.forall_mem_cons.mpr ⟨⟨"core%", rfl, by decide⟩, ?_⟩
  exact List.forall_mem_singleton.mpr ⟨"Empty", rfl, by decide⟩

def insensitively : Key × Value := (.text NativeKey.mode.name, .text "insensitive")

def amongNames (names : List String) : Key × Value :=
  (.text NativeKey.isIn.name, .list (names.map .text))

/-- That a name holds a text in whatever case, and is not one of another's. -/
def searchedName : Fields :=
  [(.text NativeKey.contains.name, .text "core"), insensitively,
    (.text NativeKey.not.name, .map [amongNames ["Growth"]])]

theorem searchedName_condition : TextCondition searchedName := by
  have hgrowth : TextCondition [amongNames ["Growth"]] :=
    .test rfl (.row rfl (List.forall_mem_singleton.mpr (by decide))) .nil
  exact .test rfl (.text (by decide) (by decide)) (.mode rfl (.negation rfl hgrowth .nil))

end Sql.Sample

open Sample

theorem text_conditions_agree_teams : TextCondition searchedName ∧
    StoresAgree schema database (fun _ _ => 0) 1 team [(.text "name", .map searchedName)] := by
  have hname : team.column? "name" = some (textColumn "teams" "name") := rfl
  obtain ⟨-, -, hagree⟩ := text_conditions_agree (fun _ _ => 0) 1 schema_sound List.mem_cons_self
    (k := .text "name") rfl hname rfl searchedName_condition teams_holdTexts
  exact ⟨searchedName_condition, hagree (by decide)⟩

/-- **Case in the two stores.** Two names of teams hold core in some case, one as it is written. A search
without a mode finds both over the database, and one in memory. A name among texts whose case the mode
disregards is found in memory alone. -/
theorem plain_search_disregards_case :
    TextCondition [(.text NativeKey.contains.name, .text "core")] ∧
      (tables schema database team).count (.map (compared "name" .contains "core")) = .ok 2 ∧
      (objects schema database (fun _ _ => 0) 1 team).count
        (.map (compared "name" .contains "core")) = .ok 1 ∧
      TextCondition [amongNames ["core"], insensitively] ∧
      (tables schema database team).count
        (.map [(.text "name", .map [amongNames ["core"], insensitively])]) = .ok 0 ∧
      (objects schema database (fun _ _ => 0) 1 team).count
        (.map [(.text "name", .map [amongNames ["core"], insensitively])]) = .ok 1 := by
  have hname : team.column? "name" = some (textColumn "teams" "name") := rfl
  have hsearch : TextCondition [(.text NativeKey.contains.name, .text "core")] :=
    .test rfl (.text (by decide) (by decide)) .nil
  have hamong : TextCondition [amongNames ["core"], insensitively] :=
    .test rfl (.row rfl (List.forall_mem_singleton.mpr (by decide))) (.mode rfl .nil)
  obtain ⟨hfound, hheld⟩ := counts_text (fun _ _ => 0) 1 schema_sound List.mem_cons_self
    (k := .text "name") rfl hname rfl hsearch teams_holdTexts
  obtain ⟨hnone, hone⟩ := counts_text (fun _ _ => 0) 1 schema_sound List.mem_cons_self
    (k := .text "name") rfl hname rfl hamong teams_holdTexts
  exact ⟨hsearch, hfound, hheld, hamong, hnone, hone⟩

end Listing
