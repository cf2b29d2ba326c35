import Listing.Proofs.Sql.Condition
import Listing.Proofs.Sql.Pattern

/-!
# Conditions on texts

Conditions of equalities, rows of texts and searches, with or without a mode. Both stores read them
alike but for the case of letters. Memory disregards it in every test where the mode asks for that, and
in no other. A database always disregards it in searches and never in rows of texts. The two ways of
reading agree on conditions that search only where the mode disregards case and ask for rows of texts
only where it does not.
-/

namespace Listing

open Outcome Predicate
open Text (cased IsAscii)

/-! ## Reading a condition -/

/-- Whether a store disregards case in searches and in rows of texts, given whether the mode asks for it. -/
structure Folding where
  search : Bool → Bool
  member : Bool → Bool

def Folding.memory : Folding := ⟨id, id⟩

def Folding.database : Folding := ⟨fun _ => true, fun _ => false⟩

namespace NativeKey

def place? : NativeKey → Option Sql.Place
  | .contains => some .anywhere
  | .startsWith => some .start
  | .endsWith => some .finish
  | _ => none

def takesRow : NativeKey → Bool
  | .isIn | .notIn => true
  | _ => false

/-- Whether both ways of disregarding case are one for a key. -/
def isUniform (key : NativeKey) (insensitive : Bool) : Bool :=
  if key.place?.isSome then insensitive else if key.takesRow then !insensitive else true

end NativeKey

def operandTexts : Value → List String
  | .list xs => xs.filterMap Value.text?
  | v => v.text?.toList

namespace Folding

variable (f : Folding) (insensitive : Bool)

def meets (key : NativeKey) (s e : String) : Bool :=
  match key.place? with
  | some place => place.finds (cased (f.search insensitive) e) (cased (f.search insensitive) s)
  | none =>
    let fold := if key.takesRow then f.member insensitive else insensitive
    cased fold s == cased fold e

def tests (key : NativeKey) (s : String) (texts : List String) : Bool :=
  texts.any (f.meets insensitive key s) != key.negates

mutual

def passes (insensitive : Bool) (s : String) : List (Key × Value) → Bool
  | [] => true
  | (k, v) :: rest => passesEntry insensitive s k v && passes insensitive s rest
termination_by structural es => es

def passesEntry (insensitive : Bool) (s : String) (k : Key) : Value → Bool
  | .map es => !passes (isInsensitive es) s es
  | v =>
    match nativeKey? k with
    | none | some .mode => true
    | some key => f.tests insensitive key s (operandTexts v)
termination_by structural v => v

end

def selects (col : Sql.Column) (es : Fields) (row : Sql.Row) : Bool :=
  f.passes (isInsensitive es) ((row col.stored).text?.getD "") es

mutual

/-- Whether a condition searches only where its mode disregards case, and asks for rows of texts only
where it does not. -/
def isUniform (insensitive : Bool) : List (Key × Value) → Bool
  | [] => true
  | (k, v) :: rest => isUniformEntry insensitive k v && isUniform insensitive rest
termination_by structural es => es

def isUniformEntry (insensitive : Bool) (k : Key) : Value → Bool
  | .map es => isUniform (isInsensitive es) es
  | _ => (nativeKey? k).all fun key => key.isUniform insensitive
termination_by structural v => v

end

variable {f : Folding} {insensitive : Bool} {s : String} {k : Key} {key : NativeKey} {v : Value}

/-! An operand of a test is no mapping, which is read as a negated condition. -/

theorem passesEntry_of_operand (hk : nativeKey? k = some key) (hmode : key ≠ .mode)
    (hv : v.fields? = none) :
    f.passesEntry insensitive s k v = f.tests insensitive key s (operandTexts v) := by
  have hmatch : (match nativeKey? k with
      | none | some .mode => true
      | some key => f.tests insensitive key s (operandTexts v)) =
        f.tests insensitive key s (operandTexts v) := by
    rw [hk]
    cases key <;> first
      | rfl
      | exact absurd rfl hmode
  cases v with
  | map es => nomatch hv
  | _ => exact hmatch

theorem passesEntry_of_skip (hk : nativeKey? k = none ∨ nativeKey? k = some .mode)
    (hv : v.fields? = none) : f.passesEntry insensitive s k v = true := by
  have hmatch : (match nativeKey? k with
      | none | some .mode => true
      | some key => f.tests insensitive key s (operandTexts v)) = true := by
    rcases hk with hk | hk <;> rw [hk]
  cases v with
  | map es => nomatch hv
  | _ => exact hmatch

/-! ## Where both ways agree -/

theorem meets_of_isUniform (h : key.isUniform insensitive = true) (s e : String) :
    database.meets insensitive key s e = memory.meets insensitive key s e := by
  unfold NativeKey.isUniform at h
  unfold meets
  cases hplace : key.place? with
  | some place =>
    rw [hplace] at h
    obtain rfl : insensitive = true := h
    rfl
  | none =>
    rw [hplace] at h
    by_cases hrow : key.takesRow = true
    · have hplain : insensitive = false := by simpa [hrow] using h
      rw [hplain]
      rfl
    · simp only [hrow, Bool.false_eq_true, if_false]

theorem passesEntry_of_uniform_key (hv : v.fields? = none)
    (h : ((nativeKey? k).all fun key => key.isUniform insensitive) = true) (s : String) :
    database.passesEntry insensitive s k v = memory.passesEntry insensitive s k v := by
  by_cases hskip : nativeKey? k = none ∨ nativeKey? k = some .mode
  · rw [passesEntry_of_skip hskip hv, passesEntry_of_skip hskip hv]
  · obtain ⟨hsome, hmode⟩ := not_or.mp hskip
    obtain ⟨key, hk⟩ := Option.ne_none_iff_exists'.mp hsome
    rw [hk] at h hmode
    have hne : key ≠ .mode := fun heq => hmode (by rw [heq])
    rw [passesEntry_of_operand hk hne hv, passesEntry_of_operand hk hne hv, tests, tests]
    simp only [funext (meets_of_isUniform h s)]

mutual

theorem passes_of_isUniform (s : String) : ∀ (es : Fields) (insensitive : Bool),
    isUniform insensitive es = true →
      database.passes insensitive s es = memory.passes insensitive s es
  | [], _, _ => rfl
  | (k, v) :: rest, insensitive, h => by
    rw [isUniform, Bool.and_eq_true] at h
    rw [passes, passes, passesEntry_of_isUniform s v insensitive k h.1,
      passes_of_isUniform s rest insensitive h.2]

theorem passesEntry_of_isUniform (s : String) : ∀ (v : Value) (insensitive : Bool) (k : Key),
    isUniformEntry insensitive k v = true →
      database.passesEntry insensitive s k v = memory.passesEntry insensitive s k v
  | .map es, _, _, h => by
    rw [passesEntry, passesEntry, passes_of_isUniform s es _ h]
  | .none, _, _, h | .bool _, _, _, h | .int _, _, _, h | .float _, _, _, h | .text _, _, _, h
  | .bytes _, _, _, h | .operator _, _, _, h | .direction _, _, _, h | .list _, _, _, h
  | .tuple _, _, _, h | .set _, _, _, h | .object _ _, _, _, h | .items _, _, _, h | .rule _, _, _, h
  | .policy _, _, _, h => passesEntry_of_uniform_key rfl h s

end
end Folding

/-! ## Conditions on texts -/

/-- Whether a key takes an operand: one ASCII text or, for a key that asks for it, a row of them. -/
inductive NativeKey.TakesTexts : NativeKey → Value → Prop
  | text {key : NativeKey} {e : String} :
      key ∈ [.equals, .not, .isIn, .notIn, .contains, .startsWith, .endsWith] → IsAscii e →
      TakesTexts key (.text e)
  | row {key : NativeKey} {texts : List String} :
      key.takesRow = true → (∀ e ∈ texts, IsAscii e) → TakesTexts key (.list (texts.map .text))

/-- A condition of tests with ASCII texts, negated conditions and modes. -/
inductive TextCondition : Fields → Prop
  | nil : TextCondition []
  | mode {k : Key} {word : String} {rest : Fields} :
      nativeKey? k = some .mode → TextCondition rest → TextCondition ((k, .text word) :: rest)
  | test {k : Key} {key : NativeKey} {v : Value} {rest : Fields} :
      nativeKey? k = some key → key.TakesTexts v → TextCondition rest →
      TextCondition ((k, v) :: rest)
  | negation {k : Key} {es rest : Fields} :
      nativeKey? k = some .not → TextCondition es → TextCondition rest →
      TextCondition ((k, .map es) :: rest)

variable {key : NativeKey} {v : Value} {es : Fields} {s e : String}

theorem NativeKey.TakesTexts.ne_mode (h : key.TakesTexts v) : key ≠ .mode := by
  rintro rfl
  cases h with
  | text hkey _ => simp at hkey
  | row hrow _ => cases hrow

theorem NativeKey.TakesTexts.fields? (h : key.TakesTexts v) : v.fields? = none := by
  cases h <;> rfl

theorem operandTexts_row (texts : List String) : operandTexts (.list (texts.map .text)) = texts := by
  have htext : ∀ e : String, Value.text? (.text e) = some e := fun _ => rfl
  rw [operandTexts, List.filterMap_map]
  simp [htext]

theorem TextCondition.isNativeCondition (h : TextCondition es) : isNativeCondition es = true := by
  have hnative : ∀ {k : Key} {key : NativeKey}, nativeKey? k = some key → isNativeKey k = true := by
    intro k key hk
    rw [isNativeKey, hk]
    rfl
  rw [Predicate.isNativeCondition, List.all_eq_true]
  induction h with
  | nil => simp
  | mode hk _ ih | test hk _ _ ih | negation hk _ _ _ ih =>
    exact List.forall_mem_cons.mpr ⟨hnative hk, ih⟩

/-! ## In memory -/

theorem beq_toList (a b : String) : (a == b) = (a.toList == b.toList) := by
  rw [Bool.eq_iff_iff, beq_iff_eq, beq_iff_eq, String.toList_inj]

theorem equal_text (fold : Bool) (hs : IsAscii s) (he : IsAscii e) :
    equal fold (.text s) (.text e) = (cased fold s == cased fold e) := by
  cases fold with
  | false => exact beq_toList s e
  | true =>
    have hfolded : equal true (.text s) (.text e) = (Text.fold s == Text.fold e) := rfl
    rw [hfolded, beq_toList, Text.toList_fold hs, Text.toList_fold he]

theorem textual_text (test : List Char → List Char → Bool) (fold : Bool) (hs : IsAscii s)
    (he : IsAscii e) :
    textual test fold (.text s) (.text e) = .ok (test (cased fold s) (cased fold e)) := by
  cases fold with
  | false => rfl
  | true =>
    have hfolded : textual test true (.text s) (.text e) =
        .ok (test (Text.fold s).toList (Text.fold e).toList) := rfl
    rw [hfolded, Text.toList_fold hs, Text.toList_fold he]

theorem test_search {place : Sql.Place} (hplace : key.place? = some place) (fold : Bool)
    (hs : IsAscii s) (he : IsAscii e) :
    test fold (.text s) key (.text e) = .ok (place.finds (cased fold e) (cased fold s)) := by
  cases key with
  | contains =>
    obtain rfl := Option.some.inj hplace
    exact textual_text (fun a e => Text.occurs e a) fold hs he
  | startsWith =>
    obtain rfl := Option.some.inj hplace
    exact textual_text (fun a e => e.isPrefixOf a) fold hs he
  | endsWith =>
    obtain rfl := Option.some.inj hplace
    exact textual_text (fun a e => e.isSuffixOf a) fold hs he
  | _ => cases hplace

theorem any_equal_texts (fold : Bool) (hs : IsAscii s) {texts : List String}
    (htexts : ∀ e ∈ texts, IsAscii e) :
    (texts.map Value.text).any (equal fold (.text s)) =
      texts.any fun e => cased fold s == cased fold e := by
  rw [List.any_map, Bool.eq_iff_iff, List.any_eq_true, List.any_eq_true]
  refine exists_congr fun e => and_congr_right fun he => ?_
  rw [Function.comp_apply, equal_text fold hs (htexts e he)]

theorem Folding.tests_text (f : Folding) (fold : Bool) (key : NativeKey) (s e : String) :
    f.tests fold key s (operandTexts (.text e)) = (f.meets fold key s e != key.negates) := by
  have htexts : operandTexts (.text e) = [e] := rfl
  rw [tests, htexts, List.any_cons, List.any_nil, Bool.or_false]

theorem test_text (h : key.TakesTexts v) (fold : Bool) (hs : IsAscii s) :
    test fold (.text s) key v = .ok (Folding.memory.tests fold key s (operandTexts v)) := by
  cases h with
  | @text e hkey he =>
    have hequal := equal_text fold hs he
    have hamong : among fold (.text s) (.text e) = (cased fold s == cased fold e) :=
      (Bool.or_false _).trans hequal
    have hsearch : ∀ place, key.place? = some place → key.negates = false →
        test fold (.text s) key (.text e) = .ok (Folding.memory.meets fold key s e != key.negates) := by
      intro place hplace hplain
      rw [test_search hplace fold hs he, Folding.meets, hplace, hplain, Bool.bne_false]
      rfl
    rw [Folding.tests_text]
    simp only [List.mem_cons, List.not_mem_nil, or_false] at hkey
    rcases hkey with rfl | rfl | rfl | rfl | rfl | rfl | rfl
    · exact congrArg Except.ok (hequal.trans (Bool.bne_false _).symm)
    · exact congrArg Except.ok ((congrArg (!·) hequal).trans (Bool.bne_true _).symm)
    · exact congrArg Except.ok (hamong.trans (Bool.bne_false _).symm)
    · exact congrArg Except.ok ((congrArg (!·) hamong).trans (Bool.bne_true _).symm)
    · exact hsearch _ rfl rfl
    · exact hsearch _ rfl rfl
    · exact hsearch _ rfl rfl
  | @row texts hrow htexts =>
    have hamong : among fold (.text s) (.list (texts.map .text)) =
        texts.any fun e => cased fold s == cased fold e := any_equal_texts fold hs htexts
    rw [operandTexts_row]
    cases key with
    | isIn => exact congrArg Except.ok (hamong.trans (Bool.bne_false _).symm)
    | notIn => exact congrArg Except.ok ((congrArg (!·) hamong).trans (Bool.bne_true _).symm)
    | _ => cases hrow

theorem passes_text (h : TextCondition es) (fold : Bool) (hs : IsAscii s) :
    passes fold (.text s) es = .ok (Folding.memory.passes fold s es) := by
  induction h generalizing fold with
  | nil => rfl
  | @mode k word rest hk _ ih =>
    have hentry : passesEntry fold (.text s) .mode (.text word) = .ok true := rfl
    rw [Sql.passes_cons hk hentry (ih fold), Folding.passes, Folding.passesEntry_of_skip (.inr hk) rfl]
  | @test k key v rest hk hv _ ih =>
    have hentry : passesEntry fold (.text s) key v =
        .ok (Folding.memory.tests fold key s (operandTexts v)) := by
      rw [Sql.passesEntry_of_operand hv.fields?, test_text hv fold hs]
    rw [Sql.passes_cons hk hentry (ih fold), Folding.passes,
      Folding.passesEntry_of_operand hk hv.ne_mode hv.fields?]
  | @negation k es rest hk hes _ ihes ih =>
    have hentry : passesEntry fold (.text s) .not (.map es) =
        .ok !Folding.memory.passes (isInsensitive es) s es := by
      rw [passesEntry, if_pos ⟨rfl, hes.isNativeCondition⟩, ihes]
      rfl
    rw [Sql.passes_cons hk hentry (ih fold), Folding.passes, Folding.passesEntry]

end Listing
