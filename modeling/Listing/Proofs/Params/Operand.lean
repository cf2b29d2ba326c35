import Listing.Proofs.Number.Written
import Listing.Proofs.Operator
import Listing.Proofs.Params.Total
import Listing.Proofs.Text.Split
import Listing.Proofs.Value.Depth
import Listing.Proofs.Value.Equality

/-!
# Reading operands back

An operand can be written as the text of a bracketed condition: a truth value by its word, an integer in
base ten, a text as it is, and a list with commas between its elements. Behind an operator and a colon,
it reads as itself, unless it is a text that reads as something else.
-/

namespace Listing.Operand

open Outcome Text Numeral

theorem scalar_cases {s : String} {v : Value} (h : scalar s = .ok v) :
    (∃ b, v = .bool b) ∨ (∃ n, v = .int n) ∨ (∃ x, v = .float x) ∨ ∃ t, v = .text t := by
  unfold scalar at h
  dsimp only at h
  split at h
  · exact .inl ⟨true, (Except.ok.inj h).symm⟩
  split at h
  · exact .inl ⟨false, (Except.ok.inj h).symm⟩
  split at h
  · exact .inr (.inl ⟨_, (Except.ok.inj h).symm⟩)
  · exact .inr (.inr (.inr ⟨s, (Except.ok.inj h).symm⟩))
  · split at h
    · exact .inr (.inr (.inl ⟨_, (Except.ok.inj h).symm⟩))
    · nomatch h
    · exact .inr (.inr (.inr ⟨s, (Except.ok.inj h).symm⟩))

/-! ## Writing -/

/-- The text of an operand that is no list. -/
def scalarText : Value → String
  | .bool true => "true"
  | .bool false => "false"
  | .int n => toString n
  | .text s => s
  | _ => ""

def write : Value → String
  | .list vs => ",".intercalate (vs.map scalarText)
  | v => scalarText v

/-- Operands that read as themselves: truth values, integers of at most `digitLimit` digits, and texts
that are no word of a truth value, in any case, and do not look like a number. -/
inductive Scalar : Value → Prop
  | bool (b : Bool) : Scalar (.bool b)
  | int (n : Int) (short : (Nat.toDigits 10 n.natAbs).length ≤ digitLimit) : Scalar (.int n)
  | text (s : String) (word : lower s ≠ "true" ∧ lower s ≠ "false")
      (number : ¬Surrounded isBlank IsDecimal s.toList) : Scalar (.text s)

/-- Whether an operand that is a text can be an element of a list: it has no comma, and no blank at its
ends. -/
def Separable (v : Value) : Prop :=
  ∀ s, v = .text s → ',' ∉ s.toList ∧ trimBy isBlank s.toList = s.toList

/-- Operands of an operator that read as themselves: lists, which are not empty, for the set operators,
and scalars for the others. -/
inductive Readable (op : Operator) : Value → Prop
  | scalar {v : Value} (single : op.isSet = false) (scalar : Scalar v) : Readable op v
  | list {vs : List Value} (set : op.isSet = true) (ne : vs ≠ [])
      (scalars : ∀ v ∈ vs, Scalar v) (separable : ∀ v ∈ vs, Separable v) : Readable op (.list vs)

theorem Scalar.text_of_absent {s : String} (word : lower s ≠ "true" ∧ lower s ≠ "false")
    (h : decimal s.toList = .absent) : Scalar (.text s) :=
  .text s word ((surrounded_iff (fun _ h => h) tight_isDecimal).not.mpr (decimal_eq_absent_iff.mp h))

theorem Scalar.same_self {v : Value} (h : Scalar v) : v.same v = true := by
  cases h with
  | bool b => simp
  | int n => simp
  | text s => simp

theorem Readable.same_self {op : Operator} {v : Value} (h : Readable op v) : v.same v = true := by
  cases h with
  | scalar _ scalar => exact scalar.same_self
  | list _ _ scalars =>
    rw [Value.same]
    exact Value.sameAll_self fun v hv => (scalars v hv).same_self

theorem Scalar.depth_eq {v : Value} (h : Scalar v) : v.depth = 1 := by
  cases h <;> rfl

theorem Readable.depth_le {op : Operator} {v : Value} (h : Readable op v) :
    v.depth ≤ if op.isSet then 2 else 1 := by
  cases h with
  | scalar single scalar =>
    rw [single, scalar.depth_eq]
    exact Nat.le_refl 1
  | list set _ scalars =>
    rw [set, if_pos rfl, Value.depth, Nat.add_le_add_iff_right, Value.depthAll_le_iff]
    exact fun v hv => Nat.le_of_eq (scalars v hv).depth_eq

/-! ## Scalars -/

theorem lower_digit {c : Char} (h : c.isDigit = true) :
    c ≠ 'Σ' ∧ lowerChar c = [c] ∧ c ∉ "true".toList ∧ c ∉ "false".toList := by
  have hall : ∀ n ∈ List.range 10, Char.ofNat (48 + n) ≠ 'Σ' ∧
      lowerChar (Char.ofNat (48 + n)) = [Char.ofNat (48 + n)] ∧
      Char.ofNat (48 + n) ∉ "true".toList ∧ Char.ofNat (48 + n) ∉ "false".toList := by decide
  have hbounds := bounds_of_isDigit h
  have hchar : c = Char.ofNat (48 + (c.toNat - 48)) := by
    rw [Nat.add_sub_cancel' hbounds.1, Char.ofNat_toNat]
  rw [hchar]
  exact hall _ (List.mem_range.mpr (by omega))

theorem lower_toString_ne (n : Int) :
    lower (toString n) ≠ "true" ∧ lower (toString n) ≠ "false" := by
  obtain ⟨c, hc⟩ := List.exists_mem_of_ne_nil _ (Nat.toDigits_ne_nil (b := 10) (n := n.natAbs))
  obtain ⟨hsigma, hlower, htrue, hfalse⟩ := lower_digit (isDigit_toDigits n.natAbs c hc)
  have hmem : c ∈ (lower (toString n)).toList := by
    refine mem_lower hsigma hlower ?_
    rw [toList_toString]
    exact List.mem_append_right _ hc
  constructor
  · intro heq
    exact htrue (heq ▸ hmem)
  · intro heq
    exact hfalse (heq ▸ hmem)

theorem scalar_scalarText {v : Value} (h : Scalar v) : scalar (scalarText v) = .ok v := by
  cases h with
  | bool b => cases b <;> rfl
  | int n short =>
    obtain ⟨htrue, hfalse⟩ := lower_toString_ne n
    rw [scalarText, scalar, if_neg htrue, if_neg hfalse, integer_toString short]
  | text s word number =>
    have hdecimal : ¬IsDecimal (trimBy isBlank s.toList) := by
      rwa [← surrounded_iff (fun _ h => h) tight_isDecimal]
    rw [scalarText, scalar, if_neg word.1, if_neg word.2, integer_eq_absent_iff.mpr (mt IsInteger.isDecimal hdecimal),
      decimal_eq_absent_iff.mpr hdecimal]

/-! ## Lists -/

theorem comma_not_mem_of_isInteger {cs : List Char} (h : IsInteger cs) : ',' ∉ cs := by
  obtain ⟨sign, ds, hsign, hds, -, rfl⟩ := h
  intro hmem
  rcases List.mem_append.mp hmem with hmem | hmem
  · cases hsign with
    | absent => simp at hmem
    | plus => simp at hmem
    | minus => simp at hmem
  · exact absurd (hds _ hmem) (by decide)

theorem separable_scalarText {v : Value} (h : Scalar v) (hseparable : Separable v) :
    ',' ∉ (scalarText v).toList ∧ trimBy isBlank (scalarText v).toList = (scalarText v).toList := by
  cases h with
  | bool b => cases b <;> decide
  | int n =>
    have hinteger := isInteger_toString n
    exact ⟨comma_not_mem_of_isInteger hinteger, trimBy_of_tight (fun _ h => h) tight_isInteger hinteger⟩
  | text s => exact hseparable s rfl

/-- An operand reads as itself under its operator. -/
theorem coerce_write {op : Operator} {v : Value} (h : Readable op v) : coerce op (write v) = .ok v := by
  cases h with
  | scalar single scalar =>
    have hwrite : write v = scalarText v := by
      cases scalar <;> rfl
    rw [coerce, single, hwrite]
    exact scalar_scalarText scalar
  | @list vs set ne scalars separable =>
    have hparts : splitAt ',' (",".intercalate (vs.map scalarText)).toList =
        vs.map fun v => (scalarText v).toList := by
      refine splitAt_eq_iff.mpr ⟨by simpa using ne, ?_, ?_⟩
      · rw [List.forall_mem_map]
        exact fun v hv => (separable_scalarText (scalars v hv) (separable v hv)).1
      · rw [String.toList_intercalate, List.map_map]
        rfl
    have helements : (vs.map fun v => (scalarText v).toList).mapM
        (fun part => scalar (String.ofList (trimBy isBlank part))) = .ok vs := by
      rw [mapM_eq_ok, List.forall₂_map_left_iff]
      refine List.forall₂_same.mpr fun v hv => ?_
      rw [(separable_scalarText (scalars v hv) (separable v hv)).2, String.ofList_toList]
      exact scalar_scalarText (scalars v hv)
    rw [coerce, set, if_pos rfl, write, hparts, helements]
    rfl

/-! ## Operators -/

/-- Whether a word names an operator: its token, with the mark or without. -/
def Names (word : String) (op : Operator) : Prop := word = op.token ∨ word = op.word

theorem Names.ofWord? {word : String} {op : Operator} (h : Names word op) :
    ':' ∉ word.toList ∧ Operator.ofWord? word = some op := by
  refine ⟨?_, Operator.ofWord?_eq_some.mpr h⟩
  rcases h with rfl | rfl
  · cases op <;> decide
  · cases op <;> decide

theorem splitOperator_word {word : String} {op : Operator} (h : Names word op) (s : String) :
    splitOperator (word ++ ":" ++ s) = (op, s) := by
  obtain ⟨hcolon, hword⟩ := h.ofWord?
  have hlist : (word ++ ":" ++ s).toList = word.toList ++ ':' :: s.toList := by
    rw [String.toList_append, String.toList_append, List.append_assoc]
    rfl
  rw [splitOperator, hlist, splitFirst?_append hcolon]
  dsimp only
  rw [String.ofList_toList, hword, String.ofList_toList]

end Listing.Operand
