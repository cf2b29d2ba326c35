import Listing.Proofs.Number.Grammar

/-!
# Reading written integers back

An integer is written with a minus where it is negative and with its digits in base ten, and, unless
they are too many, reads as itself.
-/

namespace Listing.Numeral

open Text

theorem bounds_of_isDigit {c : Char} (h : c.isDigit = true) : 48 ≤ c.toNat ∧ c.toNat ≤ 57 := by
  rw [Char.isDigit, Bool.and_eq_true, decide_eq_true_eq, decide_eq_true_eq] at h
  exact ⟨UInt32.le_iff_toNat_le.mp h.1, UInt32.le_iff_toNat_le.mp h.2⟩

theorem digitValue?_of_isDigit {c : Char} (h : c.isDigit = true) :
    digitValue? c = some (c.toNat - '0'.toNat) := by
  have hbounds := bounds_of_isDigit h
  have hfirst : decimalZeros.find? (fun z => z ≤ c.toNat && c.toNat < z + 10) = some 48 := by
    refine List.find?_cons_of_pos ?_
    rw [Bool.and_eq_true, decide_eq_true_eq, decide_eq_true_eq]
    omega
  rw [digitValue?, hfirst]
  rfl

theorem isDigit_of_isDigit {c : Char} (h : c.isDigit = true) : isDigit c = true := by
  rw [isDigit, digitValue?_of_isDigit h]
  rfl

theorem ofDigits_values {cs : List Char} (h : ∀ c ∈ cs, c.isDigit = true) :
    ofDigits (cs.filterMap digitValue?) = Nat.ofDigitChars 10 cs 0 := by
  rw [ofDigits, Nat.ofDigitChars_eq_foldl]
  generalize 0 = start
  induction cs generalizing start with
  | nil => rfl
  | cons c cs ih =>
    obtain ⟨hc, hcs⟩ := List.forall_mem_cons.mp h
    rw [List.filterMap_cons_some (digitValue?_of_isDigit hc), List.foldl_cons, List.foldl_cons, ih hcs]

def writtenSign (n : Int) : List Char := if n < 0 then ['-'] else []

theorem sign_writtenSign (n : Int) : Sign (writtenSign n) := by
  unfold writtenSign
  split
  · exact .minus
  · exact .absent

theorem toList_toString (n : Int) :
    (toString n).toList = writtenSign n ++ Nat.toDigits 10 n.natAbs := by
  rw [Int.toString_eq_repr, Int.repr_eq_if, writtenSign]
  by_cases hn : n < 0
  · have habs : (-n).toNat = n.natAbs := by omega
    rw [if_neg (by omega), if_pos hn, String.toList_append, Nat.toList_repr, habs]
    rfl
  · have habs : n.toNat = n.natAbs := by omega
    rw [if_pos (by omega), if_neg hn, Nat.toList_repr, habs]
    rfl

theorem isDigit_toDigits (n : Nat) : ∀ c ∈ Nat.toDigits 10 n, c.isDigit = true :=
  fun _ hc => Nat.isDigit_of_mem_toDigits (by decide) (by decide) hc

theorem digits_toDigits (n : Nat) : Digits (Nat.toDigits 10 n) :=
  fun c hc => isDigit_of_isDigit (isDigit_toDigits n c hc)

theorem isInteger_toString (n : Int) : IsInteger (toString n).toList :=
  ⟨_, _, sign_writtenSign n, digits_toDigits n.natAbs, Nat.toDigits_ne_nil, toList_toString n⟩

theorem trimBy_of_tight {blank : Char → Bool} (hblank : ∀ c, blank c = true → isBlank c = true)
    {Form : List Char → Prop} (htight : Tight Form) {cs : List Char} (h : Form cs) :
    trimBy blank cs = cs := by
  obtain ⟨hne, hnot⟩ := htight cs h
  have hbody : ∀ c ∈ cs, blank c = false := by
    intro c hc
    by_contra hb
    have hwide := hblank c (by simpa using hb)
    rw [hnot c hc] at hwide
    nomatch hwide
  have hnone : ∀ c ∈ ([] : List Char), blank c = true := by simp
  have htrim : trimBy blank ([] ++ (cs ++ [])) = cs := trimBy_append hnone hnone hne hbody
  simpa using htrim

theorem splitSign_writtenSign (n : Int) {ds : List Char} (hds : Digits ds) (hne : ds ≠ []) :
    splitSign (writtenSign n ++ ds) = (decide (n < 0), ds) := by
  obtain ⟨d, ds, rfl⟩ := List.exists_cons_of_ne_nil hne
  have hd : d ≠ '+' ∧ d ≠ '-' := by
    simpa [isSign] using isSign_of_isDigit (hds d List.mem_cons_self)
  unfold writtenSign
  by_cases hn : n < 0
  · rw [if_pos hn, decide_eq_true hn]
    rfl
  · rw [if_neg hn, decide_eq_false hn, List.nil_append]
    unfold splitSign
    split
    · next heq => exact absurd (List.cons.inj heq).1 hd.1
    · next heq => exact absurd (List.cons.inj heq).1 hd.2
    · rfl

theorem signed_natAbs (n : Int) : signed (decide (n < 0)) n.natAbs = n := by
  unfold signed
  split
  · next h =>
    have hn : n < 0 := of_decide_eq_true h
    omega
  · next h =>
    have hn : ¬n < 0 := by simpa using h
    omega

theorem integer_toString {n : Int} (h : (Nat.toDigits 10 n.natAbs).length ≤ digitLimit) :
    integer (toString n).toList = .read n := by
  have hclean : cleanEnds (toString n).toList = true := by
    rw [cleanEnds, trimBy_of_tight (fun _ h => h) tight_isInteger (isInteger_toString n),
      trimBy_of_tight isBlank_of_isNumberBlank tight_isInteger (isInteger_toString n), beq_self_eq_true]
  have hsplit : splitDigits (Nat.toDigits 10 n.natAbs) =
      ((Nat.toDigits 10 n.natAbs).filterMap digitValue?, []) := by
    simpa using splitDigits_append (digits_toDigits n.natAbs) (stops_nil isDigit)
  have hvalue : ofDigits ((Nat.toDigits 10 n.natAbs).filterMap digitValue?) = n.natAbs := by
    rw [ofDigits_values (isDigit_toDigits n.natAbs), Nat.ofDigitChars_ten_toDigits]
  have hlength : ((Nat.toDigits 10 n.natAbs).filterMap digitValue?).length ≤ digitLimit :=
    Nat.le_trans (List.length_filterMap_le _ _) h
  obtain ⟨d, ds, hvalues⟩ := List.exists_cons_of_ne_nil
    (mt (filterMap_digitValue?_eq_nil (digits_toDigits n.natAbs)).mp Nat.toDigits_ne_nil)
  unfold integer
  rw [trimBy_of_tight (fun _ h => h) tight_isInteger (isInteger_toString n), hclean, toList_toString,
    splitSign_writtenSign n (digits_toDigits n.natAbs) Nat.toDigits_ne_nil]
  dsimp only
  rw [hsplit]
  rw [hvalues] at hvalue hlength ⊢
  dsimp only
  rw [hvalue, signed_natAbs, Bool.true_and, if_pos (decide_eq_true hlength)]

/-! ## Numbers without leading zeros -/

theorem digitChar_of_isDigit {c : Char} (h : c.isDigit = true) : Nat.digitChar (c.toNat - 48) = c := by
  have hbounds := bounds_of_isDigit h
  apply Char.toNat_inj.mp
  rw [Nat.toNat_digitChar_of_lt_ten (by omega)]
  omega

theorem ofDigits_toNat (cs : List Char) :
    ofDigits (cs.map fun c => c.toNat - 48) = Nat.ofDigitChars 10 cs 0 := by
  rw [ofDigits, List.foldl_map, Nat.ofDigitChars_eq_foldl]
  rfl

theorem toDigits_ofDigitChars {cs : List Char} (hcs : ∀ c ∈ cs, c.isDigit = true) {n : Nat} (hn : 0 < n) :
    Nat.toDigits 10 (Nat.ofDigitChars 10 cs n) = Nat.toDigits 10 n ++ cs := by
  rw [Nat.ofDigitChars_eq_foldl]
  induction cs generalizing n with
  | nil => exact (List.append_nil _).symm
  | cons c cs ih =>
    obtain ⟨hc, hcs⟩ := List.forall_mem_cons.mp hcs
    have hbounds := bounds_of_isDigit hc
    have hvalue : c.toNat - 48 < 10 := by omega
    have hlast : Nat.toDigits 10 (10 * n + (c.toNat - 48)) = Nat.toDigits 10 n ++ [c] := by
      rw [← Nat.toDigits_append_toDigits (by decide) hn hvalue, Nat.toDigits_of_lt_base hvalue,
        digitChar_of_isDigit hc]
    have hpos : 0 < 10 * n + (c.toNat - 48) := by omega
    rw [List.foldl_cons]
    exact (ih hcs hpos).trans (by rw [hlast, List.append_assoc]; rfl)

theorem head?_toDigits_ne {n : Nat} (hn : 0 < n) : (Nat.toDigits 10 n).head? ≠ some '0' := by
  induction n using Nat.strongRecOn with
  | ind n ih =>
    by_cases hlt : n < 10
    · rw [Nat.toDigits_of_lt_base hlt, List.head?_cons]
      intro heq
      have hcode := congrArg Char.toNat (Option.some.inj heq)
      rw [Nat.toNat_digitChar_of_lt_ten hlt] at hcode
      have hzero : '0'.toNat = 48 := rfl
      omega
    · rw [Nat.toDigits_of_base_le (by decide) (by omega), List.head?_append_of_ne_nil _ Nat.toDigits_ne_nil]
      exact ih (n / 10) (by omega) (by omega)

/-- Digits are those of a number if there are some, and no zero in front of others. -/
theorem eq_toDigits_iff {ds : List Char} (hds : ∀ c ∈ ds, c.isDigit = true) :
    ds = Nat.toDigits 10 (Nat.ofDigitChars 10 ds 0) ↔
      ds ≠ [] ∧ ¬(ds.length ≠ 1 ∧ ds.head? = some '0') := by
  constructor
  · intro h
    refine ⟨?_, fun ⟨hlength, hhead⟩ => ?_⟩
    · rw [h]
      exact Nat.toDigits_ne_nil
    · by_cases hn : 0 < Nat.ofDigitChars 10 ds 0
      · rw [h] at hhead
        exact head?_toDigits_ne hn hhead
      · rw [Nat.eq_zero_of_not_pos hn] at h
        exact hlength (congrArg List.length h)
  · rintro ⟨hne, hlead⟩
    obtain ⟨c, cs, rfl⟩ := List.exists_cons_of_ne_nil hne
    obtain ⟨hc, hcs⟩ := List.forall_mem_cons.mp hds
    have hbounds := bounds_of_isDigit hc
    by_cases hzero : c = '0'
    · have hcs' : cs = [] := by
        by_contra hcs'
        exact hlead ⟨by simpa using hcs', by rw [hzero]; rfl⟩
      rw [hzero, hcs']
      rfl
    · have hpos : 0 < c.toNat - 48 := by
        have hcode : c.toNat ≠ 48 := fun heq => hzero (Char.toNat_inj.mp heq)
        omega
      have hfirst : Nat.ofDigitChars 10 (c :: cs) 0 = Nat.ofDigitChars 10 cs (c.toNat - 48) := by
        rw [Nat.ofDigitChars_eq_foldl, Nat.ofDigitChars_eq_foldl, List.foldl_cons, Nat.mul_zero, Nat.zero_add]
        rfl
      rw [hfirst, toDigits_ofDigitChars hcs hpos, Nat.toDigits_of_lt_base (by omega),
        digitChar_of_isDigit hc]
      rfl

end Listing.Numeral
