import Listing.Direction
import Listing.Proofs.Number.Grammar

/-!
# Words for directions

A direction is named by its short or its long word, in any case of the letters and with blanks around it,
and by nothing else. Apart from capitals, the one character whose lower case is a letter of ASCII is the
sign of the kelvin, which is lowered to `k`, and no word for a direction has that letter.
-/

namespace Listing

open Text Numeral

/-! ## Lower case -/

namespace Text

/-- Whether a character is a small letter that only its capital is lowered to: one other than `k`. -/
def IsSmall (c : Char) : Prop := 97 ≤ c.toNat ∧ c.toNat ≤ 122 ∧ c.toNat ≠ 107

instance (c : Char) : Decidable (IsSmall c) := inferInstanceAs (Decidable (_ ∧ _))

theorem not_isSmall_ofNat {n : Nat} (h : 128 ≤ n ∨ n = 107) : ¬IsSmall (Char.ofNat n) := by
  have hcode : (Char.ofNat n).toNat = n ∨ (Char.ofNat n).toNat = 0 := by
    by_cases hvalid : n.isValidChar
    · rw [Char.ofNat, dif_pos hvalid]
      exact .inl rfl
    · rw [Char.ofNat, dif_neg hvalid]
      exact .inr rfl
  unfold IsSmall
  omega

theorem not_isSmall_shifted {c : Char} (hc : 128 ≤ c.toNat) : ¬IsSmall (shifted lowerShifts c) := by
  have hrows : ∀ row ∈ lowerShifts, row.2.1 < 128 ∨
      row.1 = 8490 ∧ row.2.1 = 8490 ∧ row.2.2.2 = -8383 ∨ 128 ≤ (row.1 : Int) + row.2.2.2 := by
    decide +kernel
  unfold shifted
  split
  · next first last step shift hfind =>
    have hcovers := List.find?_some hfind
    simp only [Bool.and_eq_true, decide_eq_true_eq] at hcovers
    have hrow := hrows _ (List.mem_of_find?_eq_some hfind)
    dsimp only at hrow
    exact not_isSmall_ofNat (by omega)
  · unfold IsSmall
    omega

theorem exists_not_isSmall_lowerChar {c : Char} (hc : 128 ≤ c.toNat) : ∃ x ∈ lowerChar c, ¬IsSmall x := by
  unfold lowerChar
  rw [if_neg (Nat.not_lt.mpr hc)]
  split
  · exact ⟨'\u0307', by simp, by decide⟩
  · exact ⟨_, List.mem_singleton_self _, not_isSmall_shifted hc⟩

theorem toLower_eq_self {c : Char} (hc : c.toNat < 65 ∨ 90 < c.toNat) : c.toLower = c := by
  unfold Char.toLower
  refine dif_neg fun ⟨hge, hle⟩ => ?_
  have hfirst : 65 ≤ c.toNat := hge
  have hlast : c.toNat ≤ 90 := hle
  omega

/-- A text is lowered to a word of such letters exactly if each of its characters is one of them or the
capital of one. -/
theorem lowerAfter_eq_iff {word : List Char} (hword : ∀ c ∈ word, IsSmall c) (before cs : List Char) :
    lowerAfter before cs = word ↔ cs.map Char.toLower = word := by
  induction cs generalizing before word with
  | nil => rfl
  | cons c cs ih =>
    by_cases hc : c.toNat < 128
    · have hsigma : c ≠ 'Σ' := by
        rintro rfl
        exact absurd hc (by decide)
      rw [lowerAfter, if_neg hsigma, lowerChar, if_pos hc, List.singleton_append, List.map_cons]
      cases word with
      | nil => simp
      | cons w word =>
        rw [List.cons.injEq, List.cons.injEq, ih (fun x hx => hword x (List.mem_cons_of_mem _ hx))]
    · -- neither side can be a word of such letters
      have hle : 128 ≤ c.toNat := Nat.not_lt.mp hc
      obtain ⟨x, hx, hother⟩ : ∃ x ∈ (if c = 'Σ' then
          [if meetsCased before && !meetsCased cs then 'ς' else 'σ'] else lowerChar c), ¬IsSmall x := by
        split
        · refine ⟨_, List.mem_singleton_self _, ?_⟩
          split <;> decide
        · exact exists_not_isSmall_lowerChar hle
      refine iff_of_false (fun heq => hother (hword x ?_)) fun heq => ?_
      · rw [← heq, lowerAfter]
        exact List.mem_append_left _ hx
      · have hmem : c ∈ word := by
          rw [← heq, List.map_cons, toLower_eq_self (by omega)]
          exact List.mem_cons_self
        exact absurd (hword c hmem) (by unfold IsSmall; omega)

end Text

namespace Direction

def words : Direction → List String
  | asc => ["asc", "ascending"]
  | desc => ["desc", "descending"]

/-- Whether characters are a word for a direction, in any case of its letters. -/
def IsWord (d : Direction) (cs : List Char) : Prop :=
  ∃ word ∈ d.words, cs.map Char.toLower = word.toList

/-- Whether a text names a direction: a word for it, with blanks around. -/
def Names (d : Direction) (s : String) : Prop := Surrounded isBlank d.IsWord s.toList

theorem isSmall_of_mem_words {d : Direction} : ∀ word ∈ d.words, ∀ c ∈ word.toList, IsSmall c := by
  have hall : d.words.all (fun word => word.toList.all (decide <| IsSmall ·)) = true := by
    cases d <;> decide
  simpa only [List.all_eq_true, decide_eq_true_eq] using hall

theorem tight_isWord (d : Direction) : Tight d.IsWord := by
  rintro body ⟨word, hword, hbody⟩
  have hsmall := isSmall_of_mem_words word hword
  rw [← hbody, List.forall_mem_map] at hsmall
  refine ⟨?_, fun c hc => ?_⟩
  · rintro rfl
    have hne : ∀ word ∈ d.words, word.toList ≠ [] := by cases d <;> decide
    exact hne word hword hbody.symm
  · by_contra hblank
    have hcode : c.toNat ≤ 32 ∨ 128 ≤ c.toNat := by
      simp only [isBlank, Bool.not_eq_false, Bool.or_eq_true, Bool.and_eq_true, decide_eq_true_eq,
        beq_iff_eq] at hblank
      omega
    have hletter := hsmall c hc
    rw [toLower_eq_self (by omega), IsSmall] at hletter
    omega

/-- Exactly the words for a direction, in any case and with blanks around, name it. -/
theorem ofWord?_eq_some_iff {s : String} {d : Direction} : ofWord? s = some d ↔ d.Names s := by
  have hword : ofWord? s = some d ↔ ∃ word ∈ d.words, lower (trim s) = word := by
    unfold ofWord?
    split <;> cases d <;> simp_all [words]
  rw [hword, Names, surrounded_iff (fun _ h => h) (tight_isWord d), IsWord]
  refine exists_congr fun word => and_congr_right fun hmem => ?_
  rw [← lowerAfter_eq_iff (isSmall_of_mem_words word hmem) [], lower, trim, String.toList_ofList]
  exact ⟨fun h => by rw [← h, String.toList_ofList], fun h => by rw [h, String.ofList_toList]⟩

end Direction
end Listing
