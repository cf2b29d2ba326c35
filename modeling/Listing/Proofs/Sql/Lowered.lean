import Listing.Proofs.Sql.Pattern

/-!
# Texts in lower case

The lower case of a text changes more than ASCII letters, which are all that a database changes. The two
come to the same on exactly the texts in which nothing else has a lower case. What is found in a text is found
in it after each character has been folded on its own.
-/

namespace Listing

/-! ## Lower case -/

namespace Text

/-- Whether no character of a text but an ASCII letter has a lower case other than itself. -/
def LowersAlike (s : String) : Prop := ∀ c ∈ s.toList, 128 ≤ c.toNat → lowerChar c = [c]

theorem lowerAscii_of_le {c : Char} (h : 128 ≤ c.toNat) : Sql.Cell.lowerAscii c = c := by
  have hbound : ¬('A' ≤ c ∧ c ≤ 'Z') := by
    rintro ⟨-, hle⟩
    have hcode : c.toNat ≤ 90 := hle
    omega
  exact if_neg hbound

theorem lowerChar_eq_iff (c : Char) :
    lowerChar c = [Sql.Cell.lowerAscii c] ↔ (128 ≤ c.toNat → lowerChar c = [c]) := by
  by_cases h : c.toNat < 128
  · refine iff_of_true ?_ fun hle => absurd h (not_lt.mpr hle)
    rw [lowerChar, if_pos h, toLower_eq_lowerAscii h]
  · rw [lowerAscii_of_le (not_lt.mp h)]
    exact ⟨fun heq _ => heq, fun heq => heq (not_lt.mp h)⟩

theorem length_lowerChar (c : Char) : 1 ≤ (lowerChar c).length := by
  unfold lowerChar
  split
  · exact Nat.le_refl 1
  · split <;> simp

theorem length_lowerAfter (before cs : List Char) : cs.length ≤ (lowerAfter before cs).length := by
  induction cs generalizing before with
  | nil => exact Nat.le_refl 0
  | cons c cs ih =>
    have hrest := ih (c :: before)
    have hchar := length_lowerChar c
    rw [lowerAfter, List.length_append, List.length_cons]
    split
    · rw [List.length_singleton]
      omega
    · omega

/-- The lower case of a text is the same as in ASCII exactly if no other character is changed. -/
theorem toList_lower_iff (s : String) : (lower s).toList = cased true s ↔ LowersAlike s := by
  have hafter : ∀ cs before : List Char, lowerAfter before cs = cs.map Sql.Cell.lowerAscii ↔
      ∀ c ∈ cs, 128 ≤ c.toNat → lowerChar c = [c] := by
    intro cs
    induction cs with
    | nil => exact fun _ => iff_of_true rfl fun _ h => nomatch h
    | cons c cs ih =>
      intro before
      rw [List.forall_mem_cons, ← ih (c :: before), ← lowerChar_eq_iff, lowerAfter, List.map_cons]
      by_cases hsigma : c = 'Σ'
      · -- a sigma is changed, whatever stands around it
        subst hsigma
        have hchanged : ¬lowerChar 'Σ' = [Sql.Cell.lowerAscii 'Σ'] := by decide
        have hdiffers : 'ς' ≠ Sql.Cell.lowerAscii 'Σ' ∧ 'σ' ≠ Sql.Cell.lowerAscii 'Σ' := by decide
        rw [if_pos rfl]
        refine iff_of_false (fun h => ?_) fun h => hchanged h.1
        have hhead := (List.cons.inj h).1
        split at hhead
        · exact hdiffers.1 hhead
        · exact hdiffers.2 hhead
      · rw [if_neg hsigma]
        constructor
        · intro h
          have hlength := congrArg List.length h
          have hrest := length_lowerAfter (c :: before) cs
          have hchar := length_lowerChar c
          rw [List.length_append, List.length_cons, List.length_map] at hlength
          obtain ⟨d, hd⟩ : ∃ d, lowerChar c = [d] := List.length_eq_one_iff.mp (by omega)
          rw [hd] at h ⊢
          obtain ⟨hsame, hrest⟩ := List.cons.inj h
          exact ⟨congrArg (fun c => [c]) hsame, hrest⟩
        · rintro ⟨hhead, hrest⟩
          rw [hhead, hrest]
          rfl
  rw [lower, String.toList_ofList]
  exact hafter s.toList []

end Text

namespace Sql

/-! ## Searches -/

theorem Place.finds_flatMap {place : Place} {part cs : List Char} (f : Char → List Char)
    (h : place.finds part cs = true) : place.finds (part.flatMap f) (cs.flatMap f) = true := by
  cases place with
  | anywhere =>
    obtain ⟨before, after, rfl⟩ := Text.occurs_iff.mp h
    exact Text.occurs_iff.mpr ⟨before.flatMap f, after.flatMap f, by simp⟩
  | start =>
    obtain ⟨after, rfl⟩ := List.isPrefixOf_iff_prefix.mp h
    exact List.isPrefixOf_iff_prefix.mpr ⟨after.flatMap f, by simp⟩
  | finish =>
    obtain ⟨before, rfl⟩ := List.isSuffixOf_iff_suffix.mp h
    exact List.isSuffixOf_iff_suffix.mpr ⟨before.flatMap f, by simp⟩

end Sql
end Listing
