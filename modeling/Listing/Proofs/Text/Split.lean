import Listing.Text.Split
import Listing.Proofs.Number.Grammar

/-!
# Splitting texts and joining them

Splitting a text at a separator undoes joining parts that are free of it, and the first separator is found
behind a beginning that is free of it.
-/

namespace Listing.Text

open Numeral (Stops stops_cons takeWhile_append_of_stops)

theorem splitAt_eq_splitOn (separator : Char) (cs : List Char) :
    splitAt separator cs = cs.splitOn separator := by
  induction cs with
  | nil => rfl
  | cons c cs ih =>
    rw [splitAt, List.splitOn_cons_eq_if_modifyHead, ih]
    simp only [beq_iff_eq]
    split
    · rfl
    · obtain ⟨part, parts, hparts⟩ := List.exists_cons_of_ne_nil (List.splitOn_ne_nil separator cs)
      rw [hparts]
      rfl

theorem not_mem_of_mem_splitAt {separator : Char} {cs part : List Char} (h : part ∈ splitAt separator cs) :
    separator ∉ part := by
  induction cs generalizing part with
  | nil =>
    rw [splitAt, List.mem_singleton] at h
    simp [h]
  | cons c cs ih =>
    rw [splitAt] at h
    split at h
    · rcases List.mem_cons.mp h with rfl | h
      · exact List.not_mem_nil
      · exact ih h
    · next hc =>
      split at h
      · next first parts hparts =>
        rw [hparts] at ih
        rcases List.mem_cons.mp h with rfl | h
        · have hfirst := ih List.mem_cons_self
          exact List.not_mem_cons_of_ne_of_not_mem (Ne.symm hc) hfirst
        · exact ih (List.mem_cons_of_mem _ h)
      · rw [List.mem_singleton.mp h]
        simpa using Ne.symm hc

/-- Whether a text is made of parts, one or more, with separators between them and none in them. -/
structure Joined (separator : Char) (parts : List (List Char)) (cs : List Char) : Prop where
  nonempty : parts ≠ []
  free : ∀ part ∈ parts, separator ∉ part
  text : cs = [separator].intercalate parts

theorem splitAt_eq_iff {separator : Char} {cs : List Char} {parts : List (List Char)} :
    splitAt separator cs = parts ↔ Joined separator parts cs := by
  constructor
  · rintro rfl
    refine ⟨?_, fun part => not_mem_of_mem_splitAt, ?_⟩
    · rw [splitAt_eq_splitOn]
      exact List.splitOn_ne_nil separator cs
    · rw [splitAt_eq_splitOn, List.intercalate_splitOn]
  · rintro ⟨hne, hfree, rfl⟩
    rw [splitAt_eq_splitOn, List.splitOn_intercalate separator hfree hne]

theorem splitFirst?_append {separator : Char} {before : List Char} (h : separator ∉ before)
    (after : List Char) :
    splitFirst? separator (before ++ separator :: after) = some (before, after) := by
  have hkind : ∀ c ∈ before, (!([separator].contains c)) = true := by
    intro c hc
    have hne : c ≠ separator := fun heq => h (heq ▸ hc)
    simpa using hne
  have hstops : Stops (fun c => !([separator].contains c)) (separator :: after) :=
    stops_cons (by simp) after
  obtain ⟨htake, hdrop⟩ := takeWhile_append_of_stops hkind hstops
  rw [splitFirst?, splitBefore, htake, hdrop]

end Listing.Text
