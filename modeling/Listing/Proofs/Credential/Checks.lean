import Listing.Credential.Hasher
import Listing.Proofs.Credential.Settings
import Listing.Proofs.Credential.StoredHash
import Mathlib.Data.List.TakeWhile

/-!
# Checks of stored hashes

What the checks of a password and of settings answer for any text in place of a stored hash. The check of
settings always answers. The check of a password answers whenever the text is in ASCII, malformed or not:
it admits the password exactly if the text is what a stored hash is written as that admits it. A text with
another character is refused, and the failure tells where the first such characters are.
-/

namespace Listing

open Numeral (Stops stops_cons stops_dropWhile takeWhile_append_of_stops)

/-- Whether a text, up to its first null character, is what a stored hash is written as. -/
def StoredHash.StoredIn (h : StoredHash) (s : String) : Prop :=
  h.Storable ∧ ∃ stored rest, s.toList = stored ++ rest ∧ '\x00' ∉ stored ∧
    Stops (· != '\x00') rest ∧
    (stored = h.write.toList ∨ h.version = oldestVersion ∧ stored = h.writeUnversioned.toList)

namespace Hasher

/-! ## Characters past ASCII -/

/-- Whether a failure tells the first of the characters of a text that are not ASCII, and where these
begin and end. -/
def TellsStray (s : String) (e : Failure) : Prop :=
  ∃ before c run after, s.toList = before ++ (c :: run ++ after) ∧ (∀ x ∈ before, x.toNat < 128) ∧
    (∀ x ∈ c :: run, 128 ≤ x.toNat) ∧ Stops (128 ≤ ·.toNat) after ∧
    e = .nonAscii before.length (before.length + run.length) c

theorem checkAscii_of_ascii {s : String} (h : ∀ c ∈ s.toList, c.toNat < 128) : checkAscii s = .ok () := by
  have hdrop : s.toList.dropWhile (fun c => decide (c.toNat < 128)) = [] := by
    rw [List.dropWhile_eq_nil_iff]
    exact fun c hc => decide_eq_true (h c hc)
  unfold checkAscii
  dsimp only
  rw [hdrop]

theorem checkAscii_of_tellsStray {s : String} {e : Failure} (h : TellsStray s e) :
    checkAscii s = .error e := by
  obtain ⟨before, c, run, after, hs, hbefore, hrun, hafter, rfl⟩ := h
  have hc : decide (c.toNat < 128) = false :=
    decide_eq_false (Nat.not_lt.mpr (hrun c List.mem_cons_self))
  obtain ⟨htake, hdrop⟩ := takeWhile_append_of_stops
    (fun x hx => decide_eq_true (hbefore x hx)) (stops_cons hc (run ++ after))
  obtain ⟨hfirst, -⟩ := takeWhile_append_of_stops (fun x hx => decide_eq_true (hrun x hx)) hafter
  unfold checkAscii
  dsimp only
  rw [hs, List.cons_append, htake, hdrop]
  dsimp only
  rw [← List.cons_append, hfirst, List.length_cons]
  rfl

theorem exists_tellsStray {s : String} (h : ¬∀ c ∈ s.toList, c.toNat < 128) : ∃ e, TellsStray s e := by
  have hplain := List.all_eq_true.mp (List.all_takeWhile (p := fun c : Char => decide (c.toNat < 128))
    (l := s.toList))
  have hstops := stops_dropWhile (fun c => decide (c.toNat < 128)) s.toList
  have hsplit := List.takeWhile_append_dropWhile (p := fun c : Char => decide (c.toNat < 128))
    (l := s.toList)
  cases hrest : s.toList.dropWhile (fun c => decide (c.toNat < 128)) with
  | nil =>
    rw [List.dropWhile_eq_nil_iff] at hrest
    exact absurd (fun c hc => of_decide_eq_true (hrest c hc)) h
  | cons c rest =>
    rw [hrest] at hstops hsplit
    have hc : 128 ≤ c.toNat := Nat.not_lt.mp (of_decide_eq_false (hstops c rfl))
    have hrun := List.all_eq_true.mp (List.all_takeWhile
      (p := fun c : Char => decide (128 ≤ c.toNat)) (l := rest))
    refine ⟨_, _, c, rest.takeWhile fun c => decide (128 ≤ c.toNat),
      rest.dropWhile fun c => decide (128 ≤ c.toNat), ?_, fun x hx => of_decide_eq_true (hplain x hx),
      List.forall_mem_cons.mpr ⟨hc, fun x hx => of_decide_eq_true (hrun x hx)⟩, stops_dropWhile _ _, rfl⟩
    rw [List.cons_append, List.takeWhile_append_dropWhile, hsplit]

/-! ## Answers -/

theorem exists_read_iff {s : String} {p : StoredHash → Bool} :
    (StoredHash.read? (s.toList.takeWhile (· != '\x00'))).any p = true ↔
      ∃ stored : StoredHash, stored.StoredIn s ∧ p stored = true := by
  rw [Option.any_eq_true]
  refine exists_congr fun stored => and_congr_left fun _ => ?_
  rw [StoredHash.read?_eq_some_iff, StoredHash.StoredIn]
  refine and_congr_right fun _ => ?_
  constructor
  · intro htext
    refine ⟨_, _, List.takeWhile_append_dropWhile.symm, fun hmem => ?_, stops_dropWhile _ _, htext⟩
    have hkept := List.all_eq_true.mp List.all_takeWhile '\x00' hmem
    exact absurd hkept (by decide)
  · rintro ⟨text, rest, hs, hfree, hstops, htext⟩
    have hkept : ∀ c ∈ text, (c != '\x00') = true := by
      intro c hc
      exact bne_iff_ne.mpr fun heq => hfree (heq ▸ hc)
    rwa [hs, (takeWhile_append_of_stops hkept hstops).1]

/-- **Checks of stored hashes.** The check of a password answers for exactly the texts in ASCII, and says
yes exactly if the text stores a hash that admits the password; for another text the failure tells the
first characters that are not ASCII. The check of settings says no exactly if the text tells the settings
of the hasher. -/
theorem checks_answer (h : Hasher) (hashed password : String) :
    ((∃ answer, verify hashed password = .ok answer) ↔ ∀ c ∈ hashed.toList, c.toNat < 128) ∧
      (∀ e, verify hashed password = .error e ↔ TellsStray hashed e) ∧
      (verify hashed password = .ok true ↔ (∀ c ∈ hashed.toList, c.toNat < 128) ∧
        ∃ stored : StoredHash, stored.StoredIn hashed ∧ admits password stored = true) ∧
      (h.needsRehash hashed = false ↔ StoredHash.Tells hashed h.settings) := by
  have hanswer : (∀ c ∈ hashed.toList, c.toNat < 128) → verify hashed password =
      .ok ((StoredHash.read? (hashed.toList.takeWhile (· != '\x00'))).any (admits password)) := by
    intro hascii
    rw [verify, checkAscii_of_ascii hascii]
    rfl
  have hrefuse : ∀ e, TellsStray hashed e → verify hashed password = .error e := by
    intro e he
    rw [verify, checkAscii_of_tellsStray he]
    rfl
  have hrehash : h.needsRehash hashed = false ↔ StoredHash.Tells hashed h.settings := by
    rw [needsRehash, bne_eq_false_iff_eq, StoredHash.settings?_eq_some_iff]
  by_cases hascii : ∀ c ∈ hashed.toList, c.toNat < 128
  · rw [hanswer hascii]
    refine ⟨iff_of_true ⟨_, rfl⟩ hascii, fun e => iff_of_false nofun fun he => ?_, ?_, hrehash⟩
    · nomatch (hanswer hascii).symm.trans (hrefuse e he)
    · rw [Except.ok.injEq, exists_read_iff, and_iff_right hascii]
  · obtain ⟨e, he⟩ := exists_tellsStray hascii
    have herror := hrefuse e he
    refine ⟨iff_of_false ?_ hascii, fun e' => ⟨fun he' => ?_, hrefuse e'⟩,
      iff_of_false ?_ fun h => hascii h.1, hrehash⟩
    · rintro ⟨answer, hverify⟩
      nomatch herror.symm.trans hverify
    · obtain rfl := Except.error.inj (herror.symm.trans he')
      exact he
    · intro hverify
      nomatch herror.symm.trans hverify

/-- A letter past ASCII is no hash, and no answer comes. -/
theorem accent_not_checked : verify "é" "x" = .error (.nonAscii 0 0 'é') := rfl

end Hasher
end Listing
