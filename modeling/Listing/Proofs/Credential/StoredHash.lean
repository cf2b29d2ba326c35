import Listing.Credential.StoredHash
import Listing.Proofs.Credential.Base64
import Listing.Proofs.Number.Written
import Mathlib.Algebra.Ring.Nat

/-!
# Reading stored hashes back

The strict reading of a stored hash takes back what is written, and nothing else. Numbers have no zeros in
front and bytes no bits left over, so each stored hash has one text, or two where it is of the oldest
version, which may be left out.
-/

namespace Listing

open Numeral

namespace StoredHash

theorem after?_eq_some_iff {beginning : String} {cs rest : List Char} :
    after? beginning cs = some rest ↔ cs = beginning.toList ++ rest := by
  unfold after?
  rw [← String.length_toList]
  constructor
  · intro h
    split at h
    · next hbegins =>
      obtain ⟨others, rfl⟩ := List.isPrefixOf_iff_prefix.mp hbegins
      rw [List.drop_left, Option.some.injEq] at h
      rw [h]
    · cases h
  · rintro rfl
    rw [if_pos (List.isPrefixOf_iff_prefix.mpr ⟨rest, rfl⟩), List.drop_left]

theorem number?_eq_some_iff {cs rest : List Char} {n : Nat} :
    number? cs = some (n, rest) ↔
      n < 2 ^ 32 ∧ cs = Nat.toDigits 10 n ++ rest ∧ Stops Char.isDigit rest := by
  unfold number?
  dsimp only
  rw [ofDigits_toNat, drop_length_takeWhile]
  constructor
  · intro h
    split at h
    · cases h
    · next hgood =>
      obtain ⟨rfl, rfl⟩ := Prod.mk.inj (Option.some.inj h)
      simp only [Bool.or_eq_true, List.isEmpty_iff, Bool.and_eq_true, bne_iff_ne, beq_iff_eq,
        decide_eq_true_eq, not_or] at hgood
      obtain ⟨⟨hne, hlead⟩, hsmall⟩ := hgood
      have hdigits := List.all_eq_true.mp (List.all_takeWhile (p := Char.isDigit) (l := cs))
      refine ⟨Nat.lt_of_not_le hsmall, ?_, stops_dropWhile _ _⟩
      rw [← (eq_toDigits_iff hdigits).mpr ⟨hne, hlead⟩, List.takeWhile_append_dropWhile]
  · rintro ⟨hsmall, rfl, hstops⟩
    obtain ⟨htake, hdrop⟩ := takeWhile_append_of_stops (isDigit_toDigits n) hstops
    have hvalue : Nat.ofDigitChars 10 (Nat.toDigits 10 n) 0 = n := Nat.ofDigitChars_ten_toDigits
    have hcanonical := (eq_toDigits_iff (isDigit_toDigits n)).mp (by rw [hvalue])
    rw [htake, hdrop, hvalue, if_neg]
    simp only [Bool.or_eq_true, List.isEmpty_iff, Bool.and_eq_true, bne_iff_ne, beq_iff_eq,
      decide_eq_true_eq, not_or]
    exact ⟨hcanonical, Nat.not_le.mpr hsmall⟩

theorem numberAfter?_eq_some_iff {beginning : String} {cs rest : List Char} {n : Nat} :
    numberAfter? beginning cs = some (n, rest) ↔
      n < 2 ^ 32 ∧ cs = beginning.toList ++ (Nat.toDigits 10 n ++ rest) ∧ Stops Char.isDigit rest := by
  refine Option.bind_eq_some_iff.trans ?_
  simp only [after?_eq_some_iff, number?_eq_some_iff]
  constructor
  · rintro ⟨_, rfl, hsmall, rfl, hstops⟩
    exact ⟨hsmall, rfl, hstops⟩
  · rintro ⟨hsmall, rfl, hstops⟩
    exact ⟨_, rfl, hsmall, rfl, hstops⟩

theorem variant?_eq_some_iff {cs rest : List Char} {v : Argon2.Variant} :
    variant? cs = some (v, rest) ↔ (∃ tail, rest = '$' :: tail) ∧ cs = ("$" ++ v.name).toList ++ rest := by
  constructor
  · intro h
    obtain ⟨w, -, hw⟩ := List.exists_of_findSome?_eq_some h
    split at hw
    · next tail hafter =>
      obtain ⟨rfl, rfl⟩ := Prod.mk.inj (Option.some.inj hw)
      exact ⟨⟨tail, rfl⟩, after?_eq_some_iff.mp hafter⟩
    · cases hw
  · rintro ⟨⟨tail, rfl⟩, rfl⟩
    cases v <;> rfl

theorem after?_eq_none_iff {beginning : String} {cs : List Char} :
    after? beginning cs = none ↔ ¬beginning.toList <+: cs := by
  rw [Option.eq_none_iff_forall_ne_some]
  simp only [ne_eq, after?_eq_some_iff]
  exact ⟨fun h ⟨rest, hrest⟩ => h rest hrest.symm, fun h rest hrest => h ⟨rest, hrest.symm⟩⟩

theorem version?_eq_some_iff {cs rest : List Char} {n : Nat} :
    version? cs = some (n, rest) ↔
      (n < 2 ^ 32 ∧ cs = "$v=".toList ++ (Nat.toDigits 10 n ++ rest) ∧ Stops Char.isDigit rest) ∨
        ¬"$v=".toList <+: cs ∧ n = oldestVersion ∧ cs = rest := by
  unfold version?
  split
  · next others hothers =>
    obtain rfl := after?_eq_some_iff.mp hothers
    rw [number?_eq_some_iff, List.append_cancel_left_eq]
    exact (or_iff_left fun h => h.1 ⟨others, rfl⟩).symm
  · next hnone =>
    have hprefix := after?_eq_none_iff.mp hnone
    rw [Option.some.injEq, Prod.mk.injEq, or_iff_right, and_iff_right hprefix]
    · exact and_congr_left fun _ => eq_comm
    · rintro ⟨-, rfl, -⟩
      exact hprefix ⟨_, rfl⟩

/-! ## Stored hashes -/

structure Storable (h : StoredHash) : Prop where
  version : h.version < 2 ^ 32
  memory : h.costs.memory < 2 ^ 32
  time : h.costs.time < 2 ^ 32
  lanes : h.costs.lanes < 2 ^ 32

/-- The text of a stored hash that leaves the version out. -/
def writeUnversioned (h : StoredHash) : String :=
  "$" ++ h.variant.name ++ "$" ++ writeCosts h.costs ++ "$" ++
    String.ofList (Base64.encode h.salt) ++ "$" ++ String.ofList (Base64.encode h.hash)

/-- What is written behind the version. -/
def body (h : StoredHash) : List Char :=
  "$m=".toList ++ (Nat.toDigits 10 h.costs.memory ++ (",t=".toList ++ (Nat.toDigits 10 h.costs.time ++
    (",p=".toList ++ (Nat.toDigits 10 h.costs.lanes ++ ("$".toList ++ (Base64.encode h.salt ++
      ("$".toList ++ Base64.encode h.hash))))))))

theorem toList_write (h : StoredHash) : h.write.toList =
    ("$" ++ h.variant.name).toList ++ ("$v=".toList ++ (Nat.toDigits 10 h.version ++ h.body)) := by
  simp [write, writeCosts, body, Nat.toString_eq_repr, Nat.toList_repr]

theorem toList_writeUnversioned (h : StoredHash) :
    h.writeUnversioned.toList = ("$" ++ h.variant.name).toList ++ h.body := by
  simp [writeUnversioned, writeCosts, body, Nat.toString_eq_repr, Nat.toList_repr]

theorem read?_steps {cs : List Char} {h : StoredHash} : read? cs = some h ↔
    ∃ cs₁ cs₂ cs₃ cs₄ cs₅ cs₆ cs₇ cs₈, variant? cs = some (h.variant, cs₁) ∧
      version? cs₁ = some (h.version, cs₂) ∧ numberAfter? "$m=" cs₂ = some (h.costs.memory, cs₃) ∧
      numberAfter? ",t=" cs₃ = some (h.costs.time, cs₄) ∧
      numberAfter? ",p=" cs₄ = some (h.costs.lanes, cs₅) ∧ after? "$" cs₅ = some cs₆ ∧
      Base64.read? cs₆ = some (h.salt, cs₇) ∧ after? "$" cs₇ = some cs₈ ∧
      Base64.read? cs₈ = some (h.hash, []) := by
  simp only [read?, Option.bind_eq_bind, Option.bind_eq_some_iff, Prod.exists]
  constructor
  · rintro ⟨variant, cs₁, hvariant, version, cs₂, hversion, memory, cs₃, hmemory, time, cs₄, htime,
      lanes, cs₅, hlanes, cs₆, hbefore, salt, cs₇, hsalt, cs₈, hbetween, hash, cs₉, hhash, hend⟩
    split at hend
    · next hempty =>
      obtain rfl := List.isEmpty_iff.mp hempty
      obtain rfl := Option.some.inj hend
      exact ⟨_, _, _, _, _, _, _, _, hvariant, hversion, hmemory, htime, hlanes, hbefore, hsalt, hbetween,
        hhash⟩
    · cases hend
  · rintro ⟨cs₁, cs₂, cs₃, cs₄, cs₅, cs₆, cs₇, cs₈, hvariant, hversion, hmemory, htime, hlanes, hbefore,
      hsalt, hbetween, hhash⟩
    exact ⟨_, _, hvariant, _, _, hversion, _, _, hmemory, _, _, htime, _, _, hlanes, _, hbefore, _, _, hsalt,
      _, hbetween, _, _, hhash, rfl⟩

theorem stops_text {kind : Char → Bool} {c : Char} (hc : kind c = false) {beginning : String}
    (hbeginning : beginning.toList.head? = some c) (cs : List Char) :
    Stops kind (beginning.toList ++ cs) := by
  obtain ⟨rest, hrest⟩ := List.head?_eq_some_iff.mp hbeginning
  rw [hrest]
  exact stops_cons hc _

/-- A text is read as a stored hash exactly if it is what the hash is written as, or, of the oldest
version, what it is written as without the version. -/
theorem read?_eq_some_iff {cs : List Char} {h : StoredHash} :
    read? cs = some h ↔ h.Storable ∧
      (cs = h.write.toList ∨ h.version = oldestVersion ∧ cs = h.writeUnversioned.toList) := by
  rw [toList_write, toList_writeUnversioned, read?_steps]
  constructor
  · rintro ⟨cs₁, cs₂, cs₃, cs₄, cs₅, cs₆, cs₇, cs₈, hvariant, hversion, hmemory, htime, hlanes, hbefore,
      hsalt, hbetween, hhash⟩
    obtain ⟨-, rfl⟩ := variant?_eq_some_iff.mp hvariant
    obtain ⟨hm, rfl, -⟩ := numberAfter?_eq_some_iff.mp hmemory
    obtain ⟨ht, rfl, -⟩ := numberAfter?_eq_some_iff.mp htime
    obtain ⟨hp, rfl, -⟩ := numberAfter?_eq_some_iff.mp hlanes
    obtain rfl := after?_eq_some_iff.mp hbefore
    obtain ⟨rfl, -⟩ := Base64.read?_eq_some_iff.mp hsalt
    obtain rfl := after?_eq_some_iff.mp hbetween
    obtain ⟨rfl, -⟩ := Base64.read?_eq_some_iff.mp hhash
    rw [List.append_nil] at hversion
    rcases version?_eq_some_iff.mp hversion with ⟨hv, rfl, -⟩ | ⟨-, holdest, rfl⟩
    · exact ⟨⟨hv, hm, ht, hp⟩, .inl rfl⟩
    · exact ⟨⟨holdest ▸ by decide, hm, ht, hp⟩, .inr ⟨holdest, rfl⟩⟩
  · rintro ⟨⟨hversion, hmemory, htime, hlanes⟩, htext⟩
    -- what the version is read from, and the rest
    obtain ⟨cs₁, hstart, rfl, hrest⟩ : ∃ cs₁, (∃ tail, cs₁ = '$' :: tail) ∧
        cs = ("$" ++ h.variant.name).toList ++ cs₁ ∧ version? cs₁ = some (h.version, h.body) := by
      rcases htext with rfl | ⟨holdest, rfl⟩
      · exact ⟨_, ⟨_, rfl⟩, rfl, version?_eq_some_iff.mpr
          (.inl ⟨hversion, rfl, stops_text (c := '$') rfl rfl _⟩)⟩
      · refine ⟨_, ⟨_, rfl⟩, rfl, version?_eq_some_iff.mpr (.inr ⟨?_, holdest, rfl⟩)⟩
        rintro ⟨tail, htail⟩
        cases htail
    exact ⟨_, _, _, _, _, _, _, _, variant?_eq_some_iff.mpr ⟨hstart, rfl⟩, hrest,
      numberAfter?_eq_some_iff.mpr ⟨hmemory, rfl, stops_text (c := ',') rfl rfl _⟩,
      numberAfter?_eq_some_iff.mpr ⟨htime, rfl, stops_text (c := ',') rfl rfl _⟩,
      numberAfter?_eq_some_iff.mpr ⟨hlanes, rfl, stops_text (c := '$') rfl rfl _⟩,
      after?_eq_some_iff.mpr rfl,
      Base64.read?_eq_some_iff.mpr ⟨rfl, stops_text (c := '$') (by decide) rfl _⟩,
      after?_eq_some_iff.mpr rfl,
      Base64.read?_eq_some_iff.mpr ⟨(List.append_nil _).symm, stops_nil _⟩⟩

example : read? "$argon2i$m=8,t=1,p=1$c2FsdA$AAE".toList =
    some ⟨.i, oldestVersion, ⟨1, 8, 1⟩, [115, 97, 108, 116], [0, 1]⟩ := by
  decide +kernel

end StoredHash
end Listing
