import Listing.Credential.StoredHash
import Listing.Proofs.Text.Split
import Mathlib.Data.List.Forall2

/-!
# Settings that a text tells

The looser reading of a stored hash splits the text at its separators. Main statement: it finds settings
exactly where four or five parts stand behind a first dollar sign, the first a variant, the others but the
last two set values by name, and the names set are those of the settings. The value that was set last
counts.
-/

namespace Listing

namespace StoredHash

/-! ## Values set by name -/

/-- Whether a part of a text sets a value: a name, an equals sign and what reads as an integer. -/
def Sets (part : List Char) (setting : String × Int) : Prop :=
  ∃ name value : List Char, Text.Joined '=' [name, value] part ∧ setting.1 = String.ofList name ∧
    Value.wholeOfText (String.ofList value) = .ok setting.2

/-- Whether a value is the last that is set under a name. -/
def LastSet (set : List (String × Int)) (name : String) (n : Int) : Prop :=
  ∃ before after, set = before ++ (name, n) :: after ∧ ∀ setting ∈ after, setting.1 ≠ name

theorem toOption_eq_some {x : Except Failure Int} {n : Int} : x.toOption = some n ↔ x = .ok n := by
  cases x with
  | error e => exact ⟨nofun, nofun⟩
  | ok m => exact ⟨fun h => congrArg _ (Option.some.inj h), fun h => congrArg _ (Except.ok.inj h)⟩

theorem setting?_eq_some_iff {part : List Char} {setting : String × Int} :
    setting? part = some setting ↔ Sets part setting := by
  unfold setting?
  constructor
  · intro h
    split at h
    · next name value hparts =>
      obtain ⟨n, hn, hsetting⟩ := Option.bind_eq_some_iff.mp h
      obtain rfl := Option.some.inj hsetting
      exact ⟨name, value, Text.splitAt_eq_iff.mp hparts, rfl, toOption_eq_some.mp hn⟩
    · cases h
  · rintro ⟨name, value, hparts, hname, hn⟩
    rw [Text.splitAt_eq_iff.mpr hparts]
    dsimp only
    rw [hn]
    exact congrArg some (Prod.ext hname.symm rfl)

theorem lookup_reverse_eq_some_iff {set : List (String × Int)} {name : String} {n : Int} :
    set.reverse.lookup name = some n ↔ LastSet set name n := by
  rw [List.lookup_eq_some_iff]
  constructor
  · rintro ⟨after, before, hset, hafter⟩
    refine ⟨before.reverse, after.reverse, ?_, fun setting hmem => ?_⟩
    · rw [← List.reverse_reverse set, hset]
      simp
    · have hne := hafter setting (List.mem_reverse.mp hmem)
      exact (bne_iff_ne.mp hne).symm
  · rintro ⟨before, after, rfl, hafter⟩
    refine ⟨after.reverse, before.reverse, by simp, fun setting hmem => ?_⟩
    exact bne_iff_ne.mpr (hafter setting (List.mem_reverse.mp hmem)).symm

theorem mapM_setting?_eq_some_iff {parts : List (List Char)} {set : List (String × Int)} :
    parts.mapM setting? = some set ↔ List.Forall₂ Sets parts set := by
  induction parts generalizing set with
  | nil =>
    rw [List.mapM_nil, List.forall₂_nil_left_iff]
    exact ⟨fun h => (Option.some.inj h).symm, fun h => congrArg some h.symm⟩
  | cons part parts ih =>
    rw [List.mapM_cons, List.forall₂_cons_left_iff]
    simp only [Option.bind_eq_bind, Option.bind_eq_some_iff, ih, setting?_eq_some_iff]
    constructor
    · rintro ⟨setting, hsetting, rest, hrest, hset⟩
      exact ⟨setting, rest, hsetting, hrest, (Option.some.inj hset).symm⟩
    · rintro ⟨setting, rest, hsetting, hrest, rfl⟩
      exact ⟨setting, hsetting, rest, hrest, rfl⟩

/-! ## Settings -/

structure PartsTell (name version costs salt hash : List Char) (t : Settings) : Prop where
  variant : name = t.variant.name.toList
  saltLength : t.saltLength = Base64.decodedLength salt.length
  hashLength : t.hashLength = Base64.decodedLength hash.length
  values : ∃ parts set, Text.Joined ',' parts costs ∧ List.Forall₂ Sets (version :: parts) set ∧
    (∀ setting ∈ set, setting.1 ∈ settingNames) ∧ LastSet set "v" t.version ∧
    LastSet set "m" t.memory ∧ LastSet set "t" t.time ∧ LastSet set "p" t.lanes

/-- Whether a text tells settings: five parts behind a dollar sign tell them, or four and a version that
is assumed. -/
def Tells (s : String) (t : Settings) : Prop :=
  ∃ name version costs salt hash, PartsTell name version costs salt hash t ∧
    (Text.Joined '$' [[], name, version, costs, salt, hash] s.toList ∨
      version = assumedVersion.toList ∧ Text.Joined '$' [[], name, costs, salt, hash] s.toList)

theorem find?_variant_eq_some_iff {name : List Char} {v : Argon2.Variant} :
    Argon2.Variant.all.find? (fun v => v.name.toList == name) = some v ↔ name = v.name.toList := by
  constructor
  · intro h
    have hfound := List.find?_some h
    exact (beq_iff_eq.mp hfound).symm
  · rintro rfl
    cases v <;> decide

theorem settingsOf?_eq_some_iff {name version costs salt hash : List Char} {t : Settings} :
    settingsOf? name version costs salt hash = some t ↔ PartsTell name version costs salt hash t := by
  unfold settingsOf?
  constructor
  · intro h
    obtain ⟨variant, hvariant, h⟩ := Option.bind_eq_some_iff.mp h
    obtain ⟨set, hset, h⟩ := Option.bind_eq_some_iff.mp h
    split at h
    · cases h
    · next hnames =>
      obtain ⟨v, hv, h⟩ := Option.bind_eq_some_iff.mp h
      obtain ⟨time, htime, h⟩ := Option.bind_eq_some_iff.mp h
      obtain ⟨memory, hmemory, h⟩ := Option.bind_eq_some_iff.mp h
      obtain ⟨lanes, hlanes, h⟩ := Option.bind_eq_some_iff.mp h
      obtain rfl := Option.some.inj h
      refine ⟨find?_variant_eq_some_iff.mp hvariant, rfl, rfl, Text.splitAt ',' costs, set,
        Text.splitAt_eq_iff.mp rfl, mapM_setting?_eq_some_iff.mp hset, ?_,
        lookup_reverse_eq_some_iff.mp hv, lookup_reverse_eq_some_iff.mp hmemory,
        lookup_reverse_eq_some_iff.mp htime, lookup_reverse_eq_some_iff.mp hlanes⟩
      simpa using hnames
  · rintro ⟨hvariant, hsalt, hhash, parts, set, hparts, hset, hnames, hv, hmemory, htime, hlanes⟩
    obtain rfl := Text.splitAt_eq_iff.mpr hparts
    have hknown : ¬set.any (fun setting => !settingNames.contains setting.1) = true := by
      simpa using hnames
    simp only [find?_variant_eq_some_iff.mpr hvariant, mapM_setting?_eq_some_iff.mpr hset,
      Option.bind_eq_bind, Option.bind_some, if_neg hknown, lookup_reverse_eq_some_iff.mpr hv,
      lookup_reverse_eq_some_iff.mpr hmemory, lookup_reverse_eq_some_iff.mpr htime,
      lookup_reverse_eq_some_iff.mpr hlanes, ← hsalt, ← hhash]
    rfl

theorem settings?_eq_some_iff {s : String} {t : Settings} : settings? s = some t ↔ Tells s t := by
  unfold settings?
  constructor
  · intro h
    split at h
    · next name version costs salt hash hparts =>
      exact ⟨_, _, _, _, _, settingsOf?_eq_some_iff.mp h, .inl (Text.splitAt_eq_iff.mp hparts)⟩
    · next name costs salt hash hparts =>
      exact ⟨_, _, _, _, _, settingsOf?_eq_some_iff.mp h, .inr ⟨rfl, Text.splitAt_eq_iff.mp hparts⟩⟩
    · cases h
  · rintro ⟨name, version, costs, salt, hash, htell, hparts | ⟨rfl, hparts⟩⟩
    · rw [Text.splitAt_eq_iff.mpr hparts]
      exact settingsOf?_eq_some_iff.mpr htell
    · rw [Text.splitAt_eq_iff.mpr hparts]
      exact settingsOf?_eq_some_iff.mpr htell

end StoredHash
end Listing
