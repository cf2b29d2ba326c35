import Listing.Proofs.Params.BracketKey
import Mathlib.Data.List.TakeWhile

/-!
# Bracket keys by search

The names of a key can also be found by a search for groups anywhere in the text, leftmost first and none
overlapping another; the key is then told by writing the groups that were found and comparing. Main
statement: both ways read the same keys, exactly those that are written of one to `maxNames` names, and a
key is written of no other names.
-/

namespace Listing.BracketKey

/-! ## The search -/

/-- The name of the group that a text starts with, and the rest after the group. -/
def groupAt? : List Char → Option (String × List Char)
  | [] => none
  | c :: cs =>
    if c = '[' then
      match cs.dropWhile isNameChar with
      | ']' :: rest => some (String.ofList (cs.takeWhile isNameChar), rest)
      | _ => none
    else none

theorem groupAt?_eq_some_iff {cs rest : List Char} {name : String} :
    groupAt? cs = some (name, rest) ↔
      cs = group name ++ rest ∧ ∀ c ∈ name.toList, isNameChar c = true := by
  constructor
  · intro h
    unfold groupAt? at h
    split at h
    · cases h
    · next c cs =>
      split at h
      · next hc =>
        split at h
        · next rest' hrest =>
          obtain ⟨rfl, rfl⟩ := Prod.mk.inj (Option.some.inj h)
          have hcs : cs.takeWhile isNameChar ++ ']' :: rest' = cs := by
            rw [← hrest, List.takeWhile_append_dropWhile]
          simp only [group, String.toList_ofList]
          exact ⟨by simp [hc, hcs], fun d hd => List.mem_takeWhile_imp hd⟩
        · cases h
      · cases h
  · rintro ⟨rfl, hname⟩
    have hclose : isNameChar ']' = false := by decide
    have htake : (name.toList ++ ']' :: rest).takeWhile isNameChar = name.toList := by
      rw [List.takeWhile_append_of_pos hname, List.takeWhile_cons_of_neg (by simp [hclose]),
        List.append_nil]
    have hdrop : (name.toList ++ ']' :: rest).dropWhile isNameChar = ']' :: rest := by
      rw [List.dropWhile_append_of_pos hname, List.dropWhile_cons_of_neg (by simp [hclose])]
    have hgroup : group name ++ rest = '[' :: (name.toList ++ ']' :: rest) := by simp [group]
    rw [hgroup, groupAt?, if_pos rfl, hdrop, htake, String.ofList_toList]
    rfl

theorem length_of_groupAt? {cs rest : List Char} {name : String}
    (h : groupAt? cs = some (name, rest)) : rest.length < cs.length := by
  obtain ⟨rfl, -⟩ := groupAt?_eq_some_iff.mp h
  simp only [group, List.length_append, List.length_cons]
  omega

/-- The names of the groups in a text, leftmost first, none overlapping another. -/
def groupNames : List Char → List String
  | [] => []
  | c :: cs =>
    match _ : groupAt? (c :: cs) with
    | some (name, rest) => name :: groupNames rest
    | none => groupNames cs
termination_by cs => cs.length
decreasing_by
  · exact length_of_groupAt? ‹_›
  · exact Nat.lt_add_one _

/-- The names of a key under a label, by search: the groups that are found must be all that follows the
label. -/
def search? (label key : String) : Option (List String) :=
  if (label.toList ++ ['[']).isPrefixOf key.toList then
    let rest := key.toList.drop label.toList.length
    let names := groupNames rest
    if names.isEmpty || names.flatMap group != rest then none
    else if names.any (· == "") || maxNames < names.length then none
    else some names
  else none

theorem groupNames_of_groupAt? {cs rest : List Char} {name : String}
    (h : groupAt? cs = some (name, rest)) : groupNames cs = name :: groupNames rest := by
  cases cs with
  | nil => cases h
  | cons c cs =>
    rw [groupNames]
    split
    · next name' rest' h' =>
      obtain ⟨rfl, rfl⟩ := Prod.mk.inj (Option.some.inj (h'.symm.trans h))
      rfl
    · next h' => nomatch h'.symm.trans h

theorem isNameChar_of_mem_groupNames {cs : List Char} {name : String} (h : name ∈ groupNames cs) :
    ∀ c ∈ name.toList, isNameChar c = true := by
  induction cs using groupNames.induct with
  | case1 => simp [groupNames] at h
  | case2 c cs found rest hfound ih =>
    rw [groupNames_of_groupAt? hfound] at h
    rcases List.mem_cons.mp h with rfl | h
    · exact (groupAt?_eq_some_iff.mp hfound).2
    · exact ih h
  | case3 c cs hnone ih =>
    rw [groupNames] at h
    split at h
    · next hsome => nomatch hnone.symm.trans hsome
    · exact ih h

theorem groupNames_groups {names : List String}
    (h : ∀ name ∈ names, ∀ c ∈ name.toList, isNameChar c = true) :
    groupNames (names.flatMap group) = names := by
  induction names with
  | nil => rw [List.flatMap_nil, groupNames]
  | cons name names ih =>
    obtain ⟨hname, hnames⟩ := List.forall_mem_cons.mp h
    have hfirst : groupAt? ((name :: names).flatMap group) = some (name, names.flatMap group) :=
      groupAt?_eq_some_iff.mpr ⟨List.flatMap_cons, hname⟩
    rw [groupNames_of_groupAt? hfirst, ih hnames]

theorem search?_eq_some_iff {label key : String} {names : List String} :
    search? label key = some names ↔ Keyable names ∧ key = write label names := by
  unfold search?
  constructor
  · intro h
    split at h
    · next hlabel =>
      obtain ⟨cs, hcs⟩ := List.isPrefixOf_iff_prefix.mp hlabel
      rw [List.append_assoc] at hcs
      rw [← hcs, List.drop_left] at h
      dsimp only at h
      split at h
      · cases h
      · next hall =>
        split at h
        · cases h
        · next hgood =>
          obtain rfl := Option.some.inj h
          simp only [Bool.or_eq_true, List.isEmpty_iff, bne_iff_ne, ne_eq, not_or, not_not] at hall
          simp only [Bool.or_eq_true, List.any_eq_true, beq_iff_eq, decide_eq_true_eq, not_or,
            not_exists, not_and, Nat.not_lt] at hgood
          refine ⟨⟨hall.1, hgood.2, fun name hname => ⟨hgood.1 name hname, ?_⟩⟩, ?_⟩
          · exact isNameChar_of_mem_groupNames hname
          · rw [write, hall.2, hcs, String.ofList_toList]
    · cases h
  · rintro ⟨hnames, rfl⟩
    obtain ⟨hne, hlength, hnameable⟩ := hnames
    have hfound := groupNames_groups fun name hname => (hnameable name hname).2
    have hempty : names.any (· == "") = false := by
      rw [List.any_eq_false]
      intro name hname
      simpa using (hnameable name hname).1
    have hopen : (label.toList ++ ['[']).isPrefixOf (label.toList ++ names.flatMap group) = true := by
      obtain ⟨name, rest, rfl⟩ := List.exists_cons_of_ne_nil hne
      rw [List.isPrefixOf_iff_prefix, List.prefix_append_right_inj]
      exact ⟨_, rfl⟩
    rw [write, String.toList_ofList, List.drop_left, if_pos hopen]
    dsimp only
    rw [hfound, hempty, if_neg (by simp [hne]), if_neg (by simpa using hlength)]

/-! ## The grammar -/

theorem read?_eq_search? (label key : String) : read? label key = search? label key :=
  Option.ext fun _ => read?_eq_some_iff.trans search?_eq_some_iff.symm

/-- **Reading keys.** A key reads as some names exactly if these make up a key and it is written of them;
any other text reads as none, and a search for groups finds the same. So what is written of names reads as
these names, and as no others. -/
theorem keys_read_exactly (label key : String) :
    (∀ names, read? label key = some names ↔ Keyable names ∧ key = write label names) ∧
      (read? label key = none ↔ ¬∃ names, Keyable names ∧ key = write label names) ∧
      read? label key = search? label key ∧
      (∀ names, Keyable names → read? label (write label names) = some names) ∧
      ∀ names others, Keyable names → Keyable others → write label names = write label others →
        names = others := by
  have hread : ∀ names, Keyable names → read? label (write label names) = some names :=
    fun names hnames => read?_eq_some_iff.mpr ⟨hnames, rfl⟩
  refine ⟨fun _ => read?_eq_some_iff, ?_, read?_eq_search? label key, hread, ?_⟩
  · rw [Option.eq_none_iff_forall_ne_some, not_exists]
    exact forall_congr' fun _ => not_congr read?_eq_some_iff
  · intro names others hnames hothers heq
    have hsome := hread names hnames
    rw [heq, hread others hothers] at hsome
    exact (Option.some.inj hsome).symm

theorem keys_read_exactly_bars :
    Keyable (List.replicate maxNames "|") ∧
      read? "filters" (write "filters" (List.replicate maxNames "|")) =
        some (List.replicate maxNames "|") := by
  have hnames : Keyable (List.replicate maxNames "|") := by
    refine ⟨by decide, by simp, fun name hname => ?_⟩
    rw [List.eq_of_mem_replicate hname]
    refine ⟨by decide, fun c hc => ?_⟩
    rw [List.mem_singleton.mp hc]
    rfl
  exact ⟨hnames, (keys_read_exactly "filters" "").2.2.2.1 _ hnames⟩

end Listing.BracketKey
