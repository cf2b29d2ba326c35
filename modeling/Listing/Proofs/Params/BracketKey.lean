import Listing.Params.BracketKey
import Mathlib.Data.List.Basic

/-!
# Reading bracket keys back

A key that is written of up to `maxNames` names, none of them empty or with a bracket, reads as these
names.
-/

namespace Listing.BracketKey

/-- Whether a name can stand in a key: it is not empty and has no bracket. -/
def Nameable (name : String) : Prop := name ≠ "" ∧ ∀ c ∈ name.toList, isNameChar c = true

/-- Whether names make up a key: one to `maxNames` of them, each of which can stand in one. -/
structure Keyable (names : List String) : Prop where
  nonempty : names ≠ []
  length_le : names.length ≤ maxNames
  nameable : ∀ name ∈ names, Nameable name

theorem within?_append {cs : List Char} (h : ∀ c ∈ cs, isNameChar c = true)
    (name rest : List Char) :
    within? name (cs ++ ']' :: rest) =
      (between? rest).map (String.ofList (name.reverse ++ cs) :: ·) := by
  induction cs generalizing name with
  | nil =>
    rw [List.nil_append, within?, if_pos rfl, List.append_nil]
  | cons c cs ih =>
    obtain ⟨hc, hcs⟩ := List.forall_mem_cons.mp h
    have hbracket : c ≠ '[' ∧ c ≠ ']' := by simpa [isNameChar] using hc
    rw [List.cons_append, within?, if_neg hbracket.2, if_neg hbracket.1, ih hcs]
    simp

theorem between?_groups {names : List String}
    (h : ∀ name ∈ names, ∀ c ∈ name.toList, isNameChar c = true) :
    between? (names.flatMap group) = some names := by
  induction names with
  | nil => rfl
  | cons name names ih =>
    obtain ⟨hname, hnames⟩ := List.forall_mem_cons.mp h
    have hgroup : (name :: names).flatMap group =
        '[' :: (name.toList ++ ']' :: names.flatMap group) := by
      simp [group]
    rw [hgroup, between?, if_pos rfl, within?_append hname, ih hnames]
    simp

theorem read?_write (label : String) {names : List String} (hne : names ≠ [])
    (hlength : names.length ≤ maxNames) (h : ∀ name ∈ names, Nameable name) :
    read? label (write label names) = some names := by
  have hempty : names.any (· == "") = false := by
    rw [List.any_eq_false]
    intro name hname
    simpa using (h name hname).1
  have hdrop : (label.toList ++ names.flatMap group).drop label.toList.length =
      names.flatMap group := List.drop_left
  rw [read?, write, String.toList_ofList, if_pos (by simp), hdrop,
    between?_groups fun name hname => (h name hname).2]
  dsimp only
  rw [hempty, if_neg (by simpa [hne] using hlength)]

mutual

theorem eq_of_between? : ∀ {cs : List Char} {names : List String}, between? cs = some names →
    cs = names.flatMap group
  | [], names, h => by
    obtain rfl := Option.some.inj h
    rfl
  | c :: cs, names, h => by
    rw [between?] at h
    split at h
    · next hc =>
      subst hc
      exact eq_of_within? h
    · simp at h

theorem eq_of_within? : ∀ {cs name : List Char} {names : List String},
    within? name cs = some names → '[' :: (name.reverse ++ cs) = names.flatMap group
  | [], _, _, h => nomatch h
  | c :: cs, name, names, h => by
    rw [within?] at h
    split at h
    · next hc =>
      obtain ⟨rest, hrest, rfl⟩ := Option.map_eq_some_iff.mp h
      have heq := eq_of_between? hrest
      simp [group, hc, heq]
    · split at h
      · simp at h
      · have heq := eq_of_within? h
        simpa using heq

end

mutual

theorem isNameChar_of_between? : ∀ {cs : List Char} {names : List String},
    between? cs = some names → ∀ name ∈ names, ∀ c ∈ name.toList, isNameChar c = true
  | [], names, h => by
    obtain rfl := Option.some.inj h
    simp
  | c :: cs, names, h => by
    rw [between?] at h
    split at h
    · exact isNameChar_of_within? h (by simp)
    · nomatch h

theorem isNameChar_of_within? : ∀ {cs begun : List Char} {names : List String},
    within? begun cs = some names → (∀ c ∈ begun, isNameChar c = true) →
      ∀ name ∈ names, ∀ c ∈ name.toList, isNameChar c = true
  | [], _, _, h, _ => nomatch h
  | c :: cs, begun, names, h, hbegun => by
    rw [within?] at h
    split at h
    · obtain ⟨rest, hrest, rfl⟩ := Option.map_eq_some_iff.mp h
      refine List.forall_mem_cons.mpr ⟨?_, isNameChar_of_between? hrest⟩
      simpa using hbegun
    · next hclose =>
      split at h
      · nomatch h
      · next hopen =>
        have hc : isNameChar c = true := by simp [isNameChar, hopen, hclose]
        exact isNameChar_of_within? h (List.forall_mem_cons.mpr ⟨hc, hbegun⟩)

end

theorem exists_of_read? {label key : String} {names : List String}
    (h : read? label key = some names) :
    ∃ cs, key.toList = label.toList ++ cs ∧ between? cs = some names ∧ names ≠ [] := by
  rw [read?] at h
  split at h
  · next hprefix =>
    obtain ⟨cs, hcs⟩ := List.isPrefixOf_iff_prefix.mp hprefix
    rw [← hcs, List.drop_left] at h
    split at h
    · next names' hnames =>
      split at h
      · simp at h
      · next hgood =>
        obtain rfl := Option.some.inj h
        exact ⟨cs, hcs.symm, hnames, fun hnil => hgood (by simp [hnil])⟩
    · simp at h
  · simp at h

theorem keyable_of_read? {label key : String} {names : List String}
    (h : read? label key = some names) : Keyable names := by
  obtain ⟨cs, hcs, hnames, hne⟩ := exists_of_read? h
  have hbare := isNameChar_of_between? hnames
  rw [read?, hcs, List.drop_left, hnames] at h
  split at h
  · dsimp only at h
    split at h
    · nomatch h
    · next hgood =>
      simp only [Bool.or_eq_true, List.any_eq_true, beq_iff_eq, decide_eq_true_eq, not_or, not_exists,
        not_and, Nat.not_lt] at hgood
      exact ⟨hne, hgood.2, fun name hname => ⟨hgood.1.2 name hname, hbare name hname⟩⟩
  · nomatch h

theorem eq_write_of_read? {label key : String} {names : List String}
    (h : read? label key = some names) : key = write label names := by
  obtain ⟨cs, hcs, hnames, -⟩ := exists_of_read? h
  rw [write, ← eq_of_between? hnames, ← hcs, String.ofList_toList]

/-- A key reads as the names that it is written of, if these make up a key. -/
theorem read?_eq_some_iff {label key : String} {names : List String} :
    read? label key = some names ↔ Keyable names ∧ key = write label names := by
  constructor
  · intro h
    exact ⟨keyable_of_read? h, eq_write_of_read? h⟩
  · rintro ⟨hnames, rfl⟩
    exact read?_write label hnames.nonempty hnames.length_le hnames.nameable

theorem isPrefixOf_of_read? {label key : String} {names : List String}
    (h : read? label key = some names) : (label.toList ++ ['[']).isPrefixOf key.toList = true := by
  obtain ⟨cs, hcs, hnames, hne⟩ := exists_of_read? h
  obtain ⟨name, names, rfl⟩ := List.exists_cons_of_ne_nil hne
  rw [hcs, eq_of_between? hnames, List.isPrefixOf_iff_prefix, List.prefix_append_right_inj]
  exact ⟨_, rfl⟩

theorem head_of_read? {label name key : String} {rest : List Char} {names : List String}
    (hname : ∀ c ∈ name.toList, isNameChar c = true)
    (hkey : key.toList = label.toList ++ '[' :: (name.toList ++ ']' :: rest))
    (h : read? label key = some names) : names.head? = some name := by
  obtain ⟨cs, hcs, hnames, -⟩ := exists_of_read? h
  rw [hkey, List.append_cancel_left_eq] at hcs
  rw [← hcs, between?, if_pos rfl, within?_append hname, Option.map_eq_some_iff] at hnames
  obtain ⟨others, -, rfl⟩ := hnames
  simp

theorem read?_eq_none_of_not_prefix {label key : String}
    (h : label.toList.isPrefixOf key.toList = false) : read? label key = none := by
  rw [read?, h]
  rfl

theorem write_ne_label (label : String) {names : List String} (hne : names ≠ []) :
    write label names ≠ label := by
  intro heq
  have hlist := congrArg String.toList heq
  rw [write, String.toList_ofList, List.append_right_eq_self] at hlist
  obtain ⟨name, names, rfl⟩ := List.exists_cons_of_ne_nil hne
  simp [group] at hlist

end Listing.BracketKey
