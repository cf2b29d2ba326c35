import Listing.Value.Basic
import Mathlib.Data.List.Basic

/-!
# Entries under names

What a mapping holds under a name, as its entries are added, joined and written. A name finds the
first entry whose key stands for it; writing under a name changes what that name finds and nothing
else.
-/

namespace Listing

theorem Key.same_name (k : Key) (s : String) : k.same (.text s) = (k.name? == some s) := by
  unfold Key.same
  rw [Key.name?_text]
  cases h : k.name? with
  | none => rfl
  | some t => simp

namespace Entries

variable {α : Type}

@[simp] theorem find_nil (name : String) : find ([] : Entries α) name = none := rfl

theorem find_cons (k : Key) (v : α) (es : Entries α) (name : String) :
    find ((k, v) :: es) name = if k.name? = some name then some v else find es name := by
  unfold find get?
  rw [List.find?_cons, Key.same_name]
  by_cases h : k.name? = some name
  · simp [h]
  · have hbeq : (k.name? == some name) = false := by simpa using h
    simp [hbeq, h]

theorem find_append (es fs : Entries α) (name : String) :
    find (es ++ fs) name = (find es name).or (find fs name) := by
  induction es with
  | nil => rfl
  | cons e es ih =>
    obtain ⟨k, v⟩ := e
    rw [List.cons_append, find_cons, find_cons]
    split
    · rfl
    · exact ih

theorem get?_of_name {k : Key} {name : String} (hk : k.name? = some name) (es : Entries α) :
    get? es k = find es name := by
  have hsame : ∀ e : Key × α, e.1.same k = e.1.same (.text name) := by
    intro e
    rw [Key.same, Key.same, hk, Key.name?_text]
    cases e.1.name? <;> rfl
  rw [find, get?, get?, funext hsame]

theorem find_map {β : Type} (xs : List β) (nameOf : β → String) (value : β → α) (name : String) :
    find (xs.map fun x => (.text (nameOf x), value x)) name =
      (xs.find? fun x => nameOf x == name).map value := by
  induction xs with
  | nil => rfl
  | cons x xs ih =>
    rw [List.map_cons, find_cons, Key.name?_text, ih, List.find?_cons]
    by_cases h : nameOf x = name
    · simp [h]
    · have hbeq : (nameOf x == name) = false := beq_eq_false_iff_ne.mpr h
      simp [h, hbeq]

theorem mem_of_find {es : Entries α} {name : String} {v : α} (h : find es name = some v) :
    ∃ k : Key, k.name? = some name ∧ (k, v) ∈ es := by
  induction es with
  | nil => simp at h
  | cons e es ih =>
    obtain ⟨k, w⟩ := e
    rw [find_cons] at h
    split at h
    · next hk =>
      obtain rfl := Option.some.inj h
      exact ⟨k, hk, List.mem_cons_self⟩
    · obtain ⟨k', hk', hmem⟩ := ih h
      exact ⟨k', hk', List.mem_cons_of_mem _ hmem⟩

theorem find_eq_none_iff {es : Entries α} {name : String} :
    find es name = none ↔ ∀ e ∈ es, e.1.name? ≠ some name := by
  induction es with
  | nil => simp
  | cons e es ih =>
    obtain ⟨k, w⟩ := e
    rw [find_cons]
    split
    · next hk => simp [hk]
    · next hk => simp [hk, ih]

theorem find_put (es : Entries α) (written name : String) (v : α) :
    find (put es (.text written) v) name = if written = name then some v else find es name := by
  induction es with
  | nil =>
    rw [put, find_cons]
    simp
  | cons e es ih =>
    obtain ⟨k, w⟩ := e
    rw [put, Key.same_name]
    by_cases hk : k.name? = some written
    · simp only [hk, beq_self_eq_true, if_true]
      rw [find_cons, find_cons, hk]
      by_cases hname : written = name <;> simp [hname]
    · have hbeq : (k.name? == some written) = false := by simpa using hk
      simp only [hbeq, Bool.false_eq_true, if_false]
      rw [find_cons, find_cons, ih]
      by_cases hname : written = name
      · subst hname
        simp [hk]
      · simp [hname]

theorem key_mem_put {es : Entries α} {k : Key} {v : α} {e : Key × α} (h : e ∈ put es k v) :
    e.1 = k ∨ ∃ w, (e.1, w) ∈ es := by
  induction es with
  | nil =>
    rw [put, List.mem_singleton] at h
    exact .inl (congrArg Prod.fst h)
  | cons e' es ih =>
    obtain ⟨k', w⟩ := e'
    rw [put] at h
    split at h
    · rcases List.mem_cons.mp h with h | h
      · exact .inr ⟨w, h ▸ List.mem_cons_self⟩
      · exact .inr ⟨e.2, List.mem_cons_of_mem _ h⟩
    · rcases List.mem_cons.mp h with h | h
      · exact .inr ⟨e.2, h ▸ List.mem_cons_self⟩
      · rcases ih h with h | ⟨w', hw'⟩
        · exact .inl h
        · exact .inr ⟨w', List.mem_cons_of_mem _ hw'⟩

theorem put_ne_nil (es : Entries α) (k : Key) (v : α) : put es k v ≠ [] := by
  cases es with
  | nil => simp [put]
  | cons e es =>
    obtain ⟨k', w⟩ := e
    rw [put]
    split <;> simp

end Entries

theorem Value.fields?_eq_some {v : Value} {es : Fields} : v.fields? = some es ↔ v = .map es := by
  cases v <;> simp [Value.fields?]

end Listing
