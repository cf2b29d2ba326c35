import Listing.Params.Parse
import Listing.Policy.Filters
import Listing.Policy.Sort
import Listing.Proofs.Params.Tree
import Listing.Proofs.Policy.Kept

/-!
# What is heard of filters and sorts

A policy listens to the names that it lists. What it hears of a tree that bracketed conditions write
is the tree that the conditions heard write, and so for a JSON object and for a sort: writing below
other names neither moves what stands below a listed one nor changes it. Sanitizing depends on what is
heard alone.
-/

namespace Listing

/-! ## Entries -/

namespace Entries

variable {α : Type} {listens : String → Bool}

/-- The entries under names that are listened to. -/
def heard (listens : String → Bool) (es : Entries α) : Entries α :=
  es.filter fun e => e.1.name?.any listens

theorem heard_cons_of_listed {k : Key} (hk : k.name?.any listens = true) (v : α) (es : Entries α) :
    heard listens ((k, v) :: es) = (k, v) :: heard listens es := List.filter_cons_of_pos hk

theorem heard_cons_of_unlisted {k : Key} (hk : ¬k.name?.any listens = true) (v : α)
    (es : Entries α) : heard listens ((k, v) :: es) = heard listens es := List.filter_cons_of_neg hk

theorem heard_put_of_listed {s : String} (hs : listens s = true) (es : Entries α) (v : α) :
    heard listens (es.put (.text s) v) = (heard listens es).put (.text s) v := by
  induction es with
  | nil => exact heard_cons_of_listed (k := .text s) hs v []
  | cons e es ih =>
    obtain ⟨k, w⟩ := e
    rw [put, Key.same_name]
    by_cases hk : k.name? = some s
    · have hheard : k.name?.any listens = true := by rw [hk]; exact hs
      have hsame : (k.name? == some s) = true := by simp [hk]
      rw [if_pos hsame, heard_cons_of_listed hheard, heard_cons_of_listed hheard, put, Key.same_name,
        if_pos hsame]
    · have hother : ¬(k.name? == some s) = true := by simpa using hk
      rw [if_neg hother]
      by_cases hheard : k.name?.any listens = true
      · rw [heard_cons_of_listed hheard, heard_cons_of_listed hheard, ih, put, Key.same_name,
          if_neg hother]
      · rw [heard_cons_of_unlisted hheard, heard_cons_of_unlisted hheard, ih]

theorem heard_put_of_unlisted {s : String} (hs : listens s = false) (es : Entries α) (v : α) :
    heard listens (es.put (.text s) v) = heard listens es := by
  induction es with
  | nil => exact heard_cons_of_unlisted (k := .text s) (by simp [hs]) v []
  | cons e es ih =>
    obtain ⟨k, w⟩ := e
    rw [put, Key.same_name]
    by_cases hk : k.name? = some s
    · have hunheard : ¬k.name?.any listens = true := by simp [hk, hs]
      rw [if_pos (by simp [hk]), heard_cons_of_unlisted hunheard, heard_cons_of_unlisted hunheard]
    · rw [if_neg (by simpa using hk)]
      by_cases hheard : k.name?.any listens = true
      · rw [heard_cons_of_listed hheard, heard_cons_of_listed hheard, ih]
      · rw [heard_cons_of_unlisted hheard, heard_cons_of_unlisted hheard, ih]

theorem find_heard {name : String} (hname : listens name = true) (es : Entries α) :
    (heard listens es).find name = es.find name := by
  induction es with
  | nil => rfl
  | cons e es ih =>
    obtain ⟨k, w⟩ := e
    by_cases hheard : k.name?.any listens = true
    · rw [heard_cons_of_listed hheard, find_cons, find_cons, ih]
    · have hk : k.name? ≠ some name := fun hk => hheard (by rw [hk]; exact hname)
      rw [heard_cons_of_unlisted hheard, find_cons, if_neg hk, ih]

theorem heard_foldl_put {items : List (Key × α)} (htext : ∀ item ∈ items, ∃ s, item.1 = .text s)
    (es : Entries α) :
    heard listens (items.foldl (fun es (k, v) => put es k v) es) =
      (heard listens items).foldl (fun es (k, v) => put es k v) (heard listens es) := by
  induction items generalizing es with
  | nil => rfl
  | cons item items ih =>
    obtain ⟨k, v⟩ := item
    obtain ⟨⟨s, rfl⟩, hrest⟩ := List.forall_mem_cons.mp htext
    rw [List.foldl_cons, ih hrest]
    cases hs : listens s with
    | true => rw [heard_put_of_listed hs, heard_cons_of_listed (k := .text s) hs, List.foldl_cons]
    | false =>
      rw [heard_put_of_unlisted hs, heard_cons_of_unlisted (k := .text s) (by simp [hs])]

/-- What is heard of the mapping that pairs write is the mapping that the pairs heard write. -/
theorem heard_ofPairs {items : List (Key × α)} (htext : ∀ item ∈ items, ∃ s, item.1 = .text s) :
    heard listens (ofPairs items) = ofPairs (heard listens items) :=
  heard_foldl_put htext []

end Entries

/-! ## Trees of filters -/

namespace FilterTree

variable {listens : String → Bool}

theorem heard_writeTo_of_listed {b : Bracketed} (hb : listens b.head = true) (tree : Fields) :
    Entries.heard listens (b.writeTo tree) = b.writeTo (Entries.heard listens tree) := by
  obtain ⟨path, op, v⟩ := b
  cases path with
  | nil => exact Entries.heard_put_of_listed hb tree v
  | cons name rest =>
    have hname : listens name = true := hb
    have hbranch : branch (Entries.heard listens tree) name = branch tree name := by
      rw [branch, branch, Entries.find_heard hname]
    have hwrite : ∀ t : Fields, Bracketed.writeTo t ⟨name :: rest, op, v⟩ =
        t.put (.text name) (.map (write (branch t name) rest op v)) := fun _ => rfl
    rw [hwrite, hwrite, hbranch]
    exact Entries.heard_put_of_listed hb tree _

theorem heard_writeTo_of_unlisted {b : Bracketed} (hb : listens b.head = false) (tree : Fields) :
    Entries.heard listens (b.writeTo tree) = Entries.heard listens tree := by
  obtain ⟨v, hv⟩ := exists_writeTo tree b
  rw [hv]
  exact Entries.heard_put_of_unlisted hb tree v

theorem heard_foldl_writeTo (tree : Fields) (bs : List Bracketed) :
    Entries.heard listens (bs.foldl Bracketed.writeTo tree) =
      (bs.filter (listens ·.head)).foldl Bracketed.writeTo (Entries.heard listens tree) := by
  induction bs generalizing tree with
  | nil => rfl
  | cons b bs ih =>
    rw [List.foldl_cons, ih, List.filter_cons]
    cases hb : listens b.head with
    | true => rw [heard_writeTo_of_listed hb, if_pos rfl, List.foldl_cons]
    | false => rw [heard_writeTo_of_unlisted hb, if_neg Bool.false_ne_true]

theorem key_mem_ofJsonValue {k : Key} {v : Value} {e : Key × Value} (h : e ∈ ofJsonValue k v) :
    e.1 = k := by
  have hentry : ∀ es : Fields, e ∈ entry k es → e.1 = k := by
    intro es he
    rw [entry] at he
    split at he
    · simp at he
    · rw [List.mem_singleton.mp he]
  cases v with
  | map es =>
    rw [ofJsonValue] at h
    split at h
    · exact hentry _ h
    · exact hentry _ h
  | _ =>
    rw [ofJsonValue] at h
    · rw [List.mem_singleton.mp h]
    · intro es h
      cases h

theorem heard_ofJson (es : Fields) :
    Entries.heard listens (ofJson es) = ofJson (Entries.heard listens es) := by
  induction es with
  | nil => rfl
  | cons e es ih =>
    obtain ⟨k, v⟩ := e
    have hfirst : ∀ e ∈ (if isName k then ofJsonValue k v else []), e.1 = k := by
      intro e he
      split at he
      · exact key_mem_ofJsonValue he
      · simp at he
    have hrest : Entries.heard listens (ofJson ((k, v) :: es)) =
        Entries.heard listens (if isName k then ofJsonValue k v else []) ++
          ofJson (Entries.heard listens es) := by
      rw [← ih, ofJson]
      exact List.filter_append _ _
    rw [hrest]
    by_cases hk : k.name?.any listens = true
    · have hall : Entries.heard listens (if isName k then ofJsonValue k v else []) =
          if isName k then ofJsonValue k v else [] :=
        List.filter_eq_self.mpr fun e he => by rw [hfirst e he]; exact hk
      rw [hall, Entries.heard_cons_of_listed hk, ofJson]
    · have hnone : Entries.heard listens (if isName k then ofJsonValue k v else []) = [] :=
        List.filter_eq_nil_iff.mpr fun e he => by rw [hfirst e he]; exact hk
      rw [hnone, Entries.heard_cons_of_unlisted hk, List.nil_append]

end FilterTree

/-! ## Under a policy -/

namespace FieldPolicy

/-- Whether a policy lists a name that clients may filter by. -/
def listsFilter (p : FieldPolicy) (name : String) : Bool := (p.filterable.find name).isSome

def listsSort (p : FieldPolicy) (name : String) : Bool :=
  (p.sortable.find name).any fun rule => rule != .allowed false

/-- Of filters, a policy keeps what it keeps of those it hears. -/
theorem sanitizeFilters_heard (p : FieldPolicy) (es : Fields) :
    p.sanitizeFilters (Entries.heard p.listsFilter es) = p.sanitizeFilters es := by
  unfold sanitizeFilters
  induction es with
  | nil => rfl
  | cons e es ih =>
    obtain ⟨k, v⟩ := e
    cases hrule : Rule.forKey? p.filterable k with
    | none =>
      have hunheard : ¬k.name?.any p.listsFilter = true := by
        unfold Rule.forKey? at hrule
        cases hk : k.name? with
        | none => simp
        | some name =>
          rw [hk, Option.bind_some] at hrule
          simp [listsFilter, hrule]
      rw [Entries.heard_cons_of_unlisted hunheard, Sanitize.fields_cons_of_none hrule, ih]
    | some rule =>
      have hheard : k.name?.any p.listsFilter = true := by
        obtain ⟨name, hk, hname⟩ := Option.bind_eq_some_iff.mp hrule
        simp [hk, listsFilter, hname]
      rw [Entries.heard_cons_of_listed hheard, Sanitize.fields_cons_of_rule hrule,
        Sanitize.fields_cons_of_rule hrule, ih]

theorem sanitizeSort_heard (p : FieldPolicy) (es : Fields) :
    p.sanitizeSort (Entries.heard p.listsSort es) = p.sanitizeSort es := by
  have hunheard : ∀ (k : Key) (v : Value), ¬k.name?.any p.listsSort = true →
      p.judgeSort k v = .unsortable := by
    intro k v h
    unfold judgeSort
    cases hrule : k.name?.bind p.sortable.find with
    | none => rfl
    | some rule =>
      obtain ⟨name, hk, hname⟩ := Option.bind_eq_some_iff.mp hrule
      have hrule : rule = .allowed false := by simpa [hk, listsSort, hname] using h
      rw [hrule]
  unfold sanitizeSort
  induction es with
  | nil => rfl
  | cons e es ih =>
    obtain ⟨k, v⟩ := e
    by_cases hk : k.name?.any p.listsSort = true
    · rw [Entries.heard_cons_of_listed hk, List.filterMap_cons, List.filterMap_cons, ih]
    · rw [Entries.heard_cons_of_unlisted hk, List.filterMap_cons_none (by simp [hunheard k v hk]), ih]

end FieldPolicy
end Listing
