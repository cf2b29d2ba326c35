import Listing.Params.Tree
import Listing.Proofs.Entries
import Listing.Proofs.Operator
import Listing.Proofs.Params.BracketKey
import Listing.Proofs.Params.Operand
import Listing.Proofs.Value.Equality
import Mathlib.Data.List.Induction
import Mathlib.Data.List.Nodup

/-!
# Trees from bracketed conditions

A tree of filters is described by its bracketed conditions: one for each operand, at the path of names
that leads to it. However these are ordered, writing one after the other gives the tree again, up to
the order of entries. A name finds, in what was written, what the conditions below that name write.
-/

namespace Listing.FilterTree

/-! ## Trees -/

/-- What a field of a filter tree holds: a condition, or the filters on a relation. -/
inductive Node where
  | condition (entries : List (Operator × Value))
  | relation (fields : List (String × Node))

namespace Node

def operands (entries : List (Operator × Value)) : Fields :=
  entries.map fun e => (.text e.1.token, e.2)

mutual

def value : Node → Value
  | condition entries => .map (operands entries)
  | relation fs => .map (fields fs)
termination_by structural n => n

def fields : List (String × Node) → Fields
  | [] => []
  | (name, n) :: rest => (.text name, value n) :: fields rest
termination_by structural fs => fs

end

end Node

/-- A bracketed condition one name further down. -/
def Bracketed.below (name : String) (b : Bracketed) : Bracketed := { b with path := name :: b.path }

namespace Node

mutual

def brackets : Node → List Bracketed
  | condition entries => entries.map fun e => ⟨[], e.1, e.2⟩
  | relation fs => bracketsOf fs
termination_by structural n => n

def bracketsOf : List (String × Node) → List Bracketed
  | [] => []
  | (name, n) :: rest => (brackets n).map (·.below name) ++ bracketsOf rest
termination_by structural fs => fs

end

end Node

/-! ## What a name finds -/

/-- The bracketed conditions below a name. -/
def under (name : String) (bs : List Bracketed) : List Bracketed :=
  bs.filterMap fun b =>
    match b.path with
    | [] => none
    | first :: rest => if first = name then some { b with path := rest } else none

theorem under_below (name : String) (bs : List Bracketed) :
    under name (bs.map (·.below name)) = bs := by
  rw [under, List.filterMap_map]
  refine (List.filterMap_congr fun b _ => ?_).trans List.filterMap_some
  simp [Bracketed.below]

theorem under_below_of_ne {name other : String} (h : other ≠ name) (bs : List Bracketed) :
    under name (bs.map (·.below other)) = [] := by
  rw [under, List.filterMap_map, List.filterMap_eq_nil_iff]
  intro b _
  simp [Bracketed.below, h]

theorem under_append (name : String) (bs cs : List Bracketed) :
    under name (bs ++ cs) = under name bs ++ under name cs := List.filterMap_append

variable {tree : Fields} {bs : List Bracketed} {name : String}

theorem branch_put_self (tree : Fields) (name : String) (es : Fields) :
    branch (tree.put (.text name) (.map es)) name = es := by
  rw [branch, Entries.find_put, if_pos rfl]

theorem branch_put_of_ne {written : String} (h : written ≠ name) {v : Value} :
    branch (tree.put (.text written) v) name = branch tree name := by
  rw [branch, branch, Entries.find_put, if_neg h]

/-- Where no operator is written whose token is a name, the name finds what is written below it, over what
it found before. -/
theorem find_foldl_writeTo (h : ∀ b ∈ bs, b.path = [] → b.operator.token ≠ name) :
    (bs.foldl Bracketed.writeTo tree).find name =
      if under name bs = [] then tree.find name
      else some (.map ((under name bs).foldl Bracketed.writeTo (branch tree name))) := by
  induction bs generalizing tree with
  | nil => rfl
  | cons b bs ih =>
    obtain ⟨path, op, v⟩ := b
    obtain ⟨hb, hbs⟩ := List.forall_mem_cons.mp h
    rw [List.foldl_cons, ih hbs]
    cases path with
    | nil =>
      have hwrite : Bracketed.writeTo tree ⟨[], op, v⟩ = tree.put (.text op.token) v := rfl
      have hunder : under name (⟨[], op, v⟩ :: bs) = under name bs := rfl
      rw [hwrite, hunder, Entries.find_put, if_neg (hb rfl), branch_put_of_ne (hb rfl)]
    | cons first rest =>
      have hwrite : Bracketed.writeTo tree ⟨first :: rest, op, v⟩ =
          tree.put (.text first) (.map (write (branch tree first) rest op v)) := rfl
      rw [hwrite, Entries.find_put]
      by_cases hname : first = name
      · subst hname
        have hunder : under first (⟨first :: rest, op, v⟩ :: bs) = ⟨rest, op, v⟩ :: under first bs := by
          simp [under]
        rw [hunder, if_neg (List.cons_ne_nil _ _), List.foldl_cons, branch_put_self, if_pos rfl]
        split
        · next hnil =>
          rw [hnil]
          rfl
        · rfl
      · have hunder : under name (⟨first :: rest, op, v⟩ :: bs) = under name bs := by
          simp [under, hname]
        rw [hunder, branch_put_of_ne hname, if_neg hname]

theorem find_foldl_of_not_written (hpath : ∀ b ∈ bs, b.path = []) {op : Operator}
    (h : op ∉ bs.map (·.operator)) :
    (bs.foldl Bracketed.writeTo tree).find op.token = tree.find op.token := by
  induction bs generalizing tree with
  | nil => rfl
  | cons b bs ih =>
    obtain ⟨path, op', v⟩ := b
    obtain ⟨rfl, hpaths⟩ := List.forall_mem_cons.mp hpath
    obtain ⟨hop, hrest⟩ := not_or.mp (mt List.mem_cons.mpr h)
    have hwrite : Bracketed.writeTo tree ⟨[], op', v⟩ = tree.put (.text op'.token) v := rfl
    have htoken : op'.token ≠ op.token := fun heq => hop (Operator.token_injective heq).symm
    rw [List.foldl_cons, ih hpaths hrest, hwrite, Entries.find_put, if_neg htoken]

theorem find_foldl_operand (hpath : ∀ b ∈ bs, b.path = []) (hdistinct : (bs.map (·.operator)).Nodup)
    {b : Bracketed} (hb : b ∈ bs) :
    (bs.foldl Bracketed.writeTo tree).find b.operator.token = some b.operand := by
  induction bs generalizing tree with
  | nil => nomatch hb
  | cons b' bs ih =>
    obtain ⟨hpath', hpaths⟩ := List.forall_mem_cons.mp hpath
    obtain ⟨hfresh, hdistinct⟩ := List.nodup_cons.mp hdistinct
    rw [List.foldl_cons]
    rcases List.mem_cons.mp hb with rfl | hb
    · obtain ⟨path, op, v⟩ := b
      obtain rfl : path = [] := hpath'
      have hwrite : Bracketed.writeTo tree ⟨[], op, v⟩ = tree.put (.text op.token) v := rfl
      rw [find_foldl_of_not_written hpaths hfresh, hwrite, Entries.find_put, if_pos rfl]
    · exact ih hpaths hdistinct hb

/-! ## How many entries are written -/

/-- The key that a bracketed condition writes at the top: its first name, or the token of its operator. -/
def Bracketed.head (b : Bracketed) : String := b.path.head?.getD b.operator.token

theorem exists_writeTo (tree : Fields) (b : Bracketed) :
    ∃ v, b.writeTo tree = tree.put (.text b.head) v := by
  obtain ⟨path, op, v⟩ := b
  cases path with
  | nil => exact ⟨v, rfl⟩
  | cons name rest => exact ⟨.map (write (branch tree name) rest op v), rfl⟩

theorem map_key_put {names : List String} (h : tree.map Prod.fst = names.map Key.text) (s : String)
    (v : Value) :
    (tree.put (.text s) v).map Prod.fst = (if s ∈ names then names else names ++ [s]).map Key.text := by
  induction tree generalizing names with
  | nil =>
    obtain rfl : names = [] := by simpa using h.symm
    rfl
  | cons e tree ih =>
    obtain ⟨k, w⟩ := e
    cases names with
    | nil => nomatch h
    | cons name names =>
      obtain ⟨hk, htree⟩ := List.cons.inj h
      obtain rfl : k = .text name := hk
      rw [Entries.put, Key.same_text]
      by_cases hs : name = s
      · subst hs
        simp [htree]
      · have hs' : s ≠ name := fun heq => hs heq.symm
        simp only [beq_iff_eq, hs, if_false, List.map_cons, ih htree, List.mem_cons, hs', false_or]
        split
        · rfl
        · rfl

theorem exists_names (bs : List Bracketed) :
    ∃ names : List String, (bs.foldl Bracketed.writeTo []).map Prod.fst = names.map Key.text ∧ names.Nodup ∧
      ∀ s, s ∈ names ↔ ∃ b ∈ bs, b.head = s := by
  induction bs using List.reverseRecOn with
  | nil => exact ⟨[], rfl, List.nodup_nil, by simp⟩
  | append_singleton bs b ih =>
    obtain ⟨names, hkeys, hnodup, hmem⟩ := ih
    obtain ⟨v, hv⟩ := exists_writeTo (bs.foldl Bracketed.writeTo []) b
    rw [List.foldl_append, List.foldl_cons, List.foldl_nil, hv]
    refine ⟨_, map_key_put hkeys b.head v, ?_, fun s => ?_⟩
    · split
      · exact hnodup
      · next hfresh =>
        refine List.nodup_append.mpr ⟨hnodup, List.nodup_singleton _, fun s hs t ht => ?_⟩
        rintro rfl
        exact hfresh (List.mem_singleton.mp ht ▸ hs)
    · have hwritten : (∃ b' ∈ bs ++ [b], b'.head = s) ↔ (∃ b' ∈ bs, b'.head = s) ∨ b.head = s := by
        simp [or_and_right, exists_or]
      rw [hwritten, ← hmem]
      split
      · next hold =>
        refine (or_iff_left_of_imp ?_).symm
        rintro rfl
        exact hold
      · simp [eq_comm]

theorem length_foldl_writeTo {names : List String} (hnodup : names.Nodup)
    (hmem : ∀ s, s ∈ names ↔ ∃ b ∈ bs, b.head = s) :
    (bs.foldl Bracketed.writeTo []).length = names.length := by
  obtain ⟨written, hkeys, hnodup', hmem'⟩ := exists_names bs
  have hperm : written.Perm names := by
    rw [List.perm_ext_iff_of_nodup hnodup' hnodup]
    exact fun s => (hmem' s).trans (hmem s).symm
  have hlength := congrArg List.length hkeys
  rw [List.length_map, List.length_map] at hlength
  rw [hlength, hperm.length_eq]

/-! ## Writing a tree -/

/-- Whether a name can be that of a field: it can stand in a key, and is not marked as an operator. -/
def FieldName (name : String) : Prop := BracketKey.Nameable name ∧ isMarked (.text name) = false

namespace Node

mutual

/-- Whether a node can be written as bracketed conditions: it is not empty, no operator and no name
occurs twice, and the operands read as themselves. -/
def Sound : Node → Prop
  | condition entries =>
    entries ≠ [] ∧ (entries.map (·.1)).Nodup ∧ ∀ e ∈ entries, Operand.Readable e.1 e.2
  | relation fs => fs ≠ [] ∧ SoundFields fs
termination_by structural n => n

def SoundFields : List (String × Node) → Prop
  | [] => True
  | (name, n) :: rest => FieldName name ∧ (∀ f ∈ rest, f.1 ≠ name) ∧ Sound n ∧ SoundFields rest
termination_by structural fs => fs

end

variable {fs : List (String × Node)} {n : Node} {bs : List Bracketed}

theorem fields_eq (fs : List (String × Node)) :
    fields fs = fs.map fun f => (.text f.1, f.2.value) := by
  induction fs with
  | nil => rfl
  | cons f fs ih =>
    obtain ⟨name, n⟩ := f
    rw [fields, ih, List.map_cons]

theorem brackets_ne_nil : ∀ {n : Node}, n.Sound → n.brackets ≠ []
  | condition _, h => mt List.map_eq_nil_iff.mp h.1
  | relation [], h => absurd rfl h.1
  | relation ((_, _) :: _), h =>
    List.append_ne_nil_of_left_ne_nil (mt List.map_eq_nil_iff.mp (brackets_ne_nil h.2.2.2.1)) _

theorem path_ne_nil : ∀ b ∈ bracketsOf fs, b.path ≠ [] := by
  induction fs with
  | nil => simp [bracketsOf]
  | cons f fs ih =>
    obtain ⟨name, n⟩ := f
    rw [bracketsOf, List.forall_mem_append, List.forall_mem_map]
    exact ⟨fun b _ => List.cons_ne_nil _ _, ih⟩

theorem SoundFields.nodup (h : SoundFields fs) : (fs.map (·.1)).Nodup := by
  induction fs with
  | nil => exact List.nodup_nil
  | cons f fs ih =>
    obtain ⟨-, hfresh, -, hrest⟩ := h
    rw [List.map_cons, List.nodup_cons, List.mem_map]
    exact ⟨fun ⟨f', hf', heq⟩ => hfresh f' hf' heq, ih hrest⟩

theorem SoundFields.mem (h : SoundFields fs) {f : String × Node} (hf : f ∈ fs) :
    FieldName f.1 ∧ f.2.Sound := by
  induction fs with
  | nil => nomatch hf
  | cons f' fs ih =>
    obtain ⟨hname, -, hnode, hrest⟩ := h
    rcases List.mem_cons.mp hf with rfl | hf
    · exact ⟨hname, hnode⟩
    · exact ih hrest hf

theorem SoundFields.mem_names_iff (h : SoundFields fs) (s : String) :
    s ∈ fs.map (·.1) ↔ ∃ b ∈ bracketsOf fs, b.head = s := by
  induction fs with
  | nil => simp [bracketsOf]
  | cons f fs ih =>
    obtain ⟨name, n⟩ := f
    obtain ⟨-, -, hnode, hrest⟩ := h
    have hhead : (∃ b ∈ n.brackets.map (·.below name), b.head = s) ↔ name = s := by
      obtain ⟨b, hb⟩ := List.exists_mem_of_ne_nil _ (brackets_ne_nil hnode)
      constructor
      · rintro ⟨b', hb', rfl⟩
        obtain ⟨b'', -, rfl⟩ := List.mem_map.mp hb'
        rfl
      · rintro rfl
        exact ⟨_, List.mem_map_of_mem hb, rfl⟩
    rw [bracketsOf, List.map_cons, List.mem_cons, ih hrest]
    simp only [List.mem_append, or_and_right, exists_or, hhead]
    exact or_congr_left eq_comm

theorem under_bracketsOf_of_fresh {name : String} (h : ∀ f ∈ fs, f.1 ≠ name) :
    under name (bracketsOf fs) = [] := by
  induction fs with
  | nil => rfl
  | cons f fs ih =>
    obtain ⟨hf, hfs⟩ := List.forall_mem_cons.mp h
    rw [bracketsOf, under_append, under_below_of_ne hf, ih hfs]
    rfl

theorem SoundFields.under_bracketsOf (h : SoundFields fs) {f : String × Node} (hf : f ∈ fs) :
    under f.1 (bracketsOf fs) = f.2.brackets := by
  induction fs with
  | nil => nomatch hf
  | cons f' fs ih =>
    obtain ⟨-, hfresh, -, hrest⟩ := h
    rw [bracketsOf, under_append]
    rcases List.mem_cons.mp hf with rfl | hf
    · rw [under_below, under_bracketsOf_of_fresh hfresh, List.append_nil]
    · rw [under_below_of_ne (hfresh f hf).symm, ih hrest hf, List.nil_append]

/-- However its bracketed conditions are ordered, writing them gives the node. -/
def Rebuilt (n : Node) : Prop :=
  ∀ bs : List Bracketed, bs.Perm n.brackets → n.value.same (.map (bs.foldl Bracketed.writeTo [])) = true

theorem rebuilt_condition {entries : List (Operator × Value)} (h : (condition entries).Sound) :
    (condition entries).Rebuilt := by
  intro bs hperm
  obtain ⟨-, hdistinct, hreadable⟩ := h
  have hpath : ∀ b ∈ bs, b.path = [] := by
    intro b hb
    obtain ⟨e, -, rfl⟩ := List.mem_map.mp (hperm.mem_iff.mp hb)
    rfl
  have hoperators : (bs.map (·.operator)).Nodup := by
    refine (hperm.map _).nodup_iff.mpr ?_
    rw [brackets, List.map_map]
    exact hdistinct
  have htokens : (entries.map (·.1.token)).Nodup := by
    have hmap := hdistinct.map Operator.token_injective
    rwa [List.map_map] at hmap
  rw [value, Value.same_map_iff, length_foldl_writeTo htokens, operands, List.length_map,
    List.length_map]
  · refine ⟨rfl, ?_⟩
    rw [List.forall_mem_map]
    intro e he
    have hb : ⟨[], e.1, e.2⟩ ∈ bs := hperm.mem_iff.mpr (List.mem_map_of_mem he)
    exact ⟨e.2, find_foldl_operand hpath hoperators hb, (hreadable e he).same_self⟩
  · intro s
    simp only [hperm.mem_iff, brackets, List.mem_map, exists_exists_and_eq_and]
    rfl

theorem same_fields (h : SoundFields fs) (hrebuilt : ∀ f ∈ fs, f.2.Rebuilt)
    (hperm : bs.Perm (bracketsOf fs)) :
    (Value.map (fields fs)).same (.map (bs.foldl Bracketed.writeTo [])) = true := by
  rw [Value.same_map_iff, length_foldl_writeTo h.nodup, fields_eq, List.length_map, List.length_map]
  · refine ⟨rfl, ?_⟩
    rw [List.forall_mem_map]
    intro f hf
    have hunder : (under f.1 bs).Perm f.2.brackets := by
      rw [← h.under_bracketsOf hf]
      exact hperm.filterMap _
    have hpath : ∀ b ∈ bs, b.path ≠ [] := fun b hb => path_ne_nil b (hperm.mem_iff.mp hb)
    refine ⟨.map ((under f.1 bs).foldl Bracketed.writeTo []), ?_, hrebuilt f hf _ hunder⟩
    have hsome : under f.1 bs ≠ [] := by
      intro hnil
      rw [hnil] at hunder
      exact brackets_ne_nil (h.mem hf).2 hunder.symm.eq_nil
    exact (find_foldl_writeTo fun b hb hnil => absurd hnil (hpath b hb)).trans (if_neg hsome)
  · intro s
    rw [h.mem_names_iff]
    simp only [hperm.mem_iff]

mutual

theorem rebuilt : ∀ n : Node, n.Sound → n.Rebuilt
  | condition _, h => rebuilt_condition h
  | relation fs, h => fun _ hperm => same_fields h.2 (rebuilt_all fs h.2) hperm

theorem rebuilt_all : ∀ fs : List (String × Node), SoundFields fs → ∀ f ∈ fs, f.2.Rebuilt
  | [], _ => by simp
  | (_, n) :: rest, h => List.forall_mem_cons.mpr ⟨rebuilt n h.2.2.1, rebuilt_all rest h.2.2.2⟩

end

end Node

end Listing.FilterTree
