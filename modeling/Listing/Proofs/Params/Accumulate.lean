import Listing.Proofs.Params.Total
import Listing.Proofs.Params.Tree
import Mathlib.Data.List.Find

/-!
# What bracketed pairs leave

A tree that bracketed conditions were written to holds, at the end of each path, the operand that was
written there last, and nothing that was not written. So it is whether or not a path leads past the end of
another, as long as no name is the token of an operator. At each path it is the tree of the conditions
beneath that path.
-/

namespace Listing

open Outcome

namespace FilterTree

/-! ## Places in a tree -/

/-- The mapping that a path of names leads to, if each name on the way has one. -/
def nodeAt? : List String → Fields → Option Fields
  | [], tree => some tree
  | name :: rest, tree => ((tree.find name).bind Value.fields?).bind (nodeAt? rest)

/-- What stands at the end of a path of names under the token of an operator. -/
def operandAt? (path : List String) (op : Operator) (tree : Fields) : Option Value :=
  (nodeAt? path tree).bind (·.find op.token)

/-! ## Conditions beneath a path -/

/-- The bracketed conditions beneath a path of names. -/
def beneath : List String → List Bracketed → List Bracketed
  | [], bs => bs
  | name :: rest, bs => beneath rest (under name bs)

/-- The last operand that bracketed conditions have for a path and an operator. -/
def lastOperand? (bs : List Bracketed) (path : List String) (op : Operator) : Option Value :=
  (bs.reverse.find? fun b => b.path = path ∧ b.operator = op).map (·.operand)

/-- Whether a bracketed condition can be told from others: no name on its path is the token of an operator,
and its operand is no mapping. -/
structure Bracketed.Plain (b : Bracketed) : Prop where
  names : ∀ name ∈ b.path, ∀ op : Operator, name ≠ op.token
  operand : b.operand.fields? = none

variable {bs : List Bracketed} {b : Bracketed} {path rest : List String} {name : String} {op : Operator}
  {x : Value}

theorem mem_under (h : b ∈ under name bs) : b.below name ∈ bs := by
  obtain ⟨c, hc, hsome⟩ := List.mem_filterMap.mp h
  obtain ⟨cpath, cop, v⟩ := c
  cases cpath with
  | nil => nomatch hsome
  | cons first rest =>
    dsimp only at hsome
    split at hsome
    · next hfirst =>
      obtain rfl := Option.some.inj hsome
      obtain rfl := hfirst
      exact hc
    · nomatch hsome

theorem plain_under (h : ∀ b ∈ bs, b.Plain) : ∀ b ∈ under name bs, b.Plain := by
  intro b hb
  obtain ⟨hnames, hoperand⟩ := h _ (mem_under hb)
  exact ⟨fun s hs => hnames s (List.mem_cons_of_mem name hs), hoperand⟩

theorem plain_beneath (h : ∀ b ∈ bs, b.Plain) : ∀ b ∈ beneath path bs, b.Plain := by
  induction path generalizing bs with
  | nil => exact h
  | cons name rest ih => exact ih (plain_under h)

theorem mem_beneath (h : b ∈ beneath path bs) : { b with path := path ++ b.path } ∈ bs := by
  induction path generalizing bs with
  | nil => exact h
  | cons name rest ih => exact mem_under (ih h)

theorem beneath_append (path rest : List String) (bs : List Bracketed) :
    beneath (path ++ rest) bs = beneath rest (beneath path bs) := by
  induction path generalizing bs with
  | nil => rfl
  | cons name path ih => exact ih (under name bs)

theorem beneath_nil (path : List String) : beneath path [] = [] := by
  induction path with
  | nil => rfl
  | cons name rest ih => exact ih

theorem under_token (h : ∀ b ∈ bs, b.Plain) (op : Operator) : under op.token bs = [] := by
  refine List.eq_nil_iff_forall_not_mem.mpr fun b hb => ?_
  exact (h _ (mem_under hb)).names op.token List.mem_cons_self op rfl

theorem lastOperand?_under (bs : List Bracketed) (name : String) (rest : List String) (op : Operator) :
    lastOperand? (under name bs) rest op = lastOperand? bs (name :: rest) op := by
  have hfind : ∀ cs : List Bracketed,
      ((under name cs).find? fun b => b.path = rest ∧ b.operator = op).map (·.operand) =
        (cs.find? fun b => b.path = name :: rest ∧ b.operator = op).map (·.operand) := by
    intro cs
    induction cs with
    | nil => rfl
    | cons c cs ih =>
      obtain ⟨cpath, cop, v⟩ := c
      cases cpath with
      | nil => simpa [under] using ih
      | cons first others =>
        by_cases hfirst : first = name
        · subst hfirst
          by_cases hrest : others = rest ∧ cop = op
          · simp [under, hrest]
          · simpa [under, hrest] using ih
        · simpa [under, hfirst] using ih
  rw [lastOperand?, lastOperand?, ← hfind, under, under, List.filterMap_reverse]

theorem lastOperand?_beneath (bs : List Bracketed) (path rest : List String) (op : Operator) :
    lastOperand? (beneath path bs) rest op = lastOperand? bs (path ++ rest) op := by
  induction path generalizing bs with
  | nil => rfl
  | cons name path ih => rw [beneath, ih, lastOperand?_under, List.cons_append]

/-! ## What was written -/

theorem lastOperand?_concat (bs : List Bracketed) (b : Bracketed) (path : List String) (op : Operator) :
    lastOperand? (bs ++ [b]) path op =
      if b.path = path ∧ b.operator = op then some b.operand else lastOperand? bs path op := by
  rw [lastOperand?, List.reverse_append, List.reverse_singleton, List.singleton_append, List.find?_cons]
  by_cases hb : b.path = path ∧ b.operator = op
  · simp [hb]
  · simp [hb, lastOperand?]

theorem find_foldl_token (h : ∀ b ∈ bs, b.Plain) (op : Operator) :
    (bs.foldl Bracketed.writeTo []).find op.token = lastOperand? bs [] op := by
  induction bs using List.reverseRecOn with
  | nil => rfl
  | append_singleton bs b ih =>
    obtain ⟨hbs, hb⟩ := List.forall_mem_append.mp h
    rw [List.foldl_append, List.foldl_cons, List.foldl_nil, lastOperand?_concat, ← ih hbs]
    obtain ⟨cpath, cop, v⟩ := b
    cases cpath with
    | nil =>
      have hwrite : ∀ tree, Bracketed.writeTo tree ⟨[], cop, v⟩ = tree.put (.text cop.token) v :=
        fun _ => rfl
      rw [hwrite, Entries.find_put]
      by_cases hop : cop = op
      · simp [hop]
      · simp [hop, mt (fun h => Operator.token_injective h) hop]
    | cons first others =>
      obtain ⟨w, hw⟩ := exists_writeTo (bs.foldl Bracketed.writeTo []) ⟨first :: others, cop, v⟩
      have hfirst : first ≠ op.token :=
        (List.forall_mem_singleton.mp hb).names first List.mem_cons_self op
      have hhead : Bracketed.head ⟨first :: others, cop, v⟩ = first := rfl
      rw [hw, Entries.find_put, hhead, if_neg hfirst, if_neg (fun h => nomatch h.1)]

theorem lastOperand?_operand (h : ∀ b ∈ bs, b.Plain) (hx : lastOperand? bs path op = some x) :
    x.fields? = none := by
  obtain ⟨b, hb, rfl⟩ := Option.map_eq_some_iff.mp hx
  exact (h b (List.mem_reverse.mp (List.mem_of_find?_eq_some hb))).operand

theorem find_foldl_name (h : ∀ b ∈ bs, b.Plain) (name : String) :
    ((bs.foldl Bracketed.writeTo []).find name).bind Value.fields? =
      if under name bs = [] then none else some ((under name bs).foldl Bracketed.writeTo []) := by
  by_cases htoken : ∃ op : Operator, op.token = name
  · -- the token of an operator holds an operand, which is no mapping
    obtain ⟨op, rfl⟩ := htoken
    rw [find_foldl_token h, if_pos (under_token h op), Option.bind_eq_none_iff]
    exact fun x hx => lastOperand?_operand h hx
  · rw [find_foldl_writeTo fun b _ _ heq => htoken ⟨b.operator, heq⟩]
    split
    · rfl
    · rfl

/-- **Subtrees.** A path leads to the tree of the conditions beneath it, if there are any. -/
theorem nodeAt?_foldl (h : ∀ b ∈ bs, b.Plain) (path : List String) :
    nodeAt? path (bs.foldl Bracketed.writeTo []) =
      if path = [] ∨ beneath path bs ≠ [] then
        some ((beneath path bs).foldl Bracketed.writeTo []) else none := by
  induction path generalizing bs with
  | nil => rfl
  | cons name rest ih =>
    rw [nodeAt?, find_foldl_name h, beneath]
    by_cases hnone : under name bs = []
    · rw [if_pos hnone, hnone, beneath_nil, if_neg (by simp)]
      rfl
    · rw [if_neg hnone, Option.bind_some, ih (plain_under h)]
      cases rest with
      | nil => simp [beneath, hnone]
      | cons _ _ => simp

theorem operandAt?_foldl (h : ∀ b ∈ bs, b.Plain) (path : List String) (op : Operator) :
    operandAt? path op (bs.foldl Bracketed.writeTo []) = lastOperand? bs path op := by
  have hlast := lastOperand?_beneath bs path [] op
  rw [List.append_nil] at hlast
  rw [operandAt?, nodeAt?_foldl h, ← hlast]
  split
  · rw [Option.bind_some, find_foldl_token (plain_beneath h)]
  · next hnone =>
    rw [not_or, not_not] at hnone
    rw [hnone.2]
    rfl

/-! ## Nothing else -/

theorem find_of_mem {es : Fields} {names : List String} (hkeys : es.map Prod.fst = names.map Key.text)
    (hnodup : names.Nodup) (h : (.text name, x) ∈ es) : es.find name = some x := by
  induction es generalizing names with
  | nil => nomatch h
  | cons e es ih =>
    obtain ⟨k, y⟩ := e
    cases names with
    | nil => nomatch hkeys
    | cons s names =>
      obtain ⟨hk, htail⟩ := List.cons.inj hkeys
      obtain rfl : k = .text s := hk
      obtain ⟨hfresh, hnodup⟩ := List.nodup_cons.mp hnodup
      rw [Entries.find_cons, Key.name?_text]
      rcases List.mem_cons.mp h with heq | hmem
      · obtain ⟨hname, rfl⟩ := Prod.mk.inj heq
        rw [Key.text.inj hname, if_pos rfl]
      · have hs : s ≠ name := by
          rintro rfl
          have hkey : Key.text s ∈ names.map Key.text := htail ▸ List.mem_map_of_mem hmem
          obtain ⟨t, ht, heq⟩ := List.mem_map.mp hkey
          exact hfresh (Key.text.inj heq ▸ ht)
        rw [if_neg (by simpa using hs), ih htail hnodup hmem]

theorem entry_cases (h : ∀ b ∈ bs, b.Plain) {k : Key} (hx : (k, x) ∈ bs.foldl Bracketed.writeTo []) :
    (∃ op : Operator, k = .text op.token ∧ (bs.foldl Bracketed.writeTo []).find op.token = some x) ∨
      ∃ name, k = .text name ∧ under name bs ≠ [] ∧
        x = .map ((under name bs).foldl Bracketed.writeTo []) := by
  obtain ⟨names, hkeys, hnodup, hmem⟩ := exists_names bs
  have hk : k ∈ names.map Key.text := hkeys ▸ List.mem_map_of_mem hx
  obtain ⟨s, hs, rfl⟩ := List.mem_map.mp hk
  have hfind := find_of_mem hkeys hnodup hx
  obtain ⟨b, hb, rfl⟩ := (hmem s).mp hs
  have hplain := h b hb
  obtain ⟨path, op, v⟩ := b
  cases path with
  | nil => exact .inl ⟨op, rfl, hfind⟩
  | cons name rest =>
    have hhead : Bracketed.head ⟨name :: rest, op, v⟩ = name := rfl
    rw [hhead] at hfind ⊢
    have hunder : under name bs ≠ [] :=
      List.ne_nil_of_mem (List.mem_filterMap.mpr ⟨_, hb, if_pos rfl⟩)
    have htoken : ∀ c ∈ bs, c.path = [] → c.operator.token ≠ name :=
      fun c _ _ heq => hplain.names name List.mem_cons_self c.operator heq.symm
    rw [find_foldl_writeTo htoken, if_neg hunder] at hfind
    exact .inr ⟨name, rfl, hunder, (Option.some.inj hfind).symm⟩

/-- Wherever a path leads, no key occurs twice, and each is the token of an operator, with the operand
there, or a name, with the mapping that the longer path leads to and that was written to. -/
theorem entries_foldl (h : ∀ b ∈ bs, b.Plain) {es : Fields}
    (hes : nodeAt? path (bs.foldl Bracketed.writeTo []) = some es) :
    (es.map Prod.fst).Nodup ∧ ∀ k x, (k, x) ∈ es →
      (∃ op : Operator, k = .text op.token ∧
        operandAt? path op (bs.foldl Bracketed.writeTo []) = some x) ∨
      ∃ name es', k = .text name ∧ x = .map es' ∧
        nodeAt? (path ++ [name]) (bs.foldl Bracketed.writeTo []) = some es' ∧
        ∃ b ∈ bs, path ++ [name] <+: b.path := by
  have htree : es = (beneath path bs).foldl Bracketed.writeTo [] := by
    rw [nodeAt?_foldl h] at hes
    split at hes
    · exact (Option.some.inj hes).symm
    · nomatch hes
  refine ⟨?_, fun k x hx => ?_⟩
  · obtain ⟨names, hkeys, hnodup, -⟩ := exists_names (beneath path bs)
    rw [htree, hkeys]
    exact hnodup.map fun _ _ heq => Key.text.inj heq
  · rw [htree] at hx
    rcases entry_cases (plain_beneath h) hx with ⟨op, rfl, hfind⟩ | ⟨name, rfl, hunder, rfl⟩
    · exact .inl ⟨op, rfl, by rw [operandAt?, hes, htree, Option.bind_some, hfind]⟩
    · refine .inr ⟨name, _, rfl, rfl, ?_, ?_⟩
      · rw [nodeAt?_foldl h, beneath_append]
        exact if_pos (.inr hunder)
      · obtain ⟨b, hb⟩ := List.exists_mem_of_ne_nil _ hunder
        exact ⟨_, mem_beneath (mem_under hb), b.path, by simp [Bracketed.below]⟩

end FilterTree

/-! ## Query pairs -/

theorem Operand.fields?_scalar {s : String} {v : Value} (h : scalar s = .ok v) : v.fields? = none := by
  rcases scalar_cases h with ⟨_, rfl⟩ | ⟨_, rfl⟩ | ⟨_, rfl⟩ | ⟨_, rfl⟩ <;> rfl

theorem Operand.fields?_coerce {op : Operator} {s : String} {v : Value} (h : coerce op s = .ok v) :
    v.fields? = none := by
  unfold coerce at h
  split at h
  · obtain ⟨values, -, hv⟩ := bind_eq_ok.mp h
    obtain rfl := Except.ok.inj hv
    rfl
  · exact fields?_scalar h

namespace FilterTree

/-- Whether the key of a query pair has a path and its value starts with an operator. -/
def Addresses (label : String) (path : List String) (op : Operator) (pair : String × String) : Prop :=
  BracketKey.read? label pair.1 = some path ∧ (Operand.splitOperator pair.2).1 = op

instance (label : String) (path : List String) (op : Operator) (pair : String × String) :
    Decidable (Addresses label path op pair) := inferInstanceAs (Decidable (_ ∧ _))

/-- The operand that the value of a query pair has under its operator. -/
def pairOperand (pair : String × String) : Except Failure Value :=
  Operand.coerce (Operand.splitOperator pair.2).1 (Operand.splitOperator pair.2).2

/-- Whether a query pair is the last with a path and an operator. -/
def LastAddressing (label : String) (path : List String) (op : Operator) (pairs : List (String × String))
    (pair : String × String) : Prop :=
  ∃ before after, pairs = before ++ pair :: after ∧ Addresses label path op pair ∧
    ∀ later ∈ after, ¬Addresses label path op later

/-- The bracketed condition of a query pair, if it has a path and an operand. -/
def condition? (label : String) (pair : String × String) : Option Bracketed :=
  (BracketKey.read? label pair.1).bind fun path =>
    (pairOperand pair).toOption.map fun x => ⟨path, (Operand.splitOperator pair.2).1, x⟩

variable {label : String} {pairs : List (String × String)} {pair : String × String}

theorem condition?_eq_some_iff :
    condition? label pair = some b ↔
      Addresses label b.path b.operator pair ∧ pairOperand pair = .ok b.operand := by
  obtain ⟨path, op, x⟩ := b
  unfold condition? Addresses
  cases BracketKey.read? label pair.1 with
  | none => simp
  | some names =>
    cases pairOperand pair with
    | error _ => simp [Except.toOption]
    | ok y => simp [Except.toOption, and_assoc]

/-- Whether each query pair that has a path has an operand. -/
def Coercible (label : String) (pairs : List (String × String)) : Prop :=
  ∀ pair ∈ pairs, ∀ path, BracketKey.read? label pair.1 = some path → ∃ x, pairOperand pair = .ok x

/-- Whether no name in the path of a query pair is the token of an operator. -/
def Unmarked (label : String) (pairs : List (String × String)) : Prop :=
  ∀ pair ∈ pairs, ∀ path, BracketKey.read? label pair.1 = some path →
    ∀ name ∈ path, ∀ op : Operator, name ≠ op.token

theorem ofBrackets_conditions (h : Coercible label pairs) :
    ofBrackets label (textPairs pairs) =
      .ok ((pairs.filterMap (condition? label)).foldl Bracketed.writeTo []) := by
  have hread : ∀ pair ∈ pairs,
      bracketed? label (.text pair.1, .text pair.2) = .ok (condition? label pair) := by
    intro pair hpair
    rw [bracketed?_text, condition?]
    cases hkey : BracketKey.read? label pair.1 with
    | none => rfl
    | some path =>
      obtain ⟨x, hx⟩ := h pair hpair path hkey
      simp only [pairOperand] at hx ⊢
      rw [hx]
      rfl
  have hall : (textPairs pairs).mapM (bracketed? label) = .ok (pairs.map (condition? label)) := by
    rw [mapM_eq_ok, textPairs, List.forall₂_map_left_iff, List.forall₂_map_right_iff,
      List.forall₂_same]
    exact hread
  have hfound : (pairs.map (condition? label)).filterMap id = pairs.filterMap (condition? label) :=
    List.filterMap_map
  rw [ofBrackets, hall, ← hfound]
  rfl

theorem plain_conditions (h : Unmarked label pairs) :
    ∀ b ∈ pairs.filterMap (condition? label), b.Plain := by
  intro b hb
  obtain ⟨pair, hpair, hsome⟩ := List.mem_filterMap.mp hb
  obtain ⟨haddress, hoperand⟩ := condition?_eq_some_iff.mp hsome
  exact ⟨h pair hpair b.path haddress.1, Operand.fields?_coerce hoperand⟩

theorem lastAddressing_iff :
    LastAddressing label path op pairs pair ↔
      pairs.reverse.find? (fun p => Addresses label path op p) = some pair := by
  rw [List.find?_eq_some_iff_append, decide_eq_true_eq]
  constructor
  · rintro ⟨before, after, rfl, haddress, hafter⟩
    exact ⟨haddress, after.reverse, before.reverse, by simp, by simpa using hafter⟩
  · rintro ⟨haddress, after, before, heq, hafter⟩
    rw [List.reverse_eq_iff] at heq
    exact ⟨before.reverse, after.reverse, by simp [heq], haddress, by simpa using hafter⟩

theorem lastOperand?_conditions (h : Coercible label pairs) (path : List String) (op : Operator) :
    lastOperand? (pairs.filterMap (condition? label)) path op =
      (pairs.reverse.find? fun p => Addresses label path op p).bind fun p => (pairOperand p).toOption := by
  have hoperand : ∀ p ∈ pairs.reverse, Addresses label path op p →
      ∃ x, pairOperand p = .ok x ∧ condition? label p = some ⟨path, op, x⟩ := by
    intro p hp haddress
    obtain ⟨x, hx⟩ := h p (List.mem_reverse.mp hp) path haddress.1
    exact ⟨x, hx, condition?_eq_some_iff.mpr ⟨haddress, hx⟩⟩
  have hsame : ∀ p ∈ pairs.reverse,
      (condition? label p).any (fun b => b.path = path ∧ b.operator = op) =
        decide (Addresses label path op p) := by
    intro p hp
    rw [Bool.eq_iff_iff, decide_eq_true_eq, Option.any_eq_true]
    constructor
    · rintro ⟨b, hb, heq⟩
      obtain ⟨rfl, rfl⟩ := of_decide_eq_true heq
      exact (condition?_eq_some_iff.mp hb).1
    · intro haddress
      obtain ⟨x, -, hx⟩ := hoperand p hp haddress
      exact ⟨_, hx, by simp⟩
  rw [lastOperand?, ← List.filterMap_reverse, List.find?_filterMap, List.find?_congr hsame]
  cases hlast : pairs.reverse.find? fun p => Addresses label path op p with
  | none => rfl
  | some p =>
    have haddress : Addresses label path op p := by simpa using List.find?_some hlast
    obtain ⟨x, hx, hcondition⟩ := hoperand p (List.mem_of_find?_eq_some hlast) haddress
    rw [Option.bind_some, Option.bind_some, hcondition, hx]
    rfl

/-- An operand is present where some query pair has the path and the operator, and is the operand of the
last such pair. -/
theorem operandAt?_conditions (hread : Coercible label pairs) (hnames : Unmarked label pairs)
    (path : List String) (op : Operator) (x : Value) :
    operandAt? path op ((pairs.filterMap (condition? label)).foldl Bracketed.writeTo []) = some x ↔
      ∃ pair, LastAddressing label path op pairs pair ∧ pairOperand pair = .ok x := by
  rw [operandAt?_foldl (plain_conditions hnames), lastOperand?_conditions hread, Option.bind_eq_some_iff]
  refine exists_congr fun pair => and_congr lastAddressing_iff.symm ?_
  cases pairOperand pair with
  | error _ => simp [Except.toOption]
  | ok y => simp [Except.toOption]

theorem exists_lastAddressing_iff :
    (∃ pair, LastAddressing label path op pairs pair) ↔ ∃ pair ∈ pairs, Addresses label path op pair := by
  simp only [lastAddressing_iff, ← Option.isSome_iff_exists, List.find?_isSome, List.mem_reverse,
    decide_eq_true_eq]

theorem LastAddressing.mem (h : LastAddressing label path op pairs pair) :
    pair ∈ pairs ∧ Addresses label path op pair := by
  obtain ⟨before, after, rfl, haddress, -⟩ := h
  exact ⟨by simp, haddress⟩

end FilterTree

open FilterTree in
/-- **Accumulation.** In the filters of query pairs that have operands, and no token of an operator among
the names in their keys, each path and operator that some pair has leads to the operand of the last such
pair, and no other path and operator leads to one. Nothing else stands in the filters: wherever a path
leads, each key occurs once and is the token of an operator, with the operand there, or the next name of
the path of some pair, with the mapping there. -/
theorem bracketed_filters_accumulate (label : String) (pairs : List (String × String))
    (hread : Coercible label pairs) (hnames : Unmarked label pairs) :
    ∃ tree, ofBrackets label (textPairs pairs) = .ok tree ∧
      (∀ path op, (∃ x, operandAt? path op tree = some x) ↔ ∃ pair ∈ pairs, Addresses label path op pair) ∧
      (∀ path op pair, LastAddressing label path op pairs pair →
        ∃ x, pairOperand pair = .ok x ∧ operandAt? path op tree = some x) ∧
      ∀ path es, nodeAt? path tree = some es →
        (es.map Prod.fst).Nodup ∧ ∀ k x, (k, x) ∈ es →
          (∃ op : Operator, k = .text op.token ∧ operandAt? path op tree = some x) ∨
          ∃ name es', k = .text name ∧ x = .map es' ∧ nodeAt? (path ++ [name]) tree = some es' ∧
            ∃ pair ∈ pairs, ∃ names, BracketKey.read? label pair.1 = some names ∧
              path ++ [name] <+: names := by
  have hplain := plain_conditions hnames
  refine ⟨_, ofBrackets_conditions hread, fun path op => ?present, fun path op pair hlast => ?last,
    fun path es hes => ?entries⟩
  case present =>
    simp only [operandAt?_conditions hread hnames]
    rw [exists_comm, ← exists_lastAddressing_iff]
    refine exists_congr fun pair => ⟨fun ⟨_, hlast, _⟩ => hlast, fun hlast => ?_⟩
    obtain ⟨hmem, haddress⟩ := hlast.mem
    obtain ⟨x, hx⟩ := hread pair hmem path haddress.1
    exact ⟨x, hlast, hx⟩
  case last =>
    obtain ⟨hmem, haddress⟩ := hlast.mem
    obtain ⟨x, hx⟩ := hread pair hmem path haddress.1
    exact ⟨x, hx, (operandAt?_conditions hread hnames path op x).mpr ⟨pair, hlast, hx⟩⟩
  case entries =>
    obtain ⟨hnodup, hentries⟩ := entries_foldl hplain hes
    refine ⟨hnodup, fun k x hx => (hentries k x hx).imp_right ?_⟩
    rintro ⟨name, es', rfl, rfl, hnode, b, hb, hprefix⟩
    obtain ⟨pair, hpair, hsome⟩ := List.mem_filterMap.mp hb
    exact ⟨name, es', rfl, rfl, hnode, pair, hpair, b.path, (condition?_eq_some_iff.mp hsome).1.1, hprefix⟩

theorem FilterTree.pairOperand_write (op : Operator) {x : Value} (hx : Operand.Readable op x)
    (key : String) : pairOperand (key, op.word ++ ":" ++ Operand.write x) = .ok x := by
  rw [pairOperand, Operand.splitOperator_word (.inr rfl)]
  exact Operand.coerce_write hx

/-- Pairs of which two lead past the end of the others, with one place and operator twice. -/
def bossPairs : List (String × String) :=
  [("filters[boss][age]", "in:40,50"), ("filters[boss]", "ne:3"), ("filters[boss][age]", "eq:41"),
    ("filters[boss]", "ne:7")]

open FilterTree in
theorem bracketed_filters_accumulate_boss :
    Coercible "filters" bossPairs ∧ Unmarked "filters" bossPairs ∧
      ∃ tree, ofBrackets "filters" (textPairs bossPairs) = .ok tree ∧
        operandAt? ["boss"] .ne tree = some (.int 7) ∧
        operandAt? ["boss", "age"] .isIn tree = some (.list [.int 40, .int 50]) ∧
        operandAt? ["boss", "age"] .eq tree = some (.int 41) ∧
        ¬∃ x, operandAt? ["boss"] .eq tree = some x := by
  have hshort : ∀ n ∈ [3, 7, 40, 41, 50], (Nat.toDigits 10 n).length ≤ digitLimit := by decide
  have hint (n : Nat) (h : n ∈ [3, 7, 40, 41, 50]) : Operand.Scalar (.int n) := .int n (hshort n h)
  have hlist : Operand.Readable .isIn (.list [.int 40, .int 50]) := by
    refine .list rfl (by simp) ?_ ?_
    · exact List.forall_mem_cons.mpr ⟨hint 40 (by simp), List.forall_mem_singleton.mpr (hint 50 (by simp))⟩
    · refine List.forall_mem_cons.mpr ⟨?_, List.forall_mem_singleton.mpr ?_⟩ <;> rintro s ⟨⟩
  have hages : pairOperand ("filters[boss][age]", "in:40,50") = .ok (.list [.int 40, .int 50]) :=
    pairOperand_write .isIn hlist _
  have hfirst : pairOperand ("filters[boss]", "ne:3") = .ok (.int 3) :=
    pairOperand_write .ne (.scalar rfl (hint 3 (by simp))) _
  have hage : pairOperand ("filters[boss][age]", "eq:41") = .ok (.int 41) :=
    pairOperand_write .eq (.scalar rfl (hint 41 (by simp))) _
  have hboss : pairOperand ("filters[boss]", "ne:7") = .ok (.int 7) :=
    pairOperand_write .ne (.scalar rfl (hint 7 (by simp))) _
  have hread : Coercible "filters" bossPairs :=
    List.forall_mem_cons.mpr ⟨fun _ _ => ⟨_, hages⟩, List.forall_mem_cons.mpr ⟨fun _ _ => ⟨_, hfirst⟩,
      List.forall_mem_cons.mpr ⟨fun _ _ => ⟨_, hage⟩,
        List.forall_mem_singleton.mpr fun _ _ => ⟨_, hboss⟩⟩⟩⟩
  have hnames : Unmarked "filters" bossPairs := by
    have hmark : ∀ pair ∈ bossPairs, ∀ name ∈ (BracketKey.read? "filters" pair.1).getD [],
        name.toList.head? ≠ some '$' := by decide +kernel
    rintro pair hpair path hpath name hname op rfl
    refine hmark pair hpair op.token (by rwa [hpath]) ?_
    cases op <;> rfl
  obtain ⟨tree, htree, hpresent, hlast, -⟩ :=
    bracketed_filters_accumulate "filters" bossPairs hread hnames
  refine ⟨hread, hnames, tree, htree, ?_, ?_, ?_, ?_⟩
  · obtain ⟨x, hx, hat⟩ := hlast ["boss"] .ne ("filters[boss]", "ne:7")
      ⟨bossPairs.take 3, [], rfl, by decide +kernel, by simp⟩
    rw [hat, Except.ok.inj (hx.symm.trans hboss)]
  · obtain ⟨x, hx, hat⟩ := hlast ["boss", "age"] .isIn ("filters[boss][age]", "in:40,50")
      ⟨[], bossPairs.drop 1, rfl, by decide +kernel, by decide +kernel⟩
    rw [hat, Except.ok.inj (hx.symm.trans hages)]
  · obtain ⟨x, hx, hat⟩ := hlast ["boss", "age"] .eq ("filters[boss][age]", "eq:41")
      ⟨bossPairs.take 2, bossPairs.drop 3, rfl, by decide +kernel, by decide +kernel⟩
    rw [hat, Except.ok.inj (hx.symm.trans hage)]
  · rw [hpresent]
    decide +kernel

end Listing
