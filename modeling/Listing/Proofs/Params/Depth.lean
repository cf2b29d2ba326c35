import Listing.Proofs.Entries
import Listing.Proofs.Params.BracketKey
import Listing.Proofs.Params.Operand

/-!
# How deep filters can be

However a query nests what it sends, its filters are no deeper than 35. A JSON object is held to a depth
of 32, and reading it as filters can put one level more around a bare value. A bracketed key has at most 32
names, below which stand the operator and the operand, which is a scalar or a row of scalars.
-/

namespace Listing

open Outcome
open Value (depth depthAll depthEntries)

theorem Value.one_le_depth (v : Value) : 1 ≤ depth v := by
  rw [Value.depth_eq]
  exact Nat.le_add_left 1 _

theorem Value.depthEntries_append (es fs : Fields) :
    depthEntries (es ++ fs) = max (depthEntries es) (depthEntries fs) := by
  induction es with
  | nil => exact (Nat.zero_max _).symm
  | cons e es ih =>
    obtain ⟨k, v⟩ := e
    rw [List.cons_append, depthEntries, depthEntries, ih, Nat.max_assoc]

/-! ## Filters from JSON -/

namespace FilterTree

theorem depthEntries_knownOperators_le (es : Fields) :
    depthEntries (knownOperators es) ≤ depthEntries es := by
  rw [Value.depthEntries_le_iff]
  intro e he
  obtain ⟨⟨k, v⟩, hmem, hkept⟩ := List.mem_filterMap.mp he
  obtain ⟨op, -, rfl⟩ := Option.map_eq_some_iff.mp hkept
  exact Value.depthEntries_le_iff.mp (Nat.le_refl _) (k, v) hmem

theorem depthEntries_entry_le (k : Key) (es : Fields) : depthEntries (entry k es) ≤ depthEntries es + 1 := by
  unfold entry
  split
  · exact Nat.zero_le _
  · exact Nat.max_le.mpr ⟨(Nat.le_refl _), Nat.zero_le _⟩

mutual

/-- Reading a JSON object as filters adds at most one level. -/
theorem depthEntries_ofJson_le : ∀ es : Fields, depthEntries (ofJson es) ≤ depthEntries es + 1
  | [] => Nat.zero_le _
  | (k, v) :: rest => by
    have hrest := depthEntries_ofJson_le rest
    have hfirst : depthEntries (if isName k then ofJsonValue k v else []) ≤ depth v + 1 := by
      split
      · exact depthEntries_ofJsonValue_le k v
      · exact Nat.zero_le _
    rw [ofJson, Value.depthEntries_append, depthEntries]
    omega

theorem depthEntries_ofJsonValue_le (k : Key) : ∀ v : Value,
    depthEntries (ofJsonValue k v) ≤ depth v + 1
  | .map es => by
    have hknown := depthEntries_knownOperators_le es
    have hinner := depthEntries_ofJson_le es
    rw [ofJsonValue, depth]
    split
    · have hentry := depthEntries_entry_le k (knownOperators es)
      omega
    · have hentry := depthEntries_entry_le k (ofJson es)
      omega
  | .none | .bool _ | .int _ | .float _ | .text _ | .bytes _ | .operator _ | .direction _ | .list _
  | .tuple _ | .set _ | .object _ _ | .items _ | .rule _ | .policy _ =>
    Nat.le_of_eq (Nat.max_zero _)

end

/-! ## Filters from brackets -/

theorem depthEntries_put_le (es : Fields) (k : Key) (v : Value) :
    depthEntries (es.put k v) ≤ max (depthEntries es) (depth v) := by
  induction es with
  | nil => simp [Entries.put, depthEntries]
  | cons e es ih =>
    obtain ⟨k', w⟩ := e
    rw [Entries.put]
    split
    · simp only [depthEntries]
      omega
    · simp only [depthEntries]
      omega

theorem depthEntries_branch_le (tree : Fields) (name : String) :
    depthEntries (branch tree name) ≤ depthEntries tree - 1 := by
  unfold branch
  split
  · next es hfind =>
    obtain ⟨k, -, hmem⟩ := Entries.mem_of_find hfind
    have hdepth : depth (.map es) ≤ depthEntries tree := Value.depthEntries_le_iff.mp (Nat.le_refl _) _ hmem
    rw [depth] at hdepth
    omega
  · exact Nat.zero_le _

/-- Writing an operand goes no deeper than the tree was, or than the operand below its path. -/
theorem depthEntries_write_le (tree : Fields) (path : List String) (op : Operator) (v : Value) :
    depthEntries (write tree path op v) ≤ max (depthEntries tree) (path.length + depth v) := by
  induction path generalizing tree with
  | nil =>
    have hput := depthEntries_put_le tree (.text op.token) v
    rwa [List.length_nil, Nat.zero_add]
  | cons name rest ih =>
    have hput := depthEntries_put_le tree (.text name) (.map (write (branch tree name) rest op v))
    have hbelow := ih (branch tree name)
    have hbranch := depthEntries_branch_le tree name
    have hv := v.one_le_depth
    rw [depth] at hput
    rw [write, List.length_cons]
    omega

theorem depthEntries_foldl_writeTo_le {bs : List Bracketed} {d : Nat}
    (h : ∀ b ∈ bs, b.path.length + depth b.operand ≤ d) {tree : Fields} (htree : depthEntries tree ≤ d) :
    depthEntries (bs.foldl Bracketed.writeTo tree) ≤ d := by
  induction bs generalizing tree with
  | nil => exact htree
  | cons b bs ih =>
    obtain ⟨hb, hbs⟩ := List.forall_mem_cons.mp h
    refine ih hbs ?_
    have hwrite := depthEntries_write_le tree b.path b.operator b.operand
    exact Nat.le_trans hwrite (Nat.max_le.mpr ⟨htree, hb⟩)

end FilterTree

theorem Operand.depth_of_scalar {s : String} {v : Value} (h : scalar s = .ok v) : depth v = 1 := by
  rcases scalar_cases h with ⟨_, rfl⟩ | ⟨_, rfl⟩ | ⟨_, rfl⟩ | ⟨_, rfl⟩ <;> rfl

theorem Operand.depth_le_of_coerce {op : Operator} {s : String} {v : Value} (h : coerce op s = .ok v) :
    depth v ≤ 2 := by
  unfold coerce at h
  split at h
  · obtain ⟨values, hvalues, hv⟩ := bind_eq_ok.mp h
    obtain rfl := Except.ok.inj hv
    rw [depth, Nat.succ_le_succ_iff, Value.depthAll_le_iff]
    intro x hx
    obtain ⟨part, -, hpart⟩ := exists_source (mapM_eq_ok.mp hvalues) hx
    exact Nat.le_of_eq (depth_of_scalar hpart)
  · rw [depth_of_scalar h]
    decide

/-! ## Filters of a query -/

namespace FilterTree

theorem depth_le_of_bracketed? {label : String} {pair : Value × Value} {b : Bracketed}
    (h : bracketed? label pair = .ok (some b)) :
    b.path.length + depth b.operand ≤ BracketKey.maxNames + 2 := by
  unfold bracketed? at h
  obtain ⟨key, -, h⟩ := bind_eq_ok.mp h
  split at h
  · nomatch Except.ok.inj h
  · next path hpath =>
    obtain ⟨text, -, h⟩ := bind_eq_ok.mp h
    obtain ⟨operand, hoperand, h⟩ := bind_eq_ok.mp h
    obtain rfl := Option.some.inj (Except.ok.inj h)
    exact Nat.add_le_add (BracketKey.keyable_of_read? hpath).length_le
      (Operand.depth_le_of_coerce hoperand)

theorem depthEntries_of_ofBrackets {label : String} {pairs : List (Value × Value)} {es : Fields}
    (h : ofBrackets label pairs = .ok es) : depthEntries es ≤ BracketKey.maxNames + 2 := by
  unfold ofBrackets at h
  obtain ⟨found, hfound, h⟩ := bind_eq_ok.mp h
  obtain rfl := Except.ok.inj h
  refine depthEntries_foldl_writeTo_le (fun b hb => ?_) (Nat.zero_le _)
  obtain ⟨b?, hmem, hsome⟩ := List.mem_filterMap.mp hb
  obtain rfl : b? = some b := hsome
  obtain ⟨pair, -, hpair⟩ := exists_source (mapM_eq_ok.mp hfound) hmem
  exact depth_le_of_bracketed? hpair

end FilterTree

theorem ObjectParam.depth_of_fields? {v : Option Value} {es : Fields}
    (h : (ofParam? v).fields? = some es) : depth (.map es) ≤ maxFilterDepth := by
  have hvalue : ∀ w, (ofValue w).fields? = some es → depth (.map es) ≤ maxFilterDepth := by
    intro w hw
    unfold ofValue at hw
    split at hw
    · next es' =>
      split at hw
      · cases hw
      · next hdepth =>
        obtain rfl := Option.some.inj hw
        simpa [Value.deeper_eq] using hdepth
    · cases hw
  unfold ofParam? at h
  split at h
  · cases h
  · exact hvalue _ h
  · split at h
    · cases h
    · split at h
      · cases h
      · next s _ _ =>
        cases hparse : Json.parse? s with
        | none => simp [hparse, fields?] at h
        | some w => exact hvalue w (by simpa [hparse] using h)

namespace QueryParams

theorem depth_of_parseFilters {config : Config} {pairs : List (Value × Value)} {es : Fields}
    (h : parseFilters config pairs = .ok es) : depth (.map es) ≤ 35 := by
  unfold parseFilters at h
  rw [depth]
  split at h
  · next object hobject =>
    obtain rfl := Except.ok.inj h
    have hdepth := ObjectParam.depth_of_fields? hobject
    have hread := FilterTree.depthEntries_ofJson_le object
    rw [depth, maxFilterDepth] at hdepth
    omega
  · have hdepth := FilterTree.depthEntries_of_ofBrackets h
    rw [BracketKey.maxNames] at hdepth
    omega

theorem depth_of_ofPairs {config : Config} {pairs : List (Value × Value)} {q : QueryParams} {es : Fields}
    (h : ofPairs config pairs = .ok q) (hes : q.filters = some es) : depth (.map es) ≤ 35 := by
  obtain ⟨filters, -, hfilters, -, -, -, -, hq, -⟩ := ofPairs_eq_ok.mp h
  rw [hes, nonempty?] at hq
  split at hq
  · cases hq
  · obtain rfl := Option.some.inj hq
    exact depth_of_parseFilters hfilters

open Value in
/-- **Depth.** Whatever a query holds, its filters are no deeper than 35. The test of JSON objects, in
whatever order it takes the items of its worklist, cannot go on forever or get stuck, and comes to one
answer: whether the depth passes 32. -/
theorem filters_within_depth (config : Config) (pairs : List (String × String)) :
    (∀ raw q es, (raw = .items (textPairs pairs) ∨
        raw = .list (pairs.map fun (k, v) => .tuple [.text k, .text v])) →
      parse config raw = .ok q → q.filters = some es → depth (.map es) ≤ 35) ∧
    WellFounded (fun next work => Worklist.Step maxFilterDepth work next) ∧
    (∀ work, (∃ answer, Worklist.Answers maxFilterDepth work answer) ∨
      ∃ next, Worklist.Step maxFilterDepth work next) ∧
    ∀ v, deeper maxFilterDepth v = decide (32 < depth v) ∧
      ∀ answer, Worklist.Run maxFilterDepth [(v, 1)] answer ↔ answer = decide (32 < depth v) := by
  refine ⟨fun raw q es hraw hq hes => ?_, Worklist.wellFounded_step _, Worklist.exists_answer_or_step _,
    fun v => ⟨deeper_eq _ v, fun _ => Worklist.run_iff⟩⟩
  have hitems : parse config (.items (textPairs pairs)) = .ok q := by
    rcases hraw with rfl | rfl
    · exact hq
    · rwa [parse_list] at hq
  exact depth_of_ofPairs hitems hes

/-- A list below as many names as a key may have, and a bare value above it. -/
def deepestPairs : List (String × String) :=
  [(BracketKey.write "filters" (List.replicate BracketKey.maxNames "a"), "in:1,2"), ("filters[a]", "x")]

/-- No filters are deeper than those of a list below as many names as a key may have. -/
theorem filters_within_depth_deepest :
    ∃ q es, parse {} (.items (textPairs deepestPairs)) = .ok q ∧ q.filters = some es ∧
      depth (.map es) = 35 ∧ depth (.map es) ≤ 35 := by
  have hdeepest : ((parse {} (.items (textPairs deepestPairs))).toOption.bind (·.filters)).map
      (fun es => depth (.map es)) = some 35 := by
    decide +kernel
  obtain ⟨es, hes, hdepth⟩ := Option.map_eq_some_iff.mp hdeepest
  obtain ⟨q, hsome, hfilters⟩ := Option.bind_eq_some_iff.mp hes
  have hq : parse {} (.items (textPairs deepestPairs)) = .ok q := by
    cases hparse : parse {} (.items (textPairs deepestPairs)) with
    | error f => nomatch hparse ▸ hsome
    | ok q' =>
      rw [hparse] at hsome
      exact congrArg Except.ok (Option.some.inj hsome)
  exact ⟨q, es, hq, hfilters, hdepth, (filters_within_depth {} deepestPairs).1 _ q es (.inl rfl) hq hfilters⟩

end QueryParams
end Listing
