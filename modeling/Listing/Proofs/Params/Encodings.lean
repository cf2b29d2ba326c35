import Listing.Proofs.Params.Total
import Listing.Proofs.Params.Tree
import Listing.Proofs.Value.Depth

/-!
# The two encodings of filters

A tree of filters can be sent as one mapping, or the JSON text of one, or as bracketed conditions in any
order. Parsing gives equal filters for all of them: a mapping of the shape of a filter tree passes as it
is, and the bracketed conditions write it again.
-/

namespace Listing

open Outcome

namespace FilterTree

/-! ## As a mapping -/

namespace Node

theorem isMarked_token (op : Operator) : isMarked (.text op.token) = true := by
  cases op <;> decide

theorem entry_of_ne_nil {k : Key} {es : Fields} (h : es ≠ []) : entry k es = [(k, .map es)] := by
  rw [entry, if_neg (by simpa using h)]

theorem ofJsonValue_condition {entries : List (Operator × Value)} (hne : entries ≠ []) (k : Key) :
    ofJsonValue k (condition entries).value = [(k, (condition entries).value)] := by
  have hmarked : (operands entries).any (isMarked ·.1) = true := by
    obtain ⟨e, he⟩ := List.exists_mem_of_ne_nil _ hne
    exact List.any_eq_true.mpr ⟨_, List.mem_map_of_mem he, isMarked_token e.1⟩
  have hknown : knownOperators (operands entries) = operands entries := by
    rw [knownOperators, operands, List.filterMap_map, ← List.filterMap_eq_map]
    refine List.filterMap_congr fun e _ => ?_
    simp
  rw [value, ofJsonValue, if_pos hmarked, hknown, entry_of_ne_nil]
  simpa [operands] using hne

mutual

theorem ofJson_fields : ∀ fs : List (String × Node), SoundFields fs → ofJson (fields fs) = fields fs
  | [], _ => rfl
  | (name, n) :: rest, h => by
    obtain ⟨hname, -, hnode, hrest⟩ := h
    have hisName : isName (.text name) = true := by
      simpa [isName] using hname.1.1
    rw [fields, ofJson, if_pos hisName, ofJsonValue_value n hnode, ofJson_fields rest hrest]
    rfl

theorem ofJsonValue_value : ∀ n : Node, n.Sound → ∀ {k : Key},
    ofJsonValue k n.value = [(k, n.value)]
  | condition _, h, k => ofJsonValue_condition h.1 k
  | relation fs, h, k => by
    have hunmarked : (fields fs).any (isMarked ·.1) = false := by
      rw [fields_eq, List.any_map, List.any_eq_false]
      intro f hf
      simpa using (h.2.mem hf).1.2
    rw [value, ofJsonValue, hunmarked, if_neg Bool.false_ne_true, ofJson_fields fs h.2,
      entry_of_ne_nil]
    rw [fields_eq]
    exact mt List.map_eq_nil_iff.mp h.1

end

/-! ## Depth -/

theorem depth_condition_le {entries : List (Operator × Value)} (hne : entries ≠ []) {d : Nat}
    (hd : ∀ b ∈ (condition entries).brackets, b.path.length + b.operand.depth + 1 ≤ d) :
    (condition entries).value.depth ≤ d := by
  rw [brackets, List.forall_mem_map] at hd
  obtain ⟨e, he⟩ := List.exists_mem_of_ne_nil _ hne
  obtain ⟨d, rfl⟩ : ∃ d', d = d' + 1 := Nat.exists_eq_add_one.mpr (by have := hd e he; omega)
  rw [value, Value.depth, Nat.add_le_add_iff_right, Value.depthEntries_le_iff, operands, List.forall_mem_map]
  intro e he
  have hdepth : 0 + e.2.depth + 1 ≤ d + 1 := hd e he
  dsimp only
  omega

mutual

theorem depth_value_le : ∀ n : Node, n.Sound → ∀ {d : Nat},
    (∀ b ∈ n.brackets, b.path.length + b.operand.depth + 1 ≤ d) → n.value.depth ≤ d
  | condition _, h, _, hd => depth_condition_le h.1 hd
  | relation fs, h, d, hd => by
    obtain ⟨b, hb⟩ := List.exists_mem_of_ne_nil _ (brackets_ne_nil h)
    obtain ⟨d, rfl⟩ : ∃ d', d = d' + 1 := Nat.exists_eq_add_one.mpr (by have := hd b hb; omega)
    rw [value, Value.depth, Nat.add_le_add_iff_right]
    exact depth_fields_le fs h.2 hd

theorem depth_fields_le : ∀ fs : List (String × Node), SoundFields fs → ∀ {d : Nat},
    (∀ b ∈ bracketsOf fs, b.path.length + b.operand.depth + 1 ≤ d + 1) →
      Value.depthEntries (fields fs) ≤ d
  | [], _, _, _ => Nat.zero_le _
  | (name, n) :: rest, h, d, hd => by
    rw [bracketsOf, List.forall_mem_append, List.forall_mem_map] at hd
    rw [fields, Value.depthEntries, Nat.max_le]
    refine ⟨depth_value_le n h.2.2.1 fun b hb => ?_, depth_fields_le rest h.2.2.2 hd.2⟩
    have hdepth : b.path.length + 1 + b.operand.depth + 1 ≤ d + 1 := hd.1 b hb
    omega

end

end Node

/-! ## As bracketed conditions -/

/-- Whether the names of a bracketed condition can stand in a key, and its operand reads as itself. -/
def Bracketed.Sound (b : Bracketed) : Prop :=
  (∀ name ∈ b.path, BracketKey.Nameable name) ∧ Operand.Readable b.operator b.operand

namespace Node

mutual

theorem sound_of_mem_brackets : ∀ n : Node, n.Sound → ∀ b ∈ n.brackets, b.Sound
  | condition entries, h => by
    rw [brackets, List.forall_mem_map]
    exact fun e he => ⟨fun _ hname => (nomatch hname), h.2.2 e he⟩
  | relation fs, h => sound_of_mem_bracketsOf fs h.2

theorem sound_of_mem_bracketsOf : ∀ fs : List (String × Node), SoundFields fs →
    ∀ b ∈ bracketsOf fs, b.Sound
  | [], _ => fun _ h => nomatch h
  | (name, n) :: rest, h => by
    rw [bracketsOf, List.forall_mem_append, List.forall_mem_map]
    refine ⟨fun b hb => ?_, sound_of_mem_bracketsOf rest h.2.2.2⟩
    have hsound := sound_of_mem_brackets n h.2.2.1 b hb
    exact ⟨List.forall_mem_cons.mpr ⟨h.1.1, hsound.1⟩, hsound.2⟩

end

end Node

/-- Whether a pair of texts is a bracketed condition under a label: its key is written of the path, and
its value of a word for the operator, a colon and the operand. -/
def Writes (label : String) (b : Bracketed) (pair : String × String) : Prop :=
  ∃ word, Operand.Names word b.operator ∧
    pair = (BracketKey.write label b.path, word ++ ":" ++ Operand.write b.operand)

theorem bracketed?_of_writes {label : String} {b : Bracketed} {pair : String × String}
    (h : Writes label b pair) (hne : b.path ≠ []) (hlength : b.path.length ≤ BracketKey.maxNames)
    (hsound : b.Sound) : bracketed? label (.text pair.1, .text pair.2) = .ok (some b) := by
  obtain ⟨word, hword, rfl⟩ := h
  rw [bracketed?_text, BracketKey.read?_write label hne hlength hsound.1,
    Operand.splitOperator_word hword]
  dsimp only
  rw [Operand.coerce_write hsound.2]
  rfl

variable {label : String} {bs : List Bracketed} {pairs : List (String × String)}

/-- The pairs that bracketed conditions are written as write the tree of these conditions. -/
theorem ofBrackets_of_writes (h : List.Forall₂ (Writes label) bs pairs)
    (hpaths : ∀ b ∈ bs, b.path ≠ [] ∧ b.path.length ≤ BracketKey.maxNames)
    (hsound : ∀ b ∈ bs, b.Sound) :
    ofBrackets label (textPairs pairs) = .ok (bs.foldl Bracketed.writeTo []) := by
  have hread : (textPairs pairs).mapM (bracketed? label) = .ok (bs.map some) := by
    rw [mapM_eq_ok, textPairs, List.forall₂_map_left_iff, List.forall₂_map_right_iff]
    refine List.Forall₂.flip ?_
    induction h with
    | nil => exact .nil
    | cons hpair _ ih =>
      obtain ⟨hpath, hpaths⟩ := List.forall_mem_cons.mp hpaths
      obtain ⟨hb, hsound⟩ := List.forall_mem_cons.mp hsound
      exact .cons (bracketed?_of_writes hpair hpath.1 hpath.2 hb) (ih hpaths hsound)
  have hfound : (bs.map some).filterMap id = bs := by
    rw [List.filterMap_map]
    exact List.filterMap_some
  rw [ofBrackets, hread]
  exact congrArg (fun found => Except.ok (found.foldl Bracketed.writeTo [])) hfound

end FilterTree

namespace QueryParams

open FilterTree FilterTree.Node

/-! ## Parsing -/

/-- Whether a value stands for filters as a mapping: it is the mapping, or a JSON text of it. -/
def Encodes (v : Value) (es : Fields) : Prop :=
  v = .map es ∨ ∃ s, v = .text s ∧ Json.parse? s = some (.map es)

/-- Whether the key of the filters begins with no other key of a configuration. -/
def FiltersApart (config : Config) : Prop :=
  ∀ key ∈ [config.pageKey, config.itemsPerPageKey, config.searchKey, config.sortKey],
    key.toList.isPrefixOf config.filtersKey.toList = false

theorem exists_ofPairs {config : Config} {pairs : List (Value × Value)} {es : Fields}
    (hfilters : parseFilters config pairs = .ok es) (hsort : ∃ s, parseSort config pairs = .ok s)
    (hpage : ∃ n, integer config.defaultPage (Source.first? pairs config.pageKey) = .ok n)
    (hsize : ∃ n,
      integer config.defaultItemsPerPage (Source.first? pairs config.itemsPerPageKey) = .ok n)
    (hsearch : ∃ s, parseSearch (Source.first? pairs config.searchKey) = .ok s) :
    ∃ q, ofPairs config pairs = .ok q ∧ q.filters = nonempty? es := by
  obtain ⟨sort, hsort⟩ := hsort
  obtain ⟨page, hpage⟩ := hpage
  obtain ⟨size, hsize⟩ := hsize
  obtain ⟨search, hsearch⟩ := hsearch
  unfold ofPairs
  simp only [hfilters, hsort, hpage, hsize, hsearch]
  exact ⟨_, rfl, rfl⟩

theorem fields?_ofParam? {v : Value} {es : Fields} (hv : Encodes v es)
    (hdepth : (Value.map es).depth ≤ maxFilterDepth) :
    (ObjectParam.ofParam? (some v)).fields? = some es := by
  have hobject : ObjectParam.ofValue (.map es) = .object es := by
    rw [ObjectParam.ofValue, Value.deeper_eq, decide_eq_false (Nat.not_lt.mpr hdepth)]
    rfl
  rcases hv with rfl | ⟨s, rfl, hs⟩
  · rw [ObjectParam.ofParam?, hobject]
    rfl
  · have hne : s ≠ "" := by
      rintro rfl
      cases hs
    rw [ObjectParam.ofParam?]
    · simp [Value.text?, hne, hs, hobject, ObjectParam.fields?]
    · intro es h
      cases h

theorem first?_eq_none {config : Config} (hkeys : FiltersApart config) {key : String}
    (h : key ∈ [config.pageKey, config.itemsPerPageKey, config.searchKey, config.sortKey])
    (v : Value) : Source.first? [(.text config.filtersKey, v)] key = none := by
  have hne : config.filtersKey ≠ key := by
    intro heq
    have hprefix := hkeys key h
    rw [heq, List.isPrefixOf_iff_prefix.mpr (List.prefix_refl _)] at hprefix
    nomatch hprefix
  rw [Source.first?, List.find?_cons_of_neg (by simpa using hne)]
  rfl

theorem sortItem?_of_unread {label key : String} (h : BracketKey.read? label key = none)
    (v : Value) : sortItem? label (.text key, v) = .ok none := by
  have hkey : FilterTree.keyText (.text key) = .ok key := rfl
  unfold sortItem?
  rw [hkey]
  dsimp only [bind, Except.bind]
  rw [h]
  rfl

theorem parse_mapping {config : Config} {raw v : Value} {fs : List (String × Node)}
    (hsound : SoundFields fs) (hdepth : (Value.map (fields fs)).depth ≤ maxFilterDepth)
    (hkeys : FiltersApart config) (hv : Encodes v (fields fs))
    (hraw : Source.pairs raw = .ok [(.text config.filtersKey, v)]) :
    ∃ q, parse config raw = .ok q ∧ q.filters = nonempty? (fields fs) := by
  have hfirst : Source.first? [(.text config.filtersKey, v)] config.filtersKey = some v := by
    simp [Source.first?]
  have hsort : Source.first? [(.text config.filtersKey, v)] config.sortKey = none :=
    first?_eq_none hkeys (by simp) v
  have hunread : BracketKey.read? config.sortKey config.filtersKey = none :=
    BracketKey.read?_eq_none_of_not_prefix (hkeys _ (by simp))
  rw [parse, hraw]
  refine exists_ofPairs ?_ ?_ ?_ ?_ ?_
  · rw [parseFilters, hfirst, fields?_ofParam? hv hdepth]
    exact congrArg Except.ok (ofJson_fields fs hsound)
  · rw [parseSort, hsort]
    have hitems : [(Value.text config.filtersKey, v)].mapM (sortItem? config.sortKey) =
        .ok [none] := by
      rw [mapM_eq_ok]
      exact .cons (sortItem?_of_unread hunread v) .nil
    rw [hitems]
    exact ⟨[], rfl⟩
  · exact ⟨_, by rw [first?_eq_none hkeys (by simp)]; rfl⟩
  · exact ⟨_, by rw [first?_eq_none hkeys (by simp)]; rfl⟩
  · exact ⟨_, by rw [first?_eq_none hkeys (by simp)]; rfl⟩

theorem parse_brackets {config : Config} {raw : Value} {bs : List Bracketed}
    {pairs : List (String × String)} (hpairs : List.Forall₂ (Writes config.filtersKey) bs pairs)
    (hpaths : ∀ b ∈ bs, b.path ≠ [] ∧ b.path.length ≤ BracketKey.maxNames)
    (hsound : ∀ b ∈ bs, b.Sound) (hraw : Source.pairs raw = .ok (textPairs pairs)) :
    ∃ q, parse config raw = .ok q ∧ q.filters = nonempty? (bs.foldl Bracketed.writeTo []) := by
  have hfirst : Source.first? (textPairs pairs) config.filtersKey = none := by
    rw [Source.first?, Option.map_eq_none_iff, List.find?_eq_none, textPairs, List.forall_mem_map]
    intro pair hpair
    obtain ⟨b, hb, word, -, rfl⟩ := exists_source hpairs hpair
    simpa using BracketKey.write_ne_label config.filtersKey (hpaths b hb).1
  rw [parse, hraw]
  refine exists_ofPairs ?_ (exists_parseSort config pairs) (exists_integer _ pairs _)
    (exists_integer _ pairs _) (exists_parseSearch pairs _)
  rw [parseFilters, hfirst]
  exact ofBrackets_of_writes hpairs hpaths hsound

def filterValue (q : QueryParams) : Value := q.filters.elim .none .map

theorem same_nonempty? {es fs : Fields} (h : (Value.map es).same (.map fs) = true) :
    Value.same ((nonempty? es).elim .none .map) ((nonempty? fs).elim .none .map) = true := by
  have hlength := (Value.same_map_iff.mp h).1
  cases es with
  | nil =>
    obtain rfl : fs = [] := List.length_eq_zero_iff.mp hlength.symm
    rfl
  | cons e es =>
    cases fs with
    | nil => nomatch hlength
    | cons f fs => exact h

/-- **The encodings agree.** The bracketed conditions of a tree of filters, in any order, and the tree
sent as a mapping or as a JSON text are parsed to equal filters, namely those of the tree. -/
theorem encodings_agree (config : Config) (fs : List (String × Node)) (bs : List Bracketed)
    (pairs : List (String × String)) (v raw raw' : Value) (hsound : SoundFields fs)
    (hlength : ∀ b ∈ bracketsOf fs, b.path.length ≤ if b.operator.isSet then 29 else 30)
    (hkeys : FiltersApart config) (hperm : bs.Perm (bracketsOf fs))
    (hpairs : List.Forall₂ (Writes config.filtersKey) bs pairs)
    (hraw : Source.pairs raw = .ok (textPairs pairs)) (hv : Encodes v (fields fs))
    (hraw' : Source.pairs raw' = .ok [(.text config.filtersKey, v)]) :
    ∃ q q', parse config raw = .ok q ∧ parse config raw' = .ok q' ∧
      q'.filters = nonempty? (fields fs) ∧ q'.filterValue.same q.filterValue = true := by
  have hb : ∀ b ∈ bracketsOf fs, b.path.length ≤ BracketKey.maxNames ∧
      b.path.length + b.operand.depth + 1 ≤ maxFilterDepth := by
    intro b hb
    have hshort := hlength b hb
    have hdepth := (sound_of_mem_bracketsOf fs hsound b hb).2.depth_le
    rw [BracketKey.maxNames, maxFilterDepth]
    split at hshort
    · next hset =>
      rw [if_pos hset] at hdepth
      omega
    · next hset =>
      rw [if_neg hset] at hdepth
      omega
  have hdepth : (Value.map (fields fs)).depth ≤ maxFilterDepth :=
    Nat.add_le_add_right (depth_fields_le fs hsound fun b hmem => (hb b hmem).2) 1
  obtain ⟨q, hq, hfilters⟩ := parse_brackets hpairs
    (fun b hmem => ⟨path_ne_nil b (hperm.mem_iff.mp hmem), (hb b (hperm.mem_iff.mp hmem)).1⟩)
    (fun b hmem => sound_of_mem_bracketsOf fs hsound b (hperm.mem_iff.mp hmem)) hraw
  obtain ⟨q', hq', hfilters'⟩ := parse_mapping hsound hdepth hkeys hv hraw'
  refine ⟨q, q', hq, hq', hfilters', ?_⟩
  rw [filterValue, filterValue, hfilters, hfilters']
  exact same_nonempty? (same_fields hsound (rebuilt_all fs hsound) hperm)

/-! ## Adults of two teams -/

/-- A filter on the ages from eighteen to sixty-five, and one on the names of teams. -/
def adults : List (String × Node) :=
  [("age", .condition [(.gte, .int 18), (.lt, .int 65)]),
    ("team", .relation [("name", .condition [(.isIn, .list [.text "Core", .text "Growth"])])])]

/-- The bracketed conditions, with that on the team between those on the age. -/
def adultBrackets : List Bracketed :=
  [⟨["age"], .lt, .int 65⟩, ⟨["team", "name"], .isIn, .list [.text "Core", .text "Growth"]⟩,
    ⟨["age"], .gte, .int 18⟩]

/-- The pairs of a query, with some operators marked and some not. -/
def adultPairs : List (String × String) :=
  [("filters[age]", "lt:65"), ("filters[team][name]", "$in:Core,Growth"), ("filters[age]", "gte:18")]

theorem soundFields_adults : SoundFields adults := by
  have hage : Node.Sound (.condition [(.gte, .int 18), (.lt, .int 65)]) := by
    refine ⟨by decide, by decide, ?_⟩
    rw [List.forall_mem_cons, List.forall_mem_singleton]
    exact ⟨.scalar rfl (.int 18 (by decide)), .scalar rfl (.int 65 (by decide))⟩
  have hword : ∀ s ∈ ["Core", "Growth"], Text.lower s ≠ "true" ∧ Text.lower s ≠ "false" := by decide
  have hcore : Operand.Scalar (.text "Core") := .text_of_absent (hword _ (by simp)) rfl
  have hgrowth : Operand.Scalar (.text "Growth") := .text_of_absent (hword _ (by simp)) rfl
  have hname : Node.Sound (.condition [(.isIn, .list [.text "Core", .text "Growth"])]) := by
    refine ⟨by simp, by decide, ?_⟩
    rw [List.forall_mem_singleton]
    refine .list rfl (by simp) ?_ ?_
    · rw [List.forall_mem_cons, List.forall_mem_singleton]
      exact ⟨hcore, hgrowth⟩
    · rw [List.forall_mem_cons, List.forall_mem_singleton]
      constructor
      · rintro s ⟨⟩
        decide
      · rintro s ⟨⟩
        decide
  have hfield (s : String) (h : s = "age" ∨ s = "team" ∨ s = "name") : FieldName s := by
    rcases h with rfl | rfl | rfl <;>
      exact ⟨⟨by decide, List.all_eq_true.mp (by decide)⟩, by decide⟩
  exact ⟨hfield _ (by simp), by simp, hage, hfield _ (by simp), by simp,
    ⟨by simp, hfield _ (by simp), by simp, hname, trivial⟩, trivial⟩

theorem encodings_agree_adults :
    SoundFields adults ∧
      (∀ b ∈ bracketsOf adults, b.path.length ≤ if b.operator.isSet then 29 else 30) ∧
      FiltersApart {} ∧ adultBrackets.Perm (bracketsOf adults) ∧
      List.Forall₂ (Writes "filters") adultBrackets adultPairs ∧
      ∃ q q', parse {} (.items (textPairs adultPairs)) = .ok q ∧
        parse {} (.map [(.text "filters", .map (fields adults))]) = .ok q' ∧
        q'.filters = nonempty? (fields adults) ∧ q'.filterValue.same q.filterValue = true := by
  have hlength : ∀ b ∈ bracketsOf adults, b.path.length ≤ if b.operator.isSet then 29 else 30 := by
    decide
  have hkeys : FiltersApart {} := by
    unfold FiltersApart
    decide
  have hperm : adultBrackets.Perm (bracketsOf adults) :=
    List.perm_append_singleton (Bracketed.mk ["age"] .gte (.int 18))
      [Bracketed.mk ["age"] .lt (.int 65),
        Bracketed.mk ["team", "name"] .isIn (.list [.text "Core", .text "Growth"])]
  have hpairs : List.Forall₂ (Writes "filters") adultBrackets adultPairs :=
    .cons ⟨"lt", .inr rfl, rfl⟩ (.cons ⟨"$in", .inl rfl, rfl⟩ (.cons ⟨"gte", .inr rfl, rfl⟩ .nil))
  exact ⟨soundFields_adults, hlength, hkeys, hperm, hpairs,
    encodings_agree {} adults adultBrackets adultPairs (.map (fields adults))
      (.items (textPairs adultPairs)) (.map [(.text "filters", .map (fields adults))])
      soundFields_adults hlength hkeys hperm hpairs rfl (.inl rfl) rfl⟩

end QueryParams
end Listing
