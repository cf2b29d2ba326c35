import Listing.Proofs.Page.Alike
import Listing.Proofs.Params.Encodings
import Listing.Proofs.Params.Heard

/-!
# Probing is unobservable

A client may put keys into a query to find out which fields there are. Keys that a policy does not list
are heard nowhere: with or without them, wherever in the query they stand, the parsed parameters ask
the store for the same and the page tells the same.
-/

namespace Listing

open Outcome

/-! ## Probes -/

def parameterNames : List String := ["page", "itemsPerPage", "filters", "sort", "search"]

/-- A key under which a policy has nothing to hear: of a filter on a field that is not listed, of a filter
that does not read, of a sort by a name that is not listed or by no single name, or of no parameter. -/
inductive Probe (policy : FieldPolicy) : String → Prop
  | field {name rest : String} (named : ∀ c ∈ name.toList, BracketKey.isNameChar c = true)
      (unlisted : policy.listsFilter name = false) : Probe policy ("filters[" ++ name ++ "]" ++ rest)
  | malformed {rest : String} (unread : BracketKey.read? "filters" ("filters[" ++ rest) = none) :
      Probe policy ("filters[" ++ rest)
  | direction {name : String} (unlisted : policy.listsSort name = false) :
      Probe policy ("sort[" ++ name ++ "]")
  | undirected {rest : String}
      (unread : ∀ name, BracketKey.read? "sort" ("sort[" ++ rest) ≠ some [name]) :
      Probe policy ("sort[" ++ rest)
  | other {key : String} (apart : key ∉ parameterNames)
      (filters : "filters[".toList.isPrefixOf key.toList = false)
      (sort : "sort[".toList.isPrefixOf key.toList = false) : Probe policy key

/-- What makes a key a probe: it is no parameter, and whatever it reads as is not listed. -/
structure Unheard (policy : FieldPolicy) (key : String) : Prop where
  apart : key ∉ parameterNames
  filter : ∀ names, BracketKey.read? "filters" key = some names →
    ∀ name, names.head? = some name → policy.listsFilter name = false
  sort : ∀ name, BracketKey.read? "sort" key = some [name] → policy.listsSort name = false

theorem not_mem_parameterNames {key : String} (h : '[' ∈ key.toList) : key ∉ parameterNames := by
  have hnone : ∀ name ∈ parameterNames, '[' ∉ name.toList := by decide
  exact fun hkey => hnone key hkey h

theorem read?_eq_none {label key : String}
    (h : (label.toList ++ ['[']).isPrefixOf key.toList = false) :
    BracketKey.read? label key = none := by
  rw [Option.eq_none_iff_forall_ne_some]
  intro names hnames
  rw [BracketKey.isPrefixOf_of_read? hnames] at h
  exact Bool.noConfusion h

variable {policy : FieldPolicy}

theorem Probe.unheard {key : String} (h : Probe policy key) : Unheard policy key := by
  cases h with
  | @field name rest named unlisted =>
    have hkey : ("filters[" ++ name ++ "]" ++ rest).toList =
        "filters".toList ++ '[' :: (name.toList ++ ']' :: rest.toList) := by simp
    have hsort : BracketKey.read? "sort" ("filters[" ++ name ++ "]" ++ rest) = none :=
      read?_eq_none (by rw [hkey]; rfl)
    refine ⟨not_mem_parameterNames (by rw [hkey]; simp), fun names hnames first hfirst => ?_, ?_⟩
    · rw [BracketKey.head_of_read? named hkey hnames, Option.some.injEq] at hfirst
      rwa [← hfirst]
    · simp [hsort]
  | @malformed rest unread =>
    have hkey : ("filters[" ++ rest).toList = "filters[".toList ++ rest.toList := by simp
    have hsort : BracketKey.read? "sort" ("filters[" ++ rest) = none :=
      read?_eq_none (by rw [hkey]; rfl)
    refine ⟨not_mem_parameterNames (by rw [hkey]; simp), ?_, ?_⟩
    · simp [unread]
    · simp [hsort]
  | @direction name unlisted =>
    have hkey : ("sort[" ++ name ++ "]").toList = "sort".toList ++ BracketKey.group name := by
      simp [BracketKey.group]
    have hfilters : BracketKey.read? "filters" ("sort[" ++ name ++ "]") = none :=
      read?_eq_none (by rw [hkey]; rfl)
    refine ⟨not_mem_parameterNames (by rw [hkey]; simp [BracketKey.group]), ?_, fun g hg => ?_⟩
    · simp [hfilters]
    · have hwrite := congrArg String.toList (BracketKey.eq_write_of_read? hg)
      have hname : name.toList = g.toList := by
        simpa [hkey, BracketKey.write, BracketKey.group] using hwrite
      rwa [← String.toList_inj.mp hname]
  | @undirected rest unread =>
    have hkey : ("sort[" ++ rest).toList = "sort[".toList ++ rest.toList := by simp
    have hfilters : BracketKey.read? "filters" ("sort[" ++ rest) = none :=
      read?_eq_none (by rw [hkey]; rfl)
    refine ⟨not_mem_parameterNames (by rw [hkey]; simp), ?_, fun g hg => absurd hg (unread g)⟩
    simp [hfilters]
  | other apart filters sort =>
    refine ⟨apart, ?_, ?_⟩
    · have hunread : BracketKey.read? "filters" key = none := read?_eq_none filters
      simp [hunread]
    · have hunread : BracketKey.read? "sort" key = none := read?_eq_none sort
      simp [hunread]

theorem Unheard.bracketed? {key value : String} {b : FilterTree.Bracketed} (h : Unheard policy key)
    (hb : FilterTree.bracketed? "filters" (.text key, .text value) = .ok (some b)) :
    policy.listsFilter b.head = false := by
  rw [FilterTree.bracketed?_text] at hb
  split at hb
  · cases hb
  · next path hread =>
    obtain ⟨operand, -, hb⟩ := bind_eq_ok.mp hb
    obtain rfl := Option.some.inj (pure_eq_ok.mp hb)
    obtain ⟨cs, -, -, hne⟩ := BracketKey.exists_of_read? hread
    obtain ⟨name, rest, rfl⟩ := List.exists_cons_of_ne_nil hne
    exact h.filter _ hread name rfl

theorem exists_of_sortItem? {label key value : String} {item : Key × Value}
    (h : QueryParams.sortItem? label (.text key, .text value) = .ok (some item)) :
    ∃ name, item.1 = .text name ∧ BracketKey.read? label key = some [name] := by
  rw [QueryParams.sortItem?_text] at h
  split at h
  · next name hread =>
    obtain rfl := Option.some.inj (Except.ok.inj h)
    exact ⟨name, rfl, hread⟩
  · cases h

theorem Unheard.sortItem? {key value : String} {item : Key × Value} (h : Unheard policy key)
    (hitem : QueryParams.sortItem? "sort" (.text key, .text value) = .ok (some item)) :
    item.1.name?.any policy.listsSort = false := by
  obtain ⟨name, hname, hread⟩ := exists_of_sortItem? hitem
  rw [hname]
  exact h.sort name hread

/-! ## Queries apart from probes -/

/-- Whether two parameters are usable objects in which the same is heard. -/
def SameObject (listens : String → Bool) (v w : Option Value) : Prop :=
  ∃ es fs, (ObjectParam.ofParam? v).fields? = some es ∧ (ObjectParam.ofParam? w).fields? = some fs ∧
    Entries.heard listens es = Entries.heard listens fs

/-- A query and the same one with probes among its pairs, and with other members beside the listed ones
in the JSON objects of its filters and its sort. -/
inductive Probed (policy : FieldPolicy) : List (String × String) → List (String × String) → Prop
  | nil : Probed policy [] []
  | keep {pairs probed : List (String × String)} (pair : String × String)
      (rest : Probed policy pairs probed) : Probed policy (pair :: pairs) (pair :: probed)
  | probe {pairs probed : List (String × String)} {key : String} (value : String)
      (probe : Probe policy key) (rest : Probed policy pairs probed) :
      Probed policy pairs ((key, value) :: probed)
  | filters {pairs probed : List (String × String)} {s t : String}
      (object : SameObject policy.listsFilter (some (.text s)) (some (.text t)))
      (rest : Probed policy pairs probed) :
      Probed policy (("filters", s) :: pairs) (("filters", t) :: probed)
  | sort {pairs probed : List (String × String)} {s t : String}
      (object : SameObject policy.listsSort (some (.text s)) (some (.text t)))
      (rest : Probed policy pairs probed) :
      Probed policy (("sort", s) :: pairs) (("sort", t) :: probed)

/-- The parameters that may be objects, with the names that a policy listens to in them. -/
def heardParameters (policy : FieldPolicy) : List (String × (String → Bool)) :=
  [("filters", policy.listsFilter), ("sort", policy.listsSort)]

theorem first?_textPairs_cons (key value name : String) (pairs : List (String × String)) :
    Source.first? (textPairs ((key, value) :: pairs)) name =
      if key = name then some (.text value) else Source.first? (textPairs pairs) name := by
  have hpairs : textPairs ((key, value) :: pairs) = (.text key, .text value) :: textPairs pairs := rfl
  have hsame : (Value.text key).same (.text name) = (key == name) := rfl
  rw [hpairs, Source.first?, List.find?_cons]
  simp only [hsame]
  by_cases hkey : key = name
  · simp [hkey]
  · rw [beq_false_of_ne hkey, if_neg hkey]
    rfl

namespace Probed

variable {pairs probed : List (String × String)}

theorem first? (h : Probed policy pairs probed) {name : String} (hname : name ∈ parameterNames) :
    Source.first? (textPairs pairs) name = Source.first? (textPairs probed) name ∨
      ∃ listens, (name, listens) ∈ heardParameters policy ∧
        SameObject listens (Source.first? (textPairs pairs) name)
          (Source.first? (textPairs probed) name) := by
  induction h with
  | nil => exact .inl rfl
  | keep pair _ ih =>
    rw [first?_textPairs_cons, first?_textPairs_cons]
    split
    · exact .inl rfl
    · exact ih
  | @probe pairs probed key value probe _ ih =>
    have hne : key ≠ name := fun heq => probe.unheard.apart (heq ▸ hname)
    rw [first?_textPairs_cons, if_neg hne]
    exact ih
  | filters object _ ih =>
    rw [first?_textPairs_cons, first?_textPairs_cons]
    split
    · next heq => exact .inr ⟨_, by simp [heardParameters, ← heq], object⟩
    · exact ih
  | sort object _ ih =>
    rw [first?_textPairs_cons, first?_textPairs_cons]
    split
    · next heq => exact .inr ⟨_, by simp [heardParameters, ← heq], object⟩
    · exact ih

theorem objects (h : Probed policy pairs probed) {name : String} {listens : String → Bool}
    (hlistens : (name, listens) ∈ heardParameters policy) :
    SameObject listens (Source.first? (textPairs pairs) name)
        (Source.first? (textPairs probed) name) ∨
      ((ObjectParam.ofParam? (Source.first? (textPairs pairs) name)).fields? = none ∧
        (ObjectParam.ofParam? (Source.first? (textPairs probed) name)).fields? = none) := by
  simp only [heardParameters, List.mem_cons, Prod.mk.injEq, List.not_mem_nil, or_false] at hlistens
  have hname : name ∈ parameterNames := by
    rcases hlistens with ⟨rfl, -⟩ | ⟨rfl, -⟩ <;> decide
  rcases h.first? hname with heq | ⟨listens', hlistens', hobject⟩
  · rw [← heq]
    cases hfields : (ObjectParam.ofParam? (Source.first? (textPairs pairs) name)).fields? with
    | some members => exact .inl ⟨members, members, hfields, hfields, rfl⟩
    | none => exact .inr ⟨rfl, rfl⟩
  · have hsame : listens' = listens := by
      rcases hlistens with ⟨rfl, rfl⟩ | ⟨rfl, rfl⟩ <;> simpa [heardParameters] using hlistens'
    exact .inl (hsame ▸ hobject)

theorem filter_found {α : Type} {read : Value × Value → Except Failure (Option α)}
    {listens : α → Bool} (h : Probed policy pairs probed)
    (hprobe : ∀ key value a, Probe policy key → read (.text key, .text value) = .ok (some a) →
      listens a = false)
    (hobject : ∀ key ∈ ["filters", "sort"], ∀ value, read (.text key, .text value) = .ok none)
    {found found' : List (Option α)} (hfound : (textPairs pairs).mapM read = .ok found)
    (hfound' : (textPairs probed).mapM read = .ok found') :
    (found.filterMap id).filter listens = (found'.filterMap id).filter listens := by
  rw [mapM_eq_ok] at hfound hfound'
  have hcons : ∀ {key value : String} {pairs : List (String × String)} {found : List (Option α)},
      List.Forall₂ (fun x y => read x = .ok y) (textPairs ((key, value) :: pairs)) found →
        ∃ a rest, read (.text key, .text value) = .ok a ∧
          List.Forall₂ (fun x y => read x = .ok y) (textPairs pairs) rest ∧ found = a :: rest := by
    intro key value pairs found hall
    obtain ⟨a, rest, ha, hrest, rfl⟩ := List.forall₂_cons_left_iff.mp hall
    exact ⟨a, rest, ha, hrest, rfl⟩
  induction h generalizing found found' with
  | nil =>
    rw [List.forall₂_nil_left_iff.mp hfound, List.forall₂_nil_left_iff.mp hfound']
  | keep pair _ ih =>
    obtain ⟨a, rest, ha, hrest, rfl⟩ := hcons hfound
    obtain ⟨a', rest', ha', hrest', rfl⟩ := hcons hfound'
    obtain rfl := Except.ok.inj (ha.symm.trans ha')
    cases a with
    | none =>
      rw [List.filterMap_cons_none rfl, List.filterMap_cons_none rfl]
      exact ih hrest hrest'
    | some a =>
      have htail := ih hrest hrest'
      simp only [List.filterMap_cons_some (f := id) rfl, List.filter_cons, htail]
  | probe value probe _ ih =>
    -- the pair stands on one side only, and what is read of it is not listened to
    obtain ⟨a, rest', ha, hrest', rfl⟩ := hcons hfound'
    cases a with
    | none =>
      rw [List.filterMap_cons_none rfl]
      exact ih hfound hrest'
    | some a =>
      have hunheard := hprobe _ _ a probe ha
      rw [List.filterMap_cons_some (f := id) rfl, List.filter_cons_of_neg (by simp [hunheard])]
      exact ih hfound hrest'
  | filters _ _ ih | sort _ _ ih =>
    -- the key of an object has no brackets, so nothing is read of either pair
    obtain ⟨a, rest, ha, hrest, rfl⟩ := hcons hfound
    obtain ⟨a', rest', ha', hrest', rfl⟩ := hcons hfound'
    rw [hobject _ (by simp) _] at ha ha'
    obtain rfl := Except.ok.inj ha
    obtain rfl := Except.ok.inj ha'
    rw [List.filterMap_cons_none rfl, List.filterMap_cons_none rfl]
    exact ih hrest hrest'

variable {config : Config} {es fs : Fields}

theorem heard_filters (h : Probed policy pairs probed) (hnames : config.DefaultNames)
    (hes : QueryParams.parseFilters config (textPairs pairs) = .ok es)
    (hfs : QueryParams.parseFilters config (textPairs probed) = .ok fs) :
    es.heard policy.listsFilter = fs.heard policy.listsFilter := by
  unfold QueryParams.parseFilters at hes hfs
  rw [hnames.filters] at hes hfs
  have hlistens : ("filters", policy.listsFilter) ∈ heardParameters policy := by simp [heardParameters]
  rcases h.objects hlistens with ⟨members, members', hmembers, hmembers', hheard⟩ | ⟨hnone, hnone'⟩
  · rw [hmembers] at hes
    rw [hmembers'] at hfs
    rw [← Except.ok.inj hes, ← Except.ok.inj hfs, FilterTree.heard_ofJson, FilterTree.heard_ofJson,
      hheard]
  · rw [hnone] at hes
    rw [hnone'] at hfs
    obtain ⟨found, hfound, hes⟩ := bind_eq_ok.mp hes
    obtain ⟨found', hfound', hfs⟩ := bind_eq_ok.mp hfs
    rw [← pure_eq_ok.mp hes, ← pure_eq_ok.mp hfs, FilterTree.heard_foldl_writeTo,
      FilterTree.heard_foldl_writeTo]
    have hkeys : ∀ key ∈ ["filters", "sort"], BracketKey.read? "filters" key = none := by decide
    have hsame : (found.filterMap id).filter (fun b => policy.listsFilter b.head) =
        (found'.filterMap id).filter fun b => policy.listsFilter b.head :=
      h.filter_found (fun key value b probe hb => probe.unheard.bracketed? hb)
        (fun key hkey value => by rw [FilterTree.bracketed?_text, hkeys key hkey]) hfound hfound'
    rw [hsame]

theorem exists_text_of_sortItems {found : List (Option (Key × Value))}
    (h : (textPairs pairs).mapM (QueryParams.sortItem? "sort") = .ok found) :
    ∀ item ∈ found.filterMap id, ∃ s, item.1 = .text s := by
  intro item hitem
  obtain ⟨a, ha, rfl⟩ := List.mem_filterMap.mp hitem
  obtain ⟨pair, hpair, hread⟩ := exists_source (mapM_eq_ok.mp h) ha
  obtain ⟨⟨key, value⟩, -, rfl⟩ := List.mem_map.mp hpair
  obtain ⟨name, hname, -⟩ := exists_of_sortItem? hread
  exact ⟨name, hname⟩

theorem heard_sort (h : Probed policy pairs probed) (hnames : config.DefaultNames)
    (hes : QueryParams.parseSort config (textPairs pairs) = .ok es)
    (hfs : QueryParams.parseSort config (textPairs probed) = .ok fs) :
    es.heard policy.listsSort = fs.heard policy.listsSort := by
  unfold QueryParams.parseSort at hes hfs
  rw [hnames.sort] at hes hfs
  have hlistens : ("sort", policy.listsSort) ∈ heardParameters policy := by simp [heardParameters]
  rcases h.objects hlistens with ⟨members, members', hmembers, hmembers', hheard⟩ | ⟨hnone, hnone'⟩
  · rw [hmembers] at hes
    rw [hmembers'] at hfs
    have hcomm : ∀ members : Fields,
        Entries.heard policy.listsSort (members.filter fun e => FilterTree.isName e.1) =
          (members.heard policy.listsSort).filter fun e => FilterTree.isName e.1 :=
      fun members => List.filter_comm _ _ members
    rw [← Except.ok.inj hes, ← Except.ok.inj hfs, hcomm, hcomm, hheard]
  · rw [hnone] at hes
    rw [hnone'] at hfs
    obtain ⟨found, hfound, hes⟩ := bind_eq_ok.mp hes
    obtain ⟨found', hfound', hfs⟩ := bind_eq_ok.mp hfs
    rw [← pure_eq_ok.mp hes, ← pure_eq_ok.mp hfs,
      Entries.heard_ofPairs (exists_text_of_sortItems hfound),
      Entries.heard_ofPairs (exists_text_of_sortItems hfound')]
    have hkeys : ∀ key ∈ ["filters", "sort"], BracketKey.read? "sort" key = none := by decide
    refine congrArg Entries.ofPairs (h.filter_found (fun key value item probe hitem =>
      probe.unheard.sortItem? hitem) (fun key hkey value => ?_) hfound hfound')
    rw [QueryParams.sortItem?_text, hkeys key hkey]

/-- The parameters read with and without probes make the same request. -/
theorem alike (h : Probed policy pairs probed) (hnames : config.DefaultNames) {q q' : QueryParams}
    (hq : QueryParams.ofPairs config (textPairs pairs) = .ok q)
    (hq' : QueryParams.ofPairs config (textPairs probed) = .ok q') :
    q.toRequest.Alike config policy q'.toRequest := by
  have hfirst : ∀ name ∈ ["page", "itemsPerPage", "search"],
      Source.first? (textPairs pairs) name = Source.first? (textPairs probed) name := by
    intro name hname
    have hparameter : ∀ name ∈ ["page", "itemsPerPage", "search"],
        name ∈ parameterNames ∧ name ≠ "filters" ∧ name ≠ "sort" := by decide
    obtain ⟨hmem, hfilters, hsort⟩ := hparameter name hname
    rcases h.first? hmem with heq | ⟨listens, hlistens, -⟩
    · exact heq
    · simp [heardParameters, hfilters, hsort] at hlistens
  obtain ⟨es, sort, hes, hs, hpage, hsize, hsearch, hqfilters, hqsort⟩ :=
    QueryParams.ofPairs_eq_ok.mp hq
  obtain ⟨es', sort', hes', hs', hpage', hsize', hsearch', hqfilters', hqsort'⟩ :=
    QueryParams.ofPairs_eq_ok.mp hq'
  rw [hnames.page, hfirst "page" (by simp), ← hnames.page, hpage'] at hpage
  rw [hnames.itemsPerPage, hfirst "itemsPerPage" (by simp), ← hnames.itemsPerPage, hsize'] at hsize
  rw [hnames.search, hfirst "search" (by simp), ← hnames.search, hsearch'] at hsearch
  have hfilters : q.toRequest.allowedFilters policy = q'.toRequest.allowedFilters policy := by
    have hheard := congrArg policy.sanitizeFilters (h.heard_filters hnames hes hes')
    rw [policy.sanitizeFilters_heard, policy.sanitizeFilters_heard] at hheard
    unfold PageRequest.allowedFilters
    simp only [QueryParams.toRequest, hqfilters, hqfilters', QueryParams.asFields_nonempty?, hheard]
  have hsort : q.toRequest.allowedSort policy = q'.toRequest.allowedSort policy := by
    have hheard := congrArg policy.sanitizeSort (h.heard_sort hnames hs hs')
    rw [policy.sanitizeSort_heard, policy.sanitizeSort_heard] at hheard
    unfold PageRequest.allowedSort
    simp only [QueryParams.toRequest, hqsort, hqsort', QueryParams.asFields_nonempty?, hheard]
  have hpage : q.page = q'.page := (Except.ok.inj hpage).symm
  have hsize : q.itemsPerPage = q'.itemsPerPage := (Except.ok.inj hsize).symm
  have hsearch : q.search = q'.search := (Except.ok.inj hsearch).symm
  have htext : q.toRequest.search = q'.toRequest.search := by
    simp only [QueryParams.toRequest, hsearch]
  refine ⟨?_, hfilters, hsort, ?_, ?_⟩
  · simp only [PageRequest.numbers, QueryParams.toRequest, hpage, hsize]
  · rw [PageRequest.searchText, PageRequest.searchText, htext]
  · rw [PageRequest.searchPredicate, PageRequest.searchPredicate, htext]

end Probed

/-! ## What a server does -/

/-- **Probing is unobservable.** Whatever serves as a store, under whatever base query and scope: where a
query and the same one with probes are both parsed, the store is asked for the same and the same page
comes of it. -/
theorem probing_unobservable (config : Config) (hnames : config.DefaultNames) (policy : FieldPolicy)
    (pairs probed : List (String × String)) (h : Probed policy pairs probed) (raw raw' : Value)
    (hraw : Source.pairs raw = .ok (textPairs pairs))
    (hraw' : Source.pairs raw' = .ok (textPairs probed)) (q q' : QueryParams)
    (hq : QueryParams.parse config raw = .ok q) (hq' : QueryParams.parse config raw' = .ok q') :
    (∀ base, q.toRequest.plan config base policy = q'.toRequest.plan config base policy) ∧
      ∀ (m : Type → Type) [Monad m] [LawfulMonad m] [MonadExceptOf Failure m] (p : Paginator m),
        p.config = config → p.policy = policy →
          ∀ scope, p.paginateRaw scope raw = p.paginateRaw scope raw' := by
  have hpairs : QueryParams.ofPairs config (textPairs pairs) = .ok q := by
    rw [← hq, QueryParams.parse, hraw]
    rfl
  have hprobed : QueryParams.ofPairs config (textPairs probed) = .ok q' := by
    rw [← hq', QueryParams.parse, hraw']
    rfl
  have halike := h.alike hnames hpairs hprobed
  refine ⟨halike.plan_eq, ?_⟩
  intro m _ _ _ p hconfig hpolicy scope
  subst hconfig hpolicy
  have hok : ∀ q : QueryParams, (ofExcept (.ok q : Except Failure QueryParams) : m QueryParams) =
      pure q := fun _ => rfl
  unfold Paginator.paginateRaw
  rw [hq, hq', hok, hok, pure_bind, pure_bind]
  exact halike.paginator_eq scope

/-! ## A query with probes -/

/-- A policy that lists the name of a member, for filters and sorts. -/
def namePolicy : FieldPolicy where
  filterable := [(.text "name", .operators [.eq, .contains])]
  sortable := [(.text "name", .allowed true), (.text "rank", .allowed false)]

/-- The second page of the members with a letter in their names, from the last one. -/
def plainQuery : List (String × String) :=
  [("filters[name]", "contains:a"), ("page", "2"), ("sort", "\x7b\"name\": \"desc\"\x7d")]

def probedQuery : List (String × String) :=
  [("filters[secret][name]", "x"), ("filters[name]", "contains:a"), ("filters[", "y"), ("page", "2"),
    ("sort[rank]", "asc"), ("sort[name", "asc"),
    ("sort", "\x7b\"secret\": \"asc\", \"name\": \"desc\"\x7d"), ("debug", "1")]

theorem probed_plainQuery : Probed namePolicy plainQuery probedQuery := by
  have hfield : Probe namePolicy "filters[secret][name]" :=
    @Probe.field namePolicy "secret" "[name]" (List.all_eq_true.mp (by decide)) (by decide)
  have hmalformed : Probe namePolicy "filters[" := @Probe.malformed namePolicy "" (by decide)
  have hdirection : Probe namePolicy "sort[rank]" := @Probe.direction namePolicy "rank" (by decide)
  have hundirected : Probe namePolicy "sort[name" :=
    @Probe.undirected namePolicy "name" fun name hname => nomatch hname
  have hother : Probe namePolicy "debug" := .other (by decide) (by decide) (by decide)
  have hplain : Json.parse? "\x7b\"name\": \"desc\"\x7d" = some (.map [(.text "name", .text "desc")]) := by
    cbv
  have hprobed : Json.parse? "\x7b\"secret\": \"asc\", \"name\": \"desc\"\x7d" =
      some (.map [(.text "secret", .text "asc"), (.text "name", .text "desc")]) := by cbv
  have hobject : SameObject namePolicy.listsSort (some (.text "\x7b\"name\": \"desc\"\x7d"))
      (some (.text "\x7b\"secret\": \"asc\", \"name\": \"desc\"\x7d")) :=
    ⟨_, _, QueryParams.fields?_ofParam? (.inr ⟨_, rfl, hplain⟩) (by decide),
      QueryParams.fields?_ofParam? (.inr ⟨_, rfl, hprobed⟩) (by decide), rfl⟩
  exact .probe _ hfield (.keep _ (.probe _ hmalformed (.keep _ (.probe _ hdirection
    (.probe _ hundirected (.sort hobject (.probe _ hother .nil)))))))

theorem exists_parse_of_no_separator {pairs : List (String × String)}
    (h : pairs.all fun pair => (Operand.splitOperator pair.2).2.toList.all fun c =>
      !decide (28 ≤ c.toNat ∧ c.toNat ≤ 31)) :
    ∃ q, QueryParams.parse {} (.items (textPairs pairs)) = .ok q := by
  refine (QueryParams.parse_ok_iff {} pairs).2.mpr (.inr fun k v hpair path _ hunreadable => ?_)
  obtain ⟨c, hc, hseparator⟩ := hunreadable.2.exists_separator
  have hplain := List.all_eq_true.mp (List.all_eq_true.mp h (k, v) hpair) c hc
  rw [Bool.not_eq_true', decide_eq_false_iff_not] at hplain
  exact hplain hseparator

theorem probing_unobservable_names :
    Probed namePolicy plainQuery probedQuery ∧
      ∃ q q', QueryParams.parse {} (.items (textPairs plainQuery)) = .ok q ∧
        QueryParams.parse {} (.items (textPairs probedQuery)) = .ok q' ∧
        (∀ base, q.toRequest.plan {} base namePolicy = q'.toRequest.plan {} base namePolicy) ∧
        ∀ p : Paginator (Except Failure), p.config = {} → p.policy = namePolicy → ∀ scope,
          p.paginateRaw scope (.items (textPairs plainQuery)) =
            p.paginateRaw scope (.items (textPairs probedQuery)) := by
  obtain ⟨q, hq⟩ := @exists_parse_of_no_separator plainQuery (by decide)
  obtain ⟨q', hq'⟩ := @exists_parse_of_no_separator probedQuery (by decide)
  obtain ⟨hplan, hpage⟩ := probing_unobservable {} ⟨rfl, rfl, rfl, rfl, rfl⟩ namePolicy plainQuery
    probedQuery probed_plainQuery _ _ rfl rfl q q' hq hq'
  exact ⟨probed_plainQuery, q, q', hq, hq', hplan, hpage (Except Failure)⟩

end Listing
