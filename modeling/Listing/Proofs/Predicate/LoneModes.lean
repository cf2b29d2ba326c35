import Listing.Proofs.Policy.Names
import Listing.Proofs.Predicate.Modes
import Listing.Proofs.Predicate.Total
import Listing.Proofs.Sql.Relations

/-!
# Filters without lone modes

Filters with and without the modes that search nothing are sanitized side by side. The conditions that are
left have the same native forms, and those that are left out had none, so only relations can tell the two
apart: one of which nothing is left but lone modes still asks for there to be something that it leads to.
-/

namespace Listing

open FilterTree Outcome Predicate

/-! ## Sanitized filters -/

/-- Sanitized filters, and what is left of them without lone modes: conditions with the same native form,
relations of which something is left, and neither the conditions nor the relations of which nothing is. -/
inductive Lightened : Entries Rule → Fields → Fields → Prop
  | nil {rules : Entries Rule} : Lightened rules [] []
  | condition {rules : Entries Rule} {k : Key} {ops : List Operator} {c c' rest rest' : Fields}
      (rule : Rule.forKey? rules k = some (.operators ops)) (before : isCondition c = true)
      (after : isCondition c' = true) (same : condition c' = condition c)
      (others : Lightened rules rest rest') :
      Lightened rules ((k, .map c) :: rest) ((k, .map c') :: rest')
  | mute {rules : Entries Rule} {k : Key} {ops : List Operator} {c rest rest' : Fields}
      (rule : Rule.forKey? rules k = some (.operators ops)) (before : isCondition c = true)
      (mute : condition c = []) (others : Lightened rules rest rest') :
      Lightened rules ((k, .map c) :: rest) rest'
  | relation {rules related : Entries Rule} {k : Key} {inner inner' rest rest' : Fields}
      (rule : Rule.forKey? rules k = some (.nested related)) (before : isCondition inner = false)
      (after : isCondition inner' = false) (lightened : Lightened related inner inner')
      (others : Lightened rules rest rest') :
      Lightened rules ((k, .map inner) :: rest) ((k, .map inner') :: rest')
  | silent {rules related : Entries Rule} {k : Key} {inner rest rest' : Fields}
      (rule : Rule.forKey? rules k = some (.nested related)) (before : isCondition inner = false)
      (lightened : Lightened related inner []) (others : Lightened rules rest rest') :
      Lightened rules ((k, .map inner) :: rest) rest'

namespace Lightened

variable {rules related : Entries Rule} {k : Key} {ops : List Operator} {rest rest' : Fields}

theorem entry_condition (rule : Rule.forKey? rules k = some (.operators ops)) {searching : Bool}
    {c c' : Fields} (hsheds : Sheds searching c c')
    (hsilent : searching = false → searches c = false) (others : Lightened rules rest rest') :
    Lightened rules (entry k c ++ rest) (entry k c' ++ rest') := by
  have hsame := hsheds.condition_eq hsilent
  obtain ⟨hbefore, hafter⟩ := hsheds.isCondition
  match c, c' with
  | [], [] => exact others
  | [], _ :: _ => cases hsheds
  | _ :: _, [] => exact .mute rule (hbefore (by simp)) hsame.symm others
  | _ :: _, _ :: _ => exact .condition rule (hbefore (by simp)) (hafter (by simp)) hsame others

theorem entry_relation (rule : Rule.forKey? rules k = some (.nested related)) {inner inner' : Fields}
    (before : isCondition inner = false) (after : isCondition inner' = false)
    (lightened : Lightened related inner inner') (others : Lightened rules rest rest') :
    Lightened rules (entry k inner ++ rest) (entry k inner' ++ rest') := by
  match inner, inner' with
  | [], [] => exact others
  | [], _ :: _ => cases lightened
  | _ :: _, [] => exact .silent rule before lightened others
  | _ :: _, _ :: _ => exact .relation rule before after lightened others

end Lightened

namespace Sanitize

theorem fields_append (rules : Entries Rule) (es fs : Fields) :
    fields rules (es ++ fs) = fields rules es ++ fields rules fs := by
  induction es with
  | nil => rfl
  | cons e es ih =>
    obtain ⟨k, v⟩ := e
    rw [List.cons_append, fields, fields, ih, List.append_assoc]

theorem fields_of_key {rules : Entries Rule} {k : Key} {es : Fields} (hkey : ∀ e ∈ es, e.1 = k)
    (hk : Rule.forKey? rules k = none) : fields rules es = [] := by
  induction es with
  | nil => rfl
  | cons e es ih =>
    obtain ⟨k', v⟩ := e
    obtain ⟨rfl, hrest⟩ := List.forall_mem_cons.mp hkey
    rw [fields_cons_of_none hk, ih hrest]

theorem fields_single {rules : Entries Rule} {k : Key} {rule : Rule}
    (hrule : Rule.forKey? rules k = some rule) (v : Value) :
    fields rules [(k, v)] = entry k (field rule v) := by
  rw [fields_cons_of_rule hrule, fields, List.append_nil]
  rfl

theorem fields_entry {rules : Entries Rule} {k : Key} {rule : Rule}
    (hrule : Rule.forKey? rules k = some rule) (es : Fields) :
    fields rules (entry k es) = entry k (field rule (.map es)) := by
  cases es with
  | nil => cases rule <;> rfl
  | cons e es => exact fields_single hrule _

theorem lightened_bare {rules : Entries Rule} {k : Key} {rule : Rule}
    (hrule : Rule.forKey? rules k = some rule) {v : Value} (hv : v.fields? = none)
    {rest rest' : Fields} (hrest : Lightened rules rest rest') :
    Lightened rules (entry k (field rule v) ++ rest) (entry k (field rule v) ++ rest') := by
  cases rule with
  | operators ops =>
    cases hc : field (.operators ops) v with
    | nil => exact hrest
    | cons e c =>
      have hcondition := (heldTo_field ops v).isCondition (by simp [hc])
      rw [hc] at hcondition
      exact .condition hrule hcondition hcondition rfl hrest
  | nested related =>
    have hnothing : field (.nested related) v = [] := by
      cases v with
      | map es => cases hv
      | _ => rfl
    rw [hnothing]
    exact hrest

mutual

/-- Without lone modes, sanitizing leaves of filters what it leaves of the filters, without them. -/
theorem lightened_fields : ∀ es {rules : Entries Rule}, (Rule.nested rules).Unmarked → ∀ searching,
    Lightened rules (fields rules es) (fields rules (shed searching es))
  | [], _, _, _ => .nil
  | (k, v) :: rest, rules, hunmarked, searching => by
    have hrest := lightened_fields rest hunmarked searching
    rw [shed, fields_append]
    cases hrule : Rule.forKey? rules k with
    | none =>
      rw [fields_cons_of_none hrule, fields_of_key (fun e he => key_shedEntry he) hrule]
      exact hrest
    | some rule =>
      obtain ⟨hmarked, hrunmarked⟩ := hunmarked.forKey? hrule
      have hoperator := Reading.operator?_eq_none hmarked
      have hentry : fields rules ((k, v) :: rest) = entry k (field rule v) ++ fields rules rest :=
        fields_cons_of_rule hrule v rest
      rw [hentry]
      cases hv : v.fields? with
      | none =>
        rw [shedEntry_value (by simp [isLone, hoperator]) hv, fields_single hrule]
        exact lightened_bare hrule hv hrest
      | some es =>
        have hmap := Value.fields?_eq_some.mp hv
        have hinner (related : Entries Rule) (h : (Rule.nested related).Unmarked) :=
          lightened_filter v es hmap h
        subst hmap
        rw [shedEntry_map (.inl hoperator), fields_entry hrule]
        cases rule with
        | operators ops =>
          exact .entry_condition hrule (sheds_condition ops es (searches es))
            (searches_condition ops) hrest
        | nested related =>
          exact .entry_relation hrule (isCondition_fields hrunmarked es)
            (isCondition_fields hrunmarked _) (hinner related hrunmarked) hrest

theorem lightened_filter : ∀ (v : Value) es, v = .map es → ∀ {rules : Entries Rule},
    (Rule.nested rules).Unmarked →
      Lightened rules (fields rules es) (fields rules (shed (searches es) es))
  | .map es, _, h, _, hunmarked => by
    obtain rfl := Value.map.inj h
    exact lightened_fields es hunmarked _
  | .none, _, h, _, _ | .bool _, _, h, _, _ | .int _, _, h, _, _ | .float _, _, h, _, _
  | .text _, _, h, _, _ | .bytes _, _, h, _, _ | .operator _, _, h, _, _ | .direction _, _, h, _, _
  | .list _, _, h, _, _ | .tuple _, _, h, _, _ | .set _, _, h, _, _ | .object _ _, _, h, _, _
  | .items _, _, h, _, _ | .rule _, _, h, _, _ | .policy _, _, h, _, _ => nomatch h

end

end Sanitize

/-! ## Answers -/

/-- Both give the same answer, or neither gives one. -/
def SameAnswer (x y : Except Failure Bool) : Prop := ∀ b, x = .ok b ↔ y = .ok b

/-- Where both give an answer, the second does not deny what the first affirms. -/
def Affirms (x y : Except Failure Bool) : Prop := x = .ok true → ∀ b, y = .ok b → b = true

section

variable {x x' y y' z z' : Except Failure Bool}

theorem SameAnswer.refl (x : Except Failure Bool) : SameAnswer x x := fun _ => Iff.rfl

theorem SameAnswer.error (f f' : Failure) : SameAnswer (.error f) (.error f') := by
  intro b
  simp

theorem SameAnswer.ite (hx : SameAnswer x x') (hy : SameAnswer y y') (hz : SameAnswer z z') :
    SameAnswer (do if ← x then y else z) (do if ← x' then y' else z') := by
  cases x with
  | error f =>
    cases x' with
    | error f' => exact .error f f'
    | ok b =>
      have hother := (hx b).mpr rfl
      cases hother
  | ok b =>
    obtain rfl : .ok b = x' := ((hx b).mp rfl).symm
    cases b with
    | false => exact hz
    | true => exact hy

theorem SameAnswer.anyOf {α : Type} {test test' : α → Except Failure Bool}
    (h : ∀ a, SameAnswer (test a) (test' a)) (as : List α) :
    SameAnswer (anyOf test as) (anyOf test' as) := by
  induction as with
  | nil => exact .refl _
  | cons a as ih =>
    rw [Predicate.anyOf, Predicate.anyOf]
    exact (h a).ite (.refl _) ih

theorem SameAnswer.affirms (h : SameAnswer x y) : Affirms x y := by
  intro hx b hb
  rw [(h true).mp hx] at hb
  exact (Except.ok.inj hb).symm

theorem Affirms.and (hx : Affirms x x') (hy : Affirms y y') :
    Affirms (do if ← x then y else return false) (do if ← x' then y' else return false) := by
  intro h b hb
  obtain ⟨p, rfl, h⟩ := bind_eq_ok.mp h
  obtain ⟨p', rfl, hb⟩ := bind_eq_ok.mp hb
  cases p with
  | false => cases h
  | true =>
    obtain rfl := hx rfl p' rfl
    exact hy h b hb

theorem Affirms.or (hx : Affirms x x') (hy : Affirms y y') :
    Affirms (do if ← x then return true else y) (do if ← x' then return true else y') := by
  intro h b hb
  obtain ⟨p, rfl, h⟩ := bind_eq_ok.mp h
  obtain ⟨p', rfl, hb⟩ := bind_eq_ok.mp hb
  cases p' with
  | true => exact (Except.ok.inj hb).symm
  | false =>
    cases p with
    | true => exact absurd (hx rfl false rfl) Bool.false_ne_true
    | false => exact hy h b hb

theorem Affirms.skip (hy : Affirms y y') : Affirms (do if ← x then y else return false) y' := by
  intro h
  obtain ⟨p, rfl, h⟩ := bind_eq_ok.mp h
  cases p with
  | false => cases h
  | true => exact hy h

theorem Affirms.anyOf {α : Type} {test test' : α → Except Failure Bool}
    (h : ∀ a, Affirms (test a) (test' a)) (as : List α) :
    Affirms (anyOf test as) (anyOf test' as) := by
  induction as with
  | nil => exact (SameAnswer.refl _).affirms
  | cons a as ih =>
    rw [Predicate.anyOf, Predicate.anyOf]
    exact (h a).or ih

theorem SameAnswer.carriedOn {es es' : Fields}
    (h : ∀ record, SameAnswer (holds record es) (holds record es')) (actual : Value) :
    SameAnswer (carriedOn actual es) (carriedOn actual es') := by
  unfold Listing.carriedOn
  split
  · exact .refl _
  · cases items? actual with
    | some xs => exact .anyOf h xs
    | none =>
      dsimp only
      split
      · exact .error _ _
      · exact h actual

theorem Affirms.carriedOn {es es' : Fields} (h : ∀ record, Affirms (holds record es) (holds record es'))
    (actual : Value) : Affirms (carriedOn actual es) (carriedOn actual es') := by
  unfold Listing.carriedOn
  split
  · exact (SameAnswer.refl _).affirms
  · cases items? actual with
    | some xs => exact .anyOf h xs
    | none =>
      dsimp only
      split
      · intro h
        cases h
      · exact h actual

end

/-! ## Relations -/

mutual

/-- The paths to the relations that filters ask about: the mappings that are no conditions. -/
def relationPaths : List (Key × Value) → List (List Key)
  | [] => []
  | (k, v) :: rest => (relationPathsAt v).map (k :: ·) ++ relationPaths rest
termination_by structural es => es

def relationPathsAt : Value → List (List Key)
  | .map es => if isCondition es then [] else [] :: relationPaths es
  | _ => []
termination_by structural v => v

end

theorem relationPaths_condition {k : Key} {c rest : Fields} (h : isCondition c = true) :
    relationPaths ((k, .map c) :: rest) = relationPaths rest := by
  rw [relationPaths, relationPathsAt, if_pos h]
  rfl

theorem length_relationPaths_relation {k : Key} {inner rest : Fields} (h : isCondition inner = false) :
    (relationPaths ((k, .map inner) :: rest)).length =
      (relationPaths inner).length + 1 + (relationPaths rest).length := by
  rw [relationPaths, relationPathsAt, if_neg (by simp [h]), List.length_append, List.length_map,
    List.length_cons]

/-- Whether each relation that filters ask about has a field that is not named like a native key. -/
def RelationsTold : Entries Rule → Fields → Prop :=
  Throughout (fun _ => True) (fun _ => True) fun inner => ∃ e ∈ inner, isNativeKey e.1 = false

namespace Lightened

variable {rules : Entries Rule} {es es' : Fields}

theorem keys_sublist (h : Lightened rules es es') : (es'.map (·.1)).Sublist (es.map (·.1)) := by
  induction h with
  | nil => exact .slnil
  | condition _ _ _ _ _ ih => exact ih.cons_cons _
  | mute _ _ _ _ ih => exact ih.cons _
  | relation _ _ _ _ _ _ ih => exact ih.cons_cons _
  | silent _ _ _ _ _ ih => exact ih.cons _

/-- A relation that is told from a condition without lone modes is told from one with them. -/
theorem told (h : Lightened rules es es')
    (htold : ∃ e ∈ es', isNativeKey e.1 = false) :
    isNativeCondition (ofFilters es) = false ∧ isNativeCondition (ofFilters es') = false := by
  obtain ⟨e', he', hforeign⟩ := htold
  obtain ⟨e, he, hkey⟩ := List.mem_map.mp (h.keys_sublist.subset (List.mem_map_of_mem he'))
  rw [Sql.isNativeCondition_ofFilters, Sql.isNativeCondition_ofFilters, List.all_eq_false,
    List.all_eq_false]
  exact ⟨⟨e, he, by simp [hkey, hforeign]⟩, ⟨e', he', by simp [hforeign]⟩⟩

theorem length_relationPaths_le (h : Lightened rules es es') :
    (relationPaths es').length ≤ (relationPaths es).length := by
  induction h with
  | nil => exact Nat.le_refl _
  | condition _ before after _ _ ih =>
    rw [relationPaths_condition before, relationPaths_condition after]
    exact ih
  | mute _ before _ _ ih =>
    rw [relationPaths_condition before]
    exact ih
  | relation _ before after _ _ ihinner ih =>
    rw [length_relationPaths_relation before, length_relationPaths_relation after]
    omega
  | silent _ before _ _ _ ih =>
    rw [length_relationPaths_relation before]
    omega

end Lightened

/-! ## Evaluation -/

theorem get_of_name {k : Key} {name : String} (hk : k.name? = some name) (record : Value) :
    ∃ actual, record.get k = .ok actual := by
  have hsome : k.name?.isSome = true := by rw [hk]; rfl
  cases record with
  | map es => exact ⟨_, rfl⟩
  | _ => exact ⟨_, if_pos hsome⟩

theorem entryHolds_nothing {k : Key} {name : String} (hk : k.name? = some name) (hfree : FreeName name)
    (record : Value) : entryHolds record k (.map []) = .ok true := by
  obtain ⟨actual, hget⟩ := get_of_name hk record
  rw [Reading.entryHolds_map (junction?_of_free hk hfree), hget]
  rfl

theorem entryHolds_relation {k : Key} {name : String} (hk : k.name? = some name)
    (hfree : FreeName name) (record : Value) : ∃ actual, ∀ es, isNativeCondition es = false →
      entryHolds record k (.map es) = carriedOn actual es := by
  obtain ⟨actual, hget⟩ := get_of_name hk record
  exact ⟨actual, fun es hes => Sql.entryHolds_of_get (junction?_of_free hk hfree) hget hes⟩

namespace Lightened

variable {rules : Entries Rule} {es es' : Fields}

/-- Whatever satisfies filters satisfies what is left of them without lone modes. -/
theorem affirms (h : Lightened rules es es') (hfree : (Rule.nested rules).Names FreeName)
    (htold : RelationsTold rules es') (record : Value) :
    Affirms (holds record (ofFilters es)) (holds record (ofFilters es')) := by
  induction h generalizing record with
  | nil => exact (SameAnswer.refl _).affirms
  | condition rule before after same _ ih =>
    obtain ⟨-, -, hrest⟩ := (throughout_condition rule).mp htold
    rw [ofFilters, ofFilters, holds, holds, ofFilter_condition before, ofFilter_condition after, same]
    exact (SameAnswer.refl _).affirms.and (ih hfree hrest record)
  | mute _ _ _ _ ih =>
    rw [ofFilters, holds]
    exact (ih hfree htold record).skip
  | relation rule before after lightened _ ihinner ih =>
    obtain ⟨-, ⟨htold, hinner⟩, hrest⟩ := (throughout_relation rule).mp htold
    obtain ⟨⟨name, hname, hfreename⟩, hfreeinner⟩ := hfree.forKey? rule
    obtain ⟨actual, hentry⟩ := entryHolds_relation hname hfreename record
    obtain ⟨hnative, hnative'⟩ := lightened.told htold
    rw [ofFilters, ofFilters, holds, holds, ofFilter_relation before, ofFilter_relation after,
      hentry _ hnative, hentry _ hnative']
    exact (Affirms.carriedOn (ihinner hfreeinner hinner) actual).and (ih hfree hrest record)
  | silent _ _ _ _ _ ih =>
    rw [ofFilters, holds]
    exact (ih hfree htold record).skip

theorem sameAnswer (h : Lightened rules es es') (hfree : (Rule.nested rules).Names FreeName)
    (htold : RelationsTold rules es')
    (hlength : (relationPaths es').length = (relationPaths es).length) (record : Value) :
    SameAnswer (holds record (ofFilters es)) (holds record (ofFilters es')) := by
  induction h generalizing record with
  | nil => exact .refl _
  | condition rule before after same _ ih =>
    obtain ⟨-, -, hrest⟩ := (throughout_condition rule).mp htold
    rw [ofFilters, ofFilters, holds, holds, ofFilter_condition before, ofFilter_condition after, same]
    rw [relationPaths_condition before, relationPaths_condition after] at hlength
    exact (SameAnswer.refl _).ite (ih hfree hrest hlength record) (.refl _)
  | mute rule before mute _ ih =>
    obtain ⟨⟨name, hname, hfreename⟩, -⟩ := hfree.forKey? rule
    rw [ofFilters, holds, ofFilter_condition before, mute, entryHolds_nothing hname hfreename]
    rw [relationPaths_condition before] at hlength
    exact ih hfree htold hlength record
  | relation rule before after lightened others ihinner ih =>
    obtain ⟨-, ⟨htold, hinner⟩, hrest⟩ := (throughout_relation rule).mp htold
    obtain ⟨⟨name, hname, hfreename⟩, hfreeinner⟩ := hfree.forKey? rule
    obtain ⟨actual, hentry⟩ := entryHolds_relation hname hfreename record
    obtain ⟨hnative, hnative'⟩ := lightened.told htold
    -- no count can go up, so neither of the two goes down
    have hlengthinner := lightened.length_relationPaths_le
    have hlengthrest := others.length_relationPaths_le
    rw [length_relationPaths_relation before, length_relationPaths_relation after] at hlength
    rw [ofFilters, ofFilters, holds, holds, ofFilter_relation before, ofFilter_relation after,
      hentry _ hnative, hentry _ hnative']
    exact (SameAnswer.carriedOn (ihinner hfreeinner hinner (by omega)) actual).ite
      (ih hfree hrest (by omega) record) (.refl _)
  | silent _ before _ others _ _ =>
    have hlengthrest := others.length_relationPaths_le
    rw [length_relationPaths_relation before] at hlength
    omega

end Lightened

/-- **Lone modes change nothing but relations left empty.** Take the modes of conditions in which nothing
searches out of filters, at any depth. A record that satisfied what sanitizing left of the filters is not
rejected by what it leaves now; and if the same relations are left, exactly the same records satisfy both. -/
theorem lone_modes_silent (policy : FieldPolicy) (filters : Fields) (record : Value)
    (hunmarked : (Rule.nested policy.filterable).Unmarked)
    (hfree : (Rule.nested policy.filterable).Names FreeName)
    (htold : RelationsTold policy.filterable (policy.sanitizeFilters (withoutLoneModes filters))) :
    Affirms
        (valueHolds record (.map (ofFilters (policy.sanitizeFilters filters))))
        (valueHolds record (.map (ofFilters (policy.sanitizeFilters (withoutLoneModes filters))))) ∧
      (relationPaths (policy.sanitizeFilters (withoutLoneModes filters)) =
          relationPaths (policy.sanitizeFilters filters) →
        SameAnswer
          (valueHolds record (.map (ofFilters (policy.sanitizeFilters filters))))
          (valueHolds record
            (.map (ofFilters (policy.sanitizeFilters (withoutLoneModes filters)))))) := by
  have hlightened := Sanitize.lightened_fields filters hunmarked true
  refine ⟨hlightened.affirms hfree htold record, fun hpaths => ?_⟩
  exact hlightened.sameAnswer hfree htold (congrArg List.length hpaths) record

def anyCase : Key × Value := (.text Operator.mode.token, .text "insensitive")

/-- Players by name, and by the name and the city of their club. -/
def playerPolicy : FieldPolicy where
  filterable := [(.text "name", .operators [.eq, .not, .mode]),
    (.text "club", .nested [(.text "name", .operators [.startsWith, .mode]),
      (.text "city", .operators [.mode])])]

/-- Filters with a mode beside a search, and with three modes beside none. -/
def playerFilters : Fields :=
  [(.text "name", .map [anyCase,
      (.text Operator.not.token, .map [(.text Operator.eq.token, .text "Ann"), anyCase])]),
    (.text "club", .map [(.text "city", .map [anyCase]),
      (.text "name", .map [(.text Operator.startsWith.token, .text "fc"), anyCase])])]

def player : Value :=
  .map [(.text "name", .text "ann"), (.text "club", .map [(.text "name", .text "FC North")])]

/-- The mode beside the search goes on disregarding case, and the others never did. -/
theorem lone_modes_silent_player :
    (Rule.nested playerPolicy.filterable).Unmarked ∧
      (Rule.nested playerPolicy.filterable).Names FreeName ∧
      RelationsTold playerPolicy.filterable
        (playerPolicy.sanitizeFilters (withoutLoneModes playerFilters)) ∧
      playerPolicy.sanitizeFilters (withoutLoneModes playerFilters) =
        [(.text "name", .map [(.text Operator.not.token,
            .map [(.text Operator.eq.token, .text "Ann")])]),
          (.text "club", .map [(.text "name",
            .map [(.text Operator.startsWith.token, .text "fc"), anyCase])])] ∧
      valueHolds player (.map (ofFilters (playerPolicy.sanitizeFilters playerFilters))) = .ok true := by
  have hunmarked : (Rule.nested playerPolicy.filterable).Unmarked :=
    ⟨rfl, trivial, rfl, ⟨rfl, trivial, rfl, trivial, trivial⟩, trivial⟩
  have hfree : (Rule.nested playerPolicy.filterable).Names FreeName := by
    simp [playerPolicy, Rule.Names, Rule.NamesOf, FreeName]
  have htold : RelationsTold playerPolicy.filterable
      (playerPolicy.sanitizeFilters (withoutLoneModes playerFilters)) :=
    ⟨trivial, trivial, trivial, ⟨⟨_, List.mem_cons_self, rfl⟩, trivial, trivial, trivial⟩, trivial⟩
  obtain ⟨-, hsame⟩ := lone_modes_silent playerPolicy playerFilters player hunmarked hfree htold
  exact ⟨hunmarked, hfree, htold, rfl, ((hsame rfl) true).mpr rfl⟩

/-- Filters that put a mode on the city of a club and ask for nothing. -/
def cityMode : Fields := [(.text "club", .map [(.text "city", .map [anyCase])])]

/-- **The slip.** A mode that searches nothing, on a field of a relation, asks for there to be something that
the relation leads to: a player without a club is left out. -/
theorem lone_mode_asks_for_club :
    withoutLoneModes cityMode = [] ∧
      valueHolds (.map [(.text "club", .none)])
        (.map (ofFilters (playerPolicy.sanitizeFilters cityMode))) = .ok false ∧
      valueHolds (.map [(.text "club", .none)])
        (.map (ofFilters (playerPolicy.sanitizeFilters (withoutLoneModes cityMode)))) = .ok true := by
  exact ⟨rfl, rfl, rfl⟩

end Listing
