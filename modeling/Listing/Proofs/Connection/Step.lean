import Listing.Connection.Handle

/-!
# Steps of an engine handle

A step of a handle answers with what is held already, opens an engine, makes a session factory, drops both,
or fails and leaves all as it was. From this alone follows what each step keeps: the factory is one on the
engine that is there, numbers grow, and the journal tells of openings and disposals.
-/

namespace Listing

/-- Whether no engine opens at a text that writes no address. -/
def OpensAddresses (opens : String → Except Failure Unit) : Prop :=
  ∀ url f, Address.read url = .error f → ∃ g, opens url = .error g

/-- A step, taken while engines open in some way. -/
structure Turn where
  opens : String → Except Failure Unit
  step : HandleStep

/-- Whether engines open at addresses only while a step is taken. -/
def Turn.Sound (t : Turn) : Prop := OpensAddresses t.opens

/-- The engine that a step hands out, by itself or as that of a session factory. -/
def Handed.engine? : Except Failure Handed → Option Engine
  | .ok (.engine e) => some e
  | .ok (.factory s) => some s.engine
  | _ => none

def Handed.factory? : Except Failure Handed → Option SessionFactory
  | .ok (.factory s) => some s
  | _ => none

def Event.isOpening : Event → Bool
  | .engineCreated _ => true
  | _ => false

def Event.isDisposal : Event → Bool
  | .engineDisposed => true
  | _ => false

namespace HandleState

def answer (s : HandleState) (t : Turn) : Except Failure Handed := (s.step t.opens t.step).1

/-- The state after a turn. -/
def next (s : HandleState) (t : Turn) : HandleState := (s.step t.opens t.step).2.1

end HandleState

/-! ## What a step can do -/

/-- What a step of a handle can answer, leave and note. -/
inductive Effect (h : Handle) : HandleStep → Except Failure Handed → Handle → Journal → Prop
  | moved (address : Option String) : Effect h (.setEnvironment address) (.ok .nothing) h []
  | disposed : Effect h .dispose (.ok .nothing) { h with engine := none, factory := none }
      (if h.isOpen then [.engineDisposed] else [])
  | failed {step : HandleStep} (f : Failure) (asked : step ≠ .dispose) (closed : h.engine = none)
      (bare : h.factory = none) : Effect h step (.error f) h []
  | heldEngine (e : Engine) (held : h.engine = some e) : Effect h .getEngine (.ok (.engine e)) h []
  | opened (url : String) (closed : h.engine = none) :
      Effect h .getEngine (.ok (.engine ⟨h.engines⟩))
        { h with engine := some ⟨h.engines⟩, engines := h.engines + 1 } [.engineCreated url]
  | heldFactory (s : SessionFactory) (held : h.factory = some s) :
      Effect h .getFactory (.ok (.factory s)) h []
  | made (e : Engine) (held : h.engine = some e) (bare : h.factory = none) :
      Effect h .getFactory (.ok (.factory ⟨e, h.factories⟩))
        { h with factory := some ⟨e, h.factories⟩, factories := h.factories + 1 } []
  | openedAndMade (url : String) (closed : h.engine = none) (bare : h.factory = none) :
      Effect h .getFactory (.ok (.factory ⟨⟨h.engines⟩, h.factories⟩))
        { h with
          engine := some ⟨h.engines⟩, engines := h.engines + 1
          factory := some ⟨⟨h.engines⟩, h.factories⟩, factories := h.factories + 1 }
        [.engineCreated url]

/-- Whether a handle holds a factory on its engine only, and both have numbers below the next ones. -/
structure Handle.Coherent (h : Handle) : Prop where
  bound : ∀ s, h.factory = some s → h.engine = some s.engine
  engines : ∀ e, h.engine = some e → e.number < h.engines
  factories : ∀ s, h.factory = some s → s.number < h.factories

namespace Handle

variable {opens : String → Except Failure Unit} {environment : Option String} {h : Handle}

theorem Coherent.bare (hc : h.Coherent) (hclosed : h.engine = none) : h.factory = none := by
  cases hfactory : h.factory with
  | none => rfl
  | some s =>
    have hheld := hc.bound s hfactory
    rw [hclosed] at hheld
    cases hheld

/-- The address that a handle in an environment opens an engine at. -/
def known (h : Handle) (environment : Option String) : Option String :=
  (given h.address).or (given environment)

/-- Asking for the engine gives the one that is there, fails and leaves all as it is, or opens one. -/
theorem getEngine_cases (ho : OpensAddresses opens) (environment : Option String) (h : Handle) :
    (∃ e, h.engine = some e ∧ h.getEngine opens environment = ⟨.ok e, h, []⟩) ∨
      (h.engine = none ∧ (∀ url, h.known environment = some url → opens url ≠ .ok ()) ∧
        ∃ f, h.getEngine opens environment = ⟨.error f, h, []⟩) ∨
      (h.engine = none ∧ ∃ url, h.getEngine opens environment =
        ⟨.ok ⟨h.engines⟩, { h with engine := some ⟨h.engines⟩, engines := h.engines + 1 },
          [.engineCreated url]⟩) := by
  unfold getEngine known
  cases hengine : h.engine with
  | some e => exact .inl ⟨e, rfl, rfl⟩
  | none =>
    cases (given h.address).or (given environment) with
    | none => exact .inr (.inl ⟨rfl, fun _ hurl => (nomatch hurl), _, rfl⟩)
    | some url =>
      dsimp only
      cases hopens : opens url with
      | error f =>
        refine .inr (.inl ⟨rfl, ?_, f, rfl⟩)
        rintro _ ⟨⟩ hok
        rw [hopens] at hok
        cases hok
      | ok =>
        cases hread : Address.read url with
        | error f =>
          obtain ⟨g, hg⟩ := ho url f hread
          rw [hopens] at hg
          cases hg
        | ok a => exact .inr (.inr ⟨rfl, a.render, rfl⟩)

end Handle

namespace HandleState

variable {s : HandleState} {t : Turn}

theorem effect_step (ht : t.Sound) (hc : s.handle.Coherent) :
    Effect s.handle t.step (s.answer t) (s.next t).handle (s.step t.opens t.step).2.2 := by
  obtain ⟨opens, step⟩ := t
  unfold answer next
  cases step with
  | setEnvironment address => exact .moved address
  | dispose => exact .disposed
  | getEngine =>
    dsimp only [HandleState.step, afterReply]
    obtain ⟨e, held, hgives⟩ | ⟨closed, -, f, hgives⟩ | ⟨closed, url, hgives⟩ :=
      Handle.getEngine_cases ht s.environment s.handle
    · rw [hgives]
      exact .heldEngine e held
    · rw [hgives]
      exact .failed f nofun closed (hc.bare closed)
    · rw [hgives]
      exact .opened url closed
  | getFactory =>
    dsimp only [HandleState.step, afterReply, Handle.getFactory]
    cases hfactory : s.handle.factory with
    | some made => exact .heldFactory made hfactory
    | none =>
      obtain ⟨e, held, hgives⟩ | ⟨closed, -, f, hgives⟩ | ⟨closed, url, hgives⟩ :=
        Handle.getEngine_cases ht s.environment s.handle
      · rw [hgives]
        exact .made e held hfactory
      · rw [hgives]
        exact .failed f nofun closed hfactory
      · rw [hgives]
        exact .openedAndMade url closed hfactory

end HandleState

/-! ## What every step keeps -/

namespace Effect

variable {h h' : Handle} {step : HandleStep} {a : Except Failure Handed} {j : Journal}

theorem address (heffect : Effect h step a h' j) : h'.address = h.address := by
  cases heffect <;> rfl

theorem coherent (heffect : Effect h step a h' j) (hc : h.Coherent) : h'.Coherent := by
  cases heffect with
  | moved | failed | heldEngine | heldFactory => exact hc
  | disposed => exact ⟨nofun, nofun, nofun⟩
  | opened url closed =>
    have hbare := hc.bare closed
    refine ⟨fun s hs => ?_, ?_, fun s hs => ?_⟩
    · rw [hbare] at hs
      cases hs
    · rintro _ ⟨⟩
      exact Nat.lt_succ_self _
    · rw [hbare] at hs
      cases hs
  | made e held bare =>
    refine ⟨?_, hc.engines, ?_⟩
    · rintro _ ⟨⟩
      exact held
    · rintro _ ⟨⟩
      exact Nat.lt_succ_self _
  | openedAndMade url closed bare =>
    refine ⟨?_, ?_, ?_⟩
    · rintro _ ⟨⟩
      rfl
    · rintro _ ⟨⟩
      exact Nat.lt_succ_self _
    · rintro _ ⟨⟩
      exact Nat.lt_succ_self _

theorem balance (heffect : Effect h step a h' j) :
    j.countP Event.isOpening + h.isOpen.toNat = j.countP Event.isDisposal + h'.isOpen.toNat := by
  cases heffect with
  | moved | failed | heldEngine | heldFactory | made => rfl
  | disposed => cases hopen : h.isOpen <;> simp [Event.isOpening, Event.isDisposal, Handle.isOpen]
  | opened url closed | openedAndMade url closed =>
    simp [Handle.isOpen, closed, Event.isOpening, Event.isDisposal]

theorem engine_of_handed (heffect : Effect h step a h' j) (hc : h.Coherent) {e : Engine}
    (ha : Handed.engine? a = some e) : h'.engine = some e := by
  cases heffect with
  | moved | disposed | failed => cases ha
  | heldEngine e' held =>
    obtain rfl := Option.some.inj ha
    exact held
  | heldFactory s held =>
    obtain rfl := Option.some.inj ha
    exact hc.bound s held
  | made e' held bare =>
    obtain rfl := Option.some.inj ha
    exact held
  | opened | openedAndMade => exact ha

theorem factory_of_handed (heffect : Effect h step a h' j) {s : SessionFactory}
    (ha : Handed.factory? a = some s) : h'.factory = some s := by
  cases heffect with
  | moved | disposed | failed | heldEngine | opened => cases ha
  | heldFactory s' held =>
    obtain rfl := Option.some.inj ha
    exact held
  | made | openedAndMade => exact ha

theorem ne_dispose_of_handed (heffect : Effect h step a h' j) (ha : a ≠ .ok .nothing) :
    step ≠ .dispose := by
  rintro rfl
  cases heffect with
  | disposed => exact ha rfl
  | failed f asked => exact asked rfl

theorem closed_of_failed {f : Failure} (heffect : Effect h step (.error f) h' j) :
    h'.engine = none ∧ h'.factory = none := by
  cases heffect with
  | failed f asked closed bare => exact ⟨closed, bare⟩

theorem keeps (heffect : Effect h step a h' j) (hstep : step ≠ .dispose) :
    (∀ e, h.engine = some e → h'.engine = some e) ∧
      ∀ s, h.factory = some s → h'.factory = some s := by
  cases heffect with
  | moved | failed | heldEngine | heldFactory => exact ⟨fun _ h => h, fun _ h => h⟩
  | disposed => exact absurd rfl hstep
  | opened url closed =>
    refine ⟨fun e he => ?_, fun _ h => h⟩
    rw [closed] at he
    cases he
  | made e held bare =>
    refine ⟨fun _ h => h, fun s hs => ?_⟩
    rw [bare] at hs
    cases hs
  | openedAndMade url closed bare =>
    refine ⟨fun e he => ?_, fun s hs => ?_⟩
    · rw [closed] at he
      cases he
    · rw [bare] at hs
      cases hs

end Effect

/-- Whether what a handle holds was opened and made when others were numbered from some counts on. -/
structure Handle.Since (engines factories : Nat) (h : Handle) : Prop where
  engines_le : engines ≤ h.engines
  factories_le : factories ≤ h.factories
  engine : ∀ e, h.engine = some e → engines ≤ e.number
  factory : ∀ s, h.factory = some s → factories ≤ s.number

namespace Effect

variable {h h' : Handle} {step : HandleStep} {a : Except Failure Handed} {j : Journal}

theorem counts_le (heffect : Effect h step a h' j) :
    h.engines ≤ h'.engines ∧ h.factories ≤ h'.factories := by
  cases heffect with
  | moved | disposed | failed | heldEngine | heldFactory => exact ⟨Nat.le_refl _, Nat.le_refl _⟩
  | opened => exact ⟨Nat.le_succ _, Nat.le_refl _⟩
  | made => exact ⟨Nat.le_refl _, Nat.le_succ _⟩
  | openedAndMade => exact ⟨Nat.le_succ _, Nat.le_succ _⟩

theorem since (heffect : Effect h step a h' j) {m n : Nat} (hs : h.Since m n) : h'.Since m n := by
  obtain ⟨hengines, hfactories⟩ := heffect.counts_le
  refine ⟨Nat.le_trans hs.engines_le hengines, Nat.le_trans hs.factories_le hfactories, ?_, ?_⟩
  · intro e he
    cases heffect with
    | moved | failed | heldEngine | heldFactory | made => exact hs.engine e he
    | disposed => cases he
    | opened | openedAndMade =>
      obtain rfl := Option.some.inj he
      exact hs.engines_le
  · intro s hfactory
    cases heffect with
    | moved | failed | heldEngine | heldFactory | opened => exact hs.factory s hfactory
    | disposed => cases hfactory
    | made | openedAndMade =>
      obtain rfl := Option.some.inj hfactory
      exact hs.factories_le

theorem since_dispose (heffect : Effect h .dispose a h' j) : h'.Since h.engines h.factories := by
  cases heffect with
  | disposed => exact ⟨Nat.le_refl _, Nat.le_refl _, nofun, nofun⟩
  | failed f asked => exact absurd rfl asked

end Effect

end Listing
