import Listing.Proofs.Connection.Step

/-!
# Histories of an engine handle

A handle is asked for engines and session factories, disposed of, and put into other environments, in any
order and as often as one likes; engines may open at one time and not at another. Every engine and factory
has its number, and a step hands out what the handle holds after it. So the factory is always one on the
engine that is there, two steps hand out the same as long as nothing is disposed of between them, and the
journal tells of one opening more than of disposals exactly while an engine is there.
-/

namespace Listing

namespace HandleState

/-- A handle that was never used, with an address of its own or without one. -/
def initial (address environment : Option String) : HandleState := ⟨{ address }, environment⟩

def after (s : HandleState) (turns : List Turn) : HandleState := turns.foldl next s

def noted (s : HandleState) : List Turn → Journal
  | [] => []
  | t :: ts => (s.step t.opens t.step).2.2 ++ noted (s.next t) ts

end HandleState

/-! ## What every history keeps -/

namespace HandleState

variable {s : HandleState} {turns : List Turn}

theorem after_cons (s : HandleState) (t : Turn) (turns : List Turn) :
    s.after (t :: turns) = (s.next t).after turns := rfl

theorem after_append_cons (s : HandleState) (before : List Turn) (t : Turn) (later : List Turn) :
    s.after (before ++ t :: later) = ((s.after before).next t).after later := List.foldl_append

theorem coherent_next {t : Turn} (ht : t.Sound) (hc : s.handle.Coherent) :
    (s.next t).handle.Coherent := (effect_step ht hc).coherent hc

theorem coherent_after (hturns : ∀ t ∈ turns, t.Sound) (hc : s.handle.Coherent) :
    (s.after turns).handle.Coherent := by
  induction turns generalizing s with
  | nil => exact hc
  | cons t turns ih =>
    obtain ⟨ht, hturns⟩ := List.forall_mem_cons.mp hturns
    exact ih hturns (coherent_next ht hc)

theorem address_after (hturns : ∀ t ∈ turns, t.Sound) (hc : s.handle.Coherent) :
    (s.after turns).handle.address = s.handle.address := by
  induction turns generalizing s with
  | nil => rfl
  | cons t turns ih =>
    obtain ⟨ht, hturns⟩ := List.forall_mem_cons.mp hturns
    rw [after_cons, ih hturns (coherent_next ht hc), (effect_step ht hc).address]

theorem balance_noted (hturns : ∀ t ∈ turns, t.Sound) (hc : s.handle.Coherent) :
    (s.noted turns).countP Event.isOpening + s.handle.isOpen.toNat =
      (s.noted turns).countP Event.isDisposal + (s.after turns).handle.isOpen.toNat := by
  induction turns generalizing s with
  | nil => rfl
  | cons t turns ih =>
    obtain ⟨ht, hturns⟩ := List.forall_mem_cons.mp hturns
    have hfirst := (effect_step ht hc).balance
    have hrest := ih hturns (coherent_next ht hc)
    rw [noted, after_cons, List.countP_append, List.countP_append]
    omega

theorem keeps_after (hturns : ∀ t ∈ turns, t.Sound) (hc : s.handle.Coherent)
    (hnone : ∀ t ∈ turns, t.step ≠ .dispose) :
    (∀ e, s.handle.engine = some e → (s.after turns).handle.engine = some e) ∧
      ∀ f, s.handle.factory = some f → (s.after turns).handle.factory = some f := by
  induction turns generalizing s with
  | nil => exact ⟨fun _ h => h, fun _ h => h⟩
  | cons t turns ih =>
    obtain ⟨ht, hturns⟩ := List.forall_mem_cons.mp hturns
    obtain ⟨hstep, hnone⟩ := List.forall_mem_cons.mp hnone
    obtain ⟨hengine, hfactory⟩ := (effect_step ht hc).keeps hstep
    obtain ⟨hengines, hfactories⟩ := ih hturns (coherent_next ht hc) hnone
    exact ⟨fun e he => hengines e (hengine e he), fun f hf => hfactories f (hfactory f hf)⟩

theorem since_after (hturns : ∀ t ∈ turns, t.Sound) (hc : s.handle.Coherent) {m n : Nat}
    (hs : s.handle.Since m n) : (s.after turns).handle.Since m n := by
  induction turns generalizing s with
  | nil => exact hs
  | cons t turns ih =>
    obtain ⟨ht, hturns⟩ := List.forall_mem_cons.mp hturns
    exact ih hturns (coherent_next ht hc) ((effect_step ht hc).since hs)

theorem since_of_dispose (hturns : ∀ t ∈ turns, t.Sound) (hc : s.handle.Coherent)
    (hdispose : ∃ t ∈ turns, t.step = .dispose) :
    (s.after turns).handle.Since s.handle.engines s.handle.factories := by
  induction turns generalizing s with
  | nil =>
    obtain ⟨t, ht, -⟩ := hdispose
    cases ht
  | cons t turns ih =>
    obtain ⟨ht, hturns⟩ := List.forall_mem_cons.mp hturns
    have hnext := coherent_next ht hc
    have heffect := effect_step ht hc
    by_cases hstep : t.step = .dispose
    · rw [hstep] at heffect
      exact since_after hturns hnext heffect.since_dispose
    · obtain ⟨u, hu, hdispose⟩ := hdispose
      have hu : u ∈ turns := by
        rcases List.mem_cons.mp hu with rfl | hu
        · exact absurd hdispose hstep
        · exact hu
      obtain ⟨hengines, hfactories⟩ := heffect.counts_le
      have hlater := ih hturns hnext ⟨u, hu, hdispose⟩
      exact ⟨Nat.le_trans hengines hlater.engines_le, Nat.le_trans hfactories hlater.factories_le,
        fun e he => Nat.le_trans hengines (hlater.engine e he),
        fun f hf => Nat.le_trans hfactories (hlater.factory f hf)⟩

/-- Two engines that are handed out are one exactly if nothing is disposed of between them. -/
theorem engine_eq_iff (hc : s.handle.Coherent) {t u : Turn} {between : List Turn} (ht : t.Sound)
    (hbetween : ∀ v ∈ between, v.Sound) (hu : u.Sound) {e e' : Engine}
    (he : Handed.engine? (s.answer t) = some e)
    (he' : Handed.engine? (((s.next t).after between).answer u) = some e') :
    e = e' ↔ ∀ v ∈ between, v.step ≠ .dispose := by
  have hfirst := coherent_next ht hc
  have hlast := coherent_after hbetween hfirst
  have heffect := effect_step hu hlast
  have hheld := (effect_step ht hc).engine_of_handed hc he
  have hheld' := heffect.engine_of_handed hlast he'
  constructor
  · rintro rfl v hv hdispose
    have hsince := heffect.since (since_of_dispose hbetween hfirst ⟨v, hv, hdispose⟩)
    have hold := hfirst.engines e hheld
    have hnew := hsince.engine e hheld'
    omega
  · intro hnone
    have hasked : u.step ≠ .dispose := by
      refine heffect.ne_dispose_of_handed fun hnothing => ?_
      rw [hnothing] at he'
      cases he'
    have hkept := (keeps_after hbetween hfirst hnone).1 e hheld
    have hkept' := (heffect.keeps hasked).1 e hkept
    exact Option.some.inj (hkept'.symm.trans hheld')

theorem factory_eq_iff (hc : s.handle.Coherent) {t u : Turn} {between : List Turn} (ht : t.Sound)
    (hbetween : ∀ v ∈ between, v.Sound) (hu : u.Sound) {f f' : SessionFactory}
    (hf : Handed.factory? (s.answer t) = some f)
    (hf' : Handed.factory? (((s.next t).after between).answer u) = some f') :
    f.number = f'.number ↔ ∀ v ∈ between, v.step ≠ .dispose := by
  have hfirst := coherent_next ht hc
  have hlast := coherent_after hbetween hfirst
  have heffect := effect_step hu hlast
  have hheld := (effect_step ht hc).factory_of_handed hf
  have hheld' := heffect.factory_of_handed hf'
  constructor
  · intro hnumber v hv hdispose
    have hsince := heffect.since (since_of_dispose hbetween hfirst ⟨v, hv, hdispose⟩)
    have hold := hfirst.factories f hheld
    have hnew := hsince.factory f' hheld'
    omega
  · intro hnone
    have hasked : u.step ≠ .dispose := by
      refine heffect.ne_dispose_of_handed fun hnothing => ?_
      rw [hnothing] at hf'
      cases hf'
    have hkept := (keeps_after hbetween hfirst hnone).2 f hheld
    have hkept' := (heffect.keeps hasked).2 f hkept
    rw [Option.some.inj (hkept'.symm.trans hheld')]

/-- Whether a handle with an address of its own, or without one, holds nothing, and hands out an engine and
a session factory as soon as one opens at the address that is known then. -/
structure Recovers (address : Option String) (s : HandleState) : Prop where
  closed : s.handle.engine = none
  bare : s.handle.factory = none
  opens : ∀ opens environment url, OpensAddresses opens →
    (Handle.given address).or (Handle.given environment) = some url → opens url = .ok () →
    (∃ e, HandleState.answer { s with environment } ⟨opens, .getEngine⟩ = .ok (.engine e)) ∧
      ∃ f, HandleState.answer { s with environment } ⟨opens, .getFactory⟩ = .ok (.factory f)

theorem recovers {address : Option String} (haddress : s.handle.address = address)
    (closed : s.handle.engine = none) (bare : s.handle.factory = none) : s.Recovers address := by
  refine ⟨closed, bare, fun opens environment url ho hknown hopens => ?_⟩
  subst haddress
  obtain ⟨e, held, -⟩ | ⟨-, hrefused, -⟩ | ⟨-, shown, hgives⟩ :=
    Handle.getEngine_cases ho environment s.handle
  · rw [closed] at held
    cases held
  · exact absurd hopens (hrefused url hknown)
  · refine ⟨⟨⟨s.handle.engines⟩, ?_⟩, ⟨⟨⟨s.handle.engines⟩, s.handle.factories⟩, ?_⟩⟩
    · dsimp only [answer, HandleState.step, afterReply]
      rw [hgives]
      rfl
    · dsimp only [answer, HandleState.step, afterReply, Handle.getFactory]
      rw [bare, hgives]
      rfl

theorem recovers_of_error {address : Option String} {t : Turn} (ht : t.Sound)
    (hc : s.handle.Coherent) (haddress : s.handle.address = address) {f : Failure}
    (hfails : s.answer t = .error f) : (s.next t).Recovers address := by
  have heffect := effect_step ht hc
  rw [hfails] at heffect
  obtain ⟨closed, bare⟩ := heffect.closed_of_failed
  exact recovers (heffect.address.trans haddress) closed bare

end HandleState

open HandleState

/-- **No stale session factory.** After every history of a handle, whatever fails on the way: a session
factory is one on the engine that is there, and one opening more than disposals was noted exactly while an
engine is there. A step that fails leaves nothing, and the next one succeeds once an engine opens. Two
steps hand out one engine and one factory if nothing was disposed of between them, and else neither. -/
theorem no_stale_factory (address environment : Option String) (turns : List Turn)
    (hsound : ∀ t ∈ turns, t.Sound) :
    let start := initial address environment
    (∀ f, (start.after turns).handle.factory = some f →
      (start.after turns).handle.engine = some f.engine) ∧
    (start.noted turns).countP Event.isOpening =
      (start.noted turns).countP Event.isDisposal + (if (start.after turns).handle.isOpen then 1 else 0) ∧
    ∀ before t later, turns = before ++ t :: later →
      (∀ f, (start.after before).answer t = .error f →
        (start.after (before ++ [t])).Recovers address) ∧
      ∀ between u rest, later = between ++ u :: rest →
        (∀ e e', Handed.engine? ((start.after before).answer t) = some e →
          Handed.engine? ((start.after (before ++ t :: between)).answer u) = some e' →
          (e = e' ↔ ∀ v ∈ between, v.step ≠ .dispose)) ∧
        ∀ f f', Handed.factory? ((start.after before).answer t) = some f →
          Handed.factory? ((start.after (before ++ t :: between)).answer u) = some f' →
          (f.number = f'.number ↔ ∀ v ∈ between, v.step ≠ .dispose) := by
  intro start
  have hstart : start.handle.Coherent := ⟨nofun, nofun, nofun⟩
  refine ⟨(coherent_after hsound hstart).bound, ?_, ?_⟩
  · have hbalance := balance_noted hsound hstart
    rw [show start.handle.isOpen = false from rfl] at hbalance
    cases hopen : (start.after turns).handle.isOpen with
    | false => simpa [hopen] using hbalance
    | true => simpa [hopen] using hbalance
  · rintro before t later rfl
    obtain ⟨hbefore, hlater⟩ := List.forall_mem_append.mp hsound
    obtain ⟨ht, hlater⟩ := List.forall_mem_cons.mp hlater
    have hc := coherent_after hbefore hstart
    refine ⟨fun f hfails => ?_, ?_⟩
    · rw [after_append_cons]
      exact recovers_of_error ht hc (address_after hbefore hstart) hfails
    · rintro between u rest rfl
      obtain ⟨hbetween, hrest⟩ := List.forall_mem_append.mp hlater
      obtain ⟨hu, -⟩ := List.forall_mem_cons.mp hrest
      rw [after_append_cons]
      exact ⟨fun e e' he he' => engine_eq_iff hc ht hbetween hu he he',
        fun f f' hf hf' => factory_eq_iff hc ht hbetween hu hf hf'⟩

theorem opensAddresses_checkOpen : OpensAddresses Address.checkOpen := by
  intro url f hread
  refine ⟨f, ?_⟩
  rw [Address.checkOpen, hread]
  rfl

/-- A step while the drivers are those that are known. -/
def driven (step : HandleStep) : Turn := ⟨Address.checkOpen, step⟩

/-- A handle is asked too early, given an address, used, disposed of and used again. -/
def renewal : List Turn :=
  [driven .getFactory, driven (.setEnvironment (some "sqlite+aiosqlite:///app.db")),
    driven .getEngine, driven .dispose, driven .getFactory]

/-- The first step fails, and what the last one hands out is on the second engine, not on the first. -/
theorem no_stale_factory_renewed :
    let start := initial none none
    (∀ t ∈ renewal, t.Sound) ∧
      (start.after (renewal.take 1)).Recovers none ∧
      (start.after renewal).handle.engine = some ⟨1⟩ ∧
      (start.noted renewal).countP Event.isOpening = (start.noted renewal).countP Event.isDisposal + 1 ∧
      ((⟨0⟩ : Engine) = ⟨1⟩ ↔ ∀ t ∈ [driven .dispose], t.step ≠ .dispose) := by
  intro start
  have hsound : ∀ t ∈ renewal, t.Sound := by
    intro t ht
    obtain ⟨step, rfl⟩ : ∃ step, t = driven step := by
      simp only [renewal, List.mem_cons, List.not_mem_nil, or_false] at ht
      rcases ht with rfl | rfl | rfl | rfl | rfl <;> exact ⟨_, rfl⟩
    exact opensAddresses_checkOpen
  obtain ⟨hbound, hbalance, hpairs⟩ := no_stale_factory none none renewal hsound
  have hfactory : (start.after renewal).handle.factory = some ⟨⟨1⟩, 0⟩ := by rfl
  have hopen : (start.after renewal).handle.isOpen = true := by rfl
  refine ⟨hsound, ?_, hbound _ hfactory, ?_, ?_⟩
  · exact (hpairs [] (driven .getFactory) (renewal.drop 1) rfl).1 .notConfigured rfl
  · exact hbalance.trans (congrArg _ (if_pos hopen))
  · have hpair := (hpairs (renewal.take 2) (driven .getEngine) (renewal.drop 3) rfl).2
      [driven .dispose] (driven .getFactory) [] rfl
    exact hpair.1 ⟨0⟩ ⟨1⟩ rfl rfl

end Listing
