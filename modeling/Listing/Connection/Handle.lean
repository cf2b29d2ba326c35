import Listing.Connection.Driver
import Listing.Journal

/-!
# The engine handle

A handle opens a database engine when it is first asked for one and keeps it until it is disposed of;
so it does with the factory of sessions on that engine. Both are dropped together, so that no factory
outlives its engine. The address is the handle's own or, where it has none, the one that the
environment names at that moment.
-/

namespace Listing

/-- An engine, told from others by its number. -/
structure Engine where
  number : Nat
deriving DecidableEq, Inhabited

structure SessionFactory where
  engine : Engine
  number : Nat
deriving DecidableEq, Inhabited

/-- A handle on an engine. -/
structure Handle where
  address : Option String := none
  engine : Option Engine := none
  factory : Option SessionFactory := none
  /-- The number of engines opened so far. -/
  engines : Nat := 0
  /-- The number of session factories made so far. -/
  factories : Nat := 0
deriving DecidableEq, Inhabited

/-- What an operation of a handle answers, the handle after it, and what is noted. -/
structure Reply (α : Type) where
  answer : Except Failure α
  handle : Handle
  journal : Journal := []

namespace Handle

def isOpen (h : Handle) : Bool := h.engine.isSome

def given (address : Option String) : Option String := address.filter (· != "")

/-- The engine; one is opened if there is none. `opens` tells why none can be opened at an address. -/
def getEngine (opens : String → Except Failure Unit) (environment : Option String) (h : Handle) :
    Reply Engine :=
  match h.engine with
  | some e => ⟨.ok e, h, []⟩
  | none =>
    match (given h.address).or (given environment) with
    | none => ⟨.error .notConfigured, h, []⟩
    | some url =>
      match opens url with
      | .error f => ⟨.error f, h, []⟩
      | .ok () =>
        let e : Engine := ⟨h.engines⟩
        let h := { h with engine := some e, engines := h.engines + 1 }
        match Address.read url with
        | .ok a => ⟨.ok e, h, [.engineCreated a.render]⟩
        | .error f => ⟨.error f, h, []⟩

/-- The session factory; one is made on the engine if there is none. -/
def getFactory (opens : String → Except Failure Unit) (environment : Option String) (h : Handle) :
    Reply SessionFactory :=
  match h.factory with
  | some s => ⟨.ok s, h, []⟩
  | none =>
    let r := h.getEngine opens environment
    match r.answer with
    | .ok e =>
      let s : SessionFactory := ⟨e, r.handle.factories⟩
      let h := { r.handle with factory := some s, factories := r.handle.factories + 1 }
      ⟨.ok s, h, r.journal⟩
    | .error f => ⟨.error f, r.handle, r.journal⟩

def dispose (h : Handle) : Reply Unit :=
  ⟨.ok (), { h with engine := none, factory := none }, if h.isOpen then [.engineDisposed] else []⟩

end Handle

/-! ## Histories -/

inductive HandleStep where
  | getEngine
  | getFactory
  | dispose
  | setEnvironment (address : Option String)
deriving DecidableEq

/-- What a step hands out. -/
inductive Handed where
  | engine (e : Engine)
  | factory (s : SessionFactory)
  | nothing
deriving DecidableEq

/-- A handle in its environment. -/
structure HandleState where
  handle : Handle := {}
  environment : Option String := none
deriving DecidableEq, Inhabited

namespace HandleState

/-- The state after a reply, what it hands out, and what is noted. -/
def afterReply {α : Type} (s : HandleState) (r : Reply α) (hand : α → Handed) :
    Except Failure Handed × HandleState × Journal :=
  (r.answer.map hand, { s with handle := r.handle }, r.journal)

def step (opens : String → Except Failure Unit) (s : HandleState) :
    HandleStep → Except Failure Handed × HandleState × Journal
  | .getEngine => s.afterReply (s.handle.getEngine opens s.environment) .engine
  | .getFactory => s.afterReply (s.handle.getFactory opens s.environment) .factory
  | .dispose => s.afterReply s.handle.dispose fun _ => .nothing
  | .setEnvironment address => (.ok .nothing, { s with environment := address }, [])

end HandleState
end Listing
