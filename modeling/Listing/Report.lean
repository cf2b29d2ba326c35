import Listing.Value.Display

/-!
# Error reports

What a caller is told about an error: a text and a mapping that a server can send on. Reports come from
failures of the library, and a server can make its own of the same classes.
-/

namespace Listing

inductive ErrorClass where
  | general | policy | infrastructure | notConfigured | unsupportedPredicate
deriving DecidableEq

/-- A report of an error. -/
structure Report where
  text : String
  entries : Fields

namespace ErrorClass

def all : List ErrorClass := [.general, .policy, .infrastructure, .notConfigured, .unsupportedPredicate]

def name : ErrorClass → String
  | general => "PageQueryError"
  | policy => "PolicyError"
  | infrastructure => "InfrastructureError"
  | notConfigured => "StoreNotConfiguredError"
  | unsupportedPredicate => "UnsupportedPredicateError"

def ofName? (s : String) : Option ErrorClass := all.find? (·.name == s)

/-- A class and the wider classes that it belongs to. -/
def lineage : ErrorClass → List ErrorClass
  | general => [.general]
  | policy => [.policy, .general]
  | infrastructure => [.infrastructure, .general]
  | notConfigured => [.notConfigured, .infrastructure, .general]
  | unsupportedPredicate => [.unsupportedPredicate, .infrastructure, .general]

end ErrorClass

namespace Report

/-- The report of an error that is known by its class and text alone. -/
def plain (c : ErrorClass) (text : String) : Report :=
  ⟨text, [(.text "error", .text c.name), (.text "message", .text text)]⟩

def policy (text : String) (message field : Value) : Report :=
  ⟨text, [(.text "error", .text "POLICY_ERROR"), (.text "message", message), (.text "field", field)]⟩

def unsupported (text : String) (key model : Value) : Report :=
  ⟨text, [(.text "error", .text "UNSUPPORTED_PREDICATE"), (.text "key", key), (.text "model", model)]⟩

/-- The report of a failure, if it is one of the library's own errors. -/
def ofFailure? (f : Failure) : Option Report :=
  match f with
  | .policy fault field =>
    some (policy f.message (.text fault.message) (field.elim .none Value.ofKey))
  | .unsupportedPredicate key model => some (unsupported f.message (.ofKey key) (.text model))
  | .notConfigured => some (plain .notConfigured f.message)
  | _ => none

/-- The text of the arguments of an error: of a single one itself, of several a tuple. -/
def argumentsText (arguments : List Value) : Except Failure String :=
  match arguments with
  | [] => .ok ""
  | [v] => v.display
  | vs => Value.written (.tuple vs)

/-- The parameters of an error and whether they must be given. -/
abbrev Parameters := List (String × Bool)

/-- The values of parameters, given in order and by name. -/
def bindArguments (callee : String) (parameters : Parameters) (arguments : List Value)
    (named : Fields) : Except Failure (List Value) := do
  let positional := (parameters.map (·.1)).zip arguments
  for (k, _) in named do
    let name := k.name?.getD ""
    if !parameters.any (·.1 == name) then throw (.unexpectedArgument callee name)
    if positional.any (·.1 == name) then throw (.repeatedArgument callee name)
  if parameters.length < arguments.length then
    throw (.surplusArguments callee ((parameters.filter (·.2)).length + 1) (parameters.length + 1)
      (arguments.length + 1))
  let value? (name : String) := (positional.lookup name).or (named.find name)
  match (parameters.filter fun (name, needed) => needed && (value? name).isNone).map (·.1) with
  | [] => return parameters.map fun (name, _) => (value? name).getD .none
  | absent => throw (.missingArguments callee absent)

/-- The report of an error that is made from arguments, given in order and by name. -/
def make (c : ErrorClass) (arguments : List Value) (named : Fields) : Except Failure Report :=
  match c with
  | .policy => do
    match ← bindArguments "PolicyError.__init__" [("message", true), ("field", false)] arguments
        named with
    | [message, field] => return policy (← message.display) message field
    | _ => return plain c ""
  | .unsupportedPredicate => do
    match ← bindArguments "UnsupportedPredicateError.__init__" [("key", true), ("model_name", true)]
        arguments named with
    | [key, model] =>
      let text := "Cannot compile predicate key " ++ (← key.written) ++ " on " ++ (← model.written)
      return unsupported text key model
    | _ => return plain c ""
  | c =>
    if named.isEmpty then do return plain c (← argumentsText arguments)
    else .error (.noKeywordArguments c.name)

end Report
end Listing
