import Listing.Failure

/-!
# The journal

What a listing notes down while it works. An event holds names that a client sent, never the values
sent with them.
-/

namespace Listing

/-- The part of the library that notes an event. -/
inductive Channel where
  | params | policy | page | engine
deriving DecidableEq

inductive Level where
  | debug | info
deriving DecidableEq

inductive Event where
  | malformedJson (parameter : String)
  | jsonNotObject (parameter : String)
  | jsonTooDeep (parameter : String)
  | unknownOperator (field : Key)
  | unfilterableField (field : Key)
  | noAllowedOperator (field : Key)
  | unsortableField (field : Key)
  | invalidDirection (field : Key)
  | pageFetched (page : Int) (records : Nat) (size total : Int)
  | engineCreated (url : String)
  | engineDisposed
deriving DecidableEq

abbrev Journal := List Event

namespace Event

def channel : Event → Channel
  | malformedJson _ | jsonNotObject _ | jsonTooDeep _ | unknownOperator _ => .params
  | unfilterableField _ | noAllowedOperator _ | unsortableField _ | invalidDirection _ => .policy
  | pageFetched .. => .page
  | engineCreated _ | engineDisposed => .engine

def level : Event → Level
  | engineCreated _ | engineDisposed => .info
  | _ => .debug

def message : Event → String
  | malformedJson p =>
    "Malformed JSON in " ++ Text.quoted p ++ ", falling back to bracketed keys"
  | jsonNotObject p =>
    "JSON in " ++ Text.quoted p ++ " is not an object, falling back to bracketed keys"
  | jsonTooDeep p =>
    "JSON in " ++ Text.quoted p ++ " is nested too deeply, falling back to bracketed keys"
  | unknownOperator f => "Dropping unknown operator on field " ++ Failure.quotedKey f
  | unfilterableField f => "Dropping filter on non-filterable field " ++ Failure.quotedKey f
  | noAllowedOperator f =>
    "Dropping filter on " ++ Failure.quotedKey f ++ ": no allowed operators"
  | unsortableField f => "Dropping sort on non-sortable field " ++ Failure.quotedKey f
  | invalidDirection f => "Dropping sort on " ++ Failure.quotedKey f ++ ": invalid direction"
  | pageFetched page records size total =>
    "Fetched page " ++ toString page ++ " (" ++ toString records ++ "/" ++ toString size ++
      " items, " ++ toString total ++ " total)"
  | engineCreated url => "Created store engine for " ++ url
  | engineDisposed => "Disposed store engine"

end Event
end Listing
