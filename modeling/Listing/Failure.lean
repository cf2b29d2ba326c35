import Listing.Key
import Listing.Text.Quoted

/-!
# Failures

Why an operation may fail. A failure is a cause with its data; `Failure.message` words it and
`Failure.category` says of which sort it is. Client input alone never fails: most causes are mistakes
in what the server declares or in the records that a store holds.
-/

namespace Listing

inductive PolicyFault where
  | unknownSections (names : List String)
  | unknownOperator (quoted : String)
  | ruleShape (quoted : String)
  | filterableShape (kind : String)
  | searchableText
  | searchableName (quoted : String)
  | sortableShape (kind : String)
  | sortRule (quoted : String)

def PolicyFault.message : PolicyFault → String
  | unknownSections names => "Unknown policy sections: " ++ ", ".intercalate names
  | unknownOperator q => "Unknown filter operator " ++ q
  | ruleShape q => "Filter rule must be a list of operators or a nested policy, got " ++ q
  | filterableShape kind => "filterable must be a mapping, got " ++ kind
  | searchableText => "searchable must be a sequence of field names, not a string"
  | searchableName q => "Invalid searchable field " ++ q
  | sortableShape kind => "sortable must be a mapping, got " ++ kind
  | sortRule q => "Invalid sort rule " ++ q

inductive Defect where
  | missing | intType | intFromFloat | intParsing | intParsingSize | finiteNumber
  | dictType | stringType | stringUnicode | modelType | frozen
deriving DecidableEq

def Defect.code : Defect → String
  | missing => "missing" | intType => "int_type" | intFromFloat => "int_from_float"
  | intParsing => "int_parsing" | intParsingSize => "int_parsing_size"
  | finiteNumber => "finite_number" | dictType => "dict_type" | stringType => "string_type"
  | stringUnicode => "string_unicode" | modelType => "model_type" | frozen => "frozen_instance"

/-- The cause of a failure. -/
inductive Failure where
  /-- A predicate names a field or a condition that the store does not know. -/
  | unsupportedPredicate (key : Key) (model : String)
  /-- A store is opened without a database address. -/
  | notConfigured
  | policy (fault : PolicyFault) (field : Option Key)
  | invalidMeta (defects : List (Defect × List Key))
  | noMember (kind member : String)
  | memberNotText (kind : String)
  | bytesStart
  | notIterable (kind : String)
  | notUnpackable (kind : String)
  | tooFewToUnpack (count : Nat)
  | tooManyToUnpack
  | pairLength (index length : Nat)
  | pairShape (index : Nat)
  | unordered (symbol left right : String)
  | operands (symbol left right : String)
  | concatenation (left right : String)
  | joinItem (index : Nat) (kind : String)
  | notAnIndex
  | unhashable (kind : String)
  | longInteger
  | longIntegerText (digits : Nat)
  | integerText (quoted : String)
  | integerShape (kind : String)
  | floatText (quoted : String)
  | integerPastFloat
  | quotientPastFloat
  | infiniteInteger
  | nanInteger
  | integerPastStorage
  | nonAscii (first last : Nat) (char : Char)
  | unexpectedArgument (callee argument : String)
  | missingArguments (callee : String) (arguments : List String)
  | surplusArguments (callee : String) (least most given : Nat)
  | noKeywordArguments (callee : String)
  | repeatedArgument (callee argument : String)
  /-- Parameters that are no integers, with their kinds. -/
  | parameterTypes (parameters : List (String × String))
  | negativeWord
  | longWord
  | wordPastRange (n : Int)
  /-- A store cannot be reached. -/
  | unavailable
  /-- An ordering comparison with null or a truth value has no meaning in SQL. -/
  | orderedConstant
  /-- A statement binds a value that the database has no type for. -/
  | unbindable
  /-- A statement binds a value that does not fit the type of its list. -/
  | unfitBinding
  /-- Something that is no column or relation is to be loaded. -/
  | unloadable
  /-- A relation is to be loaded as a column, or a column as a relation. -/
  | mismatchedLoader
  | invalidSql
  | unparsableUrl
  /-- The number of the service in a database address is empty. -/
  | emptyService
  | unknownDialect
  /-- The driver of a database address is known and not there. -/
  | missingDriver
  | blockingDriver
  | unhashablePassword

/-- The sort of a failure. -/
inductive Category where
  | unsupportedPredicate | notConfigured | policy | invalidMeta
  | member | type | value | overflow | encoding | connection
  | argument | loader | programming | statement | operational | dialect | driver | request | hashing
deriving DecidableEq

namespace Failure

/-- Several quoted names in a sentence. -/
def enumerate : List String → String
  | [] => ""
  | [a] => a
  | [a, b] => a ++ " and " ++ b
  | names => ", ".intercalate names.dropLast ++ ", and " ++ names.getLastD ""

def category : Failure → Category
  | unsupportedPredicate .. => .unsupportedPredicate
  | notConfigured => .notConfigured
  | policy .. => .policy
  | invalidMeta _ => .invalidMeta
  | noMember .. => .member
  | memberNotText _ | bytesStart | notIterable _ | notUnpackable _ | pairShape _ | unordered ..
  | operands .. | concatenation .. | joinItem .. | notAnIndex | unhashable _ | integerShape _
  | unexpectedArgument .. | missingArguments .. | surplusArguments .. | noKeywordArguments _
  | repeatedArgument .. | parameterTypes _ | emptyService => .type
  | tooFewToUnpack _ | tooManyToUnpack | pairLength .. | longInteger | longIntegerText _
  | integerText _ | floatText _ | nanInteger => .value
  | integerPastFloat | quotientPastFloat | infiniteInteger | integerPastStorage | negativeWord | longWord
  | wordPastRange _ => .overflow
  | nonAscii .. => .encoding
  | unavailable => .connection
  | orderedConstant | unparsableUrl => .argument
  | unloadable => .argument
  | mismatchedLoader => .loader
  | unbindable => .programming
  | unfitBinding => .statement
  | invalidSql => .operational
  | unknownDialect => .dialect
  | missingDriver => .driver
  | blockingDriver => .request
  | unhashablePassword => .hashing

def quotedKey : Key → String
  | .text s => Text.quoted s
  | .operator op => "<FilterOperator." ++ op.name ++ ": " ++ Text.quoted op.token ++ ">"
  | .direction d => "<SortDirection." ++ d.name ++ ": " ++ Text.quoted d.word ++ ">"
  | .none => "None"
  | .bool b => if b then "True" else "False"
  | .int n => toString n
  | .float x => x.display
  | .bytes b => Text.quotedBytes b

def message : Failure → String
  | unsupportedPredicate key model =>
    "Cannot compile predicate key " ++ quotedKey key ++ " on " ++ Text.quoted model
  | notConfigured => "No database URL given and DATABASE_URL is not set"
  | policy fault _ => fault.message
  | noMember kind member => "'" ++ kind ++ "' object has no attribute '" ++ member ++ "'"
  | memberNotText kind => "attribute name must be string, not '" ++ kind ++ "'"
  | bytesStart => "startswith first arg must be bytes or a tuple of bytes, not str"
  | notIterable kind => "'" ++ kind ++ "' object is not iterable"
  | notUnpackable kind => "cannot unpack non-iterable " ++ kind ++ " object"
  | tooFewToUnpack n => "not enough values to unpack (expected 2, got " ++ toString n ++ ")"
  | tooManyToUnpack => "too many values to unpack (expected 2)"
  | pairLength i n =>
    "dictionary update sequence element #" ++ toString i ++ " has length " ++ toString n ++
      "; 2 is required"
  | pairShape i =>
    "cannot convert dictionary update sequence element #" ++ toString i ++ " to a sequence"
  | unordered symbol l r =>
    "'" ++ symbol ++ "' not supported between instances of '" ++ l ++ "' and '" ++ r ++ "'"
  | operands symbol l r =>
    "unsupported operand type(s) for " ++ symbol ++ ": '" ++ l ++ "' and '" ++ r ++ "'"
  | concatenation l r => "can only concatenate " ++ l ++ " (not \"" ++ r ++ "\") to " ++ l
  | joinItem i kind =>
    "sequence item " ++ toString i ++ ": expected str instance, " ++ kind ++ " found"
  | notAnIndex => "slice indices must be integers or None or have an __index__ method"
  | unhashable kind => "unhashable type: '" ++ kind ++ "'"
  | longInteger =>
    "Exceeds the limit (4300 digits) for integer string conversion; " ++
      "use sys.set_int_max_str_digits() to increase the limit"
  | longIntegerText n =>
    "Exceeds the limit (4300 digits) for integer string conversion: value has " ++ toString n ++
      " digits; use sys.set_int_max_str_digits() to increase the limit"
  | integerText q => "invalid literal for int() with base 10: " ++ q
  | integerShape kind =>
    "int() argument must be a string, a bytes-like object or a real number, not '" ++ kind ++ "'"
  | floatText q => "could not convert string to float: " ++ q
  | integerPastFloat => "int too large to convert to float"
  | quotientPastFloat => "integer division result too large for a float"
  | infiniteInteger => "cannot convert float infinity to integer"
  | nanInteger => "cannot convert float NaN to integer"
  | integerPastStorage => "Python int too large to convert to SQLite INTEGER"
  | nonAscii first last char =>
    if first = last then
      let shown := Text.escapeChar char
      "'ascii' codec can't encode character '" ++ String.ofList shown ++ "' in position " ++
        toString first ++ ": ordinal not in range(128)"
    else
      "'ascii' codec can't encode characters in position " ++ toString first ++ "-" ++
        toString last ++ ": ordinal not in range(128)"
  | unexpectedArgument callee a =>
    callee ++ "() got an unexpected keyword argument " ++ Text.quoted a
  | missingArguments callee names =>
    callee ++ "() missing " ++ toString names.length ++ " required positional argument" ++
      (if names.length = 1 then "" else "s") ++ ": " ++ enumerate (names.map Text.quoted)
  | surplusArguments callee least most given =>
    callee ++ "() takes " ++ (if least < most then "from " ++ toString least ++ " to " else "") ++
      toString most ++ " positional arguments but " ++ toString given ++ " were given"
  | noKeywordArguments callee => callee ++ "() takes no keyword arguments"
  | repeatedArgument callee a => callee ++ "() got multiple values for argument " ++ Text.quoted a
  | parameterTypes ps =>
    ", ".intercalate (ps.map fun (p, kind) => Text.quoted p ++ " must be a int (got " ++ kind ++ ")") ++
      "."
  | negativeWord => "can't convert negative number to unsigned"
  | longWord => "int too big to convert"
  | wordPastRange n => "integer " ++ toString n ++ " does not fit '32-bit unsigned int'"
  | unavailable => "store unavailable"
  | emptyService => "Port argument must be an integer or None"
  | invalidMeta _ | orderedConstant | unbindable | unfitBinding | unloadable | mismatchedLoader
  | invalidSql | unparsableUrl | unknownDialect | missingDriver | blockingDriver
  | unhashablePassword => ""

end Failure
end Listing
