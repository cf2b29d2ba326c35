import Listing.Config
import Listing.Connection.Address
import Listing.Connection.Driver
import Listing.Connection.Handle
import Listing.Credential.Argon2
import Listing.Credential.Base64
import Listing.Credential.Blake2b
import Listing.Credential.Hasher
import Listing.Credential.StoredHash
import Listing.Direction
import Listing.Failure
import Listing.Journal
import Listing.Json
import Listing.Key
import Listing.Memory.Order
import Listing.Memory.Store
import Listing.Memory.Window
import Listing.Number.Binary64
import Listing.Number.Reading
import Listing.Number.Shortest
import Listing.Operator
import Listing.Page.Basic
import Listing.Page.Info
import Listing.Page.Paginate
import Listing.Page.Quantity
import Listing.Params.Basic
import Listing.Params.BracketKey
import Listing.Params.Operand
import Listing.Params.Parse
import Listing.Params.QueryString
import Listing.Params.Source
import Listing.Params.Tree
import Listing.Policy.Basic
import Listing.Policy.Declaration
import Listing.Policy.Filters
import Listing.Policy.Sort
import Listing.Predicate.Basic
import Listing.Predicate.Evaluation
import Listing.Predicate.Filters
import Listing.Proofs.Connection.History
import Listing.Proofs.Connection.Step
import Listing.Proofs.Credential.Base64
import Listing.Proofs.Credential.Checks
import Listing.Proofs.Credential.Settings
import Listing.Proofs.Credential.StoredHash
import Listing.Proofs.Direction
import Listing.Proofs.Entries
import Listing.Proofs.Memory.Fetch
import Listing.Proofs.Memory.Order
import Listing.Proofs.Memory.Rearrangement
import Listing.Proofs.Memory.Total
import Listing.Proofs.Memory.Window
import Listing.Proofs.Number.Ceiling
import Listing.Proofs.Number.Dyadic
import Listing.Proofs.Number.Grammar
import Listing.Proofs.Number.Quotient
import Listing.Proofs.Number.Written
import Listing.Proofs.Operator
import Listing.Proofs.Outcome
import Listing.Proofs.Page.Alike
import Listing.Proofs.Page.Count
import Listing.Proofs.Page.Echo
import Listing.Proofs.Page.Probing
import Listing.Proofs.Page.Scope
import Listing.Proofs.Page.Serve
import Listing.Proofs.Page.Total
import Listing.Proofs.Page.Walk
import Listing.Proofs.Params.Accumulate
import Listing.Proofs.Params.BracketKey
import Listing.Proofs.Params.BracketSearch
import Listing.Proofs.Params.Depth
import Listing.Proofs.Params.Encodings
import Listing.Proofs.Params.Heard
import Listing.Proofs.Params.Operand
import Listing.Proofs.Params.Total
import Listing.Proofs.Params.Tree
import Listing.Proofs.Policy.Declaration
import Listing.Proofs.Policy.Journal
import Listing.Proofs.Policy.Kept
import Listing.Proofs.Policy.Leaves
import Listing.Proofs.Policy.Names
import Listing.Proofs.Policy.Narrower
import Listing.Proofs.Policy.Shape
import Listing.Proofs.Predicate.Conjunction
import Listing.Proofs.Predicate.Containment
import Listing.Proofs.Predicate.LoneModes
import Listing.Proofs.Predicate.Meaning
import Listing.Proofs.Predicate.Modes
import Listing.Proofs.Predicate.Native
import Listing.Proofs.Predicate.Reading
import Listing.Proofs.Predicate.Short
import Listing.Proofs.Predicate.Total
import Listing.Proofs.Sql.Agreement
import Listing.Proofs.Sql.Binding
import Listing.Proofs.Sql.Comparison
import Listing.Proofs.Sql.Compiles
import Listing.Proofs.Sql.Condition
import Listing.Proofs.Sql.Conjunction
import Listing.Proofs.Sql.Faults
import Listing.Proofs.Sql.Graph
import Listing.Proofs.Sql.Lowered
import Listing.Proofs.Sql.Membership
import Listing.Proofs.Sql.Native
import Listing.Proofs.Sql.Negation
import Listing.Proofs.Sql.Ordering
import Listing.Proofs.Sql.Paging
import Listing.Proofs.Sql.Parts
import Listing.Proofs.Sql.Pattern
import Listing.Proofs.Sql.Refusal
import Listing.Proofs.Sql.Relations
import Listing.Proofs.Sql.Search
import Listing.Proofs.Sql.Single
import Listing.Proofs.Sql.Stores
import Listing.Proofs.Sql.TextConditions
import Listing.Proofs.Sql.Texts
import Listing.Proofs.Sql.ThreeValued
import Listing.Proofs.Sql.Widening
import Listing.Proofs.Sql.Within
import Listing.Proofs.Text.Split
import Listing.Proofs.Value.Bytes
import Listing.Proofs.Value.Depth
import Listing.Proofs.Value.Equality
import Listing.Proofs.Value.Written
import Listing.Report
import Listing.Sql.Cell
import Listing.Sql.Clause
import Listing.Sql.Compile
import Listing.Sql.Registry
import Listing.Sql.Render
import Listing.Sql.Sample
import Listing.Sql.Scalar
import Listing.Sql.Schema
import Listing.Sql.Store
import Listing.Sql.Truth
import Listing.Text.Blank
import Listing.Text.Digit
import Listing.Text.Fold
import Listing.Text.Hex
import Listing.Text.Lower
import Listing.Text.Percent
import Listing.Text.Printable
import Listing.Text.Quoted
import Listing.Text.Split
import Listing.Text.Utf8
import Listing.Value.Basic
import Listing.Value.Depth
import Listing.Value.Display
import Listing.Value.Equality
import Listing.Value.Hashing
import Listing.Value.Mapping
import Listing.Value.Order
import Listing.Value.Sorting
import Listing.Value.Vocabulary
import Listing.Value.Whole
