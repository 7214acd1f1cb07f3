import Winnow.Catalog.Employees
import Winnow.CommandLine
import Winnow.Composer
import Winnow.Evaluation
import Winnow.FilterSet
import Winnow.Main
import Winnow.Proofs.Calendar.IsoDate
import Winnow.Proofs.FilterSet.Fresh
import Winnow.Proofs.Numeral.Digits
import Winnow.Proofs.Outcome
import Winnow.Proofs.Shape.Admission
import Winnow.Query.Params
import Winnow.Settings
import Winnow.Store.Document
import Winnow.Store.File
import Winnow.Proofs.FilterSet.Editing
import Winnow.Proofs.Filter.Conformance
import Winnow.Proofs.Store.Decoding
import Winnow.Proofs.FilterSet.Invariant
import Winnow.Proofs.Calendar.Faults
import Winnow.Proofs.Evaluation.Isolation
import Winnow.Proofs.Store.Hydration
import Winnow.Proofs.Json.Number
import Winnow.Proofs.Json.String
import Winnow.Proofs.Json.Token
import Winnow.Proofs.Filter.Entry
import Winnow.Proofs.Json.Visible
import Winnow.Proofs.Store.Persistence
import Winnow.Proofs.Composer.Dragging
import Winnow.Proofs.Binary64.Order
import Winnow.Proofs.Value.Order
import Winnow.Proofs.Evaluation.Sorting
import Winnow.Proofs.Text.Splitting
import Winnow.Proofs.Numeral.Reading
import Winnow.Proofs.Query.Scalars
import Winnow.Proofs.Query.Values
import Winnow.Proofs.Query.Params
import Winnow.Proofs.Filter.Direction
import Winnow.Proofs.Query.RoundTrip
import Winnow.Proofs.Query.Edited
import Winnow.Proofs.FilterSet.Moving
import Winnow.Proofs.Composer.Dropping
import Winnow.Proofs.Composer.Running
import Winnow.Proofs.Composer.Saving
import Winnow.Proofs.Composer.Reordering
import Winnow.Proofs.Calendar.AnyDay
import Winnow.Proofs.Calendar.DayNumber
import Winnow.Proofs.Filter.Presentation
import Winnow.Proofs.Filter.Completeness
import Winnow.Proofs.Composer.Views
import Winnow.Proofs.FilterSet.Session
import Winnow.Proofs.Query.Projection
import Winnow.Proofs.Composer.Unbound
import Winnow.Proofs.Query.Answer
import Winnow.Proofs.FilterSet.Orders
import Winnow.Proofs.Settings.Acceptance
import Winnow.Proofs.Settings.Environment
import Winnow.Proofs.Settings.Running
import Winnow.Proofs.Store.Contract
import Winnow.Proofs.Store.Folder
import Winnow.Proofs.Store.File
import Winnow.Proofs.Store.Document
import Winnow.Proofs.Store.Agreement
import Winnow.Proofs.Filter.Patch
import Winnow.Proofs.FilterSet.Patching
import Winnow.Proofs.Evaluation.Rearranging
import Winnow.Proofs.Evaluation.Commuting
import Winnow.Proofs.Store.Entries
import Winnow.Proofs.Filter.Repair
import Winnow.Proofs.Store.OlderKeys
import Winnow.Proofs.Query.Ignored
import Winnow.Proofs.Query.Reading
import Winnow.Proofs.Query.AnyOrder
import Winnow.Proofs.Evaluation.Ranges
import Winnow.Proofs.Calendar.TimeLine
import Winnow.Proofs.Evaluation.Days
import Winnow.Proofs.Evaluation.WrittenDates
import Winnow.Proofs.Evaluation.Pieces
import Winnow.Proofs.Evaluation.OwnValue
import Winnow.Proofs.Evaluation.Membership
import Winnow.Proofs.Query.Timestamp
import Winnow.Proofs.Record.Reading
import Winnow.Proofs.Calendar.Millis
import Winnow.Proofs.Value.Coercing
import Winnow.Proofs.Filter.Lacking
import Winnow.Proofs.Composer.Incomplete
import Winnow.Proofs.Evaluation.Unnamed
import Winnow.Proofs.Settings.Layers
import Winnow.Proofs.Settings.Refusal
import Winnow.Proofs.Store.Leftovers
import Winnow.Proofs.Evaluation.Antisymmetry
import Winnow.Proofs.CommandLine.Commands
