import QueryFilter.Column.Record
import QueryFilter.Main
import QueryFilter.Proofs.Condition.Meaning
import QueryFilter.Proofs.Binary64.Exact
import QueryFilter.Proofs.Filter.Derivation
import QueryFilter.Proofs.Filter.WellFormed
import QueryFilter.Proofs.Filter.Rereading
import QueryFilter.Proofs.Item.Record
import QueryFilter.Proofs.Filter.Kinds
import QueryFilter.Proofs.Filter.Image
import QueryFilter.Proofs.Filter.Items
import QueryFilter.Proofs.Filter.RoundTrip
import QueryFilter.Proofs.Filter.FixedPoint
import QueryFilter.Proofs.Condition.Core
import QueryFilter.Proofs.Filter.Meaning
import QueryFilter.Proofs.Relations.Placing
import QueryFilter.Proofs.Relations.Editing
import QueryFilter.Proofs.Relations.Sessions
import QueryFilter.Proofs.Dashboard.Grammar
import QueryFilter.Proofs.Dashboard.RoundTrip
import QueryFilter.Proofs.Filter.Distinct
import QueryFilter.Proofs.Filter.Edited
import QueryFilter.Proofs.Json.Parsing
import QueryFilter.Proofs.Dashboard.Sessions
import QueryFilter.Proofs.Relations.Keeping
import QueryFilter.Proofs.Relations.Subtrees
import QueryFilter.Proofs.Relations.Adding
import QueryFilter.Proofs.Relations.Restoring
import QueryFilter.Proofs.Relations.Substitution
import QueryFilter.Proofs.Relations.Contested
import QueryFilter.Proofs.Relations.Independence
import QueryFilter.Proofs.Command.Removing
import QueryFilter.Proofs.Filter.Selections
import QueryFilter.Proofs.Filter.IncludingAll
import QueryFilter.Proofs.Filter.Shapes
import QueryFilter.Proofs.Filter.Wrapping
import QueryFilter.Proofs.Filter.Changes
import QueryFilter.Proofs.Filter.Merging
import QueryFilter.Proofs.Json.Reordered
import QueryFilter.Proofs.Json.Rearranged
import QueryFilter.Proofs.Condition.Rearranged
import QueryFilter.Proofs.Item.Reordered
import QueryFilter.Proofs.Filter.Alike
import QueryFilter.Proofs.Filter.Reordered
import QueryFilter.Proofs.Filter.Bounds
import QueryFilter.Proofs.Filter.Testable
import QueryFilter.Proofs.Json.Definite
import QueryFilter.Proofs.Filter.Composing
import QueryFilter.Proofs.Condition.Membership
import QueryFilter.Proofs.Condition.Alone
import QueryFilter.Proofs.Condition.Asking
import QueryFilter.Proofs.Binary64.Rounding
import QueryFilter.Proofs.Filter.Numbers
import QueryFilter.Proofs.Filter.Positions
import QueryFilter.Proofs.Instant.Forms
