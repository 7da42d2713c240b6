import SqlSelect.Calendar.Zoned
import SqlSelect.Files.Tree
import SqlSelect.Main
import SqlSelect.Proofs.Calendar.Order
import SqlSelect.Proofs.CommandLine.Agreement
import SqlSelect.Proofs.Document.JsonSpelling
import SqlSelect.Proofs.Document.Resaving
import SqlSelect.Proofs.Document.RoundTrip
import SqlSelect.Proofs.Document.TomlRoundTrip
import SqlSelect.Proofs.Entity.ColumnOrder
import SqlSelect.Proofs.Entity.Placement
import SqlSelect.Proofs.Predicate.Conditions
import SqlSelect.Proofs.Predicate.Enclosure
import SqlSelect.Proofs.Predicate.Operands
import SqlSelect.Proofs.Predicate.Policies
import SqlSelect.Proofs.Predicate.Reading
import SqlSelect.Proofs.Predicate.Texts
import SqlSelect.Proofs.Statement.BlankFilter
import SqlSelect.Proofs.Statement.Building
import SqlSelect.Proofs.Statement.Conjunction
import SqlSelect.Proofs.Statement.Filtering
import SqlSelect.Proofs.Statement.LegacySpacing
import SqlSelect.Proofs.Statement.Options
import SqlSelect.Proofs.Statement.Projection
import SqlSelect.Proofs.Statement.Quoting
import SqlSelect.Proofs.Statement.Reading
import SqlSelect.Proofs.Statement.SelectItems
import SqlSelect.Proofs.Statement.Variants
import SqlSelect.Proofs.Statement.WhereClause
import SqlSelect.Proofs.Value.Items
