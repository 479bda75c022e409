import RecordQuery.Builder
import RecordQuery.Fetch.ListSource
import RecordQuery.Format.Parser
import RecordQuery.Qualifier.Names
import RecordQuery.Qualifier.Records
import RecordQuery.Proofs.Assembly
import RecordQuery.Proofs.BoundSql
import RecordQuery.Proofs.CanonicalForm
import RecordQuery.Proofs.Fetch.Hints
import RecordQuery.Proofs.Fetch.Pages
import RecordQuery.Proofs.Format.Accepted
import RecordQuery.Proofs.Format.Arguments
import RecordQuery.Proofs.Format.Failures
import RecordQuery.Proofs.Format.Discipline
import RecordQuery.Proofs.Format.Stops
import RecordQuery.Proofs.Inequality
import RecordQuery.Proofs.KeyPath
import RecordQuery.Proofs.LikePattern
import RecordQuery.Proofs.NestedLists
import RecordQuery.Proofs.Numerals
import RecordQuery.Proofs.OperatorRuns
import RecordQuery.Proofs.Parentheses
import RecordQuery.Proofs.Qualifier.Alike
import RecordQuery.Proofs.Qualifier.Bracketing
import RecordQuery.Proofs.Qualifier.Compact
import RecordQuery.Proofs.Qualifier.Layers
import RecordQuery.Proofs.Qualifier.Placeholders
import RecordQuery.Proofs.Qualifier.ReadKeys
import RecordQuery.Proofs.Qualifier.RecordMatch
import RecordQuery.Proofs.RawValue
import RecordQuery.Proofs.SortList
import RecordQuery.Proofs.Sorting
import RecordQuery.Proofs.Template
import RecordQuery.Proofs.UnknownWords
import RecordQuery.Proofs.Format.Discipline
