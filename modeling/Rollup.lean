import Rollup.Main
import Rollup.Proofs.Csv.Guard
import Rollup.Proofs.Csv.Roundtrip
import Rollup.Proofs.Filter.Names
import Rollup.Proofs.Filter.Longest
import Rollup.Proofs.Filter.ShortRows
import Rollup.Proofs.Filter.Unknown
import Rollup.Proofs.Formula.Numeric
import Rollup.Proofs.Formula.References
import Rollup.Proofs.Formula.Roundtrip
import Rollup.Proofs.Formula.Rowwise
import Rollup.Proofs.Formula.Unambiguous
import Rollup.Proofs.Formula.Words
import Rollup.Proofs.Formula.Written
import Rollup.Proofs.Pipe.Roundtrip
import Rollup.Proofs.Pipe.Rows
import Rollup.Proofs.Summary.Hiding
import Rollup.Proofs.Summary.Histogram
import Rollup.Proofs.Summary.Quotes
import Rollup.Proofs.Summary.Reordering
import Rollup.Proofs.Table.Chosen
import Rollup.Proofs.Table.Shelf
import Rollup.Proofs.Table.Transpose
import Rollup.Proofs.Column.Slices
import Rollup.Proofs.Column.Reordering
import Rollup.Proofs.Double.Equality
import Rollup.Proofs.Formula.Extremes
import Rollup.Proofs.Formula.Median
import Rollup.Proofs.Formula.Nothing
import Rollup.Proofs.Column.Positions
import Rollup.Proofs.Format.Significant
import Rollup.Proofs.Format.Fractions
import Rollup.Proofs.Format.Literals
import Rollup.Proofs.Format.Merging
import Rollup.Proofs.Format.Padding
import Rollup.Proofs.Format.Patterns
import Rollup.Proofs.Pipe.Documents
import Rollup.Proofs.Pipe.Alignment
import Rollup.Proofs.Double.Integers
import Rollup.Proofs.Calendar.Stamps
import Rollup.Proofs.Value.Durations
import Rollup.Proofs.Value.Kinds
import Rollup.Proofs.Value.Shifts
