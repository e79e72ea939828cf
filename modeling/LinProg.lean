import LinProg.Backend.Comparison
import LinProg.Backend.Embedded
import LinProg.Backend.Options
import LinProg.Backend.Ranged
import LinProg.Backend.Script
import LinProg.Backend.Searched
import LinProg.Binding.Basic
import LinProg.Binding.Probe
import LinProg.Binding.Rows
import LinProg.Call
import LinProg.Engine.Branch
import LinProg.Engine.Exact
import LinProg.Engine.Limits
import LinProg.Engine.Program
import LinProg.Engine.Tableau
import LinProg.Event
import LinProg.Matrix.Basic
import LinProg.Matrix.Row
import LinProg.Model
import LinProg.Problem.Basic
import LinProg.Problem.Code
import LinProg.Problem.Column
import LinProg.Problem.Constraint
import LinProg.Problem.Error
import LinProg.Problem.Export
import LinProg.Problem.Kind
import LinProg.Problem.Point
import LinProg.Problem.Rows
import LinProg.Problem.Sense
import LinProg.Problem.Validate
import LinProg.Random.Normal
import LinProg.Random.Stream
import LinProg.Sampler.Augmented
import LinProg.Sampler.Basic
import LinProg.Sampler.Source
import LinProg.Sampler.Walk
import LinProg.Scalar.Basic
import LinProg.Scalar.Binary
import LinProg.Scalar.Extended
import LinProg.Session.Backend
import LinProg.Session.Basic
import LinProg.Session.Solution
import LinProg.Text.Character
import LinProg.Text.Decimal
import LinProg.Text.Numeral
import LinProg.Proofs.Call
import LinProg.Proofs.Chosen
import LinProg.Proofs.Place
import LinProg.Proofs.Problem.Rows
import LinProg.Proofs.Problem.RowCalls
import LinProg.Proofs.Problem.Valid
import LinProg.Proofs.Problem.RowChange
import LinProg.Proofs.Session
import LinProg.Proofs.Binding.Aligned
import LinProg.Proofs.Binding.Rows
import LinProg.Proofs.Binding.Columns
import LinProg.Proofs.Binding.Probe
import LinProg.Proofs.Binding.Command
import LinProg.Proofs.Binding.Reachable
import LinProg.Proofs.Scalar.Binary
import LinProg.Proofs.Matrix.Canonical
import LinProg.Proofs.Problem.Built
import LinProg.Proofs.Matrix.Built
import LinProg.Proofs.Sampler.Augmented
import LinProg.Proofs.Sampler.Line
import LinProg.Proofs.Sampler.OnLine
import LinProg.Proofs.Sampler.Reached
import LinProg.Proofs.Binding.Atomic
import LinProg.Proofs.Scalar.Interval
import LinProg.Proofs.Problem.Inside
import LinProg.Proofs.Sampler.Inside
import LinProg.Proofs.Backend.Rows
import LinProg.Proofs.Binding.Runs
import LinProg.Proofs.Backend.Integers
import LinProg.Proofs.Session.Known
import LinProg.Proofs.Binding.RoundTrip
import LinProg.Proofs.Backend.InRange
import LinProg.Proofs.Problem.InRange
import LinProg.Proofs.Binding.Canonical
import LinProg.Proofs.Binding.InRange
import LinProg.Proofs.Sampler.Canonical
import LinProg.Proofs.Sampler.InRange
import LinProg.Proofs.Session.Answer
import LinProg.Proofs.Sampler.Past
import LinProg.Proofs.Binding.Answer
import LinProg.Proofs.Backend.Reports
import LinProg.Proofs.Binding.Solution
import LinProg.Proofs.Engine.Exact
import LinProg.Proofs.Problem.Listed
import LinProg.Proofs.Binding.Pinned
import LinProg.Proofs.Binding.Closed
import LinProg.Proofs.Sampler.Linked
import LinProg.Proofs.Problem.Unambiguous
import LinProg.Proofs.Matrix.Columns
import LinProg.Proofs.Matrix.Reads
import LinProg.Proofs.Matrix.Listings
import LinProg.Proofs.Binding.Bulk
import LinProg.Proofs.Problem.Truth
import LinProg.Proofs.Binding.Truth
import LinProg.Proofs.Sampler.Truth
import LinProg.Proofs.Problem.Violation
import LinProg.Proofs.Matrix.Merged
import LinProg.Proofs.Backend.Options
import LinProg.Proofs.Binding.Exported
