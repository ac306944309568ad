import CircuitBench.Bench.Reference
import CircuitBench.Bench.Run
import CircuitBench.Bench.Select
import CircuitBench.Bench.Summary
import CircuitBench.Bench.Verify
import CircuitBench.Circuit.Basic
import CircuitBench.Circuit.CounterfeitCoin
import CircuitBench.Circuit.Fourier
import CircuitBench.Circuit.Gate
import CircuitBench.Circuit.HiddenString
import CircuitBench.Circuit.Volume
import CircuitBench.Command
import CircuitBench.Conformance.Header
import CircuitBench.Conformance.Suite
import CircuitBench.Decimal.Binary
import CircuitBench.Decimal.Real
import CircuitBench.Decimal.Shortest
import CircuitBench.Decimal.Whole
import CircuitBench.Decimal.Written
import CircuitBench.Fault
import CircuitBench.Generate.CounterfeitCoin
import CircuitBench.Generate.Fourier
import CircuitBench.Generate.HiddenString
import CircuitBench.Generate.Output
import CircuitBench.Generate.Volume
import CircuitBench.Given
import CircuitBench.Json.Reader
import CircuitBench.Json.Value
import CircuitBench.Main
import CircuitBench.Number
import CircuitBench.Options.Grammar
import CircuitBench.Options.Tools
import CircuitBench.Pattern.Basic
import CircuitBench.Pattern.CharSet
import CircuitBench.Pattern.Escape
import CircuitBench.Pattern.Flag
import CircuitBench.Pattern.Match
import CircuitBench.Pattern.Problem
import CircuitBench.Pattern.Reader
import CircuitBench.Pattern.Token
import CircuitBench.Power
import CircuitBench.PowerSum
import CircuitBench.Random.Sha512
import CircuitBench.Random.Source
import CircuitBench.Random.Twister
import CircuitBench.Session
import CircuitBench.Text.Blank
import CircuitBench.Text.Case
import CircuitBench.Text.CharName
import CircuitBench.Text.Digit
import CircuitBench.Text.Identifier
import CircuitBench.Text.Letter
import CircuitBench.Text.Printable
import CircuitBench.Text.Quoted
import CircuitBench.Text.Split
import CircuitBench.Text.Utf8
import CircuitBench.Text.Wide
import CircuitBench.Toolkit.Answer
import CircuitBench.Toolkit.Call
import CircuitBench.Toolkit.Program
import CircuitBench.Tree.Basic
import CircuitBench.Tree.Expand
import CircuitBench.Tree.NamePattern
import CircuitBench.Tree.Path
import CircuitBench.Unitary.Complex
import CircuitBench.Unitary.Householder
import CircuitBench.Unitary.Scalar
import CircuitBench.Proofs.Bench.Agreement
import CircuitBench.Proofs.Bench.Confirmation
import CircuitBench.Proofs.Bench.Discipline
import CircuitBench.Proofs.Bench.Files
import CircuitBench.Proofs.Bench.Grouping
import CircuitBench.Proofs.Bench.LastFile
import CircuitBench.Proofs.Bench.ListingOrder
import CircuitBench.Proofs.Bench.Literal
import CircuitBench.Proofs.Bench.Marks
import CircuitBench.Proofs.Bench.Naming
import CircuitBench.Proofs.Bench.Reference
import CircuitBench.Proofs.Bench.Selection
import CircuitBench.Proofs.Bench.Summary
import CircuitBench.Proofs.Bench.Table
import CircuitBench.Proofs.Bench.Tally
import CircuitBench.Proofs.Bench.Trial
import CircuitBench.Proofs.Bench.Verification
import CircuitBench.Proofs.Conformance
import CircuitBench.Proofs.Conformance.Headers
import CircuitBench.Proofs.Conformance.Paths
import CircuitBench.Proofs.Conformance.Targets
import CircuitBench.Proofs.CounterfeitCoin
import CircuitBench.Proofs.FourierTransform
import CircuitBench.Proofs.Generate.Acceptance
import CircuitBench.Proofs.Generate.Blocks
import CircuitBench.Proofs.Generate.Delivery
import CircuitBench.Proofs.Generate.Layers
import CircuitBench.Proofs.Generate.Limit
import CircuitBench.Proofs.Generate.Output
import CircuitBench.Proofs.Generate.Saving
import CircuitBench.Proofs.Generate.WellFormed
import CircuitBench.Proofs.HiddenString
import CircuitBench.Proofs.Json.Reading
import CircuitBench.Proofs.Pattern.Language
import CircuitBench.Proofs.Pattern.Spelling
import CircuitBench.Proofs.Pattern.Verbatim
import CircuitBench.Proofs.PowerSum
import CircuitBench.Proofs.Quantum.ControlledPhase
import CircuitBench.Proofs.Quantum.Embedding
import CircuitBench.Proofs.Quantum.LastWire
import CircuitBench.Proofs.Quantum.Operators
import CircuitBench.Proofs.Quantum.Program
import CircuitBench.Proofs.Quantum.Tensor
import CircuitBench.Proofs.Session
import CircuitBench.Proofs.Toolkit.Recording
import CircuitBench.Proofs.Tree.Directory
import CircuitBench.Proofs.Tree.Frame
import CircuitBench.Proofs.Tree.Listing
import CircuitBench.Proofs.Tree.Writing
import CircuitBench.Proofs.Unitary.Drawing
import CircuitBench.Proofs.Unitary.Exact
import CircuitBench.Proofs.Unitary.Reflector
import CircuitBench.Proofs.Unitary.Special
