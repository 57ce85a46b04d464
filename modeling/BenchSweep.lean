import BenchSweep.CommandLine.Run
import BenchSweep.Config.Writer
import BenchSweep.Host.Machine
import BenchSweep.LogFilter
import BenchSweep.Main
import BenchSweep.Proofs.Command.ErrorText
import BenchSweep.Proofs.CommandLine.Merge
import BenchSweep.Proofs.Config.Check
import BenchSweep.Proofs.Config.Partial
import BenchSweep.Proofs.Config.Ratio
import BenchSweep.Proofs.Config.RoundTrip
import BenchSweep.Proofs.Csv.Plain
import BenchSweep.Proofs.Csv.Refills
import BenchSweep.Proofs.Grid.Size
import BenchSweep.Proofs.Json.Float
import BenchSweep.Proofs.Json.Grammar
import BenchSweep.Proofs.Json.Kept
import BenchSweep.Proofs.Json.Ratio
import BenchSweep.Proofs.Json.Reader
import BenchSweep.Proofs.Json.Record
import BenchSweep.Proofs.Json.Scalar
import BenchSweep.Proofs.Json.ScaleError
import BenchSweep.Proofs.Json.Skip
import BenchSweep.Proofs.Json.Written
import BenchSweep.Proofs.Metrics.Diagnosis
import BenchSweep.Proofs.Metrics.Grammar
import BenchSweep.Proofs.Number.Decimal
import BenchSweep.Proofs.Number.Digits
import BenchSweep.Proofs.Number.Fewest
import BenchSweep.Proofs.Number.Grammar
import BenchSweep.Proofs.Number.Literal
import BenchSweep.Proofs.Number.Notation
import BenchSweep.Proofs.Number.Numeral
import BenchSweep.Proofs.Number.RatioText
import BenchSweep.Proofs.Save.LongNames
import BenchSweep.Proofs.Sweep.Liveness
import BenchSweep.Proofs.Sweep.Machine
import BenchSweep.Proofs.Sweep.Order
import BenchSweep.Proofs.Sweep.Phases
import BenchSweep.Proofs.Sweep.Plan
import BenchSweep.Proofs.Table.Failures
import BenchSweep.Proofs.Table.Results
import BenchSweep.Proofs.Table.RoundTrip
import BenchSweep.Proofs.Table.Room
import BenchSweep.Proofs.Benchmark.Outcome
import BenchSweep.Proofs.ListText
