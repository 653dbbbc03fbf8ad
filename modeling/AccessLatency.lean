import AccessLatency.Program.Plot
import AccessLatency.Program.Benchmark
import AccessLatency.Program.Caches
import AccessLatency.Main
import AccessLatency.Proofs.Binary64.DecimalValue
import AccessLatency.Proofs.Binary64.ShortestDigits
import AccessLatency.Proofs.Binary64.ReadBack
import AccessLatency.Proofs.LatencyTable.Reading
import AccessLatency.Proofs.Text.Split
import AccessLatency.Proofs.LatencyTable.RoundTrip
import AccessLatency.Proofs.Binary64.Within
import AccessLatency.Proofs.Chart.Landmarks
import AccessLatency.Proofs.LatencyTable.Dialect
import AccessLatency.Proofs.Chart.OfTable
import AccessLatency.Proofs.Benchmark.Run
import AccessLatency.Proofs.Benchmark.Charted
import AccessLatency.Proofs.Files.Place
import AccessLatency.Proofs.Plot.Stages
import AccessLatency.Proofs.Plot.WrittenFile
import AccessLatency.Proofs.Plot.FirstFault
import AccessLatency.Proofs.Json.Fields
import AccessLatency.Proofs.Json.Spelling
import AccessLatency.Proofs.Json.Decode
import AccessLatency.Proofs.Json.Reading
import AccessLatency.Proofs.Plot.Setting
import AccessLatency.Proofs.Plot.SettingsText
import AccessLatency.Proofs.Plot.UnknownKeys
import AccessLatency.Proofs.CommandLine.Layers
import AccessLatency.Proofs.Chart.Drawable
import AccessLatency.Proofs.Text.Decode
import AccessLatency.Proofs.Text.Occurrences
import AccessLatency.Proofs.Tex.Groups
import AccessLatency.Proofs.Tex.Escape
import AccessLatency.Proofs.Tex.Document
import AccessLatency.Proofs.Tex.Parts
import AccessLatency.Proofs.Chart.Finite
import AccessLatency.Proofs.Tex.ReadBack
import AccessLatency.Proofs.Chart.TexDocument
import AccessLatency.Proofs.Chart.Layout
import AccessLatency.Proofs.Chart.Outline
import AccessLatency.Proofs.Chart.SameChart
import AccessLatency.Proofs.Binary64.Order
import AccessLatency.Proofs.Chart.Extremes
import AccessLatency.Proofs.Chart.RowOrder
import AccessLatency.Proofs.Chart.Room
import AccessLatency.Proofs.Chart.Axes
import AccessLatency.Proofs.Plot.ValidSettings
import AccessLatency.Proofs.Benchmark.Series
import AccessLatency.Proofs.Binary64.Bits
import AccessLatency.Proofs.Benchmark.Lockstep
import AccessLatency.Proofs.Benchmark.Period
import AccessLatency.Proofs.ByteSize.RoundTrip
import AccessLatency.Proofs.Benchmark.Accounting
import AccessLatency.Proofs.Benchmark.OutputFile
import AccessLatency.Proofs.Binary64.Scaling
import AccessLatency.Proofs.ByteSize.Grammar
import AccessLatency.Proofs.ByteSize.Exactness
import AccessLatency.Proofs.Binary64.WholeNumbers
import AccessLatency.Proofs.LatencyTable.SizeColumn
import AccessLatency.Proofs.Text.Lines
import AccessLatency.Proofs.LatencyTable.FaultLine
import AccessLatency.Proofs.LatencyTable.TextLayout
import AccessLatency.Proofs.Plot.GivenSettings
import AccessLatency.Proofs.Machine.Levels
import AccessLatency.Proofs.Machine.Capacity
import AccessLatency.Proofs.Benchmark.TwoPlans
import AccessLatency.Proofs.Binary64.Exact
import AccessLatency.Proofs.Benchmark.WholeFactor
import AccessLatency.Proofs.Chart.Eviction
import AccessLatency.Proofs.Chart.LeftToRight
import AccessLatency.Proofs.Files.Name
import AccessLatency.Proofs.Plot.DefaultOutput
import AccessLatency.Proofs.Benchmark.Evenness
import AccessLatency.Proofs.Benchmark.AskedMemory
