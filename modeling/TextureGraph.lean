import TextureGraph.Socket.Signature
import TextureGraph.Space.LinearSystem
import TextureGraph.Color.Hsv
import TextureGraph.Text.Numeric
import TextureGraph.Text.Blank
import TextureGraph.Text.Identifier
import TextureGraph.Estimate.Basic
import TextureGraph.Expression.Parser
import TextureGraph.Expression.Basic
import TextureGraph.Catalog.Source
import TextureGraph.Catalog.Channel
import TextureGraph.Catalog.Operator
import TextureGraph.Catalog.Shaping
import TextureGraph.Catalog.Matching
import TextureGraph.Catalog.Composition
import TextureGraph.Catalog.Texture
import TextureGraph.Catalog.Basic
import TextureGraph.Catalog.InPlace
import TextureGraph.Catalog.History
import TextureGraph.Graph.History
import TextureGraph.Graph.InPlace
import TextureGraph.Graph.Evaluation
import TextureGraph.Sampling.Raster
import TextureGraph.Sampling.Settings.Codec
import TextureGraph.Proofs.Outcome
import TextureGraph.Proofs.Number.Binary64
import TextureGraph.Proofs.Number.Exact
import TextureGraph.Proofs.Expression.Spelling
import TextureGraph.Proofs.Expression.Parser
import TextureGraph.Proofs.Graph.Basic
import TextureGraph.Proofs.Graph.Schedule
import TextureGraph.Proofs.Graph.Wired
import TextureGraph.Proofs.Graph.Invariant
import TextureGraph.Proofs.Graph.Consistency
import TextureGraph.Proofs.Graph.Links
import TextureGraph.Proofs.Graph.InPlace
import TextureGraph.Proofs.Graph.LinkAlgebra
import TextureGraph.Proofs.Graph.Evaluation
import TextureGraph.Proofs.Graph.KindSafety
import TextureGraph.Proofs.Graph.Upstream
import TextureGraph.Proofs.Graph.Extension
import TextureGraph.Proofs.Graph.Interposition
import TextureGraph.Proofs.Graph.Fallback
import TextureGraph.Proofs.Graph.PassThrough
import TextureGraph.Proofs.Sampling.Partition
import TextureGraph.Proofs.Sampling.Sampler
import TextureGraph.Proofs.Estimate.PiecewiseLinear
import TextureGraph.Proofs.Estimate.Derivative
import TextureGraph.Proofs.Number.Unpacked
import TextureGraph.Proofs.Number.Sign
import TextureGraph.Proofs.Estimate.Undefined
import TextureGraph.Proofs.Number.Rounding
import TextureGraph.Proofs.Module.Configuration
import TextureGraph.Proofs.Module.InPlace
import TextureGraph.Proofs.Estimate.Mean
import TextureGraph.Proofs.Estimate.NotNegative
import TextureGraph.Proofs.Number.Integer
import TextureGraph.Proofs.Number.Nearest
import TextureGraph.Proofs.Number.Reading
import TextureGraph.Proofs.Number.Shortest
import TextureGraph.Proofs.Number.Whole
import TextureGraph.Proofs.Module.Restore.Basic
import TextureGraph.Proofs.Module.Restore.Source
import TextureGraph.Proofs.Module.Restore.Texture
import TextureGraph.Proofs.Module.Restore.Mapping
import TextureGraph.Proofs.Module.Restore.Catalog
import TextureGraph.Proofs.Sampling.Totality
import TextureGraph.Proofs.Sampling.Accumulation
import TextureGraph.Proofs.Sampling.Workers
import TextureGraph.Proofs.Estimate.Affine
import TextureGraph.Proofs.Sampling.Uniform
import TextureGraph.Proofs.Pointwise.Agreement
import TextureGraph.Proofs.Graph.Order
import TextureGraph.Proofs.Graph.Depth
import TextureGraph.Proofs.Graph.Rewiring
import TextureGraph.Proofs.Sampling.Refinement
import TextureGraph.Proofs.Sampling.Settings.Laws
import TextureGraph.Proofs.Sampling.Settings.Numeral
import TextureGraph.Proofs.Sampling.Settings.Reader
import TextureGraph.Proofs.Sampling.Settings.Codec
import TextureGraph.Proofs.Sampling.Settings.RoundTrip
import TextureGraph.Proofs.Module.Setting.Basic
import TextureGraph.Proofs.Module.Setting.Catalog
import TextureGraph.Proofs.Graph.Sockets
import TextureGraph.Proofs.Expression.Lexer
import TextureGraph.Proofs.Expression.Nesting
import TextureGraph.Proofs.Sampling.Visits
import TextureGraph.Proofs.Sampling.Checked
import TextureGraph.Proofs.Sampling.Counts
import TextureGraph.Proofs.Sampling.Mean
import TextureGraph.Proofs.Sampling.Footprint
import TextureGraph.Proofs.Decision.Extremum
import TextureGraph.Proofs.Graph.Disregard
import TextureGraph.Proofs.Decision.Equality
import TextureGraph.Proofs.Space.Transform
import TextureGraph.Proofs.Estimate.MixedGradient
import TextureGraph.Proofs.Space.Triangle
import TextureGraph.Proofs.Color.Hsv
import TextureGraph.Proofs.Pattern.Lattice
import TextureGraph.Proofs.Estimate.ClampedMean
import TextureGraph.Proofs.Estimate.Sawtooth
import TextureGraph.Proofs.Pattern.Wood
import TextureGraph.Proofs.Pattern.GradientNoise
import TextureGraph.Proofs.Pattern.NoiseRange
import TextureGraph.Proofs.Pattern.NearestTwo
import TextureGraph.Proofs.Sampling.Settings.Overlay
import TextureGraph.Proofs.Module.KeptRows
