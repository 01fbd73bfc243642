import QuadSampler.Session
import QuadSampler.Proofs.Outcome
import QuadSampler.Proofs.Single.Finite
import QuadSampler.Proofs.Single.Order
import QuadSampler.Proofs.Single.Position
import QuadSampler.Proofs.Single.Scaling
import QuadSampler.Proofs.Single.UnitInterval
import QuadSampler.Proofs.Single.Words
import QuadSampler.Proofs.Addressing.CubeFace
import QuadSampler.Proofs.Addressing.FarEdge
import QuadSampler.Proofs.Addressing.Fold
import QuadSampler.Proofs.Addressing.Index
import QuadSampler.Proofs.Addressing.Range
import QuadSampler.Proofs.Addressing.Repetition
import QuadSampler.Proofs.Addressing.Weight
import QuadSampler.Proofs.PixelFormat.Decoding
import QuadSampler.Proofs.PixelFormat.PackedWord
import QuadSampler.Proofs.Texture.Assembly
import QuadSampler.Proofs.Texture.Averages
import QuadSampler.Proofs.Texture.Drift
import QuadSampler.Proofs.Texture.Faces
import QuadSampler.Proofs.Texture.Layout
import QuadSampler.Proofs.Texture.Refusals
import QuadSampler.Proofs.Texture.Storage
import QuadSampler.Proofs.LevelView.ByteOffset
import QuadSampler.Proofs.LevelView.Fetch
import QuadSampler.Proofs.LevelView.SourceTexels
import QuadSampler.Proofs.LevelOfDetail.Bracket
import QuadSampler.Proofs.LevelOfDetail.Monotone
import QuadSampler.Proofs.Filtering.BlendTree
import QuadSampler.Proofs.Filtering.ByteBlends
import QuadSampler.Proofs.Filtering.NearestPaths
import QuadSampler.Proofs.Filtering.Neighbours
import QuadSampler.Proofs.Filtering.NumbersTotal
import QuadSampler.Proofs.Filtering.Offsets
import QuadSampler.Proofs.Filtering.TexelCenters
import QuadSampler.Proofs.Filtering.UnsharedSides
import QuadSampler.Proofs.Sampler.BlendAccuracy
import QuadSampler.Proofs.Sampler.BorderIsolation
import QuadSampler.Proofs.Sampler.FaceIsolation
import QuadSampler.Proofs.Sampler.FixedLod
import QuadSampler.Proofs.Sampler.InactiveAxes
import QuadSampler.Proofs.Sampler.LaneIndependence
import QuadSampler.Proofs.Sampler.MagnifyingFilter
import QuadSampler.Proofs.Sampler.MirroredBorder
import QuadSampler.Proofs.Sampler.SharedCache
import QuadSampler.Proofs.Sampler.UnboundUnits
import QuadSampler.Proofs.Sampler.WholeLevels
import QuadSampler.Proofs.Session.History
