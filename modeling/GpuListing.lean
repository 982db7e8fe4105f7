import GpuListing.Amdgpu
import GpuListing.Capability.Bench
import GpuListing.Capability.Callers
import GpuListing.Capability.Script
import GpuListing.CodeObject.Image
import GpuListing.KernelCode.Layout
import GpuListing.KernelCode.Packing
import GpuListing.Proofs.Listing.Reading
import GpuListing.Main
import GpuListing.Proofs.Library.Lists
import GpuListing.Proofs.Library.Results
import GpuListing.Proofs.Capability.Attempt
import GpuListing.Proofs.Capability.Trace
import GpuListing.Proofs.Capability.Sequence
import GpuListing.Proofs.Capability.TraceLaw
import GpuListing.Proofs.Capability.Concurrent
import GpuListing.Proofs.Capability.Interleaved
import GpuListing.Proofs.Capability.Course
import GpuListing.Proofs.Capability.Scripted
import GpuListing.Proofs.Capability.Standing
import GpuListing.Proofs.Capability.ScriptedRuns
import GpuListing.Proofs.FamilyOrder
import GpuListing.Proofs.Registry.Lookup
import GpuListing.Proofs.Registry.Invariant
import GpuListing.Proofs.Registry.Reachable
import GpuListing.Proofs.Registry.Growth
import GpuListing.Proofs.Capability.Backing
import GpuListing.Proofs.Toolkit.Work
import GpuListing.Proofs.Toolkit.Decodable
import GpuListing.Proofs.Toolkit.BringUp
import GpuListing.CodeObject.Guarded
import GpuListing.Proofs.CodeObject.Faultless
import GpuListing.Proofs.CodeObject.Pieces
import GpuListing.Proofs.CodeObject.Reading
import GpuListing.Proofs.CodeObject.Prefix
import GpuListing.Proofs.CodeObject.RoundTrip
import GpuListing.Proofs.Listing.Tiling
import GpuListing.Proofs.Text.Lines
import GpuListing.KernelArgs.Note
import GpuListing.Proofs.KernelArgs.Scan
import GpuListing.Proofs.KernelArgs.Blocks
import GpuListing.Proofs.KernelArgs.Placing
import GpuListing.Proofs.KernelArgs.ReadBack
import GpuListing.KernelArgs.Kernels
import GpuListing.Proofs.KernelArgs.FirstList
import GpuListing.Proofs.Dump.Output
import GpuListing.Proofs.Dump.Stages
import GpuListing.Proofs.Dump.Runs
import GpuListing.Proofs.Registry.History
import GpuListing.Proofs.Registry.Again
import GpuListing.Proofs.Toolkit.Own
import GpuListing.Proofs.Toolkit.Settled
import GpuListing.Proofs.Toolkit.AnyOrder
import GpuListing.Proofs.Registry.Course
import GpuListing.Proofs.Listing.Opening
import GpuListing.KernelArgs.Words
import GpuListing.Proofs.KernelArgs.Exact
import GpuListing.Proofs.KernelArgs.Words
import GpuListing.Proofs.KernelArgs.Further
import GpuListing.Proofs.Listing.Answers
import GpuListing.Proofs.Listing.Alignment
import GpuListing.Proofs.Listing.Lossless
import GpuListing.KernelArgs.Edits
import GpuListing.Proofs.KernelArgs.Telling
import GpuListing.Proofs.KernelArgs.Edits
import GpuListing.KernelCode.Guarded
import GpuListing.Proofs.KernelCode.Faultless
import GpuListing.Proofs.KernelCode.Codec
import GpuListing.Proofs.KernelCode.Registers
import GpuListing.Proofs.Config.Layers
import GpuListing.Proofs.Dump.CommandLine
import GpuListing.Proofs.Capability.Queries
import GpuListing.Proofs.Text.Numerals
import GpuListing.Proofs.FamilyName
import GpuListing.Toml.Keys
import GpuListing.Toml.Lines
import GpuListing.Proofs.Toml.Values
import GpuListing.Proofs.Toml.Lines
import GpuListing.Proofs.Config.Lines
