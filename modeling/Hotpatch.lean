import Hotpatch.Batch
import Hotpatch.Binary.Layout
import Hotpatch.Binary.Reader
import Hotpatch.Code.Body
import Hotpatch.Code.Decoding
import Hotpatch.Code.Encoding
import Hotpatch.Code.Form
import Hotpatch.Code.Handle
import Hotpatch.Code.Instruction
import Hotpatch.Code.OffsetTable
import Hotpatch.Code.Operation
import Hotpatch.CommandLine
import Hotpatch.Decimal.Shortest
import Hotpatch.Fault
import Hotpatch.Files.FileError
import Hotpatch.Files.FileSystem
import Hotpatch.Files.Path
import Hotpatch.Files.Tree
import Hotpatch.Image.Reading
import Hotpatch.Image.Symbols
import Hotpatch.Image.Writing
import Hotpatch.Journal
import Hotpatch.Main
import Hotpatch.Metadata.Attributes
import Hotpatch.Metadata.MethodRef
import Hotpatch.Metadata.Token
import Hotpatch.Metadata.TokenTable
import Hotpatch.Metadata.TypeSig
import Hotpatch.Module
import Hotpatch.Patch.Failure
import Hotpatch.Patch.Instrument
import Hotpatch.Patch.Preamble
import Hotpatch.Patch.Registry
import Hotpatch.Patch.Selection
import Hotpatch.Patch.Splice
import Hotpatch.Proofs.Batch.Interference
import Hotpatch.Proofs.Batch.Shelf
import Hotpatch.Proofs.Binary.Consumption
import Hotpatch.Proofs.Binary.FixedSize
import Hotpatch.Proofs.Binary.ReadBack
import Hotpatch.Proofs.Binary.SelfDelimiting
import Hotpatch.Proofs.Code.Acceptance
import Hotpatch.Proofs.Code.Admission
import Hotpatch.Proofs.Code.Arena
import Hotpatch.Proofs.Code.Assembling
import Hotpatch.Proofs.Code.BodyBytes
import Hotpatch.Proofs.Code.Cutting
import Hotpatch.Proofs.Code.DecodeBack
import Hotpatch.Proofs.Code.Decoded
import Hotpatch.Proofs.Code.Forms
import Hotpatch.Proofs.Code.Insertion
import Hotpatch.Proofs.Code.InstructionBytes
import Hotpatch.Proofs.Code.Labels
import Hotpatch.Proofs.Code.Layout
import Hotpatch.Proofs.Code.OffsetLookup
import Hotpatch.Proofs.Code.OffsetScan
import Hotpatch.Proofs.Code.Renumbering
import Hotpatch.Proofs.Code.RoundTrip
import Hotpatch.Proofs.Code.ShortestForms
import Hotpatch.Proofs.Code.Shrinking
import Hotpatch.Proofs.Code.TokenBytes
import Hotpatch.Proofs.Code.Traversal
import Hotpatch.Proofs.Editing.Reachable
import Hotpatch.Proofs.Editing.Refusals
import Hotpatch.Proofs.Editing.Runs
import Hotpatch.Proofs.Editing.Staleness
import Hotpatch.Proofs.Effects
import Hotpatch.Proofs.Execution.Dispatch
import Hotpatch.Proofs.Execution.Machine
import Hotpatch.Proofs.Execution.Reference
import Hotpatch.Proofs.Execution.StackDepth
import Hotpatch.Proofs.Execution.Transparency
import Hotpatch.Proofs.Files.Disk
import Hotpatch.Proofs.Files.FragileDisk
import Hotpatch.Proofs.Files.Paths
import Hotpatch.Proofs.Files.Trees
import Hotpatch.Proofs.Image.Anchoring
import Hotpatch.Proofs.Image.CodeBytes
import Hotpatch.Proofs.Image.Faults
import Hotpatch.Proofs.Image.Normal
import Hotpatch.Proofs.Image.NormalForm
import Hotpatch.Proofs.Image.Places
import Hotpatch.Proofs.Image.Points
import Hotpatch.Proofs.Image.ReadBack
import Hotpatch.Proofs.Image.ReadSymbols
import Hotpatch.Proofs.Image.Readable
import Hotpatch.Proofs.Image.RoundTrip
import Hotpatch.Proofs.Image.SelfDelimiting
import Hotpatch.Proofs.Image.Shape
import Hotpatch.Proofs.Image.SymbolsFile
import Hotpatch.Proofs.Image.Tokens
import Hotpatch.Proofs.Image.WriteSymbols
import Hotpatch.Proofs.Metadata.IndexedTables
import Hotpatch.Proofs.Metadata.Interning
import Hotpatch.Proofs.Metadata.Occurrences
import Hotpatch.Proofs.Metadata.PrefixCodes
import Hotpatch.Proofs.Metadata.ReadBack
import Hotpatch.Proofs.Metadata.Requests
import Hotpatch.Proofs.Metadata.SelfDelimiting
import Hotpatch.Proofs.Patch.Changes
import Hotpatch.Proofs.Patch.DebugData
import Hotpatch.Proofs.Patch.Keeping
import Hotpatch.Proofs.Patch.Outcomes
import Hotpatch.Proofs.Patch.PatchedBytes
import Hotpatch.Proofs.Patch.PreambleShape
import Hotpatch.Proofs.Patch.Prepending
import Hotpatch.Proofs.Patch.Repeating
import Hotpatch.Proofs.Patch.Splicing
import Hotpatch.Proofs.Patch.StackSafety
import Hotpatch.Proofs.Patch.Sweeping
import Hotpatch.Proofs.Store.Interruption
import Hotpatch.Proofs.Store.Neighbours
import Hotpatch.Proofs.Store.Returning
import Hotpatch.Proofs.Store.Rounds
import Hotpatch.Proofs.Store.Saving
import Hotpatch.Proofs.Store.Worlds
import Hotpatch.Store.ImageStore
import Hotpatch.Store.ModuleStore
import Hotpatch.Store.Resolver
import Hotpatch.Text.Digits
import Hotpatch.Text.Printable
import Hotpatch.Text.Quoted
