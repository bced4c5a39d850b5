import BlockStudio.Device.SimulatedBridge
import BlockStudio.History.Simulated
import BlockStudio.History.Ticker
import BlockStudio.Language.GenusRecipe
import BlockStudio.Main
import BlockStudio.Project.Saving
import BlockStudio.Proofs.Compile.Arguments
import BlockStudio.Proofs.Compile.Contained
import BlockStudio.Proofs.Compile.Dropped
import BlockStudio.Proofs.Compile.Modes
import BlockStudio.Proofs.Compile.OptionalSockets
import BlockStudio.Proofs.Compile.Placement
import BlockStudio.Proofs.Compile.Present
import BlockStudio.Proofs.Compile.Readable
import BlockStudio.Proofs.Compile.Scoping
import BlockStudio.Proofs.Component.Edited
import BlockStudio.Proofs.History.Bookkeeping
import BlockStudio.Proofs.History.Saves
import BlockStudio.Proofs.History.Sitting
import BlockStudio.Proofs.Links.Cascade
import BlockStudio.Proofs.Links.Resolved
import BlockStudio.Proofs.Links.Splicing
import BlockStudio.Proofs.Rules.Conversions
import BlockStudio.Proofs.Rules.Declared
import BlockStudio.Proofs.Sync.Agreement
import BlockStudio.Proofs.Sync.Awaited
import BlockStudio.Proofs.Sync.Delivering
import BlockStudio.Proofs.Sync.Drafting
import BlockStudio.Proofs.Sync.Duplicates
import BlockStudio.Proofs.Sync.Evaluated
import BlockStudio.Proofs.Sync.Flags
import BlockStudio.Proofs.Sync.InOrder
import BlockStudio.Proofs.Sync.LiveNames
import BlockStudio.Proofs.Sync.Noise
import BlockStudio.Proofs.Sync.Overlap
import BlockStudio.Proofs.Sync.Pieces
import BlockStudio.Proofs.Sync.Stream
import BlockStudio.Proofs.Sync.SwitchedOff
import BlockStudio.Proofs.Sync.WholeJobs
import BlockStudio.Proofs.Workspace.ArgumentTypes
import BlockStudio.Proofs.Workspace.Atomicity
import BlockStudio.Proofs.Workspace.DerivedBlocks
import BlockStudio.Proofs.Workspace.References
import BlockStudio.Proofs.Workspace.Removing
import BlockStudio.Proofs.Workspace.Snapshot
import BlockStudio.Sync.GatedQueue
import BlockStudio.Sync.Plan
import BlockStudio.Sync.Simulation
import BlockStudio.Workspace.Derived
import BlockStudio.Workspace.Owned
