import LayerRouting.Main
import LayerRouting.Proofs.Activation.Runs
import LayerRouting.Proofs.Activation.Switching
import LayerRouting.Proofs.Override.EditRefinement
import LayerRouting.Store.Memory
import LayerRouting.Store.Monitored
import LayerRouting.Proofs.Override.OpIds
import LayerRouting.Proofs.Override.Tidiness
import LayerRouting.Proofs.Activation.Editing
import LayerRouting.Proofs.Activation.ResetRule
import LayerRouting.Proofs.Activation.Resetting
import LayerRouting.Proofs.Activation.Policy
import LayerRouting.Proofs.Json.Numerals
import LayerRouting.Proofs.Json.Strings
import LayerRouting.Proofs.Json.Texts
import LayerRouting.Proofs.Time.Calendar
import LayerRouting.Proofs.Time.Timestamps
import LayerRouting.Proofs.Json.Levels
import LayerRouting.Proofs.Override.Codec
import LayerRouting.Proofs.Override.Levels
import LayerRouting.Proofs.Store.StoredDocument
import LayerRouting.Proofs.Store.Files
import LayerRouting.Proofs.Activation.Atomicity
import LayerRouting.Proofs.Activation.Minimality
import LayerRouting.Proofs.Override.Makers
import LayerRouting.Proofs.Override.KeyOrder
import LayerRouting.Proofs.Override.ItemOrder
import LayerRouting.Proofs.Activation.Ordering
import LayerRouting.Proofs.Activation.Survival
import LayerRouting.Proofs.RouteSet.Visibility
import LayerRouting.Proofs.RouteSet.ActiveRoutes
import LayerRouting.Proofs.RouteSet.Contribution
import LayerRouting.Proofs.RouteSet.Outputs
import LayerRouting.Proofs.RouteSet.MappingTable
import LayerRouting.Proofs.RouteSet.MappingForm
import LayerRouting.Proofs.RouteSet.RoutedForm
import LayerRouting.Proofs.Lock.Exclusion
import LayerRouting.Proofs.Number.Rounding
import LayerRouting.Proofs.Number.Shortest
import LayerRouting.Proofs.Json.NumberTexts
import LayerRouting.Proofs.Store.RoundTrip
import LayerRouting.Proofs.Override.Renaming
import LayerRouting.Proofs.Override.TwinDrafts
import LayerRouting.Proofs.Lock.Idle
import LayerRouting.Proofs.Store.Owned
import LayerRouting.Proofs.Store.OwnedFiles
import LayerRouting.Proofs.Activation.TwinPlans
import LayerRouting.Proofs.Activation.Sessions
import LayerRouting.Proofs.Activation.TwinControllers
import LayerRouting.Proofs.Activation.Isolation
import LayerRouting.Proofs.Store.WholeWrites
import LayerRouting.Proofs.Override.Sparing
import LayerRouting.Proofs.Override.Recorded
import LayerRouting.Proofs.Activation.Repetition
import LayerRouting.Proofs.Activation.ResetAgain
import LayerRouting.Proofs.Override.WholeItems
import LayerRouting.Proofs.Override.TakenIds
import LayerRouting.Proofs.Override.RootOps
import LayerRouting.Proofs.Override.Differences
import LayerRouting.Proofs.Override.Pruning
import LayerRouting.Proofs.Override.Moving
import LayerRouting.Proofs.Override.Clearing
import LayerRouting.Proofs.Settings.Layers
import LayerRouting.Proofs.Override.Listing
import LayerRouting.Proofs.Override.Interleaving
import LayerRouting.Proofs.Override.Replacement
import LayerRouting.Proofs.Override.DottedText
import LayerRouting.Proofs.RouteSet.Rereading
import LayerRouting.Proofs.CommandLine.Players
import LayerRouting.Proofs.Override.Affecting
import LayerRouting.Proofs.Files.Paths
import LayerRouting.Proofs.Store.OwnerPaths
import LayerRouting.Proofs.Override.Removal
import LayerRouting.Proofs.Override.Spelling
import LayerRouting.Proofs.Json.Floats
import LayerRouting.Proofs.Override.Floats
import LayerRouting.Proofs.RouteSet.Floats
import LayerRouting.Proofs.Store.TimedFiles
import LayerRouting.Proofs.CommandLine.Requests
