import SlotLease.Generator.Shared
import SlotLease.Main
import SlotLease.Store.Volume
import SlotLease.Proofs.Fleet.Exclusion
import SlotLease.Proofs.Fleet.History
import SlotLease.Proofs.Fleet.Race
import SlotLease.Proofs.Generator.History
import SlotLease.Proofs.Generator.Contest
import SlotLease.Proofs.Generator.Sequence
import SlotLease.Proofs.Generator.Apart
import SlotLease.Proofs.Coordinator.Lifecycle
import SlotLease.Proofs.Coordinator.Footprint
import SlotLease.Proofs.Store.Listing
import SlotLease.Proofs.Store.MemoryMap
import SlotLease.Proofs.Calendar
import SlotLease.Proofs.Schedule.Next
import SlotLease.Proofs.Schedule.Last
import SlotLease.Proofs.Schedule.Walk
import SlotLease.Proofs.Schedule.Pause
import SlotLease.Proofs.Settings
import SlotLease.Proofs.Rejection
import SlotLease.Proofs.Text.Upper
import SlotLease.Proofs.Coordinator.Prompt
import SlotLease.Proofs.Upkeep
import SlotLease.Proofs.Coordinator.Pattern
import SlotLease.Proofs.Store.Crowd
import SlotLease.Proofs.Store.Filing
import SlotLease.Proofs.Store.Eviction
import SlotLease.Proofs.Store.Strays
import SlotLease.Proofs.Coordinator.Strays
import SlotLease.Proofs.Coordinator.FirstFit
import SlotLease.Proofs.Coordinator.Exhaustion
import SlotLease.Proofs.Backoff
import SlotLease.Proofs.Layout
import SlotLease.Proofs.CommandLine.Mint
import SlotLease.Proofs.Numeral
