import DecaySearch.Main
import DecaySearch.Notice
import DecaySearch.CommandLine.Memory
import DecaySearch.Proofs.Acceptance
import DecaySearch.Proofs.TrackTags
import DecaySearch.Proofs.Combinations
import DecaySearch.Proofs.EventSearch
import DecaySearch.Proofs.DebugRuns
import DecaySearch.Proofs.Enumeration
import DecaySearch.Proofs.Identities
import DecaySearch.Proofs.TrackTallies
import DecaySearch.Proofs.Robustness
import DecaySearch.Proofs.Counters
import DecaySearch.Proofs.Independence
import DecaySearch.Proofs.UndefinedValues
import DecaySearch.Proofs.ToySource
import DecaySearch.Proofs.RoleGrants
import DecaySearch.Proofs.Treatments
import DecaySearch.Proofs.ChargeConjugation
import DecaySearch.Proofs.WrittenFiles
import DecaySearch.Proofs.BinLookup
import DecaySearch.Proofs.TableDefects
import DecaySearch.Proofs.ListingOrder
import DecaySearch.Proofs.CascadePairs
import DecaySearch.Proofs.RepeatedSelections
import DecaySearch.Proofs.EventReading
import DecaySearch.Proofs.WriteErrors
import DecaySearch.Proofs.TrackOrder
import DecaySearch.Proofs.EventStreams
import DecaySearch.Proofs.BatchRanges
import DecaySearch.Proofs.VertexFits
import DecaySearch.Proofs.EventRecords
import DecaySearch.Proofs.ToyEvents
