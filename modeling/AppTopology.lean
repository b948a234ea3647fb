import AppTopology.Change.Codec
import AppTopology.Change.Diff
import AppTopology.Change.Text
import AppTopology.CommandLine
import AppTopology.Component
import AppTopology.Entity.Ordered
import AppTopology.Event
import AppTopology.Fixture
import AppTopology.Json.Json5
import AppTopology.Json.Layout
import AppTopology.Main
import AppTopology.Proofs.Addresses
import AppTopology.Proofs.Agreement
import AppTopology.Proofs.Ambiguity
import AppTopology.Proofs.Announcement
import AppTopology.Proofs.Anonymity
import AppTopology.Proofs.Batch
import AppTopology.Proofs.Bindings
import AppTopology.Proofs.Brokerage
import AppTopology.Proofs.Changes
import AppTopology.Proofs.Commutation
import AppTopology.Proofs.Connection
import AppTopology.Proofs.Decoding
import AppTopology.Proofs.Effect
import AppTopology.Proofs.Exactness
import AppTopology.Proofs.Filing
import AppTopology.Proofs.Forgery
import AppTopology.Proofs.Guard
import AppTopology.Proofs.Idempotence
import AppTopology.Proofs.Identities
import AppTopology.Proofs.Integrity
import AppTopology.Proofs.Introduction
import AppTopology.Proofs.Lines
import AppTopology.Proofs.Locality
import AppTopology.Proofs.Nearest
import AppTopology.Proofs.Permutation
import AppTopology.Proofs.Precedence
import AppTopology.Proofs.Preview
import AppTopology.Proofs.Putting
import AppTopology.Proofs.Reapplication
import AppTopology.Proofs.References
import AppTopology.Proofs.Refusal
import AppTopology.Proofs.Registry
import AppTopology.Proofs.Removal
import AppTopology.Proofs.Replacement
import AppTopology.Proofs.Restoration
import AppTopology.Proofs.Reversal
import AppTopology.Proofs.Selection
import AppTopology.Proofs.Severance
import AppTopology.Proofs.Spelling
import AppTopology.Proofs.Trail
import AppTopology.Proofs.Undo
import AppTopology.Proofs.Writeback
import AppTopology.Registry
import AppTopology.Resolution
import AppTopology.Staging.Connection
import AppTopology.Staging.Identity
import AppTopology.Staging.Normalize
import AppTopology.Store
import AppTopology.Store.Apply
import AppTopology.Store.History
import AppTopology.Store.Mutation
import AppTopology.Text.Blank
import AppTopology.Validation
