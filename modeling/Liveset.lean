import Liveset.Analysis
import Liveset.CommandLine.Arguments
import Liveset.CommandLine.Outcome
import Liveset.Decimal.Binary64
import Liveset.Decimal.Shortest
import Liveset.Entity
import Liveset.Entity.Form
import Liveset.Error
import Liveset.FileTree
import Liveset.Foreign.ClassFile
import Liveset.Foreign.Loader
import Liveset.Foreign.Repository
import Liveset.Json.Form
import Liveset.Json.Printer
import Liveset.Json.Reader
import Liveset.Json.Token
import Liveset.Json.Value
import Liveset.Main
import Liveset.Metadata.Attribute
import Liveset.Metadata.AttributeForm
import Liveset.Metadata.Code
import Liveset.Metadata.CodeForm
import Liveset.Metadata.Member
import Liveset.Metadata.MemberForm
import Liveset.Metadata.Type
import Liveset.Metadata.TypeForm
import Liveset.Path
import Liveset.Program.Basic
import Liveset.Program.Builder
import Liveset.Program.Description
import Liveset.Program.Document
import Liveset.Program.Hierarchy
import Liveset.Program.Index
import Liveset.Program.Name
import Liveset.Program.Resolution
import Liveset.Proofs.Foreign.Caching
import Liveset.Proofs.Foreign.Containment
import Liveset.Proofs.Foreign.Fidelity
import Liveset.Proofs.Foreign.Growth
import Liveset.Proofs.Json.Reading
import Liveset.Proofs.Json.Restoring
import Liveset.Proofs.Json.Scanning
import Liveset.Proofs.Metadata.Attributes
import Liveset.Proofs.Metadata.Restoring
import Liveset.Proofs.Path.Components
import Liveset.Proofs.Program.BaseChain
import Liveset.Proofs.Program.Construction
import Liveset.Proofs.Program.Denotation
import Liveset.Proofs.Program.Instances
import Liveset.Proofs.Program.Listing
import Liveset.Proofs.Program.Lookup
import Liveset.Proofs.Program.MaximalChain
import Liveset.Proofs.Program.Overridden
import Liveset.Proofs.Program.Ownership
import Liveset.Proofs.Program.Registration
import Liveset.Proofs.Program.Renaming
import Liveset.Proofs.Program.RoundTrip
import Liveset.Proofs.Program.Soundness
import Liveset.Proofs.Program.Spelling
import Liveset.Proofs.Program.Upkeep
import Liveset.Proofs.Reach.Accessors
import Liveset.Proofs.Reach.Attributes
import Liveset.Proofs.Reach.Bookkeeping
import Liveset.Proofs.Reach.Bridge
import Liveset.Proofs.Reach.Calls
import Liveset.Proofs.Reach.Closure
import Liveset.Proofs.Reach.Completion
import Liveset.Proofs.Reach.Evaluation
import Liveset.Proofs.Reach.Exclusion
import Liveset.Proofs.Reach.Expansion
import Liveset.Proofs.Reach.Explanation
import Liveset.Proofs.Reach.Failure
import Liveset.Proofs.Reach.Filtering
import Liveset.Proofs.Reach.Heeding
import Liveset.Proofs.Reach.Leading
import Liveset.Proofs.Reach.Order
import Liveset.Proofs.Reach.Overriding
import Liveset.Proofs.Reach.Partition
import Liveset.Proofs.Reach.Provenance
import Liveset.Proofs.Reach.Provision
import Liveset.Proofs.Reach.Resolution
import Liveset.Proofs.Reach.Returning
import Liveset.Proofs.Reach.RootOrder
import Liveset.Proofs.Reach.Strategies
import Liveset.Proofs.Reach.Supply
import Liveset.Proofs.Reach.Termination
import Liveset.Proofs.Reach.Turn
import Liveset.Proofs.Reach.Turns
import Liveset.Proofs.Reach.Visit
import Liveset.Proofs.Reach.Warrant
import Liveset.Proofs.Reach.Wrapping
import Liveset.Proofs.Retention.Forest
import Liveset.Proofs.Retention.Lineage
import Liveset.Reach.CodeRule
import Liveset.Reach.Policy
import Liveset.Reach.Recursive
import Liveset.Reach.Returning
import Liveset.Reach.Rule
import Liveset.Reach.Session
import Liveset.Reach.State
import Liveset.Reach.Step
import Liveset.Reach.Support
import Liveset.Reach.Worklist
import Liveset.Report
import Liveset.Retention
import Liveset.Settings
import Liveset.Toml.Number
import Liveset.Toml.Reader
import Liveset.Toml.Table
import Liveset.Toml.Token
import Liveset.Toml.Value
