import LoadBridge.Name.Table
import LoadBridge.Name.Operator
import LoadBridge.Json.Printer
import LoadBridge.Json.Parser
import LoadBridge.Json.Decode
import LoadBridge.Symbol.Arity
import LoadBridge.Symbol.Codec
import LoadBridge.Symbol.Draft
import LoadBridge.Toml.Document
import LoadBridge.Notice
import LoadBridge.Config.Codec
import LoadBridge.Code.Basic
import LoadBridge.Graph.Walk
import LoadBridge.Ownership.Boundary
import LoadBridge.Ownership.Protocol
import LoadBridge.Bridge.Plan
import LoadBridge.Bridge.Spelling
import LoadBridge.Bridge.Generation
import LoadBridge.Bridge.Tables
import LoadBridge.Files.Tree
import LoadBridge.Command.Run
import LoadBridge.Main
import LoadBridge.Proofs.Ownership.Roster
import LoadBridge.Proofs.Ownership.Simulation
import LoadBridge.Proofs.Ownership.Questions
import LoadBridge.Proofs.Ownership.SingleOwner
import LoadBridge.Proofs.Ownership.Rules
import LoadBridge.Proofs.Ownership.Destruction
import LoadBridge.Proofs.Ownership.Refinement
import LoadBridge.Proofs.Ownership.Stability
import LoadBridge.Proofs.Bridge.Symbols
import LoadBridge.Proofs.Bridge.Emission
import LoadBridge.Proofs.Bridge.Accounting
import LoadBridge.Proofs.Bridge.Agreement
import LoadBridge.Proofs.Bridge.Layout
import LoadBridge.Proofs.Bridge.Signature
import LoadBridge.Proofs.Bridge.Slots
import LoadBridge.Proofs.Bridge.Closure
import LoadBridge.Proofs.Json.Lexeme
import LoadBridge.Proofs.Json.RoundTrip
import LoadBridge.Proofs.Json.Decode
import LoadBridge.Proofs.Symbol.Codec
import LoadBridge.Proofs.Symbol.Arity
import LoadBridge.Proofs.Bridge.Alike
import LoadBridge.Proofs.Bridge.Loadable
import LoadBridge.Proofs.Bridge.Respelling
import LoadBridge.Proofs.Bridge.Reordering
import LoadBridge.Proofs.Bridge.Once
import LoadBridge.Proofs.Name.Component
import LoadBridge.Proofs.Name.Overlap
import LoadBridge.Proofs.Bridge.Provenance
import LoadBridge.Proofs.Bridge.Reserved
import LoadBridge.Proofs.Bridge.Declarations
import LoadBridge.Proofs.Bridge.Overloads
import LoadBridge.Proofs.Bridge.Exposure
import LoadBridge.Proofs.Bridge.Copying
import LoadBridge.Proofs.Bridge.Exclusion
import LoadBridge.Proofs.Bridge.Abstract
import LoadBridge.Proofs.Bridge.Accessibility
import LoadBridge.Proofs.Bridge.StandardTypes
import LoadBridge.Proofs.Bridge.Defaults
import LoadBridge.Proofs.Bridge.Linkable
import LoadBridge.Proofs.Files.Tree
import LoadBridge.Proofs.Command.Output
import LoadBridge.Proofs.Bridge.LoadedAncestors
import LoadBridge.Proofs.Bridge.AncestorOrder
import LoadBridge.Proofs.Bridge.Folding
import LoadBridge.Proofs.Bridge.Hiding
import LoadBridge.Proofs.Bridge.Selection
import LoadBridge.Proofs.Name.Key
import LoadBridge.Proofs.Text.Pieces
import LoadBridge.Proofs.Selector.Reading
import LoadBridge.Proofs.Selector.Display
import LoadBridge.Proofs.Selector.Signature
import LoadBridge.Proofs.Bridge.LoadedTypes
import LoadBridge.Proofs.Bridge.Parameters
import LoadBridge.Proofs.Bridge.Constructors
import LoadBridge.Proofs.Bridge.Conversion
import LoadBridge.Proofs.Bridge.Forwarding
import LoadBridge.Proofs.Symbol.Insertion
import LoadBridge.Proofs.Bridge.Shadowing
import LoadBridge.Proofs.Name.Parsing
import LoadBridge.Proofs.Name.Template
import LoadBridge.Proofs.Name.Arguments
import LoadBridge.Proofs.Symbol.Draft
import LoadBridge.Proofs.Symbol.DraftIndex
import LoadBridge.Proofs.Text.Braces
import LoadBridge.Proofs.Code.Nested
import LoadBridge.Proofs.Ownership.Nested
import LoadBridge.Proofs.Bridge.Braces
import LoadBridge.Proofs.Bridge.Nesting
import LoadBridge.Proofs.Bridge.NestedOutput
import LoadBridge.Proofs.Text.Slices
import LoadBridge.Proofs.Name.Slices
import LoadBridge.Proofs.Symbol.Index
import LoadBridge.Proofs.Bridge.Checked
