import Protoschema.Binding
import Protoschema.Command.Arguments
import Protoschema.Command.Run
import Protoschema.Command.Settings
import Protoschema.Compilation
import Protoschema.Decimal.Shortest
import Protoschema.Decl.Basic
import Protoschema.Decl.OfNode
import Protoschema.Decl.Run
import Protoschema.Decl.Shape
import Protoschema.Diagnostic
import Protoschema.Directory
import Protoschema.Document
import Protoschema.Entries
import Protoschema.Files.Disk
import Protoschema.Files.Glob
import Protoschema.Files.Path
import Protoschema.Golden
import Protoschema.Ident
import Protoschema.Imports
import Protoschema.Json.Outline
import Protoschema.Json.Read
import Protoschema.Json.Value
import Protoschema.Main
import Protoschema.Options
import Protoschema.Pointer
import Protoschema.Proofs.Addresses
import Protoschema.Proofs.Agreement
import Protoschema.Proofs.AllOrNothing
import Protoschema.Proofs.Alternatives
import Protoschema.Proofs.Blessing
import Protoschema.Proofs.Blocks
import Protoschema.Proofs.Bound
import Protoschema.Proofs.Derivation
import Protoschema.Proofs.Directory
import Protoschema.Proofs.Disks
import Protoschema.Proofs.DistinctNames
import Protoschema.Proofs.Entries
import Protoschema.Proofs.ExactImports
import Protoschema.Proofs.FieldNumbering
import Protoschema.Proofs.FieldSelection
import Protoschema.Proofs.FieldTypes
import Protoschema.Proofs.Fields
import Protoschema.Proofs.FilterTransparency
import Protoschema.Proofs.GuardExactness
import Protoschema.Proofs.Histories
import Protoschema.Proofs.Identifiers
import Protoschema.Proofs.Inheritance
import Protoschema.Proofs.Invariants
import Protoschema.Proofs.Lines
import Protoschema.Proofs.LinkTargets
import Protoschema.Proofs.Loaded
import Protoschema.Proofs.Modes
import Protoschema.Proofs.Naming
import Protoschema.Proofs.Nodes
import Protoschema.Proofs.OrderIndependence
import Protoschema.Proofs.OutputTargets
import Protoschema.Proofs.Ownership
import Protoschema.Proofs.Paths
import Protoschema.Proofs.Placeholders
import Protoschema.Proofs.PointerNames
import Protoschema.Proofs.PropertyAccounting
import Protoschema.Proofs.Reachable
import Protoschema.Proofs.Readback
import Protoschema.Proofs.Rearranged
import Protoschema.Proofs.Rebinding
import Protoschema.Proofs.SeparateCompilation
import Protoschema.Proofs.Shadowing
import Protoschema.Proofs.Sightings
import Protoschema.Proofs.StepBudget
import Protoschema.Proofs.Termination
import Protoschema.Proofs.Unguarded
import Protoschema.Proofs.UniqueReading
import Protoschema.Proofs.VisitedNodes
import Protoschema.Proofs.Visits
import Protoschema.Proto
import Protoschema.Reading.File
import Protoschema.Reading.Layout
import Protoschema.Reading.Load
import Protoschema.Schema.Node
import Protoschema.Schema.Reference
import Protoschema.Text.Blank
import Protoschema.Text.Printable
import Protoschema.Text.Quoted
import Protoschema.Text.Ranges
import Protoschema.Text.Regular
import Protoschema.Yaml.Marks
import Protoschema.Yaml.Plain
import Protoschema.Yaml.Read
import Protoschema.Yaml.Scalar
import Protoschema.Yaml.Source
import Protoschema.Yaml.Token
import Protoschema.Yaml.Tokens
import Protoschema.Yaml.Tree
