import Parley.Binary64.Basic
import Parley.Binary64.Decimal
import Parley.Binary64.Shortest
import Parley.Cache
import Parley.Collection
import Parley.Config
import Parley.Digest
import Parley.Engine
import Parley.Error
import Parley.Grammar.Block
import Parley.Grammar.Container
import Parley.Grammar.Goal
import Parley.Grammar.Icm
import Parley.Grammar.Lambda
import Parley.Grammar.Move
import Parley.Grammar.Parameter
import Parley.Grammar.PlanItem
import Parley.Grammar.Proposition
import Parley.Grammar.Question
import Parley.Grammar.Rules
import Parley.Grammar.Service
import Parley.Grammar.Value
import Parley.Individual
import Parley.Management
import Parley.Object.Basic
import Parley.Object.Name
import Parley.Object.Shape
import Parley.Ontology
import Parley.Parameter
import Parley.Parser
import Parley.Polarity
import Parley.Proofs.Binary64.Nearest
import Parley.Proofs.Binary64.Shortest
import Parley.Proofs.Binary64.Value
import Parley.Proofs.Engine.Accounting
import Parley.Proofs.Engine.Coherence
import Parley.Proofs.Engine.Meaning
import Parley.Proofs.Engine.Parallel
import Parley.Proofs.Grammar.Block
import Parley.Proofs.Grammar.Display
import Parley.Proofs.Grammar.Fields
import Parley.Proofs.Grammar.Icm
import Parley.Proofs.Grammar.Locality
import Parley.Proofs.Grammar.Negation
import Parley.Proofs.Grammar.Nested
import Parley.Proofs.Grammar.Opening
import Parley.Proofs.Grammar.Order
import Parley.Proofs.Grammar.Parameter
import Parley.Proofs.Grammar.Question
import Parley.Proofs.Grammar.Shape
import Parley.Proofs.Grammar.Sorting
import Parley.Proofs.Grammar.Stamp
import Parley.Proofs.Grammar.Value
import Parley.Proofs.Object.Equality
import Parley.Proofs.Object.Hash
import Parley.Proofs.Object.Listing
import Parley.Proofs.Object.Sameness
import Parley.Proofs.Object.WellSorted
import Parley.Proofs.Parser.Accounting
import Parley.Proofs.Parser.Alternatives
import Parley.Proofs.Parser.Block
import Parley.Proofs.Parser.Boundary
import Parley.Proofs.Parser.Container
import Parley.Proofs.Parser.Content
import Parley.Proofs.Parser.Decoration
import Parley.Proofs.Parser.Deprecation
import Parley.Proofs.Parser.Domain
import Parley.Proofs.Parser.Embedded
import Parley.Proofs.Parser.Icm
import Parley.Proofs.Parser.IcmDecoration
import Parley.Proofs.Parser.Listing
import Parley.Proofs.Parser.Locality
import Parley.Proofs.Parser.Negation
import Parley.Proofs.Parser.Objection
import Parley.Proofs.Parser.Order
import Parley.Proofs.Parser.Parameters
import Parley.Proofs.Parser.Question
import Parley.Proofs.Parser.Quotation
import Parley.Proofs.Parser.ServiceQuery
import Parley.Proofs.Parser.Session
import Parley.Proofs.Parser.Sorting
import Parley.Proofs.Parser.Trail
import Parley.Proofs.Parser.Word
import Parley.Proofs.Reading.Contract
import Parley.Proofs.Reading.Meaning
import Parley.Proofs.Surface.Agreement
import Parley.Proofs.Surface.Boundary
import Parley.Proofs.Surface.Call
import Parley.Proofs.Surface.Cut
import Parley.Proofs.Surface.Inside
import Parley.Proofs.Surface.Joining
import Parley.Proofs.Surface.Management
import Parley.Proofs.Surface.Nesting
import Parley.Proofs.Surface.Shape
import Parley.Proofs.Surface.Split
import Parley.Proofs.Surface.Trim
import Parley.Proofs.Table
import Parley.Reading
import Parley.Realization
import Parley.Service
import Parley.Sortal
import Parley.Surface.Conditional
import Parley.Surface.Enclosed
import Parley.Surface.Management
import Parley.Surface.Nesting
import Parley.Surface.Split
import Parley.Surface.Token
import Parley.Table
import Parley.Text.Alphanumeric
import Parley.Text.Basic
import Parley.Text.Blank
import Parley.Text.GraphemeExtend
import Parley.Text.Printable
import Parley.Text.Quoted
import Parley.Text.Range
