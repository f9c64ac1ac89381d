import CopySynth.Classification
import CopySynth.Code.Expr
import CopySynth.Code.Grammar
import CopySynth.Code.Item
import CopySynth.Code.Language
import CopySynth.Code.Operator
import CopySynth.Code.Token
import CopySynth.Copy.Body
import CopySynth.Copy.Synthesis
import CopySynth.Emission.CopyMethod
import CopySynth.Emission.Name
import CopySynth.Emission.Source
import CopySynth.Emission.ZeroMethod
import CopySynth.Evaluation.DeepCopy
import CopySynth.Evaluation.Predicate
import CopySynth.Evaluation.ZeroAllocation
import CopySynth.Evaluation.ZeroValue
import CopySynth.Fields
import CopySynth.Generation.Closure
import CopySynth.Generation.Config
import CopySynth.Generation.Error
import CopySynth.Generation.Family
import CopySynth.Generation.Remembering
import CopySynth.Generation.Roots
import CopySynth.Generation.Synthesis
import CopySynth.Naming.SnakeCase
import CopySynth.Reader.Cursor
import CopySynth.Reader.Expression
import CopySynth.Reader.FieldNumber
import CopySynth.Reader.Identifier
import CopySynth.Reader.Language
import CopySynth.Reader.Lexer
import CopySynth.Schema.Definition
import CopySynth.Schema.Error
import CopySynth.Schema.Mention
import CopySynth.Schema.Resolution
import CopySynth.Schema.Table
import CopySynth.Schema.Validation
import CopySynth.Text.Blank
import CopySynth.Text.IdentifierChar
import CopySynth.Text.LetterCase
import CopySynth.Text.Printable
import CopySynth.Text.Ranges
import CopySynth.Value.Binary64
import CopySynth.Value.Comparison
import CopySynth.Value.Content
import CopySynth.Value.Heap
import CopySynth.Value.Number
import CopySynth.Value.Store
import CopySynth.Worklist
import CopySynth.Zero.Body
import CopySynth.Zero.Synthesis
import CopySynth.Proofs.FirstOccurrence
import CopySynth.Proofs.Lists
import CopySynth.Proofs.GrammarLaws
import CopySynth.Proofs.CoreGrammar
import CopySynth.Proofs.Queue
import CopySynth.Proofs.QueueHistory
import CopySynth.Proofs.Aliases
import CopySynth.Proofs.CopyBodies
import CopySynth.Proofs.Methods
import CopySynth.Proofs.Turns
import CopySynth.Proofs.Requests
import CopySynth.Proofs.CopyClosure
import CopySynth.Proofs.ZeroClosure
import CopySynth.Proofs.Contents
import CopySynth.Proofs.Freshness
import CopySynth.Proofs.PlainTypes
import CopySynth.Proofs.Shapes
import CopySynth.Proofs.Overrides
import CopySynth.Proofs.DeepCopy
import CopySynth.Proofs.Containment
import CopySynth.Proofs.ZeroValues
import CopySynth.Proofs.Equality
import CopySynth.Proofs.Outlines
import CopySynth.Proofs.ZeroPredicate
import CopySynth.Proofs.HeldTypes
import CopySynth.Proofs.Trails
import CopySynth.Proofs.TableCheck
import CopySynth.Proofs.Memory
import CopySynth.Proofs.Storage
import CopySynth.Proofs.IndependentZeros
import CopySynth.Proofs.UnnamedStorage
import CopySynth.Proofs.QueueStops
import CopySynth.Proofs.Faults
import CopySynth.Proofs.Outcome
import CopySynth.Proofs.Renaming
import CopySynth.Proofs.AliasTransparency
import CopySynth.Proofs.MadeMethods
import CopySynth.Proofs.Rendering
import CopySynth.Proofs.Targets
import CopySynth.Proofs.Budgets
import CopySynth.Proofs.Limits
import CopySynth.Proofs.OneClassifier
import CopySynth.Proofs.SameRoots
import CopySynth.Proofs.Reordering
import CopySynth.Proofs.ReorderedBodies
import CopySynth.Proofs.CopyOutcome
import CopySynth.Proofs.ReorderedMethods
import CopySynth.Proofs.ReorderedValues
import CopySynth.Proofs.FieldOrder
import CopySynth.Proofs.CopyDepth
import CopySynth.Proofs.ExtendedRuns
import CopySynth.Proofs.ExtendedValues
import CopySynth.Proofs.HeapFreedom
import CopySynth.Proofs.Operands
import CopySynth.Proofs.Grouping
import CopySynth.Proofs.ReadTests
import CopySynth.Proofs.BudgetChains
import CopySynth.Proofs.PredicateCalls
import CopySynth.Proofs.PredicateCode
import CopySynth.Proofs.ReportedPaths
import CopySynth.Proofs.SpelledNames
import CopySynth.Proofs.Variants
import CopySynth.Proofs.FewerMethods
import CopySynth.Proofs.Lookahead
import CopySynth.Proofs.Precedence
import CopySynth.Proofs.Continuation
import CopySynth.Proofs.ZeroBodies
import CopySynth.Proofs.Extension
import CopySynth.Proofs.AliasChains
import CopySynth.Proofs.Detachment
import CopySynth.Proofs.LaterChanges
import CopySynth.Proofs.SnakeCase
