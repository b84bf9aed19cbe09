import Stackwise.Analysis.AbstractState
import Stackwise.Analysis.BitSet
import Stackwise.Analysis.Effect
import Stackwise.Analysis.Fixpoint
import Stackwise.Analysis.FlowGraph
import Stackwise.Analysis.Liveness
import Stackwise.Analysis.Lowering
import Stackwise.Analysis.Region
import Stackwise.Analysis.Slot
import Stackwise.Analysis.Suspension
import Stackwise.Analysis.Typer
import Stackwise.Body.Decode
import Stackwise.Body.Error
import Stackwise.Body.Op
import Stackwise.Body.Operator
import Stackwise.Body.StateMachine
import Stackwise.Body.With
import Stackwise.Body.Writer
import Stackwise.Bytecode.Assembler
import Stackwise.Bytecode.Code
import Stackwise.Bytecode.Comparison
import Stackwise.Bytecode.Dialect
import Stackwise.Bytecode.Error
import Stackwise.Compile.FunctionId
import Stackwise.Bytecode.Listing
import Stackwise.Bytecode.OffsetMap
import Stackwise.Bytecode.Opcode
import Stackwise.Bytecode.Stream
import Stackwise.Compile.Compiler
import Stackwise.Compile.CompiledBody
import Stackwise.Compile.Config
import Stackwise.Compile.Emitter
import Stackwise.Compile.Error
import Stackwise.Compile.Program
import Stackwise.Decimal.Arithmetic
import Stackwise.Decimal.Binary64
import Stackwise.Decimal.Digits
import Stackwise.Decimal.Double
import Stackwise.Decimal.Layout
import Stackwise.Decimal.Reader
import Stackwise.Form.Basic
import Stackwise.Form.Code
import Stackwise.Form.Fault
import Stackwise.Form.Op
import Stackwise.Form.Report
import Stackwise.Form.Types
import Stackwise.Form.Value
import Stackwise.Hashing.Words
import Stackwise.Machine.Action
import Stackwise.Machine.Arguments
import Stackwise.Machine.Arithmetic
import Stackwise.Machine.Attribute
import Stackwise.Machine.Binding
import Stackwise.Machine.Builtin
import Stackwise.Machine.Comparing
import Stackwise.Machine.Construct
import Stackwise.Machine.Digest
import Stackwise.Machine.Equality
import Stackwise.Machine.Execute
import Stackwise.Machine.Fault
import Stackwise.Machine.FormatSpec
import Stackwise.Machine.Formatting
import Stackwise.Machine.Frame
import Stackwise.Machine.Generator
import Stackwise.Machine.Host
import Stackwise.Machine.Method
import Stackwise.Machine.Number
import Stackwise.Machine.NumberText
import Stackwise.Machine.Object
import Stackwise.Machine.Ordering
import Stackwise.Machine.Progression
import Stackwise.Machine.Protocol
import Stackwise.Machine.Rendering
import Stackwise.Machine.Run
import Stackwise.Machine.Store
import Stackwise.Machine.Subscript
import Stackwise.Machine.Value
import Stackwise.Proofs.Analysis.Anchored
import Stackwise.Proofs.Analysis.Applicable
import Stackwise.Proofs.Analysis.BitSets
import Stackwise.Proofs.Analysis.Blocks
import Stackwise.Proofs.Analysis.Convergence
import Stackwise.Proofs.Analysis.Edges
import Stackwise.Proofs.Analysis.ExactLiveness
import Stackwise.Proofs.Analysis.ExpandedBody
import Stackwise.Proofs.Analysis.Expansion
import Stackwise.Proofs.Analysis.ForetoldResults
import Stackwise.Proofs.Analysis.Form
import Stackwise.Proofs.Analysis.Handlers
import Stackwise.Proofs.Analysis.LaidPlans
import Stackwise.Proofs.Analysis.LiveSets
import Stackwise.Proofs.Analysis.PassOrder
import Stackwise.Proofs.Analysis.PlannedPasses
import Stackwise.Proofs.Analysis.Plans
import Stackwise.Proofs.Analysis.PostFixpoint
import Stackwise.Proofs.Analysis.ReachedBlocks
import Stackwise.Proofs.Analysis.RegionTables
import Stackwise.Proofs.Analysis.Regions
import Stackwise.Proofs.Analysis.Retarget
import Stackwise.Proofs.Analysis.Searches
import Stackwise.Proofs.Analysis.StateJoin
import Stackwise.Proofs.Analysis.StateOrder
import Stackwise.Proofs.Analysis.StepBound
import Stackwise.Proofs.Analysis.Suspensions
import Stackwise.Proofs.Analysis.Transformed
import Stackwise.Proofs.Analysis.Visit
import Stackwise.Proofs.Body.Dialects
import Stackwise.Proofs.Body.Layout
import Stackwise.Proofs.Body.Operands
import Stackwise.Proofs.Body.Parallel
import Stackwise.Proofs.Body.Passes
import Stackwise.Proofs.Body.StateMachine
import Stackwise.Proofs.Bytecode.Calls
import Stackwise.Proofs.Bytecode.Grammar
import Stackwise.Proofs.Bytecode.LeastLayout
import Stackwise.Proofs.Bytecode.Placement
import Stackwise.Proofs.Bytecode.ReadBack
import Stackwise.Proofs.Bytecode.RoundTrip
import Stackwise.Proofs.Bytecode.Streams
import Stackwise.Proofs.Compile.Acceptance
import Stackwise.Proofs.Compile.CachedBodies
import Stackwise.Proofs.Compile.Content
import Stackwise.Proofs.Compile.Offsets
import Stackwise.Proofs.Compile.Programs
import Stackwise.Proofs.Compile.SharedCache
import Stackwise.Proofs.Compile.SpelledBodies
import Stackwise.Proofs.Machine.AllOrNothing
import Stackwise.Proofs.Machine.ArgumentBinding
import Stackwise.Proofs.Machine.Assembled
import Stackwise.Proofs.Machine.BlockMachine
import Stackwise.Proofs.Machine.Calm
import Stackwise.Proofs.Machine.CaughtExceptions
import Stackwise.Proofs.Machine.ComposedOperations
import Stackwise.Proofs.Machine.DeadLocals
import Stackwise.Proofs.Machine.DeclaredMethods
import Stackwise.Proofs.Machine.DeclaredResults
import Stackwise.Proofs.Machine.Delegation
import Stackwise.Proofs.Machine.DirectCalls
import Stackwise.Proofs.Machine.EnteringWith
import Stackwise.Proofs.Machine.EntryTypes
import Stackwise.Proofs.Machine.EqualHashes
import Stackwise.Proofs.Machine.Exhaustion
import Stackwise.Proofs.Machine.ForeseenFaults
import Stackwise.Proofs.Machine.FormatSpecs
import Stackwise.Proofs.Machine.GentleOperations
import Stackwise.Proofs.Machine.ImplementedMethods
import Stackwise.Proofs.Machine.IntegerOperators
import Stackwise.Proofs.Machine.IntegerTexts
import Stackwise.Proofs.Machine.KeyLists
import Stackwise.Proofs.Machine.Literals
import Stackwise.Proofs.Machine.LiveForms
import Stackwise.Proofs.Machine.Lockstep
import Stackwise.Proofs.Machine.Lookahead
import Stackwise.Proofs.Machine.MethodResults
import Stackwise.Proofs.Machine.Oblivious
import Stackwise.Proofs.Machine.OperatorResults
import Stackwise.Proofs.Machine.PlainOrder
import Stackwise.Proofs.Machine.PreservingOperations
import Stackwise.Proofs.Machine.Progressions
import Stackwise.Proofs.Machine.Returns
import Stackwise.Proofs.Machine.RunningGenerators
import Stackwise.Proofs.Machine.SingleSteps
import Stackwise.Proofs.Machine.Slices
import Stackwise.Proofs.Machine.SortedValues
import Stackwise.Proofs.Machine.StackUse
import Stackwise.Proofs.Machine.Stepping
import Stackwise.Proofs.Machine.Throwing
import Stackwise.Proofs.Machine.TidyFrames
import Stackwise.Proofs.Machine.TidyOperations
import Stackwise.Proofs.Machine.TruthValuesAsIntegers
import Stackwise.Proofs.Machine.TypedOperations
import Stackwise.Proofs.Machine.Typing
import Stackwise.Proofs.Machine.UniqueKeys
import Stackwise.Proofs.Machine.Unwinding
import Stackwise.Proofs.Machine.UpdateTargets
import Stackwise.Proofs.Machine.Ways
import Stackwise.Proofs.Machine.WithProtocol
import Stackwise.Proofs.Machine.Words
import Stackwise.Proofs.Outcome
import Stackwise.Proofs.Types.Declarations
import Stackwise.Proofs.Types.Hierarchy
import Stackwise.Proofs.Types.Overloads
import Stackwise.Proofs.Types.SearchOrders
import Stackwise.Proofs.Types.Subtyping
import Stackwise.Sorting.Block
import Stackwise.Sorting.Stable
import Stackwise.Sorting.Runs
import Stackwise.Text.Blank
import Stackwise.Text.CaseMap
import Stackwise.Text.Hidden
import Stackwise.Text.Letter
import Stackwise.Text.Quoted
import Stackwise.Text.Search
import Stackwise.Text.Utf8
import Stackwise.Types.Builtins
import Stackwise.Types.Linearization
import Stackwise.Types.Model
import Stackwise.Types.Signature
import Stackwise.Types.TypeId
