import StackLang.Pipeline
import StackLang.Proofs.Emission
import StackLang.Semantics.Evaluation
import StackLang.Tree.Equality
import StackLang.Tree.Outline
import StackLang.Proofs.Placement
import StackLang.Proofs.NestedScopes
import StackLang.Proofs.Activation
import StackLang.Proofs.InstructionRules
import StackLang.Proofs.ExpressionSimulation
import StackLang.Proofs.StatementSimulation
import StackLang.Proofs.CallSimulation
import StackLang.Proofs.ProgramRun
import StackLang.Proofs.CompilerCorrectness
import StackLang.Proofs.FaultCauses
import StackLang.Proofs.Safety
import StackLang.Proofs.CallIsolation
import StackLang.Proofs.Termination
import StackLang.Proofs.StepEffects
import StackLang.Proofs.FrameTables
import StackLang.Proofs.Segments
import StackLang.Proofs.ControlFlow
import StackLang.Proofs.StructResolution
import StackLang.Proofs.WellFormed
import StackLang.Proofs.Acceptance
import StackLang.Proofs.LexicalCalls
import StackLang.Proofs.EventReplay
import StackLang.Proofs.NestedCalls
import StackLang.Proofs.Limits
import StackLang.Proofs.Prototypes
import StackLang.Proofs.DeclarationOrder
import StackLang.Proofs.PathUpdate
import StackLang.Proofs.MemberAssignment
import StackLang.Proofs.StructSearch
import StackLang.Proofs.ReturnPaths
import StackLang.Proofs.InstructionOrigins
import StackLang.Proofs.LayoutAgreement
import StackLang.Proofs.NameLookup
import StackLang.Proofs.ScopeTree
import StackLang.Proofs.StackBound
import StackLang.Proofs.IntegerLaws
import StackLang.Proofs.TextOrder
import StackLang.Proofs.ComparisonCoherence
import StackLang.Proofs.ValueEquality
import StackLang.Proofs.StructWrites
import StackLang.Proofs.LiteralText
import StackLang.Proofs.OutlineForests
import StackLang.Proofs.OutlineLabels
import StackLang.Proofs.PlantedTrees
import StackLang.Proofs.OutlineReading
import StackLang.Proofs.MemberPaths
import StackLang.Proofs.JumpPatching
import StackLang.Machine.Invocation
import StackLang.Proofs.NestedCalls
