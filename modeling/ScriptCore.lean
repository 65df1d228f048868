import ScriptCore.Data.Json
import ScriptCore.Node.Reader
import ScriptCore.Proofs.AllocatedPaths
import ScriptCore.Proofs.ArgumentBinding
import ScriptCore.Proofs.ArraySizes
import ScriptCore.Proofs.ArrayTrees
import ScriptCore.Proofs.AssignedCell
import ScriptCore.Proofs.Cloning
import ScriptCore.Proofs.CompoundOperators
import ScriptCore.Proofs.ConsistencyChecks
import ScriptCore.Proofs.ConstructionOrder
import ScriptCore.Proofs.ControlSignals
import ScriptCore.Proofs.ConversionLaws
import ScriptCore.Proofs.DispatchTable
import ScriptCore.Proofs.DottedNames
import ScriptCore.Proofs.ElementLoops
import ScriptCore.Proofs.ExactSignatures
import ScriptCore.Proofs.ExecutionResults
import ScriptCore.Proofs.FailedStorage
import ScriptCore.Proofs.FieldAccess
import ScriptCore.Proofs.FinalVariables
import ScriptCore.Proofs.InheritedBodies
import ScriptCore.Proofs.InstanceCalls
import ScriptCore.Proofs.LexicalScoping
import ScriptCore.Proofs.LocalDeclarations
import ScriptCore.Proofs.MachineArithmetic
import ScriptCore.Proofs.NameCaching
import ScriptCore.Proofs.OverloadOrder
import ScriptCore.Proofs.PrimitiveFailures
import ScriptCore.Proofs.PrintedOperators
import ScriptCore.Proofs.PrivateMethods
import ScriptCore.Proofs.ReadBack
import ScriptCore.Proofs.ResolutionRounds
import ScriptCore.Proofs.StackDiscipline
import ScriptCore.Proofs.StackTraces
import ScriptCore.Proofs.StorageCalls
import ScriptCore.Proofs.StrayJumps
import ScriptCore.Proofs.StrictAssignments
import ScriptCore.Proofs.SuperCalls
import ScriptCore.Proofs.SwitchStatements
import ScriptCore.Proofs.TieredFailures
import ScriptCore.Proofs.TryStatements
import ScriptCore.Proofs.ValueOrder
import ScriptCore.Proofs.ValueRanges
