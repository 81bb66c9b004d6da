import CppInterOp.RegistryMru
import CppInterOp.RegistryOwnership
import CppInterOp.RegistryCaches
import CppInterOp.RegistryDiagnostics
import CppInterOp.OverlayRestore
import CppInterOp.OverlayHooks
import CppInterOp.OverlayStack
import CppInterOp.OverlayContents
import CppInterOp.OverlayAccepts
import CppInterOp.TracingLiterals
import CppInterOp.TracingSlots
import CppInterOp.TracingReproducer
import CppInterOp.TracingReplay
import CppInterOp.TracingHandles
import CppInterOp.ErrorProducers
import CppInterOp.ErrorStorageValid
import CppInterOp.HandlersFork
import CppInterOp.DispatchRuns
import CppInterOp.EmulatedTLSRuns
import CppInterOp.SymbolFilter
import CppInterOp.LibraryLoad
import CppInterOp.AutoloadRegister
import CppInterOp.RealpathCache
import CppInterOp.RealpathPosix
import CppInterOp.OwnershipDeallocSound
import CppInterOp.OwnershipDeallocMemo
import CppInterOp.OwnershipAllocSound
import CppInterOp.OwnershipAllocCalls
import CppInterOp.OwnershipAllocBranches
import CppInterOp.OwnershipDeallocDialogue
import CppInterOp.OffsetAgreement
import CppInterOp.LookupScopes
import CppInterOp.WrapperObjects
import CppInterOp.PathsInclude
import CppInterOp.PathsReport
import CppInterOp.DatamembersCore
import CppInterOp.WeakGlobals
import CppInterOp.BoxPayloads
import CppInterOp.InterpreterArgs
import CppInterOp.BuiltinSpelling
import CppInterOp.StreamCaptureRuns
import CppInterOp.TracingParams
import CppInterOp.ConstArrayRuns
import CppInterOp.EmitterWrappers
import CppInterOp.WrapperRefinement
import CppInterOp.Callables
import CppInterOp.ErrorDiagnostics
import CppInterOp.LibrarySearch
import CppInterOp.CommandOutput
import CppInterOp.ClassDecls
import CppInterOp.LookupQualified
import CppInterOp.DispatchEntries
import CppInterOp.TracingCoverage
import CppInterOp.EmitterCHeader
