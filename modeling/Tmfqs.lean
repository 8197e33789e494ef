import Tmfqs.Library.Call
import Tmfqs.Library.Frame
import Tmfqs.Library.Trace
import Tmfqs.Library.Pool
import Tmfqs.Library.Loop
import Tmfqs.Library.Scatter
import Tmfqs.Library.Cumulative
import Tmfqs.Core.Types
import Tmfqs.Core.Amplitudes
import Tmfqs.Core.BasisStates
import Tmfqs.Core.Validation
import Tmfqs.Gates.QuantumGate
import Tmfqs.Storage.GateBlockApply
import Tmfqs.Storage.GateBlockEngine
import Tmfqs.Storage.ChunkLayout
import Tmfqs.Storage.PairKernelExecutor
import Tmfqs.Storage.PairKernels
import Tmfqs.Model.StateVector
import Tmfqs.Model.VectorSums
import Tmfqs.Model.PairAction
import Tmfqs.Model.GateAction
import Tmfqs.Model.ComplexAmplitudes
import Tmfqs.Model.Probability
import Tmfqs.Model.BitAction
import Tmfqs.Model.EmbeddedGate
import Tmfqs.Model.GateProduct
import Tmfqs.Storage.IStateBackend
import Tmfqs.Storage.StrategyRegistry
import Tmfqs.Storage.Visits
import Tmfqs.Storage.BackendRuns
import Tmfqs.Storage.DenseStateBackend
import Tmfqs.Storage.DenseRefinement
import Tmfqs.Storage.DenseGates
import Tmfqs.Storage.ChunkCache
import Tmfqs.Storage.ChunkCacheInvariant
import Tmfqs.Storage.ChunkCacheSpec
import Tmfqs.Storage.CodecPolicy
import Tmfqs.Storage.CompressedStateBackend
import Tmfqs.Storage.Chunking
import Tmfqs.Storage.CompressedHolds
import Tmfqs.Storage.CompressedInit
import Tmfqs.Storage.CompressedKernels
import Tmfqs.Storage.CompressedTraversals
import Tmfqs.Storage.CompressedMutations
import Tmfqs.Storage.CompressedQueries
import Tmfqs.Storage.CompressedRefinement
import Tmfqs.Storage.BackendRefinement
import Tmfqs.Register.QuantumRegister
import Tmfqs.Register.RegisterRuns
import Tmfqs.Register.LazyRefinement
import Tmfqs.Circuit.Circuit
import Tmfqs.Circuit.BuiltCircuits
import Tmfqs.State.QuantumState
import Tmfqs.Sim.Simulator
import Tmfqs.Register.DenseRegister
import Tmfqs.Register.SwapGate
import Tmfqs.Register.OperationBatches
import Tmfqs.State.Measurement
import Tmfqs.State.DenseStates
import Tmfqs.Sim.CircuitRuns
import Tmfqs.Sim.CircuitProbability
import Tmfqs.Sim.LazyPrograms
import Tmfqs.Sim.FourierTransform
import Tmfqs.Sim.GroverRotation
import Tmfqs.Sim.GroverSuccess
import Tmfqs.Sim.ConfiguredRuns
import Tmfqs.Register.RejectedOperations
import Tmfqs.Storage.RejectedCalls
import Tmfqs.Storage.GateTolerance
import Tmfqs.Storage.ShownVector
import Tmfqs.Storage.AnyBackend
import Tmfqs.Register.ShownRegister
import Tmfqs.State.StateFactories
import Tmfqs.State.StateRegisters
import Tmfqs.State.BuiltStates
import Tmfqs.State.SameBehaviour
import Tmfqs.Storage.FailingCodecs
import Tmfqs.Storage.CacheFailures
import Tmfqs.Storage.CachedReads
import Tmfqs.Storage.ConstQueries
import Tmfqs.Storage.KeptMarkers
import Tmfqs.Circuit.MarkedStates
import Tmfqs.Experiment.Comparison
import Tmfqs.Experiment.ComparisonMetrics
import Tmfqs.Storage.PairCover
import Tmfqs.Storage.CodecConfig
import Tmfqs.Storage.ChunkAddressing
import Tmfqs.Storage.BloscCodec
import Tmfqs.State.IndexWidths
import Tmfqs.Library.Recency
import Tmfqs.Storage.LeastRecent
import Tmfqs.Library.Ignores
import Tmfqs.Storage.RecordedQubits
import Tmfqs.Storage.FlushedCalls
import Tmfqs.Storage.CurrentCalls
import Tmfqs.Storage.CurrentStore
import Tmfqs.Library.Interrupted
import Tmfqs.Storage.Tolerance
import Tmfqs.Storage.TolerantCalls
import Tmfqs.Model.Distance
import Tmfqs.Storage.InterruptedRuns
import Tmfqs.Storage.LossyRuns
import Tmfqs.Storage.ZfpCodec
import Tmfqs.Storage.ZfpRoundTrip
import Tmfqs.Library.Standby
import Tmfqs.Register.MirroredRuns
import Tmfqs.Sim.ReturnedRuns
import Tmfqs.Experiment.Report
import Tmfqs.Experiment.ReportRoundTrip
import Tmfqs.Library.PeriodicSums
import Tmfqs.Model.FactoryGates
import Tmfqs.Sim.ClassicalRuns
import Tmfqs.Sim.QftPattern
import Tmfqs.Sim.UndoneRuns
import Tmfqs.Experiment.ComparisonRoundTrip
import Tmfqs.Cli.AcceptedArguments
