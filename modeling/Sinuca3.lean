import Sinuca3.Lib.Machine
import Sinuca3.Lib.Mailbox
import Sinuca3.Lib.Follows
import Sinuca3.Source.Utils.CircularBuffer
import Sinuca3.Source.Engine.Linkable
import Sinuca3.Source.Engine.ConnectionExtent
import Sinuca3.Lib.Interaction
import Sinuca3.Guarantees.ConnectionMailbox
import Sinuca3.Guarantees.Availability
import Sinuca3.Guarantees.CycleOrder
import Sinuca3.Source.Engine.DefaultPackets
import Sinuca3.Source.Tracer.FileHandler
import Sinuca3.Source.Tracer.DynamicTraceReader
import Sinuca3.Source.Tracer.MemoryTraceReader
import Sinuca3.Source.Tracer.TraceReader
import Sinuca3.Source.Tracer.Replay
import Sinuca3.Source.Engine.Engine
import Sinuca3.Source.Utils.Cache.ReplacementPolicy
import Sinuca3.Source.Utils.Cache.CacheMemory
import Sinuca3.Guarantees.FaithfulReplay
import Sinuca3.Guarantees.CriticalSections
import Sinuca3.Guarantees.Barriers
import Sinuca3.Guarantees.EngineDelivery
import Sinuca3.Guarantees.CacheCoherence
import Sinuca3.Source.StdComponents.Fetcher
import Sinuca3.Source.StdComponents.FetchBuffer
import Sinuca3.Source.StdComponents.AlignedBuffer
import Sinuca3.Source.StdComponents.Predictors
import Sinuca3.Source.Engine.FetchStage
import Sinuca3.Source.Engine.PredictedStage
import Sinuca3.Source.Engine.RequestBudget
import Sinuca3.Guarantees.HardwiredClasses
import Sinuca3.Guarantees.FetchDelivery
import Sinuca3.Guarantees.FetchMatching
import Sinuca3.Guarantees.FetchBufferBound
import Sinuca3.Lib.Codec
import Sinuca3.Lib.File
import Sinuca3.Source.Tracer.FileHeader
import Sinuca3.Source.TraceGenerator.TraceWriter
import Sinuca3.Source.Tracer.TraceFile
import Sinuca3.Guarantees.TraceRoundTrip
import Sinuca3.Source.TraceGenerator.FailingFlush
import Sinuca3.Guarantees.FailedFlushes
import Sinuca3.Source.Tracer.StaticTrace
import Sinuca3.Source.TraceGenerator.StaticTraceWriter
import Sinuca3.Guarantees.StaticRoundTrip
import Sinuca3.Guarantees.ReplayDeadlock
import Sinuca3.Guarantees.ReplayEnd
import Sinuca3.Guarantees.SimulationStart
import Sinuca3.Lib.Recursion
import Sinuca3.Lib.Multimap
import Sinuca3.Source.Utils.Map
import Sinuca3.Source.Yaml.YamlValue
import Sinuca3.Source.Yaml.YamlEvents
import Sinuca3.Source.Yaml.YamlParser
import Sinuca3.Source.Config.Config
import Sinuca3.Source.Engine.Configure
import Sinuca3.Guarantees.YamlTrees
import Sinuca3.Guarantees.ComplexKeys
import Sinuca3.Guarantees.ConfigIncludes
import Sinuca3.Guarantees.IncludeCycles
import Sinuca3.Guarantees.ComponentCycles
import Sinuca3.Guarantees.ComponentsBuilt
import Sinuca3.Guarantees.GreedyFetch
import Sinuca3.Source.Tracer.FetchIndices
import Sinuca3.Guarantees.ReplayRanges
import Sinuca3.Source.Tracer.StaticTraceAccess
import Sinuca3.Guarantees.StaticTraceSafety
import Sinuca3.Source.Engine.BoomBudget
import Sinuca3.Source.Engine.BoomFlow
import Sinuca3.Source.Engine.BoomStage
import Sinuca3.Source.Engine.Component
import Sinuca3.Source.Engine.Serving
import Sinuca3.Source.StdComponents.Memory
import Sinuca3.Source.StdComponents.Ras
import Sinuca3.Guarantees.ImmediateResponse
import Sinuca3.Source.StdComponents.Queue
import Sinuca3.Guarantees.QueueLossless
import Sinuca3.Source.Utils.BimodalCounter
import Sinuca3.Source.StdComponents.GsharePredictor
import Sinuca3.Guarantees.GshareIndex
import Sinuca3.Guarantees.GsharePairing
import Sinuca3.Guarantees.GsharePredictions
import Sinuca3.Source.StdComponents.InterleavedBTB
import Sinuca3.Guarantees.BoomFetchBounds
import Sinuca3.Guarantees.BranchRedirects
import Sinuca3.Guarantees.OwningBlock
import Sinuca3.Lib.CircularStack
import Sinuca3.Source.StdComponents.BoomFetch
import Sinuca3.Source.StdComponents.BoomFetchCycle
import Sinuca3.Source.StdComponents.BoomFetchControl
import Sinuca3.Source.StdComponents.PenaltyCounters
import Sinuca3.Lib.Cells
import Sinuca3.Lib.FirstMatch
import Sinuca3.Source.StdComponents.BoomFetchCohorts
import Sinuca3.Source.StdComponents.BoomFetchContents
import Sinuca3.Source.StdComponents.BoomFetchScans
import Sinuca3.Guarantees.ReturnAddresses
import Sinuca3.Guarantees.FullAddresses
import Sinuca3.Guarantees.Mispredictions
import Sinuca3.Source.TraceGenerator.Pintool
import Sinuca3.Guarantees.ThreadCallbacks
import Sinuca3.Lib.BitField
import Sinuca3.Lib.Recency
import Sinuca3.Source.Utils.Cache.AddressFields
import Sinuca3.Guarantees.CacheRuns
import Sinuca3.Guarantees.CacheStructure
import Sinuca3.Guarantees.AddressDecomposition
import Sinuca3.Guarantees.LruReplacement
import Sinuca3.Guarantees.RoundRobinReplacement
import Sinuca3.Guarantees.ReturnStack
import Sinuca3.Lib.Block
import Sinuca3.Source.Utils.CircularBufferMemory
import Sinuca3.Guarantees.BufferQueue
import Sinuca3.Lib.DelayLine
import Sinuca3.Source.StdComponents.DelayQueue
import Sinuca3.Guarantees.DelayDelivery
import Sinuca3.Source.StdComponents.Itlb
import Sinuca3.Guarantees.TlbService
import Sinuca3.Source.Tracer.BlockSearch
import Sinuca3.Guarantees.MalformedEvents
import Sinuca3.Source.Engine.EngineRuns
import Sinuca3.Guarantees.RemainingInstructions
import Sinuca3.Source.Utils.Cache.CacheFactories
import Sinuca3.Guarantees.CacheParameters
import Sinuca3.Guarantees.CacheStatistics
import Sinuca3.Guarantees.WriteOnceMap
import Sinuca3.Source.Utils.Arena
import Sinuca3.Guarantees.ArenaRegions
import Sinuca3.Source.TraceGenerator.OptionSections
import Sinuca3.Guarantees.OptionFields
import Sinuca3.Source.TraceGenerator.Intrinsics
import Sinuca3.Guarantees.IntrinsicDefinitions
import Sinuca3.Lib.Fields
import Sinuca3.Source.TraceGenerator.IntrinsicEncoding
import Sinuca3.Guarantees.IntrinsicRegisters
import Sinuca3.Guarantees.TranslatedInstructions
import Sinuca3.Source.Utils.CircularBufferExtent
import Sinuca3.Source.StdComponents.PassedSizes
import Sinuca3.Guarantees.BufferSizes
import Sinuca3.Lib.Weave
import Sinuca3.Source.Tracer.OpenTrace
import Sinuca3.Source.TraceGenerator.Instrumentation
import Sinuca3.Guarantees.InstrumentedBlocks
import Sinuca3.Guarantees.TracingRuns
import Sinuca3.Guarantees.RecordedInstructions
import Sinuca3.Guarantees.OpenedTraces
import Sinuca3.Guarantees.TracedProgram
import Sinuca3.Guarantees.SerialReplay
import Sinuca3.Source.Engine.Simulation
import Sinuca3.Guarantees.WholeSimulation
import Sinuca3.Lib.LruStack
import Sinuca3.Guarantees.StackDistance
import Sinuca3.Source.Engine.Destruction
import Sinuca3.Guarantees.ComponentLifetimes
import Sinuca3.Source.TraceGenerator.ImageLoad
import Sinuca3.Guarantees.InstrumentationControl
import Sinuca3.Guarantees.ExecutionPath
import Sinuca3.Guarantees.InstructionLimit
import Sinuca3.Guarantees.LimitedPrograms
