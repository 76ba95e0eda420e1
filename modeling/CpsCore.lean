import CpsCore.DataPresentation.RoundTrip
import CpsCore.DataPresentation.Extract
import CpsCore.IDC.SerialHandler
import CpsCore.Lib.Framing
import CpsCore.IDC.Deframer
import CpsCore.IDC.Sending
import CpsCore.IDC.SerialLink
import CpsCore.Synchronization.SynchronizedRunner
import CpsCore.Lib.Multimap
import CpsCore.Scheduler.MicroSimulator
import CpsCore.Synchronization.StageBarrier
import CpsCore.Scheduler.Serving
import CpsCore.Scheduler.DiscreteEvents
import CpsCore.Scheduler.Simulation
import CpsCore.Configuration.Json
import CpsCore.Configuration.ParameterSet
import CpsCore.Configuration.PropertyMapper
import CpsCore.Configuration.Mandatory
import CpsCore.Configuration.JsonPopulator
import CpsCore.Configuration.Populated
import CpsCore.Synchronization.SpuriousWakeups
import CpsCore.IPC.LatestPacket
import CpsCore.IPC.MessageQueue
import CpsCore.IPC.PacketOrder
import CpsCore.IPC.EndOfStream
import CpsCore.IPC.Subscriptions
import CpsCore.IPC.Retry
import CpsCore.Aggregation.Aggregator
import CpsCore.Aggregation.Wiring
import CpsCore.Aggregation.MultiHandles
import CpsCore.Aggregation.Retrieval
import CpsCore.Framework.Defaults
import CpsCore.Scheduler.MultiThreadingScheduler
import CpsCore.Scheduler.Ownership
import CpsCore.Scheduler.Stopping
import CpsCore.IDC.CrcGate
import CpsCore.DataPresentation.Counts
import CpsCore.DataPresentation.PriorValues
import CpsCore.DataPresentation.IndexRange
import CpsCore.DataPresentation.Canonical
import CpsCore.DataPresentation.Compression
import CpsCore.DataPresentation.FileArchive
import CpsCore.Configuration.IllTyped
import CpsCore.Configuration.Reconfigure
import CpsCore.Scheduler.Splitting
import CpsCore.Scheduler.Reentrancy
import CpsCore.Scheduler.Termination
import CpsCore.Scheduler.ThreadPoolScheduler
import CpsCore.Scheduler.Dependencies
import CpsCore.Scheduler.Trace
import CpsCore.Scheduler.Grid
import CpsCore.Scheduler.Ticks
import CpsCore.Lib.CyclicCode
import CpsCore.IDC.ErrorDetection
import CpsCore.IDC.ErrorCorrection
import CpsCore.IDC.Resynchronization
import CpsCore.IDC.NetworkLayers
import CpsCore.IDC.EndToEnd
import CpsCore.IDC.Silencing
import CpsCore.Lib.XorMultiply
import CpsCore.IDC.Hash
import CpsCore.DataPresentation.Packs
import CpsCore.IPC.TypedTopics
import CpsCore.Lib.Agenda
import CpsCore.Scheduler.Agreement
import CpsCore.Scheduler.Executions
import CpsCore.Scheduler.Starvation
import CpsCore.Synchronization.Runners
import CpsCore.Configuration.MergePatch
import CpsCore.Framework.Template
import CpsCore.Scheduler.ExternalSimulation
import CpsCore.Framework.Plugins
