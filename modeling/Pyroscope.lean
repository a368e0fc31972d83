import Pyroscope.ApiWrapper.Createdump
import Pyroscope.ClrEvents.Collections
import Pyroscope.ClrEvents.ProviderCache
import Pyroscope.CodeCache.Reuse
import Pyroscope.CpuProfiler.Coverage
import Pyroscope.CpuProfiler.Shutdown
import Pyroscope.CpuTime.ManagedThreads
import Pyroscope.CpuTime.NativeThreads
import Pyroscope.CpuTime.ThreadPaths
import Pyroscope.CpuTime.WindowsTimes
import Pyroscope.Etw.Pairing
import Pyroscope.FrameStore.TypeNames
import Pyroscope.GroupSampler.Accounting
import Pyroscope.HeapSnapshot.ArraySlots
import Pyroscope.HeapSnapshot.DumpSpacing
import Pyroscope.HeapSnapshot.HeapWalk
import Pyroscope.HeapSnapshot.HistogramText
import Pyroscope.HeapSnapshot.JsonRoundTrip
import Pyroscope.HttpProxy.Credentials
import Pyroscope.Labels.StaticTags
import Pyroscope.LibrariesCache.Freshness
import Pyroscope.Network.Accesses
import Pyroscope.Network.Durations
import Pyroscope.Pprof.Exporter
import Pyroscope.RingBuffer.Fifo
import Pyroscope.Samples.AllocationsRecorder
import Pyroscope.Samples.FailedWalks
import Pyroscope.Samples.WeakHandles
import Pyroscope.Service.Lifecycle
import Pyroscope.Signals.Collection
import Pyroscope.Signals.Ownership
import Pyroscope.Signals.Restoration
import Pyroscope.Signals.Transparency
import Pyroscope.SpinningMutex.Exclusion
import Pyroscope.Suspension.TargetLock
import Pyroscope.ThreadList.Extremes
import Pyroscope.ThreadList.Rounds
import Pyroscope.Tracing.Correlation
import Pyroscope.Unwinding.ManagedFrames
import Pyroscope.Unwinding.TracerList
import Pyroscope.Upload.ExportWindows
import Pyroscope.Upload.PprofSink
