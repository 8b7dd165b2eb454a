import QcomModules.CamReqMgr.BubbleRuns
import QcomModules.CamSync.MergeUndo
import QcomModules.CamSync.Payloads
import QcomModules.Dsc.Draining
import QcomModules.Dsc.Waiters
import QcomModules.Gsi.Cookies
import QcomModules.Gsi.GpiRing
import QcomModules.HfiCore.DeviceQueue
import QcomModules.HfiCore.WrapperRuns
import QcomModules.HwFence.FailedCreate
import QcomModules.HwFence.JoinCleanup
import QcomModules.HwFence.ReadResult
import QcomModules.HwFence.TableKeys
import QcomModules.Ipahal.RuleHeaders
import QcomModules.Ipanat.Failures
import QcomModules.Ipanat.MigratedRecord
import QcomModules.Ipanat.Pdn
import QcomModules.Ipanat.RuleStore
import QcomModules.Ipanat.StaleHandles
import QcomModules.Kgsl.Events
import QcomModules.Kgsl.GmuQueue
import QcomModules.Kgsl.GpuaddrAllocation
import QcomModules.Kgsl.Ringbuffer
import QcomModules.Kgsl.SyncDispatch
import QcomModules.Kgsl.TimelineDestroy
import QcomModules.Kgsl.VboFailures
import QcomModules.Mmrm.Budget
import QcomModules.Mmrm.CrmRates
import QcomModules.Rmnet.ChecksumTrailer
import QcomModules.Rmnet.FlushTimer
import QcomModules.Rmnet.LinearizeCopy
import QcomModules.Rmnet.Segmentation
import QcomModules.Rmnet.UplinkFrames
import QcomModules.RxReo.Duplicates
import QcomModules.RxReo.Following
import QcomModules.RxReo.WaitAsserts
import QcomModules.Synx.Completion
import QcomModules.Synx.FailedCalls
import QcomModules.Synx.MergeRace
import QcomModules.Synx.Ownership
import QcomModules.Vidc.QueueBounds
import QcomModules.Wlan.BroadcastLink
import QcomModules.Wlan.CommandOrder
import QcomModules.Wlan.ConservedCommands
import QcomModules.Wlan.DuplicateCommands
import QcomModules.Wlan.FragmentCopy
import QcomModules.Wlan.MloAidRange
import QcomModules.Wlan.MloAidRuns
import QcomModules.Wlan.MultiLinkAdd
import QcomModules.Wlan.RsnRoundTrip
import QcomModules.Wlan.StrandedCommands
import QcomModules.Wlan.T2lmRoundTrip
