import SoftBus.Spec.SeqReplay
import SoftBus.Spec.SeqReorder
import SoftBus.Spec.ProxyFd
import SoftBus.Spec.ProxySync
import SoftBus.Spec.ProxySliceTrip
import SoftBus.Spec.PendingAck
import SoftBus.Spec.ProxyReports
import SoftBus.Spec.ProxyRefs
import SoftBus.Spec.AuthPass
import SoftBus.Spec.BleHoles
import SoftBus.Spec.BrFrames
import SoftBus.Spec.TdcStream
import SoftBus.Spec.BrQueue
import SoftBus.Spec.BleQueue
import SoftBus.Spec.Topo
import SoftBus.Spec.LnnMap
import SoftBus.Spec.Looper
import SoftBus.Spec.FillpSender
import SoftBus.Spec.FillpGap
import SoftBus.Spec.TimingWheelEarly
import SoftBus.Spec.TimingWheelLate
import SoftBus.Spec.SkipListSet
import SoftBus.Spec.FillpFrame
import SoftBus.Spec.ConnFsm
import SoftBus.Spec.NetBuilder
import SoftBus.Spec.NetLedger
import SoftBus.Spec.UdpChannel
import SoftBus.Spec.DFileRecv
import SoftBus.Native.DFileTcp
import SoftBus.Spec.DFileTcp
import SoftBus.Spec.TimeSync
