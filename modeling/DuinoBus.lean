import DuinoBus.Verified.Transducer
import DuinoBus.Verified.Stuffing
import DuinoBus.Verified.Receiver
import DuinoBus.Verified.ReceiverStream
import DuinoBus.Verified.Damage
import DuinoBus.Verified.Incoming
import DuinoBus.Verified.ReceiverSound
import DuinoBus.Verified.ReceiverCanonical
import DuinoBus.Verified.ReceiverRetry
import DuinoBus.Verified.Grammar
import DuinoBus.Verified.Generator
import DuinoBus.Verified.Guarded
import DuinoBus.Verified.Reentrant
import DuinoBus.Verified.LinearCheck
import DuinoBus.Verified.LittleEndian
import DuinoBus.Verified.Records
import DuinoBus.Verified.Along
import DuinoBus.Verified.Traced
import DuinoBus.Verified.Views
import DuinoBus.Verified.Search
import DuinoBus.Verified.Sockets
import DuinoBus.Verified.Delimited
import DuinoBus.Wire
import DuinoBus.Crc8
import DuinoBus.Cpp.Packet
import DuinoBus.Cpp.SizeT
import DuinoBus.Cpp.Packer
import DuinoBus.Cpp.Unpacker
import DuinoBus.Cpp.PacketDecoder
import DuinoBus.Cpp.PacketEncoder
import DuinoBus.Cpp.Bus
import DuinoBus.Cpp.BusLog
import DuinoBus.Cpp.CorePacketHandler
import DuinoBus.Cpp.LoggingBus
import DuinoBus.Cpp.SocketBus
import DuinoBus.Cpp.LinuxSerialBus
import DuinoBus.Py.Packet
import DuinoBus.Py.Unpacker
import DuinoBus.Py.Packer
import DuinoBus.Py.PacketDecoder
import DuinoBus.Py.PacketEncoder
import DuinoBus.Py.Bus
import DuinoBus.Py.SerialBus
import DuinoBus.Py.DumpMem
import DuinoBus.Py.Debugging
import DuinoBus.Py.SocketBus
import DuinoBus.Link
import DuinoBus.Resync
import DuinoBus.LineDamage
import DuinoBus.Soundness
import DuinoBus.Agreement
import DuinoBus.Encoding
import DuinoBus.Canonical
import DuinoBus.Boundaries
import DuinoBus.Burst
import DuinoBus.BitErrors
import DuinoBus.Device
import DuinoBus.ResponseRoom
import DuinoBus.LoggedWrite
import DuinoBus.LogMessages
import DuinoBus.Indeterminate
import DuinoBus.Dispatch
import DuinoBus.DeviceFields
import DuinoBus.HostFields
import DuinoBus.DeviceReads
import DuinoBus.ShortReads
import DuinoBus.DevicePacks
import DuinoBus.OverlongStrings
import DuinoBus.SameBytes
import DuinoBus.PacketInvariant
import DuinoBus.DecoderMemory
import DuinoBus.HexDump
import DuinoBus.HostDebug
import DuinoBus.HostThread
import DuinoBus.HostArrival
import DuinoBus.HostQueue
import DuinoBus.HostRequest
import DuinoBus.HostDemux
import DuinoBus.HostSurvival
import DuinoBus.LogDelivery
import DuinoBus.SerialLifecycle
import DuinoBus.LoggingDevice
import DuinoBus.RemoteDebug
import DuinoBus.WholeLink
import DuinoBus.LinkRefinement
import DuinoBus.StaleResponses
import DuinoBus.Retry
import DuinoBus.SocketCleanup
import DuinoBus.BusLifetime
import DuinoBus.SameAddress
import DuinoBus.DeafDevice
import DuinoBus.LinkedRecords
