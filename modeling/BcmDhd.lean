import BcmDhd.Utils.AddressText
import BcmDhd.Utils.MwbmapRefinement
import BcmDhd.Msgbuf.PktidStore
import BcmDhd.PacketQueue.Refinement
import BcmDhd.PacketQueue.FilteredRemoval
import BcmDhd.FlowRing.ActiveList
import BcmDhd.Msgbuf.IoctlMatching
import BcmDhd.Msgbuf.IoctlRecovery
import BcmDhd.Utils.WorkqFifo
import BcmDhd.FlowRing.ConcurrentLookup
import BcmDhd.Msgbuf.D2hSeqnum
import BcmDhd.FlowRing.ScheduleOrder
import BcmDhd.Msgbuf.AuditAgreement
import BcmDhd.Utils.XtlvBounds
import BcmDhd.Utils.XtlvCapacity
import BcmDhd.Utils.PktCopy
import BcmDhd.Utils.Tlv
import BcmDhd.Utils.Id16Audit
import BcmDhd.Utils.PktpoolInvariant
import BcmDhd.Utils.Circularbuf
import BcmDhd.Wlfc.CreditConservation
import BcmDhd.Wlfc.CreditRange
import BcmDhd.TcpAck.FrameBounds
import BcmDhd.Wps.RegistrationOrder
import BcmDhd.Wlfc.HeaderBounds
import BcmDhd.Wlfc.DestinationRing
import BcmDhd.Wps.ReassemblyBounds
import BcmDhd.Wps.StationDropped
import BcmDhd.Wps.SettingsRoundTrip
import BcmDhd.Wps.KeyWrapped
import BcmDhd.NxAshmem.AreaLeak
import BcmDhd.NxAshmem.VideoUse
import BcmDhd.DroidPm.GoAhead
import BcmDhd.DebugRing.LossyFifo
import BcmDhd.Attributes.RoundTrip
import BcmDhd.Attributes.ScanBounds
import BcmDhd.Dhcpd.Leases
import BcmDhd.SecTimer.ActiveList
import BcmDhd.Wps.ReusedBuffer
import BcmDhd.Wps.CredentialRoundTrip
import BcmDhd.Wps.VendorSearch
import BcmDhd.Bcmcrypto.CbcInPlace
import BcmDhd.Attributes.PayloadEncryption
import BcmDhd.Bcmcrypto.CcmRoundTrip
import BcmDhd.Wps.Pin
import BcmDhd.Attributes.BufferRuns
import BcmDhd.NxAshmem.AreaSize
import BcmDhd.EventLog.SafeParse
import BcmDhd.Dhcpd.PacketParse
import BcmDhd.Cdc.NothingLost
import BcmDhd.Wlfc.HangerSearch
import BcmDhd.Wlfc.HeaderPush
import BcmDhd.Wlfc.FailedCredits
import BcmDhd.FlowRing.DeleteRequest
import BcmDhd.Msgbuf.RxPost
import BcmDhd.Utils.IpCksum
import BcmDhd.Utils.Uint64
import BcmDhd.Utils.Crc
import BcmDhd.Msgbuf.Membytes
import BcmDhd.Utils.SetBitrange
import BcmDhd.Utils.Strtoul
import BcmDhd.Utils.FormatFlags
import BcmDhd.Utils.NvramVars
import BcmDhd.Utils.QosMap
import BcmDhd.Utils.Ipv6Ntoa
