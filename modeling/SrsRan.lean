import SrsRan.Lib.Octet
import SrsRan.Lib.Fallible
import SrsRan.Lib.BitString
import SrsRan.Lib.BinaryFloat
import SrsRan.Lib.CircularMap
import SrsRan.Lib.ModWindow
import SrsRan.Lib.Transition
import SrsRan.Lib.CentredMod
import SrsRan.Support.SduWindow
import SrsRan.Support.BitEncoding
import SrsRan.Rlc.Config
import SrsRan.Rlc.AmPdu
import SrsRan.Rlc.StatusPdu
import SrsRan.Rlc.NackCoverage
import SrsRan.Rlc.RxAmSegments
import SrsRan.Rlc.SegmentCoverage
import SrsRan.Rlc.RxAm
import SrsRan.Rlc.RxAmSpec
import SrsRan.Rlc.RxAmWindow
import SrsRan.Rlc.RxAmStatusReport
import SrsRan.Rlc.UmPdu
import SrsRan.Rlc.RxUm
import SrsRan.Asn1.BitRef
import SrsRan.Asn1.Integer
import SrsRan.Asn1.Bitstring
import SrsRan.Asn1.Length
import SrsRan.Asn1.PackInteger
import SrsRan.Pdcp.Common
import SrsRan.Pdcp.RxEntity
import SrsRan.Pdcp.RxWindow
import SrsRan.Pdcp.TxEntity
import SrsRan.Pdcp.TxWindow
import SrsRan.Pdcp.TxInvariant
import SrsRan.Pdcp.RxInvariant
import SrsRan.Pdcp.StatusReport
import SrsRan.Pdcp.DataPdu
import SrsRan.Rlc.DataPduCodec
import SrsRan.Rlc.SduQueue
import SrsRan.Rlc.RetxQueue
import SrsRan.Rlc.TxUm
import SrsRan.Rlc.TxAm
import SrsRan.Rlc.TxAmFraming
import SrsRan.Rlc.TxUmFraming
import SrsRan.Rlc.RetxQueueSpec
import SrsRan.Support.ByteBuffer
import SrsRan.Support.ByteBufferSpec
import SrsRan.Mac.DlSchPdu
import SrsRan.Mac.DlSchSubPdu
import SrsRan.Mac.DlSchPduSpec
import SrsRan.Mac.DlSchAssemblerSpec
import SrsRan.Mac.UlSchPdu
import SrsRan.Mac.UlSchSpec
import SrsRan.Mac.UlCeDecode
import SrsRan.Mac.PduRxHandler
import SrsRan.Ran.Sliv
import SrsRan.Ran.SlotPoint
import SrsRan.Rlc.SduQueueSpec
import SrsRan.Gtpu.Pdu
import SrsRan.Gtpu.PduSpec
import SrsRan.Nru.Packing
import SrsRan.Nru.PackingSpec
import SrsRan.Support.BitBuffer
import SrsRan.Lib.TwosComplement
import SrsRan.Ofh.Compression
import SrsRan.Ofh.CompressionSpec
import SrsRan.Sched.Harq
import SrsRan.Sched.HarqSpec
import SrsRan.Adt.BoundedBitset
import SrsRan.Adt.BoundedBitsetSpec
import SrsRan.Ofh.Ecpri
import SrsRan.Ofh.EcpriSpec
