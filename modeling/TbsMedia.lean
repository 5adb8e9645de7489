import TbsMedia.DvbDemux.SectionTransparency
import TbsMedia.DvbDemux.DemuxRun
import TbsMedia.DvbDemux.SwFilter
import TbsMedia.DvbDemux.Resync
import TbsMedia.DvbRingbuffer.Queue
import TbsMedia.DvbNet.UleTermination
import TbsMedia.DvbNet.UleAccess
import TbsMedia.DvbNet.UleBridged
import TbsMedia.DvbNet.UleCursor
import TbsMedia.DvbNet.UleStream
import TbsMedia.DvbNet.UleResync
import TbsMedia.DvbDemux.Distribution
import TbsMedia.DvbDemux.PesFilter
import TbsMedia.Dmxdev.Dmxdev
import TbsMedia.Dmxdev.Slots
import TbsMedia.DvbRingbuffer.Packets
import TbsMedia.DvbRingbuffer.PacketQueue
import TbsMedia.DvbCa.Ca
import TbsMedia.DvbCa.Write
import TbsMedia.DvbCa.Assembly
import TbsMedia.Tbsecp3.Contiguous
import TbsMedia.Tbsmod.RfEnable
import TbsMedia.Tbsmod.Bitrate
import TbsMedia.Tbsci.Bitrate
import TbsMedia.Rc.KeyEvents
import TbsMedia.Rc.KeyTable
import TbsMedia.Rc.SetKeytable
import TbsMedia.Rc.RawMerge
import TbsMedia.Dmxdev.SectionRead
import TbsMedia.Rc.Rc5
import TbsMedia.Rc.Rc6
import TbsMedia.Cec.TransmitOnce
import TbsMedia.Rc.Encoders
import TbsMedia.Vicodec.DecodeSafety
import TbsMedia.Vicodec.Drift
import TbsMedia.Vicodec.StartCode
import TbsMedia.Vicodec.Transform
import TbsMedia.DvbMath.Intlog
import TbsMedia.Tbsmod.SymbolRate
import TbsMedia.Frontend.Swzigzag
import TbsMedia.Frontend.Search
import TbsMedia.Frontend.Coverage
import TbsMedia.Dmxdev.SectionFilter
import TbsMedia.Cec.LostMsgs
import TbsMedia.Cec.Cdc
import TbsMedia.Cec.StructuredSpec
import TbsMedia.Cec.ReportFeatures
import TbsMedia.V4l2.EdidPhysAddr
import TbsMedia.V4l2.ControlRounding
import TbsMedia.V4l2.DetectCvt
import TbsMedia.V4l2.Rect
import TbsMedia.V4l2.CvtFormulas
import TbsMedia.Vb2.Cookies
import TbsMedia.Vb2.Qbuf
import TbsMedia.Vb2.BusyBuffer
import TbsMedia.Vb2.Prepare
import TbsMedia.Mc.WalkCalls
import TbsMedia.Cec.Retries
import TbsMedia.Mc.Request
import TbsMedia.Mc.Pipeline
import TbsMedia.Mc.Links
import TbsMedia.Uvc.BitFields
import TbsMedia.Uvc.ClockUpdate
import TbsMedia.Uvc.IntegerControl
import TbsMedia.Uvc.Queue
import TbsMedia.Uvc.Sequence
import TbsMedia.Uvc.SimplifyFraction
import TbsMedia.Uvc.Video
import TbsMedia.V4l2.Event
import TbsMedia.V4l2.Mem2mem
import TbsMedia.Vb2.FileIo
import TbsMedia.Allegro.Emulation
import TbsMedia.Allegro.RoundTrip
import TbsMedia.Altera.Shrink
import TbsMedia.DvbRingbuffer.Enumerate
import TbsMedia.DvbDemux.ShortSection
import TbsMedia.Vicodec.RawPlanes
import TbsMedia.Vicodec.OutputBound
import TbsMedia.Mt2063.FirstIf
import TbsMedia.Mt2063.SpurInBand
import TbsMedia.Mt2063.AvoidSpurs
