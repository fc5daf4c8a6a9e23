import Ath6kl.RxReorderHold
import Ath6kl.HtcCreditSeek
import Ath6kl.HtcTxBundle
import Ath6kl.HtcPipeOwner
import Ath6kl.HtcRxReassembly
import Ath6kl.PowerSavePvb
import Ath6kl.P2pFlowctrlOrder
import Ath6kl.AmsduRoundTrip
import Ath6kl.DataTxOrder
import Ath6kl.ApStationTable
import Ath6kl.WmmStreamBooks
import Ath6kl.MgmtTxReport
import Ath6kl.RemainOnChannelCookie
import Ath6kl.ScanOwner
import Ath6kl.SyncPointAgree
import Ath6kl.P2pPsElement
import Ath6kl.P2pRcCache
import Ath6kl.UsbBundleOnce
import Ath6kl.UsbAutoPmQueue
import Ath6kl.SdioAsyncOnce
import Ath6kl.AmsduSlice
import Ath6kl.AmsduBound
import Ath6kl.DataTxAccount
import Ath6kl.PsQueueBounds
import Ath6kl.UsbRxBundle
import Ath6kl.SdioScatterAgree
import Ath6kl.HtcTrailer
import Ath6kl.HtcTxThrottle
import Ath6kl.UsbRxOverflow
import Ath6kl.UsbRxPool
import Ath6kl.UapsdPeriod
import Ath6kl.HtcTxQueue
import Ath6kl.HtcRxPending
import Ath6kl.ApAdmission
import Ath6kl.ApAcl
import Ath6kl.ApKeepalive
import Ath6kl.ApKeepaliveClock
import Ath6kl.IeWalk
import Ath6kl.RsnElement
import Ath6kl.AppIe
import Ath6kl.ScanChannels
import Ath6kl.ScanRestriction
import Ath6kl.WmiEvents
import Ath6kl.ApRc
import Ath6kl.RegHt40
import Ath6kl.FwApi2
import Ath6kl.BoardData
import Ath6kl.BmiExact
import Ath6kl.HtCoexTimer
import Ath6kl.HtCoexReport
import Ath6kl.CookiePoolOnce
import Ath6kl.FwLogRing
import Ath6kl.FwLogFragment
import Ath6kl.PktLogSafe
import Ath6kl.BssPostProc
import Ath6kl.RegLookup
import Ath6kl.HtcPipeSetup
import Ath6kl.MacString
import Ath6kl.SmeTalk
import Ath6kl.SmeTalkWay
import Ath6kl.SmeTalkAgree
import Ath6kl.FwLogQueue
import Ath6kl.RxPath
import Ath6kl.RxDeliver
import Ath6kl.RxApDeliver
import Ath6kl.NetifQueue
import Ath6kl.UsbRxModes
import Ath6kl.InterfaceTable
import Ath6kl.McastPs
import Ath6kl.RxReception
import Ath6kl.PowerStatesTold
