import Pinch.KeyPinning
import Pinch.PairAgreement
import Pinch.HumanReview
import Pinch.StoreAndForward
import Pinch.ClosedChannel
import Pinch.SessionOrder
import Pinch.StrandedMessages
import Pinch.DuplicateDelivery
import Pinch.Tampering
import Pinch.SharedLog
import Pinch.BoundaryProbing
import Pinch.Replay
import Pinch.RemoteInput
import Pinch.Impersonation
import Pinch.BlockedSender
import Pinch.RunLoop
import Pinch.AuditExport
import Pinch.RateLimiter
import Pinch.Receipts
import Pinch.RelayServer
import Pinch.HistoryPages
import Pinch.ReviewQueue
import Pinch.StructuralPermissions
import Pinch.Supervision
import Pinch.SameMessage
import Pinch.Rejections
import Pinch.ControlMessages
import Pinch.BlockRelation
import Pinch.Handshake
import Pinch.Admission
import Pinch.QueueDatabase
import Pinch.QueueLaws
import Pinch.QueueRefinement
import Pinch.FlushDrain
import Pinch.RelayClient
import Pinch.ClientStep
import Pinch.Reconnect
import Pinch.StoreFile
import Pinch.Tools
import Pinch.Passthrough
import Pinch.Intervention
import Pinch.Unobserved
import Pinch.Silence
import Pinch.BreakerWindow
import Pinch.UncertainVerdicts
import Pinch.Confirmations
import Pinch.FailedCalls
import Pinch.AnnouncedCount
import Pinch.FlushWait
import Pinch.Startup
import Pinch.JsHeap
import Pinch.ObjectStore
import Pinch.StoreRefinement
import Pinch.FiniteMap
import Pinch.AddressCodec
import Pinch.Expiry
import Pinch.ReviewList
import Pinch.SharedAddress
import Pinch.Preimage
