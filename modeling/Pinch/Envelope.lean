import Pinch.Utf

/-! The decoded wire envelope. Payloads that no handler reads after
authentication are kept only as a case. -/

namespace Pinch

inductive MessageType
  | unspecified
  | handshake
  | authChallenge
  | authResponse
  | message
  | deliveryConfirm
  | connectionRequest
  | connectionResponse
  | heartbeat
  | authResult
  | connectionRevoke
  | blockNotification
  | unblockNotification
  | queueStatus
  | queueFull
  | rateLimited
  | unrecognized (number : Int)
  deriving DecidableEq

structure EncryptedPayload where
  nonce : Bytes
  ciphertext : Bytes
  senderPublicKey : Bytes
  deriving DecidableEq

structure ConnectionRequest where
  fromAddress : String
  toAddress : String
  message : String
  senderPublicKey : Bytes
  expiresAt : Int
  deriving DecidableEq

structure ConnectionResponse where
  fromAddress : String
  toAddress : String
  accepted : Bool
  responderPublicKey : Bytes
  deriving DecidableEq

structure ConnectionRevoke where
  fromAddress : String
  toAddress : String
  deriving DecidableEq

structure BlockNotification where
  blockerAddress : String
  blockedAddress : String
  deriving DecidableEq

structure UnblockNotification where
  unblockerAddress : String
  unblockedAddress : String
  deriving DecidableEq

structure DeliveryConfirm where
  messageId : Bytes
  signature : Bytes
  timestamp : Int
  state : String
  wasStored : Bool
  deriving DecidableEq

structure QueueStatus where
  pendingCount : Int
  deriving DecidableEq

structure QueueFull where
  recipientAddress : String
  reason : String
  deriving DecidableEq

structure RateLimited where
  retryAfterMs : Int
  reason : String
  deriving DecidableEq

/-- The `payload` oneof; `other` stands for the handshake, heartbeat and
authentication payloads. -/
inductive Payload
  | unset
  | other
  | encrypted (value : EncryptedPayload)
  | connectionRequest (value : ConnectionRequest)
  | connectionResponse (value : ConnectionResponse)
  | connectionRevoke (value : ConnectionRevoke)
  | blockNotification (value : BlockNotification)
  | unblockNotification (value : UnblockNotification)
  | deliveryConfirm (value : DeliveryConfirm)
  | queueStatus (value : QueueStatus)
  | queueFull (value : QueueFull)
  | rateLimited (value : RateLimited)
  deriving DecidableEq

structure Envelope where
  version : Nat := 0
  fromAddress : String := ""
  toAddress : String := ""
  type : MessageType := .unspecified
  messageId : Bytes := []
  timestamp : Int := 0
  payload : Payload := .unset
  deriving DecidableEq

structure PlaintextPayload where
  version : Nat
  sequence : Nat
  timestamp : Int
  content : Bytes
  contentType : String
  deriving DecidableEq

end Pinch
