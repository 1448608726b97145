import GoNomad.Proto.Frame

/-!
# Transport errors

The ways a peer can break the multiplexer's rules and everything that can go
wrong in the transport.  A socket address or an operating-system error class is
diagnostics only and is not carried.
-/

namespace Transport

/-- A specific way a peer broke the multiplexer's rules; every one is fatal to
the connection. -/
inductive ProtocolViolation
  | shortRecord (len : Nat)
  | malformedSegment (len header : Nat)
  | unknownSegmentKind (kind : UInt8)
  | unknownChannel (channel : UInt32)
  | duplicateChannel (channel : UInt32)
  | wrongChannelParity (channel : UInt32)
  | tooManyChannels (max : Nat)
  | flowControlExceeded (channel : UInt32)
  | flowControlInflated (channel : UInt32)
  | malformedWindowUpdate (channel : UInt32)
  | oversizedFrame (len max : Nat)
  deriving DecidableEq, Repr

/-- Everything that can go wrong in the transport. -/
inductive TransportError
  | bind
  | connect
  | noReachableAddress
  | noNodeId
  | handshakeFailed
  | peerNotAuthorized
  | wrongPeer
  | crypto
  | nonceExhausted
  | protocol (violation : ProtocolViolation)
  | framing (error : Proto.FrameError)
  | frameTooLarge (len max : Nat)
  | connectionLost
  | closed
  | streamClosed
  | tooManyChannels (max : Nat)
  | timeout
  | notListening
  | config (reason : String)
  deriving DecidableEq, Repr

end Transport
