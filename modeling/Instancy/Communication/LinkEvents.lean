import Instancy.Communication.Transport

namespace Instancy

/-- Why a link ended without a clean end of its stream. -/
inductive LinkFailure where
  | channelClosed
  | decode (detail : String)
  | protocolViolation (detail : String)
  | lockPoisoned
  | sendFailed
  | encode (detail : String)
  | transport (error : TransportError)
  deriving DecidableEq, Repr

def LinkFailure.text : LinkFailure → String
  | .channelClosed => "connection closed before end of stream"
  | .decode detail => s!"undecodable frame: {detail}"
  | .protocolViolation detail => s!"unexpected frame: {detail}"
  | .lockPoisoned => "lock poisoned while delivering a frame"
  | .sendFailed => "outbound frame could not be sent"
  | .encode detail => s!"outbound frame could not be encoded: {detail}"
  | .transport error => "transport error: " ++ error.text

inductive LinkEvent where
  | progressEndOfStream
  | progressChannelEnded (failure : LinkFailure)
  | dataChannelEnded (failure : LinkFailure)
  | outboundFailed (failure : LinkFailure)
  | ackReceived
  | cancelReceived
  | controlClosed
  | controlUndecodable (detail : String)
  | inboundDataLost (detail : String)
  | connectionFailed (error : TransportError)
  deriving DecidableEq, Repr

end Instancy
