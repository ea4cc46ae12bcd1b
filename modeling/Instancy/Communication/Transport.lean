import Instancy.Communication.Codec
import Instancy.Library.ChunkedReader

/-
The checksum of the framed writer and reader of `transport.rs` is a parameter.
-/

namespace Instancy

open Library

/-- The kinds of I/O errors; the reader looks at the first one only. -/
inductive IoErrorKind where
  | unexpectedEof
  | invalidData
  | connectionAborted
  | notConnected
  | other (code : Nat)
  deriving DecidableEq, Repr

structure IoError where
  kind : IoErrorKind
  message : String
  deriving DecidableEq, Repr

inductive TransportError where
  | io (error : IoError)
  | payloadTooLarge (size max : Nat)
  | connectionClosed
  | channelDropped (channelId : UInt64)
  | muxerShutdown
  | outOfSequence (expected received : UInt64)
  | laneViolation (detail : String)
  | checksumMismatch (expected actual : Nat)
  | lockPoisoned (detail : String)
  | invalidRegistration (reason : String)
  | reservedChannel (channelId : UInt64)
  deriving DecidableEq, Repr

def TransportError.text : TransportError → String
  | .io error => "I/O error: " ++ error.message
  | .payloadTooLarge size max => s!"frame payload too large: {size} bytes (max {max})"
  | .connectionClosed => "connection closed"
  | .channelDropped channelId => s!"channel {channelId} has no receiver"
  | .muxerShutdown => "muxer shut down"
  | .outOfSequence expected received =>
    s!"frame {received} of a sequenced lane arrived where {expected} was expected: frames were lost or duplicated"
  | .laneViolation detail => s!"sequenced lane violated: {detail}"
  | .checksumMismatch expected actual =>
    "CRC32 checksum mismatch: expected " ++ hexWord expected ++ ", got " ++ hexWord actual
  | .lockPoisoned detail => s!"transport lock poisoned: {detail}"
  | .invalidRegistration reason => s!"invalid channel registration: {reason}"
  | .reservedChannel channelId => s!"channel {channelId} is reserved and cannot carry payload frames"

/-- An identifier of a dataflow has 16 bytes. -/
def DataflowId := { bytes : List UInt8 // bytes.length = 16 }
  deriving DecidableEq

structure Frame where
  dataflowId : DataflowId
  channelId : UInt64
  payload : List UInt8
  deriving DecidableEq

def headerSize : Nat := 28

def crcSize : Nat := 4

def encodeHeader (frame : Frame) (wireLen : Nat) : List UInt8 :=
  frame.dataflowId.val ++ leBytes 8 frame.channelId.toNat ++ leBytes 4 wireLen

section Checksum

variable (crc32 : List UInt8 → UInt32)

def frameCrc (header payload : List UInt8) : UInt32 := crc32 (header ++ payload)

/-- The writer with the bytes that it handed to the stream. -/
structure FramedWriter where
  written : List UInt8 := []
  deriving DecidableEq

namespace FramedWriter

def writeAll (bytes : List UInt8) (self : FramedWriter) : FramedWriter := ⟨self.written ++ bytes⟩

def writeUnflushed (self : FramedWriter) (frame : Frame) : FramedWriter :=
  let wireLen := frame.payload.length + crcSize
  let header := encodeHeader frame wireLen
  self
    |>.writeAll header
    |>.writeAll (leBytes 4 (crc32 header).toNat)
    |>.writeAll frame.payload
    |>.writeAll (leBytes 4 (frameCrc crc32 header frame.payload).toNat)

def checkSize (frame : Frame) : Except TransportError Unit :=
  if frame.payload.length > maxMessageSize then .error (.payloadTooLarge frame.payload.length maxMessageSize)
  else .ok ()

def writeFrame (self : FramedWriter) (frame : Frame) : Except TransportError FramedWriter := do
  checkSize frame
  return self.writeUnflushed crc32 frame

/-- All sizes are checked before the first byte is written. -/
def writeFrames (self : FramedWriter) (frames : List Frame) : Except TransportError FramedWriter := do
  frames.forM checkSize
  return frames.foldl (writeUnflushed crc32) self

end FramedWriter

/-- The reader of frames. The buffers that it allocated for payloads are kept as a ghost. -/
structure FramedReader where
  reader : ChunkedReader IoError
  verifiedDataflow : Option DataflowId := none
  allocations : List Nat := []

namespace FramedReader

abbrev Reading (A : Type) := Attempt FramedReader TransportError A

/-- The header is read byte by byte: the end of the stream is clean only before its first byte. -/
def headerError : FillError IoError → TransportError
  | .ended 0 => .connectionClosed
  | .ended _ => .io ⟨.unexpectedEof, "connection closed mid-header"⟩
  | .failed error => .io error

/-- This is the error that `read_exact` is mapped to. -/
def exactError (closed : String) : FillError IoError → TransportError
  | .ended _ => .io ⟨.unexpectedEof, closed⟩
  | .failed error => if error.kind = .unexpectedEof then .io ⟨.unexpectedEof, closed⟩ else .io error

/-- The stream fills a buffer of some size. -/
def readBytes (size : Nat) (report : FillError IoError → TransportError) : Reading (List UInt8) := fun self =>
  match self.reader.fill size with
  | (.ok bytes, reader) => (.ok bytes, { self with reader })
  | (.error error, reader) => (.error (report error), { self with reader })

/-- This is `wire::read_array`, with the text of its error. -/
def readArray (width : Nat) (bytes : List UInt8) (offset : Nat) :
    Reading { array : List UInt8 // array.length = width } :=
  if fits : offset + width ≤ bytes.length then
    pure ⟨(bytes.drop offset).take width, by rw [List.length_take, List.length_drop]; omega⟩
  else
    let got := bytes.length - offset
    Attempt.fail (.io ⟨.unexpectedEof, s!"Serialization error: expected {width} bytes at offset {offset}, got {got}"⟩)

/-- The part of `read_frame` that verifies the header before it trusts the length. -/
def verifyHeader (header : List UInt8) : Reading (DataflowId × UInt64 × Nat) := do
  let dataflowId ← readArray 16 header 0
  let channelBytes ← readArray 8 header 16
  let lengthBytes ← readArray 4 header 24
  let crcBytes ← readBytes crcSize (exactError "connection closed mid-header")
  let expected := leValue crcBytes
  let actual := (crc32 header).toNat
  Attempt.failIf (actual ≠ expected) (.checksumMismatch expected actual)
  Attempt.modify fun self => { self with verifiedDataflow := some dataflowId }
  return (dataflowId, UInt64.ofNat (leValue channelBytes.val), leValue lengthBytes.val)

/-- The part of `read_frame` that reads as many bytes as the header says. -/
def readPayload (header : List UInt8) (dataflowId : DataflowId) (channelId : UInt64) (wireLength : Nat) :
    Reading Frame := do
  Attempt.failIf (wireLength > maxMessageSize + crcSize) (.payloadTooLarge wireLength maxMessageSize)
  -- The buffer for the payload and the trailer is allocated here.
  Attempt.modify fun self => { self with allocations := self.allocations ++ [wireLength] }
  let wireData ← readBytes wireLength (exactError "connection closed mid-frame")
  Attempt.failIf (wireLength < crcSize) (.io ⟨.invalidData, "frame too short for CRC32 trailer"⟩)
  let payloadLen := wireLength - crcSize
  let expected := leValue (wireData.drop payloadLen)
  let actual := (frameCrc crc32 header (wireData.take payloadLen)).toNat
  Attempt.failIf (actual ≠ expected) (.checksumMismatch expected actual)
  return { dataflowId, channelId, payload := wireData.take payloadLen }

def readFrame : Reading Frame := do
  Attempt.modify fun self => { self with verifiedDataflow := none }
  let header ← readBytes headerSize headerError
  let (dataflowId, channelId, wireLength) ← verifyHeader crc32 header
  readPayload crc32 header dataflowId channelId wireLength

/-- This reads frames until the first error; without enough fuel it gives no error. -/
def readFrames : Nat → FramedReader → List Frame × Option TransportError
  | 0, _ => ([], none)
  | fuel + 1, self =>
    match readFrame crc32 self with
    | (.error error, _) => ([], some error)
    | (.ok frame, next) => (frame :: (readFrames fuel next).1, (readFrames fuel next).2)

end FramedReader

end Checksum

end Instancy
