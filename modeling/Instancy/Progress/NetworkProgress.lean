import Instancy.Communication.Codec
import Instancy.Progress.ProgressChannel

namespace Instancy

open Library

/-- The codecs of the root time and of each loop scope; loop ids start at one. -/
structure ProgressCodecs (Time : Nat → Type) where
  root : Codec (Time 0)
  scopes : (scope : Nat) → Option (Codec (Time scope))
  loopIds : scopes 0 = none

section Frames

variable {T : Type} {Time : Nat → Type}

/-- The bits of an `i64`. -/
def signedBits (value : Int) : Nat := (value % 2 ^ 64).toNat

/-- The `i64` of 64 bits. -/
def ofSignedBits (bits : Nat) : Int := if bits < 2 ^ 63 then bits else bits - 2 ^ 64

def kindByte : ProgressKind → UInt8
  | .source => 0
  | .target => 1

/-- One change is its kind, node, port, time and diff. -/
def encodeChange (codec : Codec T) (change : ProgressChange T) : Except CodecError (List UInt8) := do
  let time ← codec.encode change.time
  return kindByte change.kind :: (leBytes 8 change.node ++ leBytes 8 change.port ++ time ++
    leBytes 8 (signedBits change.diff))

def decodeKind (payload : List UInt8) : Except CodecError ProgressKind :=
  match payload with
  | [] => .error (.insufficientData 1 0)
  | byte :: _ =>
    if byte = 0 then .ok .source
    else if byte = 1 then .ok .target
    else
      let other := byte.toNat
      .error (.invalidData s!"invalid progress change kind byte: {other}")

def decodeChange (codec : Codec T) (payload : List UInt8) : Except CodecError (ProgressChange T × Nat) := do
  let kind ← decodeKind payload
  need payload 1 8
  let node ← readLe 8 payload 1
  need payload 9 8
  let port ← readLe 8 payload 9
  let (time, used) ← codec.decode (payload.drop 17)
  let offset := 17 + used
  need payload offset 8
  let diff ← readLe 8 payload offset
  return (⟨kind, node, port, time, ofSignedBits diff⟩, offset + 8)

def progressEndOfStreamCount : Nat := 2 ^ 32 - 1

def progressAckCount : Nat := progressEndOfStreamCount - 1

def progressSealCount : Nat := progressEndOfStreamCount - 2

def progressAbandonCount : Nat := progressEndOfStreamCount - 3

/-- The checksum is some fixed function of the bytes. -/
abbrev Checksum := List UInt8 → UInt32

/-- One frame is the count, the encoded entries and the checksum. -/
def encodeFrame (crc : Checksum) (entries : List (List UInt8)) : List UInt8 :=
  let body := leBytes 4 entries.length ++ entries.flatten
  body ++ leBytes 4 (crc body).toNat

/-- An entry is the diff of a change and its bytes with the scope id in front. -/
def encodeEntry (scope : Nat) (codec : Codec T) (change : ProgressChange T) :
    Except CodecError (Int × List UInt8) := do
  let bytes ← encodeChange codec change
  return (change.diff, leBytes 4 scope ++ bytes)

/-- A section without a codec cannot be encoded. -/
def encodeSection (codecs : ProgressCodecs Time) (part : (scope : Nat) × List (ProgressChange (Time scope))) :
    Except CodecError (List (Int × List UInt8)) :=
  match codecs.scopes part.1 with
  | none =>
    let scope := part.1
    .error (.invalidData s!"no progress codec for loop scope {scope}")
  | some codec => part.2.mapM (encodeEntry part.1 codec)

def encodeEntries (codecs : ProgressCodecs Time) (batch : ProgressBatch Time) :
    Except CodecError (List (Int × List UInt8)) := do
  let root ← batch.root.mapM (encodeEntry 0 codecs.root)
  let sections ← batch.scopes.mapM (encodeSection codecs)
  return root ++ sections.flatten

/-- The batch size stays below the reserved counts and is at least one. -/
def effectiveMax (maxBatchSize : Nat) : Nat := max (min maxBatchSize (progressAbandonCount - 1)) 1

/-- The positive changes of every scope come before the other ones. -/
def orderCommit {A : Type} (diff : A → Int) (entries : List A) : List A :=
  entries.filter (fun entry => decide (diff entry > 0)) ++ entries.filter fun entry => decide (diff entry ≤ 0)

/-- A commit that is too large for one frame is ordered and split. -/
def splitCommit {A : Type} (diff : A → Int) (maxBatchSize : Nat) (entries : List A) : List (List A) :=
  if entries.length ≤ effectiveMax maxBatchSize then [entries]
  else chunksOf (effectiveMax maxBatchSize) (orderCommit diff entries).length (orderCommit diff entries)

def encodeProgressCommit (crc : Checksum) (batch : ProgressBatch Time) (codecs : ProgressCodecs Time)
    (maxBatchSize : Nat) : Except CodecError (List (List UInt8)) := do
  let entries ← encodeEntries codecs batch
  return (splitCommit Prod.fst maxBatchSize entries).map fun chunk => encodeFrame crc (chunk.map Prod.snd)

/-- A change of a loop scope goes to the section of that scope, which is made if it is missing. -/
def pushSection (scope : Nat) (change : ProgressChange (Time scope)) :
    List ((scope : Nat) × List (ProgressChange (Time scope))) →
      List ((scope : Nat) × List (ProgressChange (Time scope)))
  | [] => [⟨scope, [change]⟩]
  | ⟨other, changes⟩ :: rest =>
    if same : scope = other then ⟨other, changes ++ [same ▸ change]⟩ :: rest
    else ⟨other, changes⟩ :: pushSection scope change rest

/-- The loop reads one scope id and one change at a time. -/
def decodeEntries (codecs : ProgressCodecs Time) (payload : List UInt8) :
    Nat → Nat → ProgressBatch Time → Except CodecError (Nat × ProgressBatch Time)
  | 0, offset, batch => .ok (offset, batch)
  | count + 1, offset, batch => do
    need payload offset 4
    let scope ← readLe 4 payload offset
    if scope = 0 then
      let (change, used) ← decodeChange codecs.root (payload.drop (offset + 4))
      decodeEntries codecs payload count (offset + 4 + used) { batch with root := batch.root ++ [change] }
    else
      match codecs.scopes scope with
      | none => .error (.invalidData s!"progress change for unknown loop scope {scope}")
      | some codec =>
        let (change, used) ← decodeChange codec (payload.drop (offset + 4))
        decodeEntries codecs payload count (offset + 4 + used)
          { batch with scopes := pushSection scope change batch.scopes }

def checkCrc (crc : Checksum) (payload : List UInt8) (expected : Nat) : Except CodecError Unit :=
  if (crc payload).toNat ≠ expected then .error (.crcMismatch expected (crc payload).toNat) else .ok ()

def decodeProgressCommit (crc : Checksum) (data : List UInt8) (codecs : ProgressCodecs Time)
    (maxBatchSize : Nat) : Except CodecError (ProgressBatch Time) := do
  need data 0 8
  let payload := data.take (data.length - 4)
  let expected ← readLe 4 (data.drop (data.length - 4)) 0
  checkCrc crc payload expected
  let count ← readLe 4 payload 0
  if count > maxBatchSize then
    .error (.invalidData s!"progress batch count {count} exceeds maximum {maxBatchSize}")
  else
    let (offset, batch) ← decodeEntries codecs payload count 4 ⟨[], []⟩
    if offset ≠ payload.length then
      let size := payload.length
      .error (.invalidData s!"trailing bytes: consumed {offset} of {size} payload bytes")
    else return batch

/-- A marker frame is a reserved count and its checksum. -/
def encodeProgressMarker (crc : Checksum) (count : Nat) : List UInt8 :=
  leBytes 4 count ++ leBytes 4 (crc (leBytes 4 count)).toNat

def encodeProgressEndOfStream (crc : Checksum) : List UInt8 := encodeProgressMarker crc progressEndOfStreamCount

def encodeProgressAck (crc : Checksum) : List UInt8 := encodeProgressMarker crc progressAckCount

def encodeProgressAbandon (crc : Checksum) : List UInt8 := encodeProgressMarker crc progressAbandonCount

def encodeProgressSeal (crc : Checksum) : List UInt8 := encodeProgressMarker crc progressSealCount

/-- The frames of a progress channel. -/
inductive ProgressFrame (Time : Nat → Type) where
  | batch (batch : ProgressBatch Time)
  | sealed
  | abandon
  | endOfStream
  | ack

/-- The frame has the length and the count of a marker. -/
def isMarker (data : List UInt8) (count : Nat) : Bool := data.length = 8 ∧ data.take 4 = leBytes 4 count

def markerOf (data : List UInt8) : Option (ProgressFrame Time) :=
  if isMarker data progressEndOfStreamCount then some .endOfStream
  else if isMarker data progressAckCount then some .ack
  else if isMarker data progressSealCount then some .sealed
  else if isMarker data progressAbandonCount then some .abandon
  else none

def decodeProgressFrameWith (crc : Checksum) (data : List UInt8) (codecs : ProgressCodecs Time)
    (maxBatchSize : Nat) : Except CodecError (ProgressFrame Time) :=
  match (markerOf data : Option (ProgressFrame Time)) with
  | some frame => do
    let expected ← readLe 4 data 4
    checkCrc crc (data.take 4) expected
    return frame
  | none => (decodeProgressCommit crc data codecs maxBatchSize).map .batch

end Frames

section Change

variable {T : Type}

theorem signedBits_lt (value : Int) : signedBits value < 256 ^ 8 := by
  unfold signedBits
  omega

theorem ofSignedBits_signedBits {value : Int} (low : -(2 ^ 63 : Int) ≤ value) (high : value < (2 ^ 63 : Int)) :
    ofSignedBits (signedBits value) = value := by
  unfold ofSignedBits signedBits
  split <;> omega

theorem decodeKind_kindByte (kind : ProgressKind) (rest : List UInt8) :
    decodeKind (kindByte kind :: rest) = .ok kind := by
  cases kind <;> rfl

/-- Decoding a change inverts encoding it on any suffix. -/
theorem decodeChange_encodeChange {codec : Codec T} (lawful : codec.Lawful) {change : ProgressChange T}
    (fits : change.Fits) {bytes : List UInt8} (encoded : encodeChange codec change = .ok bytes)
    (suffix : List UInt8) : decodeChange codec (bytes ++ suffix) = .ok (change, bytes.length) := by
  unfold encodeChange at encoded
  cases timed : codec.encode change.time with
  | error failure =>
    rw [timed] at encoded
    cases encoded
  | ok time =>
    rw [timed] at encoded
    cases encoded
    have timeRead := lawful change.time time (leBytes 8 (signedBits change.diff) ++ suffix) timed
    generalize shape : kindByte change.kind :: (leBytes 8 change.node ++ leBytes 8 change.port ++ time ++
      leBytes 8 (signedBits change.diff)) ++ suffix = payload
    have size : payload.length = 25 + time.length + suffix.length := by
      rw [← shape]
      simp only [List.length_append, List.length_cons, leBytes_length]
      omega
    have kindRead : decodeKind payload = .ok change.kind := by
      rw [← shape]
      exact decodeKind_kindByte change.kind _
    have nodeRead : readLe 8 payload 1 = .ok change.node :=
      readLe_of_eq [kindByte change.kind]
        (leBytes 8 change.port ++ time ++ leBytes 8 (signedBits change.diff) ++ suffix)
        (by rw [← shape]; simp) rfl fits.node
    have portRead : readLe 8 payload 9 = .ok change.port :=
      readLe_of_eq (kindByte change.kind :: leBytes 8 change.node)
        (time ++ leBytes 8 (signedBits change.diff) ++ suffix) (by rw [← shape]; simp) (by simp) fits.port
    have diffRead : readLe 8 payload (17 + time.length) = .ok (signedBits change.diff) :=
      readLe_of_eq (kindByte change.kind :: (leBytes 8 change.node ++ leBytes 8 change.port ++ time)) suffix
        (by rw [← shape]; simp) (by simp; omega) (signedBits_lt change.diff)
    have rest : payload.drop 17 = time ++ (leBytes 8 (signedBits change.diff) ++ suffix) := by
      have front : payload = (kindByte change.kind :: (leBytes 8 change.node ++ leBytes 8 change.port)) ++
          (time ++ (leBytes 8 (signedBits change.diff) ++ suffix)) := by
        rw [← shape]
        simp
      rw [front, List.drop_left']
      simp
    unfold decodeChange
    rw [kindRead, nodeRead, portRead, rest, timeRead, need_of_le (by omega), need_of_le (by omega)]
    simp only [bind, Except.bind, pure, Except.pure]
    rw [need_of_le (by omega), diffRead]
    simp only [ofSignedBits_signedBits fits.low fits.high, Except.ok.injEq, Prod.mk.injEq, true_and]
    simp only [List.length_append, List.length_cons, leBytes_length]
    omega

end Change

end Instancy
