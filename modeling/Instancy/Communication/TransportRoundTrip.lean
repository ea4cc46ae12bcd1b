import Instancy.Communication.Transport

namespace Instancy

open Library

variable (crc32 : List UInt8 → UInt32)

/-- The bytes of one frame on the wire. -/
def Frame.wireBytes (frame : Frame) : List UInt8 :=
  let header := encodeHeader frame (frame.payload.length + crcSize)
  header ++ leBytes 4 (crc32 header).toNat ++
    (frame.payload ++ leBytes 4 (frameCrc crc32 header frame.payload).toNat)

/-- The writer accepts the frame. -/
def Frame.Fits (frame : Frame) : Prop := frame.payload.length ≤ maxMessageSize

@[simp] theorem encodeHeader_length (frame : Frame) (wireLen : Nat) :
    (encodeHeader frame wireLen).length = headerSize := by
  unfold encodeHeader
  simp only [List.length_append, leBytes_length, frame.dataflowId.property, headerSize]

variable {frame : Frame}

namespace FramedWriter

theorem writeUnflushed_written (self : FramedWriter) (frame : Frame) :
    (self.writeUnflushed crc32 frame).written = self.written ++ frame.wireBytes crc32 := by
  unfold writeUnflushed writeAll Frame.wireBytes
  simp only [List.append_assoc]

theorem foldl_writeUnflushed_written (self : FramedWriter) (frames : List Frame) :
    (frames.foldl (writeUnflushed crc32) self).written = self.written ++ frames.flatMap (Frame.wireBytes crc32) := by
  induction frames generalizing self with
  | nil => rw [List.foldl_nil, List.flatMap_nil, List.append_nil]
  | cons frame frames ih =>
    rw [List.foldl_cons, ih, writeUnflushed_written, List.flatMap_cons, List.append_assoc]

theorem checkSize_ok (fits : frame.Fits) : checkSize frame = .ok () :=
  if_neg (Nat.not_lt.mpr fits)

theorem forM_checkSize {frames : List Frame} (fit : ∀ frame ∈ frames, frame.Fits) :
    frames.forM checkSize = .ok () := by
  induction frames with
  | nil => rfl
  | cons frame frames ih =>
    rw [List.forM, checkSize_ok (fit frame (List.mem_cons_self ..))]
    exact ih fun other member => fit other (List.mem_cons_of_mem _ member)

theorem foldlM_writeFrame {frames : List Frame} (fit : ∀ frame ∈ frames, frame.Fits) (self : FramedWriter) :
    frames.foldlM (writeFrame crc32) self = .ok (frames.foldl (writeUnflushed crc32) self) := by
  induction frames generalizing self with
  | nil => rfl
  | cons frame frames ih =>
    have first : writeFrame crc32 self frame = .ok (self.writeUnflushed crc32 frame) := by
      rw [writeFrame, checkSize_ok (fit frame (List.mem_cons_self ..))]
      rfl
    rw [List.foldlM_cons, first]
    exact ih (fun other member => fit other (List.mem_cons_of_mem _ member)) _

end FramedWriter

namespace FramedReader

open Library.Attempt (bind_ok bind_error bind_cases)

theorem readArray_eq (width offset : Nat) {bytes : List UInt8} (self : FramedReader)
    (fits : offset + width ≤ bytes.length) :
    ∃ array : { array : List UInt8 // array.length = width },
      array.val = (bytes.drop offset).take width ∧ readArray width bytes offset self = (.ok array, self) := by
  unfold readArray
  rw [dif_pos fits]
  exact ⟨_, rfl, rfl⟩

/-- What reading into a buffer can do. -/
inductive BytesRead (self : FramedReader) (size : Nat) : Except TransportError (List UInt8) × FramedReader → Prop where
  | full {reader : ChunkedReader IoError} (inside : size ≤ self.reader.bytes.length)
      (consumed : self.reader.Consumed size reader) :
      BytesRead self size (.ok (self.reader.bytes.take size), { self with reader })
  | failed {reader : ChunkedReader IoError} {error : TransportError} {count : Nat} (some : count ≤ size)
      (consumed : self.reader.Consumed count reader) : BytesRead self size (.error error, { self with reader })

theorem readBytes_read (size : Nat) (report : FillError IoError → TransportError) (self : FramedReader) :
    BytesRead self size (readBytes size report self) := by
  have filled := ChunkedReader.fill_filled size self.reader
  unfold readBytes
  generalize self.reader.fill size = outcome at filled
  cases filled with
  | full count all inside consumed =>
    rw [List.length_nil, Nat.zero_add] at all
    subst all
    exact .full inside consumed
  | ended short consumed =>
    rw [List.length_nil, Nat.zero_add] at short
    exact .failed short.le consumed
  | failed count some answer consumed =>
    rw [List.length_nil, Nat.zero_add] at some
    exact .failed some consumed

/-- The fields of a header, with the owner as a dataflow. -/
structure Fields (header : List UInt8) (fields : DataflowId × UInt64 × Nat) : Prop where
  dataflowId : fields.1.val = header.take 16
  channelId : fields.2.1 = UInt64.ofNat (leValue ((header.drop 16).take 8))
  wireLength : fields.2.2 = leValue ((header.drop 24).take 4)

/-- The fields of a header are there, so that only its checksum is read from the stream. -/
theorem verifyHeader_eq {header : List UInt8} (size : header.length = headerSize) (self : FramedReader) :
    ∃ fields, Fields header fields ∧ verifyHeader crc32 header self =
      (do
        let crcBytes ← readBytes crcSize (exactError "connection closed mid-header")
        Attempt.failIf ((crc32 header).toNat ≠ leValue crcBytes)
          (.checksumMismatch (leValue crcBytes) (crc32 header).toNat)
        Attempt.modify fun self => { self with verifiedDataflow := some fields.1 }
        return fields : Reading (DataflowId × UInt64 × Nat)) self := by
  have fits {width offset : Nat} (inside : offset + width ≤ 28) : offset + width ≤ header.length := size ▸ inside
  obtain ⟨dataflowId, idBytes, idRead⟩ := readArray_eq 16 0 self (fits (by decide))
  obtain ⟨channelBytes, channelId, channelRead⟩ := readArray_eq 8 16 self (fits (by decide))
  obtain ⟨lengthBytes, wireLength, lengthRead⟩ := readArray_eq 4 24 self (fits (by decide))
  refine ⟨(dataflowId, UInt64.ofNat (leValue channelBytes.val), leValue lengthBytes.val), ⟨?_, ?_, ?_⟩, ?_⟩
  · rw [idBytes, List.drop_zero]
  · rw [channelId]
  · rw [wireLength]
  · unfold verifyHeader
    rw [bind_ok idRead, bind_ok channelRead, bind_ok lengthRead]

/-- What the check of a header can do. -/
inductive HeaderRead (self : FramedReader) (header : List UInt8) :
    Except TransportError (DataflowId × UInt64 × Nat) × FramedReader → Prop where
  | rejected {reader : ChunkedReader IoError} {error : TransportError} {count : Nat} (bound : count ≤ crcSize)
      (consumed : self.reader.Consumed count reader) : HeaderRead self header (.error error, { self with reader })
  | verified {reader : ChunkedReader IoError} {fields : DataflowId × UInt64 × Nat} (known : Fields header fields)
      (checked : (crc32 header).toNat = leValue (self.reader.bytes.take crcSize))
      (consumed : self.reader.Consumed crcSize reader) :
      HeaderRead self header (.ok fields, { self with reader, verifiedDataflow := some fields.1 })

theorem verifyHeader_read {header : List UInt8} (size : header.length = headerSize) (self : FramedReader) :
    HeaderRead crc32 self header (verifyHeader crc32 header self) := by
  obtain ⟨fields, known, same⟩ := verifyHeader_eq crc32 size self
  rw [same]
  have taken := readBytes_read crcSize (exactError "connection closed mid-header") self
  refine bind_cases ?_ ?_
  · intro error next failed
    rw [failed] at taken
    cases taken with
    | failed some consumed => exact .rejected some consumed
  · intro crcBytes next done
    rw [done] at taken
    cases taken with
    | full inside consumed =>
      rw [Attempt.failIf_bind]
      split
      · exact .rejected le_rfl consumed
      · rename_i checked
        exact .verified known (not_not.mp checked) consumed

/-- What one call of `read_frame` can do. The length of a frame is used only behind a header that is verified. -/
inductive FrameRead (self : FramedReader) : Except TransportError Frame × FramedReader → Prop where
  | unverified {next : FramedReader} {error : TransportError} (count : Nat) (bound : count ≤ headerSize + crcSize)
      (consumed : self.reader.Consumed count next.reader) (owner : next.verifiedDataflow = none)
      (allocations : next.allocations = self.allocations) : FrameRead self (.error error, next)
  | oversized {next : FramedReader} {fields : DataflowId × UInt64 × Nat}
      (header : Fields (self.reader.bytes.take headerSize) fields)
      (verified : (crc32 (self.reader.bytes.take headerSize)).toNat =
        leValue ((self.reader.bytes.drop headerSize).take crcSize))
      (large : maxMessageSize + crcSize < fields.2.2)
      (consumed : self.reader.Consumed (headerSize + crcSize) next.reader)
      (owner : next.verifiedDataflow = some fields.1) (allocations : next.allocations = self.allocations) :
      FrameRead self (.error (.payloadTooLarge fields.2.2 maxMessageSize), next)
  | allocated {next : FramedReader} {result : Except TransportError Frame} {fields : DataflowId × UInt64 × Nat}
      (count : Nat) (header : Fields (self.reader.bytes.take headerSize) fields)
      (verified : (crc32 (self.reader.bytes.take headerSize)).toNat =
        leValue ((self.reader.bytes.drop headerSize).take crcSize))
      (small : fields.2.2 ≤ maxMessageSize + crcSize) (bound : count ≤ headerSize + crcSize + fields.2.2)
      (consumed : self.reader.Consumed count next.reader) (owner : next.verifiedDataflow = some fields.1)
      (allocations : next.allocations = self.allocations ++ [fields.2.2]) : FrameRead self (result, next)

/-- What reading the payload can do. -/
inductive PayloadRead (self : FramedReader) (wireLength : Nat) : Except TransportError Frame × FramedReader → Prop where
  | oversized (large : maxMessageSize + crcSize < wireLength) :
      PayloadRead self wireLength (.error (.payloadTooLarge wireLength maxMessageSize), self)
  | allocated {reader : ChunkedReader IoError} {result : Except TransportError Frame} (count : Nat)
      (small : wireLength ≤ maxMessageSize + crcSize) (bound : count ≤ wireLength)
      (consumed : self.reader.Consumed count reader) :
      PayloadRead self wireLength
        (result, { self with reader, allocations := self.allocations ++ [wireLength] })

theorem readPayload_read (header : List UInt8) (dataflowId : DataflowId) (channelId : UInt64) (wireLength : Nat)
    (self : FramedReader) :
    PayloadRead self wireLength (readPayload crc32 header dataflowId channelId wireLength self) := by
  unfold readPayload
  rw [Attempt.failIf_bind]
  split
  · rename_i large
    exact .oversized large
  · rename_i small
    have small : wireLength ≤ maxMessageSize + crcSize := Nat.not_lt.mp small
    rw [Attempt.modify_bind]
    have taken := readBytes_read wireLength (exactError "connection closed mid-frame")
      { self with allocations := self.allocations ++ [wireLength] }
    refine bind_cases ?_ ?_
    · intro error next failed
      rw [failed] at taken
      cases taken with
      | failed some consumed => exact .allocated _ small some consumed
    · intro wireData next done
      rw [done] at taken
      cases taken with
      | full inside consumed =>
        rw [Attempt.failIf_bind]
        split
        · exact .allocated _ small le_rfl consumed
        · rw [Attempt.failIf_bind]
          split
          · exact .allocated _ small le_rfl consumed
          · exact .allocated _ small le_rfl consumed

theorem readFrame_read (self : FramedReader) : FrameRead crc32 self (readFrame crc32 self) := by
  unfold readFrame
  rw [Attempt.modify_bind]
  have headerTaken := readBytes_read headerSize headerError { self with verifiedDataflow := none }
  refine bind_cases ?_ ?_
  · intro error next failed
    rw [failed] at headerTaken
    cases headerTaken with
    | failed some consumed => exact .unverified _ (by omega) consumed rfl rfl
  · intro header next done
    rw [done] at headerTaken
    cases headerTaken with
    | @full reader inside consumed =>
      have size : (self.reader.bytes.take headerSize).length = headerSize := List.length_take_of_le inside
      have checked := verifyHeader_read crc32 size { self with reader, verifiedDataflow := none }
      refine bind_cases ?_ ?_
      · intro error last failed
        rw [failed] at checked
        cases checked with
        | rejected bound later => exact .unverified _ (Nat.add_le_add_left bound _) (consumed.trans later) rfl rfl
      · intro fields last verified
        rw [verified] at checked
        cases checked with
        | @verified last fields known same later =>
          rw [consumed.bytes] at same
          have body := readPayload_read crc32 (self.reader.bytes.take headerSize) fields.1 fields.2.1 fields.2.2
            { self with reader := last, verifiedDataflow := some fields.1 }
          show FrameRead crc32 self (readPayload crc32 (self.reader.bytes.take headerSize) fields.1 fields.2.1
            fields.2.2 { self with reader := last, verifiedDataflow := some fields.1 })
          generalize readPayload crc32 _ fields.1 fields.2.1 fields.2.2 _ = outcome at body ⊢
          cases body with
          | oversized large => exact .oversized known same large (consumed.trans later) rfl rfl
          | allocated count small bound more =>
            have all := (consumed.trans later).trans more
            exact .allocated _ known same small (Nat.add_le_add_left bound _) all rfl rfl

section Quiet

section

variable (self : FramedReader) (quiet : self.reader.Quiet) (size : Nat) (report : FillError IoError → TransportError)

include quiet

theorem readBytes_full {front rest : List UInt8} (bytes : self.reader.bytes = front ++ rest) (exact : front.length = size) :
    ∃ reader, reader.bytes = rest ∧ reader.Quiet ∧ readBytes size report self = (.ok front, { self with reader }) := by
  have enough : size ≤ self.reader.bytes.length := by
    rw [bytes, List.length_append]
    omega
  obtain ⟨reader, consumed, filled⟩ := ChunkedReader.fill_of_le quiet enough
  refine ⟨reader, ?_, consumed.quiet quiet, ?_⟩
  · rw [consumed.bytes, bytes, ← exact, List.drop_left]
  · unfold readBytes
    rw [filled, bytes, ← exact, List.take_left]

theorem readBytes_short (short : self.reader.bytes.length < size) :
    ∃ next, readBytes size report self = (.error (report (.ended self.reader.bytes.length)), next) := by
  obtain ⟨reader, filled⟩ := ChunkedReader.fill_of_lt quiet short
  refine ⟨{ self with reader }, ?_⟩
  unfold readBytes
  rw [filled]

variable {header rest : List UInt8}

/-- A header with its checksum is verified. -/
theorem verifyHeader_ok (size : header.length = headerSize)
    (bytes : self.reader.bytes = leBytes 4 (crc32 header).toNat ++ rest) :
    ∃ reader fields, reader.bytes = rest ∧ reader.Quiet ∧ Fields header fields ∧
      verifyHeader crc32 header self = (.ok fields, { self with reader, verifiedDataflow := some fields.1 }) := by
  obtain ⟨fields, known, same⟩ := verifyHeader_eq crc32 size self
  obtain ⟨reader, left, still, filled⟩ := readBytes_full self quiet crcSize
    (exactError "connection closed mid-header") bytes (leBytes_length 4 _)
  have word : (crc32 header).toNat = leValue (leBytes 4 (crc32 header).toNat) :=
    (leValue_leBytes_of_lt (UInt32.toNat_lt _)).symm
  refine ⟨reader, fields, left, still, known, ?_⟩
  rw [same, bind_ok filled, Attempt.failIf_bind, if_neg (not_not.mpr word)]
  rfl

theorem verifyHeader_short (size : header.length = headerSize)
    (short : self.reader.bytes.length < crcSize) :
    ∃ error next, verifyHeader crc32 header self = (.error (.io error), next) := by
  obtain ⟨fields, known, same⟩ := verifyHeader_eq crc32 size self
  obtain ⟨next, failed⟩ := readBytes_short self quiet crcSize (exactError "connection closed mid-header") short
  exact ⟨_, next, by rw [same, bind_error failed]; rfl⟩

variable (dataflowId : DataflowId) (channelId : UInt64) {payload : List UInt8}

theorem readPayload_ok (fits : payload.length ≤ maxMessageSize)
    (bytes : self.reader.bytes = payload ++ leBytes 4 (frameCrc crc32 header payload).toNat ++ rest) :
    ∃ next, next.reader.bytes = rest ∧ next.reader.Quiet ∧
      readPayload crc32 header dataflowId channelId (payload.length + crcSize) self =
        (.ok ⟨dataflowId, channelId, payload⟩, next) := by
  have small : ¬payload.length + crcSize > maxMessageSize + crcSize := by omega
  obtain ⟨reader, left, still, filled⟩ := readBytes_full
    { self with allocations := self.allocations ++ [payload.length + crcSize] } quiet (payload.length + crcSize)
    (exactError "connection closed mid-frame") bytes (by rw [List.length_append, leBytes_length]; rfl)
  have word : (frameCrc crc32 header payload).toNat =
      leValue (leBytes 4 (frameCrc crc32 header payload).toNat) :=
    (leValue_leBytes_of_lt (UInt32.toNat_lt _)).symm
  refine ⟨{ self with reader, allocations := self.allocations ++ [payload.length + crcSize] }, left, still, ?_⟩
  unfold readPayload
  rw [Attempt.failIf_bind, if_neg small, Attempt.modify_bind, bind_ok filled, Attempt.failIf_bind]
  rw [Nat.add_sub_cancel, List.take_left, List.drop_left, Attempt.failIf_bind, if_neg (not_not.mpr word)]
  rfl

theorem readPayload_short {wireLength : Nat} (small : wireLength ≤ maxMessageSize + crcSize)
    (short : self.reader.bytes.length < wireLength) :
    ∃ error next, readPayload crc32 header dataflowId channelId wireLength self = (.error (.io error), next) := by
  obtain ⟨next, failed⟩ := readBytes_short
    { self with allocations := self.allocations ++ [wireLength] } quiet wireLength
    (exactError "connection closed mid-frame") short
  refine ⟨⟨.unexpectedEof, "connection closed mid-frame"⟩, next, ?_⟩
  unfold readPayload
  rw [Attempt.failIf_bind, if_neg (Nat.not_lt.mpr small), Attempt.modify_bind, bind_error failed]
  rfl

end

variable {self : FramedReader}

/-- The header of a frame gives back the fields of the frame. -/
theorem Fields.encodeHeader {fields : DataflowId × UInt64 × Nat} (fits : frame.Fits)
    (known : Fields (encodeHeader frame (frame.payload.length + crcSize)) fields) :
    fields = (frame.dataflowId, frame.channelId, frame.payload.length + crcSize) := by
  obtain ⟨dataflowId, channelId, wireLength⟩ := fields
  obtain ⟨idBytes, channelBytes, lengthBytes⟩ := known
  have owner : dataflowId = frame.dataflowId := by
    refine Subtype.ext (idBytes.trans ?_)
    rw [Instancy.encodeHeader, List.append_assoc]
    exact List.take_left' frame.dataflowId.property
  have channel : channelId = frame.channelId := by
    refine channelBytes.trans ?_
    rw [Instancy.encodeHeader, drop_take_append frame.dataflowId.property (leBytes_length 8 _),
      leValue_leBytes_of_lt (UInt64.toNat_lt _), UInt64.ofNat_toNat]
  have length : wireLength = frame.payload.length + crcSize := by
    have front : (frame.dataflowId.val ++ leBytes 8 frame.channelId.toNat).length = 24 := by
      rw [List.length_append, frame.dataflowId.property, leBytes_length]
    have small : frame.payload.length + crcSize < 256 ^ 4 := by
      unfold Frame.Fits maxMessageSize at fits
      unfold crcSize
      omega
    refine lengthBytes.trans ?_
    rw [Instancy.encodeHeader, List.drop_left' front, List.take_of_length_le (leBytes_length 4 _).le,
      leValue_leBytes_of_lt small]
  rw [owner, channel, length]

variable (quiet : self.reader.Quiet)

include quiet

/-- The next frame on the wire is read, and the stream is left behind it. -/
theorem readFrame_ok (fits : frame.Fits) (bytes : self.reader.bytes = frame.wireBytes crc32 ++ rest) :
    ∃ next, next.reader.bytes = rest ∧ next.reader.Quiet ∧ readFrame crc32 self = (.ok frame, next) := by
  have size := encodeHeader_length frame (frame.payload.length + crcSize)
  unfold Frame.wireBytes at bytes
  simp only [List.append_assoc] at bytes
  obtain ⟨first, firstBytes, firstQuiet, headerRead⟩ := readBytes_full
    { self with verifiedDataflow := none } quiet headerSize headerError bytes size
  obtain ⟨second, fields, secondBytes, secondQuiet, known, verified⟩ := verifyHeader_ok crc32
    { self with reader := first, verifiedDataflow := none } firstQuiet size firstBytes
  rw [Fields.encodeHeader fits known] at verified
  rw [← List.append_assoc] at secondBytes
  obtain ⟨next, left, still, payload⟩ := readPayload_ok crc32
    { self with reader := second, verifiedDataflow := some frame.dataflowId } secondQuiet _ frame.channelId fits secondBytes
  refine ⟨next, left, still, ?_⟩
  unfold readFrame
  rw [Attempt.modify_bind, bind_ok headerRead, bind_ok verified]
  exact payload

/-- Part of a frame is left in the stream: the end is clean only if it is no part at all. -/
theorem readFrame_cut (fits : frame.Fits)
    (cut : ProperPrefix self.reader.bytes (frame.wireBytes crc32)) (started : self.reader.bytes ≠ []) :
    ∃ error next, readFrame crc32 self = (.error (.io error), next) := by
  have size := encodeHeader_length frame (frame.payload.length + crcSize)
  unfold readFrame
  rw [Attempt.modify_bind]
  rw [Frame.wireBytes, List.append_assoc] at cut
  rcases cut.append_cases with inHeader | ⟨more, bytes, later⟩
  · have short := inHeader.length_lt
    rw [size] at short
    obtain ⟨next, failed⟩ := readBytes_short { self with verifiedDataflow := none } quiet headerSize headerError short
    obtain ⟨byte, tail, shape⟩ := List.exists_cons_of_ne_nil started
    refine ⟨⟨.unexpectedEof, "connection closed mid-header"⟩, next, ?_⟩
    rw [bind_error failed, shape]
    rfl
  · obtain ⟨first, firstBytes, firstQuiet, headerRead⟩ := readBytes_full
      { self with verifiedDataflow := none } quiet headerSize headerError bytes size
    rw [bind_ok headerRead]
    rcases later.append_cases with inCrc | ⟨last, rest, inPayload⟩
    · have short := inCrc.length_lt
      rw [← firstBytes] at short
      obtain ⟨error, next, failed⟩ := verifyHeader_short crc32
        { self with reader := first, verifiedDataflow := none } firstQuiet size short
      exact ⟨error, next, bind_error failed⟩
    · rw [rest] at firstBytes
      obtain ⟨second, fields, secondBytes, secondQuiet, known, verified⟩ := verifyHeader_ok crc32
        { self with reader := first, verifiedDataflow := none } firstQuiet size firstBytes
      have short := inPayload.length_lt
      rw [List.length_append, ← secondBytes] at short
      rw [Fields.encodeHeader fits known] at verified
      rw [bind_ok verified]
      have small : frame.payload.length + crcSize ≤ maxMessageSize + crcSize := Nat.add_le_add_right fits _
      exact readPayload_short crc32
        { self with reader := second, verifiedDataflow := some frame.dataflowId } secondQuiet _ frame.channelId small short

theorem readFrame_closed (empty : self.reader.bytes = []) :
    ∃ next, readFrame crc32 self = (.error .connectionClosed, next) := by
  have short : self.reader.bytes.length < headerSize := by
    rw [empty]
    decide
  obtain ⟨next, failed⟩ := readBytes_short { self with verifiedDataflow := none } quiet headerSize headerError short
  refine ⟨next, ?_⟩
  unfold readFrame
  rw [Attempt.modify_bind, bind_error failed, empty]
  rfl

end Quiet

/-- The reader yields the frames and then fails, once it may read often enough. -/
def Yields (self : FramedReader) (frames : List Frame) (error : TransportError) : Prop :=
  ∃ bound, ∀ fuel, bound ≤ fuel → readFrames crc32 fuel self = (frames, some error)

theorem Yields.failed {self next : FramedReader} {error : TransportError}
    (fails : readFrame crc32 self = (.error error, next)) : Yields crc32 self [] error := by
  refine ⟨1, fun fuel enough => ?_⟩
  obtain ⟨more, rfl⟩ := Nat.exists_eq_add_of_le' enough
  rw [readFrames, fails]

variable {frames : List Frame}

theorem Yields.cons {self next : FramedReader} {error : TransportError}
    (first : readFrame crc32 self = (.ok frame, next)) (later : Yields crc32 next frames error) :
    Yields crc32 self (frame :: frames) error := by
  obtain ⟨bound, ends⟩ := later
  refine ⟨bound + 1, fun fuel enough => ?_⟩
  obtain ⟨more, rfl⟩ := Nat.exists_eq_add_of_le' (Nat.le_of_add_left_le enough)
  rw [readFrames, first]
  dsimp only
  rw [ends more (by omega)]

/-- The frames at the front of the stream are read one after the other. -/
theorem Yields.append (holds : TransportError → Prop) {self : FramedReader} (quiet : self.reader.Quiet)
    (fit : ∀ frame ∈ frames, frame.Fits) {rest : List UInt8}
    (bytes : self.reader.bytes = frames.flatMap (Frame.wireBytes crc32) ++ rest)
    (ends : ∀ next : FramedReader, next.reader.Quiet → next.reader.bytes = rest →
      ∃ error last, holds error ∧ readFrame crc32 next = (.error error, last)) :
    ∃ error, holds error ∧ Yields crc32 self frames error := by
  induction frames generalizing self with
  | nil =>
    obtain ⟨error, last, kind, fails⟩ := ends self quiet bytes
    exact ⟨error, kind, .failed crc32 fails⟩
  | cons frame frames ih =>
    rw [List.flatMap_cons, List.append_assoc] at bytes
    obtain ⟨next, left, still, first⟩ := readFrame_ok crc32 quiet (fit frame (List.mem_cons_self ..)) bytes
    obtain ⟨error, kind, later⟩ := ih still (fun other member => fit other (List.mem_cons_of_mem _ member)) left
    exact ⟨error, kind, .cons crc32 first later⟩

/-- Nothing is left behind the frames. -/
theorem Yields.closed {self : FramedReader} (quiet : self.reader.Quiet) (fit : ∀ frame ∈ frames, frame.Fits)
    (bytes : self.reader.bytes = frames.flatMap (Frame.wireBytes crc32) ++ []) :
    Yields crc32 self frames .connectionClosed := by
  obtain ⟨error, rfl, yields⟩ := Yields.append crc32 (· = .connectionClosed) quiet fit bytes
    fun next still empty => by
      obtain ⟨last, fails⟩ := readFrame_closed crc32 still empty
      exact ⟨_, last, rfl, fails⟩
  exact yields

/-- Part of a frame is left behind the frames. -/
theorem Yields.cut {self : FramedReader} (quiet : self.reader.Quiet)
    (fit : ∀ frame ∈ frames, frame.Fits) (fits : frame.Fits) {part : List UInt8}
    (bytes : self.reader.bytes = frames.flatMap (Frame.wireBytes crc32) ++ part)
    (inside : ProperPrefix part (frame.wireBytes crc32)) (started : part ≠ []) :
    ∃ error, Yields crc32 self frames (.io error) := by
  obtain ⟨_, ⟨error, rfl⟩, yields⟩ := Yields.append crc32 (fun error => ∃ io, error = .io io) quiet fit bytes
    fun next still left => by
      subst left
      obtain ⟨error, last, fails⟩ := readFrame_cut crc32 still fits inside started
      exact ⟨_, last, ⟨error, rfl⟩, fails⟩
  exact ⟨error, yields⟩

/-- A proper prefix of a stream has some whole frames and a part of the next one. -/
theorem ProperPrefix.flatMap_cases {front : List UInt8}
    (cut : ProperPrefix front (frames.flatMap (Frame.wireBytes crc32))) :
    ∃ whole next rest part, frames = whole ++ next :: rest ∧
      front = whole.flatMap (Frame.wireBytes crc32) ++ part ∧ ProperPrefix part (next.wireBytes crc32) := by
  induction frames generalizing front with
  | nil => exact cut.not_nil.elim
  | cons frame frames ih =>
    rcases cut.append_cases with inside | ⟨more, rfl, later⟩
    · exact ⟨[], frame, frames, front, rfl, rfl, inside⟩
    · obtain ⟨whole, next, rest, part, rfl, rfl, inside⟩ := ih later
      exact ⟨frame :: whole, next, rest, part, rfl, by rw [List.flatMap_cons, List.append_assoc], inside⟩

end FramedReader

/-- The reader yields the frames of a whole stream and then a clean end. In a stream that is cut it yields the whole
frames, and the end is clean exactly if the cut is at the end of a frame. In any stream, the length in a header is used
only if the checksum of the header is right, and the buffer for a payload is bounded. -/
theorem FramedReader.readFrames_writeFrames :
    (∀ frames : List Frame, (∀ frame ∈ frames, frame.payload.length ≤ maxMessageSize) →
      ∃ writer, FramedWriter.writeFrames crc32 {} frames = .ok writer ∧
        frames.foldlM (FramedWriter.writeFrame crc32) {} = .ok writer ∧
        ∀ self : FramedReader, self.reader.Quiet →
          (self.reader.bytes = writer.written → self.Yields crc32 frames .connectionClosed) ∧
          (ProperPrefix self.reader.bytes writer.written →
            ∃ whole next rest part error, frames = whole ++ next :: rest ∧
              self.reader.bytes = whole.flatMap (Frame.wireBytes crc32) ++ part ∧
              ProperPrefix part (next.wireBytes crc32) ∧ self.Yields crc32 whole error ∧
              (error = .connectionClosed ↔ part = []) ∧ (part ≠ [] → ∃ ioError, error = .io ioError))) ∧
    ∀ self : FramedReader, self.FrameRead crc32 (self.readFrame crc32) := by
  refine ⟨fun frames fit => ?_, readFrame_read crc32⟩
  refine ⟨frames.foldl (FramedWriter.writeUnflushed crc32) {}, ?_, FramedWriter.foldlM_writeFrame crc32 fit {}, ?_⟩
  · rw [FramedWriter.writeFrames, FramedWriter.forM_checkSize fit]
    rfl
  intro self quiet
  rw [FramedWriter.foldl_writeUnflushed_written]
  constructor
  · intro bytes
    exact .closed crc32 quiet fit (bytes.trans (List.append_nil _).symm)
  · intro cut
    obtain ⟨whole, next, rest, part, rfl, bytes, inside⟩ := ProperPrefix.flatMap_cases crc32 cut
    have wholeFit (frame : Frame) (member : frame ∈ whole) : frame.Fits :=
      fit frame (List.mem_append_left _ member)
    by_cases empty : part = []
    · subst empty
      exact ⟨whole, next, rest, [], .connectionClosed, rfl, bytes, inside, .closed crc32 quiet wholeFit bytes,
        ⟨fun _ => rfl, fun _ => rfl⟩, fun some => absurd rfl some⟩
    · have fits : next.Fits := fit next (List.mem_append_right _ (List.mem_cons_self ..))
      obtain ⟨error, yields⟩ := Yields.cut crc32 quiet wholeFit fits bytes inside empty
      refine ⟨whole, next, rest, part, .io error, rfl, bytes, inside, yields, ⟨?_, fun none => absurd none empty⟩,
        fun _ => ⟨error, rfl⟩⟩
      intro same
      cases same

end Instancy
