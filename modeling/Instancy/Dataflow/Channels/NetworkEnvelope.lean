import Instancy.Communication.Codec
import Instancy.Dataflow.Channels.Envelope

namespace Instancy

open Library

def tagData : UInt8 := 0x01

def tagWatermark : UInt8 := 0x02

def tagError : UInt8 := 0x03

def tagClose : UInt8 := 0xFF

section Model

variable {T D : Type} (timeCodec : Codec T) (dataCodec : Codec D)

/-- The count of a batch must fit its four bytes. -/
def encodeCount (count : Nat) : Except CodecError (List UInt8) :=
  if count < 2 ^ 32 then .ok (leBytes 4 count)
  else .error (.invalidData s!"batch too large for wire format: {count} records")

/-- A text is its length, cut to four bytes, and its UTF-8 bytes. -/
def encodeText (text : String) : List UInt8 := leBytes 4 (stringBytes text).length ++ stringBytes text

def encodeEnvelope : Envelope T D → Except CodecError (List UInt8)
  | .data time records => do
    let timeBytes ← timeCodec.encode time
    let count ← encodeCount records.length
    let parts ← records.mapM dataCodec.encode
    return tagData :: (timeBytes ++ (count ++ parts.flatten))
  | .watermark time => do
    let timeBytes ← timeCodec.encode time
    return tagWatermark :: timeBytes
  | .error sourceOperator message => .ok (tagError :: (encodeText sourceOperator ++ encodeText message))

def encodeClose : List UInt8 := [tagClose]

/-- The frame carries records or may carry them. -/
def frameCarriesRecords : List UInt8 → Bool
  | [] => true
  | tag :: rest =>
    if tag = tagWatermark ∨ tag = tagError then false else if tag = tagClose then !rest.isEmpty else true

def isCloseSentinel (bytes : List UInt8) : Bool := bytes = [tagClose]

def decodeCloseBody (rest : List UInt8) : Except CodecError (Option (Envelope T D)) :=
  if rest.isEmpty then .ok none
  else
    let size := rest.length
    .error (.invalidData s!"close sentinel followed by {size} bytes")

/-- The loop reads one record after the other. -/
def decodeRecords (rest : List UInt8) : Nat → Nat → List D → Except CodecError (List D × Nat)
  | 0, pos, data => .ok (data, pos)
  | count + 1, pos, data => do
    let slice ← sliceFrom rest pos
    let (record, consumed) ← dataCodec.decode slice
    decodeRecords rest count (pos + consumed) (data ++ [record])

def decodeDataBody (rest : List UInt8) : Except CodecError (Option (Envelope T D)) := do
  let (time, consumed) ← timeCodec.decode rest
  let rest ← sliceFrom rest consumed
  need rest 0 4
  let count ← readLe 4 rest 0
  let (data, pos) ← decodeRecords dataCodec rest count 4 []
  if pos ≠ rest.length then
    let total := rest.length
    .error (.invalidData s!"trailing bytes in data envelope: consumed {pos}, total {total}")
  else return some (.data time data)

def decodeWatermarkBody (rest : List UInt8) : Except CodecError (Option (Envelope T D)) := do
  let (time, consumed) ← timeCodec.decode rest
  if consumed ≠ rest.length then
    let total := rest.length
    .error (.invalidData s!"trailing bytes in watermark envelope: consumed {consumed}, total {total}")
  else return some (.watermark time)

def decodeErrorBody (utf8Error : List UInt8 → String) (rest : List UInt8) :
    Except CodecError (Option (Envelope T D)) := do
  need rest 0 4
  let srcLen ← readLe 4 rest 0
  need rest 0 (4 + srcLen + 4)
  let sourceOperator ← stringOfBytes utf8Error ((rest.take (4 + srcLen)).drop 4)
  let msgOffset := 4 + srcLen
  let msgLen ← readLe 4 rest msgOffset
  let totalConsumed := msgOffset + 4 + msgLen
  need rest 0 totalConsumed
  if totalConsumed ≠ rest.length then
    let total := rest.length
    .error (.invalidData s!"trailing bytes in error envelope: consumed {totalConsumed}, total {total}")
  else
    let message ← stringOfBytes utf8Error ((rest.take totalConsumed).drop (msgOffset + 4))
    return some (.error sourceOperator message)

/-- The close sentinel decodes to no envelope. -/
def decodeEnvelope (utf8Error : List UInt8 → String) : List UInt8 → Except CodecError (Option (Envelope T D))
  | [] => .error (.insufficientData 1 0)
  | tag :: rest =>
    if tag = tagClose then decodeCloseBody rest
    else if tag = tagData then decodeDataBody timeCodec dataCodec rest
    else if tag = tagWatermark then decodeWatermarkBody timeCodec rest
    else if tag = tagError then decodeErrorBody utf8Error rest
    else
      let digits := String.ofList (Nat.toDigits 16 tag.toNat)
      .error (.invalidData s!"unknown tag: 0x{digits}")

/-- The batch of an envelope and its texts have a length that fits four bytes. -/
def Envelope.Fits : Envelope T D → Prop
  | .data _ records => records.length < 2 ^ 32
  | .watermark _ => True
  | .error sourceOperator message =>
    (stringBytes sourceOperator).length < 2 ^ 32 ∧ (stringBytes message).length < 2 ^ 32

/-- The codecs accept to encode the time and every record. -/
def Envelope.Accepted : Envelope T D → Prop
  | .data time records =>
    (∃ bytes, timeCodec.encode time = .ok bytes) ∧ ∀ record ∈ records, ∃ bytes, dataCodec.encode record = .ok bytes
  | .watermark time => ∃ bytes, timeCodec.encode time = .ok bytes
  | .error _ _ => True

end Model

variable {parts : List (List UInt8)}

section Bodies

variable {T D : Type} {timeCodec : Codec T} {dataCodec : Codec D}

/-- The decoder reads the value from exactly the body and from nothing longer. -/
structure DecodesExactly {A : Type} (decoder : List UInt8 → Except CodecError A) (body : List UInt8) (value : A) :
    Prop where
  exact : decoder body = .ok value
  trailing : ∀ extra, extra ≠ [] → Rejected (decoder (body ++ extra))

/-- The decoder rejects every proper prefix of the body. -/
def RejectsPrefixesOf {A : Type} (decoder : List UInt8 → Except CodecError A) (body : List UInt8) : Prop :=
  ∀ front, ProperPrefix front body → Rejected (decoder front)

/-- Each part is the encoding of its record. -/
abbrev Encodes (codec : Codec D) (records : List D) (parts : List (List UInt8)) : Prop :=
  List.Forall₂ (fun record part => codec.encode record = .ok part) records parts

variable {records : List D}

theorem Encodes.encodes_mem {codec : Codec D}
    (encoded : Encodes codec records parts) {record : D} (member : record ∈ records) :
    ∃ bytes, codec.encode record = .ok bytes := by
  induction encoded with
  | nil => cases member
  | @cons other part _ _ first _ ih =>
    rcases List.mem_cons.mp member with rfl | later
    · exact ⟨part, first⟩
    · exact ih later

theorem Encodes.of_accepted {codec : Codec D}
    (accepted : ∀ record ∈ records, ∃ bytes, codec.encode record = .ok bytes) :
    ∃ parts, Encodes codec records parts := by
  induction records with
  | nil => exact ⟨[], .nil⟩
  | cons record records ih =>
    obtain ⟨part, first⟩ := accepted record List.mem_cons_self
    obtain ⟨parts, later⟩ := ih fun other member => accepted other (List.mem_cons_of_mem _ member)
    exact ⟨part :: parts, .cons first later⟩

/-- The loop reads the records back from behind any head and in front of any suffix. -/
theorem decodeRecords_append (lawful : dataCodec.Lawful)
    (encoded : Encodes dataCodec records parts) (head suffix : List UInt8) (data : List D) :
    decodeRecords dataCodec (head ++ (parts.flatten ++ suffix)) records.length head.length data =
      .ok (data ++ records, head.length + parts.flatten.length) := by
  induction encoded generalizing head data with
  | nil => simp only [List.length_nil, decodeRecords, List.append_nil, List.flatten_nil, Nat.add_zero]
  | @cons record part records parts first later ih =>
    have read := lawful record part (parts.flatten ++ suffix) first
    have next := ih (head ++ part) (data ++ [record])
    rw [List.length_append, List.append_assoc] at next
    rw [List.length_cons, decodeRecords, List.flatten_cons, List.append_assoc, sliceFrom_append]
    simp only [bind, Except.bind, read, next]
    simp only [List.append_assoc, List.singleton_append, List.length_append, Nat.add_assoc]

/-- A cut inside the records leaves one record that does not decode. -/
theorem decodeRecords_rejected (lawful : dataCodec.Lawful) (rejects : dataCodec.RejectsPrefixes)
    (encoded : Encodes dataCodec records parts) {front : List UInt8}
    (proper : ProperPrefix front parts.flatten) (head : List UInt8) (data : List D) :
    Rejected (decodeRecords dataCodec (head ++ front) records.length head.length data) := by
  induction encoded generalizing head front data with
  | nil => exact proper.not_nil.elim
  | @cons record part records parts first later ih =>
    refine Rejected.of_ok (sliceFrom_append head front) ?_
    rcases proper.append_cases with inside | ⟨more, rfl, beyond⟩
    · exact (rejects record part front first inside).bind _
    · refine Rejected.of_ok (lawful record part more first) ?_
      have next := ih beyond (head ++ part) (data ++ [record])
      rwa [List.length_append, List.append_assoc] at next

variable {time : T} {timeBytes bytes : List UInt8}

section

variable (timeLawful : timeCodec.Lawful) (dataLawful : dataCodec.Lawful) (timed : timeCodec.encode time = .ok timeBytes)
  (small : records.length < 2 ^ 32) (encoded : Encodes dataCodec records parts)

include timeLawful dataLawful timed small encoded

theorem decodeDataBody_append (extra : List UInt8) :
    decodeDataBody timeCodec dataCodec (timeBytes ++ (leBytes 4 records.length ++ parts.flatten) ++ extra) =
      if 4 + parts.flatten.length ≠ 4 + parts.flatten.length + extra.length then
        let pos := 4 + parts.flatten.length
        let total := 4 + parts.flatten.length + extra.length
        .error (.invalidData s!"trailing bytes in data envelope: consumed {pos}, total {total}")
      else .ok (some (.data time records)) := by
  have shape : timeBytes ++ (leBytes 4 records.length ++ parts.flatten) ++ extra =
      timeBytes ++ (leBytes 4 records.length ++ (parts.flatten ++ extra)) := by
    rw [List.append_assoc, List.append_assoc]
  have size : (leBytes 4 records.length ++ (parts.flatten ++ extra)).length =
      4 + parts.flatten.length + extra.length := by
    rw [List.length_append, List.length_append, leBytes_length, Nat.add_assoc]
  have enough : need (leBytes 4 records.length ++ (parts.flatten ++ extra)) 0 4 = .ok () :=
    need_of_le (by rw [size]; omega)
  have count : readLe 4 (leBytes 4 records.length ++ (parts.flatten ++ extra)) 0 = .ok records.length :=
    readLe_of_eq [] (parts.flatten ++ extra) rfl rfl small
  have read := decodeRecords_append dataLawful encoded (leBytes 4 records.length) extra []
  rw [leBytes_length] at read
  rw [shape, decodeDataBody, timeLawful time timeBytes _ timed]
  simp only [bind, Except.bind, sliceFrom_append, enough, count, read, size]
  rfl

theorem decodeDataBody_exactly :
    DecodesExactly (decodeDataBody timeCodec dataCodec) (timeBytes ++ (leBytes 4 records.length ++ parts.flatten))
      (some (.data time records)) := by
  constructor
  · have read := decodeDataBody_append timeLawful dataLawful timed small encoded []
    rw [List.append_nil] at read
    rw [read]
    exact if_neg fun differ => differ rfl
  · intro extra more
    have size := List.length_pos_of_ne_nil more
    rw [decodeDataBody_append timeLawful dataLawful timed small encoded extra, if_pos (by omega)]
    exact ⟨_, rfl, CodecError.noConfusion⟩

theorem decodeDataBody_rejects (timeRejects : timeCodec.RejectsPrefixes) (dataRejects : dataCodec.RejectsPrefixes) :
    RejectsPrefixesOf (decodeDataBody timeCodec dataCodec)
      (timeBytes ++ (leBytes 4 records.length ++ parts.flatten)) := by
  intro front proper
  rcases proper.append_cases with inTime | ⟨rest, rfl, later⟩
  · exact (timeRejects time timeBytes front timed inTime).bind _
  · refine Rejected.of_ok (timeLawful time timeBytes rest timed) ?_
    refine Rejected.of_ok (sliceFrom_append timeBytes rest) ?_
    rcases later.append_cases with inCount | ⟨more, rfl, inRecords⟩
    · have short := inCount.length_lt
      rw [leBytes_length] at short
      exact (need_rejected (by omega)).bind _
    · have count : readLe 4 (leBytes 4 records.length ++ more) 0 = .ok records.length :=
        readLe_of_eq [] more rfl rfl small
      have rejected := decodeRecords_rejected dataLawful dataRejects encoded inRecords (leBytes 4 records.length) []
      refine Rejected.of_ok (need_of_le ?_) (Rejected.of_ok count (rejected.bind _))
      rw [List.length_append, leBytes_length]
      omega

end

theorem decodeWatermarkBody_exactly (lawful : timeCodec.Lawful) (timed : timeCodec.encode time = .ok bytes) :
    DecodesExactly (decodeWatermarkBody timeCodec) bytes (some (.watermark time : Envelope T D)) := by
  constructor
  · have read := lawful time bytes [] timed
    rw [List.append_nil] at read
    rw [decodeWatermarkBody, read]
    exact if_neg fun differ => differ rfl
  · intro extra more
    have size := List.length_pos_of_ne_nil more
    rw [decodeWatermarkBody, lawful time bytes extra timed]
    have longer : bytes.length ≠ (bytes ++ extra).length := by rw [List.length_append]; omega
    exact ⟨_, if_pos longer, CodecError.noConfusion⟩

theorem decodeWatermarkBody_rejects (rejects : timeCodec.RejectsPrefixes) (timed : timeCodec.encode time = .ok bytes) :
    RejectsPrefixesOf (decodeWatermarkBody timeCodec : _ → Except CodecError (Option (Envelope T D))) bytes :=
  fun front proper => (rejects time bytes front timed proper).bind _

end Bodies

section Texts

variable {T D : Type} (utf8Error : List UInt8 → String) {source message : String}

theorem encodeText_eq (text : String) :
    encodeText text = leBytes 4 (stringBytes text).length ++ stringBytes text := rfl

theorem encodeText_length (text : String) : (encodeText text).length = 4 + (stringBytes text).length := by
  rw [encodeText, List.length_append, leBytes_length]

section

variable (sourceFits : (stringBytes source).length < 2 ^ 32) (messageFits : (stringBytes message).length < 2 ^ 32)
include sourceFits messageFits

/-- The two lengths and the two texts of an error are read from behind each other. -/
theorem decodeErrorBody_append (extra : List UInt8) :
    (decodeErrorBody utf8Error (encodeText source ++ encodeText message ++ extra) :
        Except CodecError (Option (Envelope T D))) =
      let totalConsumed := 4 + (stringBytes source).length + 4 + (stringBytes message).length
      if totalConsumed ≠ totalConsumed + extra.length then
        let total := totalConsumed + extra.length
        .error (.invalidData s!"trailing bytes in error envelope: consumed {totalConsumed}, total {total}")
      else .ok (some (.error source message)) := by
  generalize shape : encodeText source ++ encodeText message ++ extra = rest
  have size : rest.length = 4 + (stringBytes source).length + 4 + (stringBytes message).length + extra.length := by
    rw [← shape, List.length_append, List.length_append, encodeText_length, encodeText_length]
    omega
  have first : rest = [] ++ leBytes 4 (stringBytes source).length ++
      (stringBytes source ++ encodeText message ++ extra) := by
    rw [← shape, encodeText]
    simp only [List.append_assoc, List.nil_append]
  have second : rest = encodeText source ++ leBytes 4 (stringBytes message).length ++
      (stringBytes message ++ extra) := by
    rw [← shape, encodeText_eq message]
    simp only [List.append_assoc]
  have srcLen : readLe 4 rest 0 = .ok (stringBytes source).length := readLe_of_eq _ _ first rfl sourceFits
  have msgLen : readLe 4 rest (4 + (stringBytes source).length) = .ok (stringBytes message).length :=
    readLe_of_eq _ _ second (encodeText_length source) messageFits
  have sourceText : (rest.take (4 + (stringBytes source).length)).drop 4 = stringBytes source := by
    rw [← shape, List.append_assoc, List.take_left' (encodeText_length source), encodeText,
      List.drop_left' (leBytes_length 4 _)]
  have whole : (encodeText source ++ encodeText message).length =
      4 + (stringBytes source).length + 4 + (stringBytes message).length := by
    rw [List.length_append, encodeText_length, encodeText_length]
    omega
  have offset : (encodeText source ++ leBytes 4 (stringBytes message).length).length =
      4 + (stringBytes source).length + 4 := by
    rw [List.length_append, encodeText_length, leBytes_length]
  have messageText : (rest.take (4 + (stringBytes source).length + 4 + (stringBytes message).length)).drop
      (4 + (stringBytes source).length + 4) = stringBytes message := by
    rw [← shape, List.take_left' whole, encodeText_eq message, ← List.append_assoc, List.drop_left' offset]
  unfold decodeErrorBody
  rw [need_of_le (by omega), srcLen]
  simp only [bind, Except.bind, pure, Except.pure]
  rw [need_of_le (by omega), sourceText, stringOfBytes_stringBytes, msgLen]
  dsimp only
  rw [need_of_le (by omega), messageText, stringOfBytes_stringBytes, size]

theorem decodeErrorBody_exactly : DecodesExactly (decodeErrorBody utf8Error) (encodeText source ++ encodeText message)
      (some (.error source message : Envelope T D)) := by
  constructor
  · have read := decodeErrorBody_append (T := T) (D := D) utf8Error sourceFits messageFits []
    rw [List.append_nil] at read
    rw [read]
    exact if_neg fun differ => differ rfl
  · intro extra more
    have size := List.length_pos_of_ne_nil more
    rw [decodeErrorBody_append utf8Error sourceFits messageFits extra]
    exact ⟨_, if_pos (by omega), CodecError.noConfusion⟩

/-- A cut error announces more bytes than there are. -/
theorem decodeErrorBody_rejects :
    RejectsPrefixesOf (decodeErrorBody utf8Error : _ → Except CodecError (Option (Envelope T D)))
      (encodeText source ++ encodeText message) := by
  intro front proper
  rw [encodeText, List.append_assoc] at proper
  rcases proper.append_cases with inLength | ⟨rest, rfl, later⟩
  · have short := inLength.length_lt
    rw [leBytes_length] at short
    exact (need_rejected (by omega)).bind _
  have enough : need (leBytes 4 (stringBytes source).length ++ rest) 0 4 = .ok () :=
    need_of_le (by rw [List.length_append, leBytes_length]; omega)
  have srcLen : readLe 4 (leBytes 4 (stringBytes source).length ++ rest) 0 = .ok (stringBytes source).length :=
    readLe_of_eq [] rest rfl rfl sourceFits
  refine Rejected.of_ok enough (Rejected.of_ok srcLen ?_)
  rw [encodeText, ← List.append_assoc] at later
  rcases later.append_cases with inSource | ⟨more, rfl, inMessage⟩
  · have short := inSource.length_lt
    rw [List.length_append, leBytes_length] at short
    exact (need_rejected (by rw [List.length_append, leBytes_length]; omega)).bind _
  generalize shape : leBytes 4 (stringBytes source).length ++
    (stringBytes source ++ leBytes 4 (stringBytes message).length ++ more) = cut
  have size : cut.length = 4 + (stringBytes source).length + 4 + more.length := by
    rw [← shape]
    simp only [List.length_append, leBytes_length]
    omega
  have second : cut = encodeText source ++ leBytes 4 (stringBytes message).length ++ more := by
    rw [← shape, encodeText]
    simp only [List.append_assoc]
  have msgLen : readLe 4 cut (4 + (stringBytes source).length) = .ok (stringBytes message).length :=
    readLe_of_eq _ _ second (encodeText_length source) messageFits
  have sourceText : stringOfBytes utf8Error ((cut.take (4 + (stringBytes source).length)).drop 4) = .ok source := by
    rw [second, List.append_assoc, List.take_left' (encodeText_length source), encodeText,
      List.drop_left' (leBytes_length 4 _), stringOfBytes_stringBytes]
  refine Rejected.of_ok (need_of_le (by omega)) (Rejected.of_ok sourceText (Rejected.of_ok msgLen ?_))
  have short := inMessage.length_lt
  exact (need_rejected (by omega)).bind _

end

end Texts

variable {rest : List UInt8}

section Frames

variable {T D : Type} {timeCodec : Codec T} {dataCodec : Codec D}

variable {bytes : List UInt8}

theorem encodeCount_eq_ok {count : Nat} :
    encodeCount count = .ok bytes ↔ count < 2 ^ 32 ∧ bytes = leBytes 4 count := by
  unfold encodeCount
  split
  · rename_i small
    exact ⟨fun done => ⟨small, (Except.ok.inj done).symm⟩, fun parts => congrArg Except.ok parts.2.symm⟩
  · rename_i large
    constructor
    · intro failed
      cases failed
    · exact fun parts => absurd parts.1 large

/-- The bytes of an encoded batch. -/
theorem encodeEnvelope_data {time : T} {records : List D} :
    encodeEnvelope timeCodec dataCodec (.data time records) = .ok bytes ↔
      ∃ timeBytes parts, timeCodec.encode time = .ok timeBytes ∧ records.length < 2 ^ 32 ∧
        Encodes dataCodec records parts ∧
        bytes = tagData :: (timeBytes ++ (leBytes 4 records.length ++ parts.flatten)) := by
  simp only [encodeEnvelope, bind_eq_ok, encodeCount_eq_ok, mapM_eq_ok_iff, pure, Except.pure, Except.ok.injEq]
  constructor
  · rintro ⟨timeBytes, timed, _, ⟨small, rfl⟩, parts, all, rfl⟩
    exact ⟨timeBytes, parts, timed, small, all, rfl⟩
  · rintro ⟨timeBytes, parts, timed, small, all, rfl⟩
    exact ⟨timeBytes, timed, _, ⟨small, rfl⟩, parts, all, rfl⟩

theorem encodeEnvelope_watermark {time : T} :
    encodeEnvelope timeCodec dataCodec (.watermark time) = .ok bytes ↔
      ∃ timeBytes, timeCodec.encode time = .ok timeBytes ∧ bytes = tagWatermark :: timeBytes := by
  simp only [encodeEnvelope, bind_eq_ok, pure, Except.pure, Except.ok.injEq]
  constructor
  · rintro ⟨timeBytes, timed, rfl⟩
    exact ⟨timeBytes, timed, rfl⟩
  · rintro ⟨timeBytes, timed, rfl⟩
    exact ⟨timeBytes, timed, rfl⟩

variable {envelope : Envelope T D}

/-- An envelope that fits is encoded exactly if the codecs accept its parts. -/
theorem encodeEnvelope_isOk (fits : envelope.Fits) :
    (∃ bytes, encodeEnvelope timeCodec dataCodec envelope = .ok bytes) ↔
      envelope.Accepted timeCodec dataCodec := by
  cases envelope with
  | data time records =>
    constructor
    · rintro ⟨bytes, encoded⟩
      obtain ⟨timeBytes, parts, timed, _, all, _⟩ := encodeEnvelope_data.mp encoded
      exact ⟨⟨timeBytes, timed⟩, fun record member => all.encodes_mem member⟩
    · rintro ⟨⟨timeBytes, timed⟩, accepted⟩
      obtain ⟨parts, all⟩ := Encodes.of_accepted accepted
      exact ⟨_, encodeEnvelope_data.mpr ⟨timeBytes, parts, timed, fits, all, rfl⟩⟩
  | watermark time =>
    constructor
    · rintro ⟨bytes, encoded⟩
      obtain ⟨timeBytes, timed, _⟩ := encodeEnvelope_watermark.mp encoded
      exact ⟨timeBytes, timed⟩
    · rintro ⟨timeBytes, timed⟩
      exact ⟨_, encodeEnvelope_watermark.mpr ⟨timeBytes, timed, rfl⟩⟩
  | error source message => exact ⟨fun _ => trivial, fun _ => ⟨_, rfl⟩⟩

variable (utf8Error : List UInt8 → String)

/-- A decoder that reads a body exactly reads it exactly behind the tag. -/
theorem DecodesExactly.cons {A : Type} {decoder inner : List UInt8 → Except CodecError A} {tag : UInt8}
    (same : ∀ rest, decoder (tag :: rest) = inner rest) {body : List UInt8} {value : A}
    (exactly : DecodesExactly inner body value) : DecodesExactly decoder (tag :: body) value :=
  ⟨(same body).trans exactly.exact, fun extra more => by
    rw [List.cons_append, same]
    exact exactly.trailing extra more⟩

/-- An empty frame is rejected too. -/
theorem RejectsPrefixesOf.cons {A : Type} {decoder inner : List UInt8 → Except CodecError A} {tag : UInt8}
    (empty : Rejected (decoder [])) (same : ∀ rest, decoder (tag :: rest) = inner rest) {body : List UInt8}
    (rejects : RejectsPrefixesOf inner body) : RejectsPrefixesOf decoder (tag :: body) := by
  intro front proper
  cases front with
  | nil => exact empty
  | cons first rest =>
    obtain ⟨⟨more, whole⟩, shorter⟩ := proper
    obtain ⟨rfl, body⟩ := List.cons.inj whole
    rw [same]
    exact rejects rest ⟨⟨more, body⟩, fun equal => shorter (by rw [equal])⟩

theorem decodeEnvelope_tagData (rest : List UInt8) :
    decodeEnvelope timeCodec dataCodec utf8Error (tagData :: rest) = decodeDataBody timeCodec dataCodec rest := rfl

theorem decodeEnvelope_tagWatermark (rest : List UInt8) :
    decodeEnvelope timeCodec dataCodec utf8Error (tagWatermark :: rest) = decodeWatermarkBody timeCodec rest := rfl

theorem decodeEnvelope_tagError (rest : List UInt8) :
    decodeEnvelope timeCodec dataCodec utf8Error (tagError :: rest) = decodeErrorBody utf8Error rest := rfl

theorem decodeEnvelope_nil_rejected : Rejected (decodeEnvelope timeCodec dataCodec utf8Error []) :=
  ⟨_, rfl, CodecError.noConfusion⟩

section

variable (timeLawful : timeCodec.Lawful) (dataLawful : dataCodec.Lawful) (fits : envelope.Fits)
  (encoded : encodeEnvelope timeCodec dataCodec envelope = .ok bytes)

include timeLawful dataLawful fits encoded

theorem decodeEnvelope_exactly :
    DecodesExactly (decodeEnvelope timeCodec dataCodec utf8Error) bytes (some envelope) := by
  cases envelope with
  | data time records =>
    obtain ⟨timeBytes, parts, timed, small, all, rfl⟩ := encodeEnvelope_data.mp encoded
    exact (decodeDataBody_exactly timeLawful dataLawful timed small all).cons (decodeEnvelope_tagData utf8Error)
  | watermark time =>
    obtain ⟨timeBytes, timed, rfl⟩ := encodeEnvelope_watermark.mp encoded
    exact (decodeWatermarkBody_exactly timeLawful timed).cons (decodeEnvelope_tagWatermark utf8Error)
  | error source message =>
    cases encoded
    exact (decodeErrorBody_exactly utf8Error fits.1 fits.2).cons (decodeEnvelope_tagError utf8Error)

theorem decodeEnvelope_rejects (timeRejects : timeCodec.RejectsPrefixes) (dataRejects : dataCodec.RejectsPrefixes) :
    RejectsPrefixesOf (decodeEnvelope timeCodec dataCodec utf8Error) bytes := by
  have empty : Rejected (decodeEnvelope timeCodec dataCodec utf8Error []) := decodeEnvelope_nil_rejected utf8Error
  cases envelope with
  | data time records =>
    obtain ⟨timeBytes, parts, timed, small, all, rfl⟩ := encodeEnvelope_data.mp encoded
    have rejects := decodeDataBody_rejects timeLawful dataLawful timed small all timeRejects dataRejects
    exact rejects.cons empty (decodeEnvelope_tagData utf8Error)
  | watermark time =>
    obtain ⟨timeBytes, timed, rfl⟩ := encodeEnvelope_watermark.mp encoded
    exact (decodeWatermarkBody_rejects timeRejects timed).cons empty (decodeEnvelope_tagWatermark utf8Error)
  | error source message =>
    cases encoded
    exact (decodeErrorBody_rejects utf8Error fits.1 fits.2).cons empty (decodeEnvelope_tagError utf8Error)

end

/-- The tag of a frame says whether it carries records. -/
theorem frameCarriesRecords_encodeEnvelope (encoded : encodeEnvelope timeCodec dataCodec envelope = .ok bytes) :
    frameCarriesRecords bytes = !envelope.isControl := by
  cases envelope with
  | data time records =>
    obtain ⟨timeBytes, parts, _, _, _, rfl⟩ := encodeEnvelope_data.mp encoded
    rfl
  | watermark time =>
    obtain ⟨timeBytes, _, rfl⟩ := encodeEnvelope_watermark.mp encoded
    rfl
  | error source message =>
    cases encoded
    rfl

theorem Envelope.not_isControl_of_carriesRecords (carries : envelope.carriesRecords = true) :
    envelope.isControl = false := by
  cases envelope with
  | data time records => rfl
  | watermark time => cases carries
  | error source message => cases carries

theorem ite_error_ne_none {A : Type} {condition : Prop} [Decidable condition] {error : CodecError} {value : A} :
    (if condition then Except.error error else .ok (some value)) ≠ .ok none := by
  split
  · intro failed
    cases failed
  · intro same
    cases same

theorem decodeCloseBody_eq_none :
    (decodeCloseBody rest : Except CodecError (Option (Envelope T D))) = .ok none ↔ rest = [] := by
  cases rest with
  | nil => exact ⟨fun _ => rfl, fun _ => rfl⟩
  | cons first more =>
    constructor
    · intro failed
      cases failed
    · intro empty
      cases empty

theorem decodeCloseBody_rejected (more : rest ≠ []) :
    Rejected (decodeCloseBody rest : Except CodecError (Option (Envelope T D))) := by
  cases rest with
  | nil => exact absurd rfl more
  | cons first rest => exact ⟨_, rfl, CodecError.noConfusion⟩

theorem decodeDataBody_ne_none : decodeDataBody timeCodec dataCodec rest ≠ .ok none := by
  refine bind_ne_ok fun _ => bind_ne_ok fun _ => bind_ne_ok fun _ => bind_ne_ok fun _ => bind_ne_ok fun _ => ?_
  exact ite_error_ne_none

theorem decodeWatermarkBody_ne_none :
    (decodeWatermarkBody timeCodec rest : Except CodecError (Option (Envelope T D))) ≠ .ok none := by
  exact bind_ne_ok fun _ => ite_error_ne_none

theorem decodeErrorBody_ne_none :
    (decodeErrorBody utf8Error rest : Except CodecError (Option (Envelope T D))) ≠ .ok none := by
  refine bind_ne_ok fun _ => bind_ne_ok fun _ => bind_ne_ok fun _ => bind_ne_ok fun _ => bind_ne_ok fun _ =>
    bind_ne_ok fun _ => ?_
  split
  · intro failed
    cases failed
  · refine bind_ne_ok fun _ same => ?_
    cases same

/-- Only the close sentinel decodes to no envelope. -/
theorem decodeEnvelope_eq_none :
    decodeEnvelope timeCodec dataCodec utf8Error bytes = .ok none ↔ bytes = encodeClose := by
  constructor
  · intro decoded
    cases bytes with
    | nil => cases decoded
    | cons tag rest =>
      rw [decodeEnvelope] at decoded
      split at decoded
      · rename_i close
        rw [close, decodeCloseBody_eq_none.mp decoded, encodeClose]
      · split at decoded
        · exact absurd decoded decodeDataBody_ne_none
        · split at decoded
          · exact absurd decoded decodeWatermarkBody_ne_none
          · split at decoded
            · exact absurd decoded (decodeErrorBody_ne_none utf8Error)
            · cases decoded
  · rintro rfl
    rfl

/-- Every envelope is read back from exactly its bytes, only the sentinel ends the stream, a longer frame is never
read, a shorter one is not read if the codecs reject a cut value, and the built-in codecs keep both laws. -/
theorem decodeEnvelope_unambiguous (timeLawful : timeCodec.Lawful) (dataLawful : dataCodec.Lawful) :
    (∀ envelope : Envelope T D, envelope.Fits →
      ((∃ bytes, encodeEnvelope timeCodec dataCodec envelope = .ok bytes) ↔
        envelope.Accepted timeCodec dataCodec) ∧
      ∀ bytes, encodeEnvelope timeCodec dataCodec envelope = .ok bytes →
        decodeEnvelope timeCodec dataCodec utf8Error bytes = .ok (some envelope) ∧
        (∀ extra, extra ≠ [] → Rejected (decodeEnvelope timeCodec dataCodec utf8Error (bytes ++ extra))) ∧
        (timeCodec.RejectsPrefixes → dataCodec.RejectsPrefixes → ∀ front, ProperPrefix front bytes →
          Rejected (decodeEnvelope timeCodec dataCodec utf8Error front)) ∧
        (envelope.carriesRecords = true → frameCarriesRecords bytes = true) ∧
        (envelope.isControl = true → frameCarriesRecords bytes = false)) ∧
    (∀ bytes, decodeEnvelope timeCodec dataCodec utf8Error bytes = .ok none ↔ bytes = encodeClose) ∧
    (∀ bytes, isCloseSentinel bytes = true ↔ bytes = encodeClose) ∧
    (∀ extra, extra ≠ [] → Rejected (decodeEnvelope timeCodec dataCodec utf8Error (encodeClose ++ extra))) ∧
    frameCarriesRecords encodeClose = false ∧
    ∀ shape : CodecShape, (shape.codec utf8Error).Lawful ∧ (shape.codec utf8Error).RejectsPrefixes := by
  refine ⟨fun envelope fits => ⟨encodeEnvelope_isOk fits, fun bytes encoded => ?_⟩,
    fun _ => decodeEnvelope_eq_none utf8Error, fun _ => decide_eq_true_iff,
    fun _ more => decodeCloseBody_rejected more, rfl,
    fun shape => ⟨shape.codec_lawful utf8Error, shape.codec_rejectsPrefixes utf8Error⟩⟩
  have exactly := decodeEnvelope_exactly utf8Error timeLawful dataLawful fits encoded
  have tag := frameCarriesRecords_encodeEnvelope encoded
  refine ⟨exactly.exact, exactly.trailing, fun timeRejects dataRejects => ?_, fun carries => ?_, fun control => ?_⟩
  · exact decodeEnvelope_rejects utf8Error timeLawful dataLawful fits encoded timeRejects dataRejects
  · rw [tag, Envelope.not_isControl_of_carriesRecords carries, Bool.not_false]
  · rw [tag, control, Bool.not_true]

/-- A batch of byte strings, one of them empty, is read back. -/
theorem decodeEnvelope_batch :
    ∃ bytes, encodeEnvelope (fixedSizeCodec 8) rawBytesCodec (.data ⟨5, by decide⟩ [[7, 255], []]) = .ok bytes ∧
      decodeEnvelope (fixedSizeCodec 8) rawBytesCodec (fun _ => "") bytes =
        .ok (some (.data ⟨5, by decide⟩ [[7, 255], []])) := by
  have lawful := decodeEnvelope_unambiguous (fun _ => "") (fixedSizeCodec_lawful 8)
    (CodecShape.codec_lawful (fun _ => "") .rawBytes)
  have fits : Envelope.Fits (.data ⟨5, by decide⟩ [[7, 255], []] : Envelope (Unsigned (8 * 8)) (List UInt8)) := by
    change 2 < 2 ^ 32
    decide
  exact ⟨_, rfl, ((lawful.1 _ fits).2 _ rfl).1⟩

end Frames

end Instancy
