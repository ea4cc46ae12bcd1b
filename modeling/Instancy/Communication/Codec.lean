import Instancy.Library.Bytes
import Instancy.Library.Fallible
import Instancy.Progress.Timestamp

namespace Instancy

open Library

/-- A word in hexadecimal with its eight digits. -/
def hexWord (word : Nat) : String :=
  let digits := Nat.toDigits 16 word
  "0x" ++ String.ofList (List.replicate (8 - digits.length) '0' ++ digits)

/-- The errors of a codec. A slice out of range panics in the source. -/
inductive CodecError where
  | insufficientData (needed available : Nat)
  | invalidData (message : String)
  | custom (message : String)
  | crcMismatch (expected actual : Nat)
  | payloadTooLarge (size max : Nat)
  | outOfRange
  deriving DecidableEq, Repr

/-- A codec appends the bytes of a value and reads a value with the number of bytes it consumed. -/
structure Codec (T : Type) where
  encode : T → Except CodecError (List UInt8)
  decode : List UInt8 → Except CodecError (T × Nat)

/-- Decoding inverts encoding on any suffix and reports the bytes consumed. -/
def Codec.Lawful {T : Type} (codec : Codec T) : Prop :=
  ∀ time bytes suffix, codec.encode time = .ok bytes → codec.decode (bytes ++ suffix) = .ok (time, bytes.length)

/-- The decoder returned an error and did not panic. -/
def Rejected {A : Type} (result : Except CodecError A) : Prop :=
  ∃ error, result = .error error ∧ error ≠ .outOfRange

/-- A proper prefix of an encoding is rejected. -/
def Codec.RejectsPrefixes {T : Type} (codec : Codec T) : Prop :=
  ∀ value bytes front, codec.encode value = .ok bytes → ProperPrefix front bytes → Rejected (codec.decode front)

/-- This is `read_u32`, `read_u64` and `read_i64` up to the sign: a value at an offset. -/
def readLe (width : Nat) (bytes : List UInt8) (offset : Nat) : Except CodecError Nat :=
  if offset + width ≤ bytes.length then .ok (leValue ((bytes.drop offset).take width))
  else
    let got := bytes.length - offset
    .error (.invalidData s!"Serialization error: expected {width} bytes at offset {offset}, got {got}")

/-- The payload must have enough bytes after the offset. -/
def need (payload : List UInt8) (offset count : Nat) : Except CodecError Unit :=
  if offset + count > payload.length then .error (.insufficientData (offset + count) payload.length) else .ok ()

/-- The slice of the bytes from some place on. -/
def sliceFrom (bytes : List UInt8) (start : Nat) : Except CodecError (List UInt8) :=
  if start ≤ bytes.length then .ok (bytes.drop start) else .error .outOfRange

def maxMessageSize : Nat := 256 * 1024 * 1024

def encodeLengthPrefix (len : Nat) : Except CodecError (List UInt8) :=
  if len > maxMessageSize then .error (.payloadTooLarge len maxMessageSize)
  else if len ≥ 2 ^ 32 then .error (.payloadTooLarge len (2 ^ 32 - 1))
  else .ok (leBytes 4 len)

def decodeLengthPrefix (buf : List UInt8) : Except CodecError Nat := do
  need buf 0 4
  let len := leValue (buf.take 4)
  if len > maxMessageSize then .error (.payloadTooLarge len maxMessageSize) else .ok len

/-- The bytes of a value behind their length. -/
def lengthPrefixedCodec {A : Type} (toBytes : A → List UInt8) (ofBytes : List UInt8 → Except CodecError A) :
    Codec A where
  encode value := do
    let front ← encodeLengthPrefix (toBytes value).length
    return front ++ toBytes value
  decode buf := do
    let len ← decodeLengthPrefix buf
    let total := 4 + len
    need buf 0 total
    let value ← ofBytes ((buf.take total).drop 4)
    return (value, total)

def rawBytesCodec : Codec (List UInt8) := lengthPrefixedCodec id .ok

/-- The UTF-8 bytes of a string. -/
def stringBytes (text : String) : List UInt8 := text.toByteArray.data.toList

/-- This is `String::from_utf8`, with the message of the standard library for bytes that are not UTF-8. -/
def stringOfBytes (utf8Error : List UInt8 → String) (bytes : List UInt8) : Except CodecError String :=
  match String.fromUTF8? ⟨bytes.toArray⟩ with
  | some text => .ok text
  | none =>
    let reason := utf8Error bytes
    .error (.invalidData s!"invalid UTF-8: {reason}")

def stringCodec (utf8Error : List UInt8 → String) : Codec String :=
  lengthPrefixedCodec stringBytes (stringOfBytes utf8Error)

/-- The first part of a value is encoded before the second one. -/
def sequenceCodec {A B P : Type} (first : P → A) (second : P → B) (make : A → B → P) (aCodec : Codec A)
    (bCodec : Codec B) : Codec P where
  encode value := do
    let front ← aCodec.encode (first value)
    let back ← bCodec.encode (second value)
    return front ++ back
  decode buf := do
    let (a, aLen) ← aCodec.decode buf
    let rest ← sliceFrom buf aLen
    let (b, bLen) ← bCodec.decode rest
    return (make a b, aLen + bLen)

def tupleCodec {A B : Type} (aCodec : Codec A) (bCodec : Codec B) : Codec (A × B) :=
  sequenceCodec Prod.fst Prod.snd Prod.mk aCodec bCodec

/-- The codec of a loop scope encodes the outer time and then the inner one. -/
def productTimeCodec {P I : Type} (outer : Codec P) (inner : Codec I) : Codec (Product P I) :=
  sequenceCodec Product.outer Product.inner Product.mk outer inner

/-- A value of a fixed number of bytes is written as its bits. -/
def bitsCodec {A : Type} (size : Nat) (toBits : A → Nat) (ofBits : Nat → A) : Codec A where
  encode value := .ok (leBytes size (toBits value))
  decode bytes :=
    if bytes.length < size then .error (.insufficientData size bytes.length)
    else .ok (ofBits (leValue (bytes.take size)), size)

/-- The fixed-size codec of an unsigned integer of some bytes. -/
def fixedSizeCodec (size : Nat) : Codec (Unsigned (8 * size)) :=
  bitsCodec size (fun value => value.val) fun bits => ⟨bits % 2 ^ (8 * size), Nat.mod_lt _ (Nat.two_pow_pos _)⟩

/-- The fixed-size codec of a signed integer or a float, by its bits. -/
def fixedBitsCodec (size : Nat) : Codec (BitVec (8 * size)) := bitsCodec size BitVec.toNat (BitVec.ofNat _)

section Reads

variable {payload : List UInt8}

/-- A value is read from any payload that has its bytes at the offset. -/
theorem readLe_of_eq {offset width value : Nat} (first last : List UInt8)
    (shape : payload = first ++ leBytes width value ++ last) (start : first.length = offset)
    (fits : value < 256 ^ width) : readLe width payload offset = .ok value := by
  unfold readLe
  rw [shape, if_pos, drop_take_append start (leBytes_length width value), leValue_leBytes_of_lt fits]
  rw [List.length_append, List.length_append, leBytes_length]
  omega

theorem need_of_le {offset count : Nat} (enough : offset + count ≤ payload.length) :
    need payload offset count = .ok () := if_neg (by omega)

theorem need_rejected {offset count : Nat} (short : payload.length < offset + count) :
    Rejected (need payload offset count) := by
  refine ⟨.insufficientData (offset + count) payload.length, ?_, CodecError.noConfusion⟩
  exact if_pos short

theorem sliceFrom_append (first second : List UInt8) : sliceFrom (first ++ second) first.length = .ok second := by
  unfold sliceFrom
  rw [if_pos (by rw [List.length_append]; omega), List.drop_left]

/-- A step that rejects makes the whole decoder reject. -/
theorem Rejected.bind {A B : Type} {result : Except CodecError A} (rejected : Rejected result)
    (next : A → Except CodecError B) : Rejected (result >>= next) := by
  obtain ⟨error, failed, real⟩ := rejected
  refine ⟨error, ?_, real⟩
  rw [failed]
  rfl

/-- A step that succeeds passes the rejection of the rest on. -/
theorem Rejected.of_ok {A B : Type} {result : Except CodecError A} {value : A} {next : A → Except CodecError B}
    (done : result = .ok value) (rejected : Rejected (next value)) : Rejected (result >>= next) := by
  rw [done]
  exact rejected

end Reads

section Strings

@[simp] theorem stringOfBytes_stringBytes (utf8Error : List UInt8 → String) (text : String) :
    stringOfBytes utf8Error (stringBytes text) = .ok text := by
  unfold stringOfBytes stringBytes String.fromUTF8?
  rw [dif_pos text.isValidUTF8]
  rfl

end Strings

variable {bytes : List UInt8}

section LengthPrefix

theorem encodeLengthPrefix_eq_ok {len : Nat} (encoded : encodeLengthPrefix len = .ok bytes) :
    len ≤ maxMessageSize ∧ bytes = leBytes 4 len := by
  unfold encodeLengthPrefix at encoded
  split at encoded
  · cases encoded
  · split at encoded
    · cases encoded
    · cases encoded
      exact ⟨by omega, rfl⟩

theorem decodeLengthPrefix_leBytes {len : Nat} (small : len ≤ maxMessageSize) (suffix : List UInt8) :
    decodeLengthPrefix (leBytes 4 len ++ suffix) = .ok len := by
  have fits : len < 256 ^ 4 := lt_of_le_of_lt small (by decide)
  unfold decodeLengthPrefix
  simp only [bind, Except.bind, List.take_left' (leBytes_length 4 len), leValue_leBytes_of_lt fits]
  exact if_neg (by omega)

theorem decodeLengthPrefix_rejected {buf : List UInt8} (short : buf.length < 4) :
    Rejected (decodeLengthPrefix buf) :=
  (need_rejected (by omega)).bind _

variable {A : Type} {toBytes : A → List UInt8} {ofBytes : List UInt8 → Except CodecError A}

theorem lengthPrefixedCodec_encode {value : A} (encoded : (lengthPrefixedCodec toBytes ofBytes).encode value = .ok bytes) :
    (toBytes value).length ≤ maxMessageSize ∧ bytes = leBytes 4 (toBytes value).length ++ toBytes value := by
  obtain ⟨front, prefixed, done⟩ := bind_eq_ok.mp encoded
  obtain ⟨small, rfl⟩ := encodeLengthPrefix_eq_ok prefixed
  exact ⟨small, (Except.ok.inj done).symm⟩

theorem lengthPrefixedCodec_lawful (inverse : ∀ value, ofBytes (toBytes value) = .ok value) :
    (lengthPrefixedCodec toBytes ofBytes).Lawful := by
  intro value bytes suffix encoded
  obtain ⟨small, rfl⟩ := lengthPrefixedCodec_encode encoded
  have size : (leBytes 4 (toBytes value).length ++ toBytes value).length = 4 + (toBytes value).length := by
    rw [List.length_append, leBytes_length]
  have body : (((leBytes 4 (toBytes value).length ++ toBytes value) ++ suffix).take
      (4 + (toBytes value).length)).drop 4 = toBytes value := by
    rw [List.take_left' size, List.drop_left' (leBytes_length 4 _)]
  have front : decodeLengthPrefix ((leBytes 4 (toBytes value).length ++ toBytes value) ++ suffix) =
      .ok (toBytes value).length := by
    exact decodeLengthPrefix_leBytes small _
  have enough : need ((leBytes 4 (toBytes value).length ++ toBytes value) ++ suffix) 0
      (4 + (toBytes value).length) = .ok () := need_of_le (by rw [List.length_append, size]; omega)
  simp only [lengthPrefixedCodec, front, bind, Except.bind, enough, body, inverse, size]
  rfl

theorem lengthPrefixedCodec_rejectsPrefixes : (lengthPrefixedCodec toBytes ofBytes).RejectsPrefixes := by
  intro value bytes front encoded proper
  obtain ⟨small, rfl⟩ := lengthPrefixedCodec_encode encoded
  rcases proper.append_cases with cut | ⟨more, rfl, cut⟩
  · have short := cut.length_lt
    exact (decodeLengthPrefix_rejected short).bind _
  · have short := cut.length_lt
    refine Rejected.of_ok (decodeLengthPrefix_leBytes small more) ((need_rejected ?_).bind _)
    rw [List.length_append, leBytes_length]
    omega

end LengthPrefix

section Sequence

variable {A B P : Type} {first : P → A} {second : P → B} {make : A → B → P} {aCodec : Codec A} {bCodec : Codec B}

theorem sequenceCodec_encode {value : P}
    (encoded : (sequenceCodec first second make aCodec bCodec).encode value = .ok bytes) :
    ∃ front back, aCodec.encode (first value) = .ok front ∧ bCodec.encode (second value) = .ok back ∧
      bytes = front ++ back := by
  obtain ⟨front, frontBytes, later⟩ := bind_eq_ok.mp encoded
  obtain ⟨back, backBytes, done⟩ := bind_eq_ok.mp later
  exact ⟨front, back, frontBytes, backBytes, (Except.ok.inj done).symm⟩

theorem sequenceCodec_lawful (rebuild : ∀ value, make (first value) (second value) = value)
    (aLawful : aCodec.Lawful) (bLawful : bCodec.Lawful) :
    (sequenceCodec first second make aCodec bCodec).Lawful := by
  intro value bytes suffix encoded
  obtain ⟨front, back, frontBytes, backBytes, rfl⟩ := sequenceCodec_encode encoded
  have frontRead := aLawful (first value) front (back ++ suffix) frontBytes
  have backRead := bLawful (second value) back suffix backBytes
  simp only [sequenceCodec, List.append_assoc, frontRead, bind, Except.bind, sliceFrom_append, backRead, rebuild]
  rw [List.length_append]
  rfl

theorem sequenceCodec_rejectsPrefixes (aLawful : aCodec.Lawful) (aRejects : aCodec.RejectsPrefixes)
    (bRejects : bCodec.RejectsPrefixes) : (sequenceCodec first second make aCodec bCodec).RejectsPrefixes := by
  intro value bytes cut encoded proper
  obtain ⟨front, back, frontBytes, backBytes, rfl⟩ := sequenceCodec_encode encoded
  rcases proper.append_cases with inFront | ⟨more, rfl, inBack⟩
  · exact (aRejects _ _ _ frontBytes inFront).bind _
  · refine Rejected.of_ok (aLawful _ _ more frontBytes) ?_
    exact Rejected.of_ok (sliceFrom_append front more) ((bRejects _ _ _ backBytes inBack).bind _)

theorem productTimeCodec_lawful {P I : Type} {outer : Codec P} {inner : Codec I}
    (outerLawful : outer.Lawful) (innerLawful : inner.Lawful) : (productTimeCodec outer inner).Lawful :=
  sequenceCodec_lawful (fun _ => rfl) outerLawful innerLawful

end Sequence

section FixedSize

variable {A : Type} {size : Nat} {toBits : A → Nat} {ofBits : Nat → A}

theorem bitsCodec_lawful (fits : ∀ value, toBits value < 256 ^ size)
    (inverse : ∀ value, ofBits (toBits value) = value) : (bitsCodec size toBits ofBits).Lawful := by
  intro value bytes suffix encoded
  cases encoded
  change (if _ then _ else _) = _
  rw [if_neg (by rw [List.length_append, leBytes_length]; omega)]
  simp only [List.take_left' (leBytes_length size (toBits value)), leValue_leBytes_of_lt (fits value), inverse,
    leBytes_length]

theorem bitsCodec_rejectsPrefixes : (bitsCodec size toBits ofBits).RejectsPrefixes := by
  intro value bytes front encoded proper
  cases encoded
  have short := proper.length_lt
  rw [leBytes_length] at short
  exact ⟨.insufficientData size front.length, if_pos short, CodecError.noConfusion⟩

theorem two_pow_eight_mul (size : Nat) : (2 : Nat) ^ (8 * size) = 256 ^ size := Nat.pow_mul 2 8 size

theorem fixedSizeCodec_lawful (size : Nat) : (fixedSizeCodec size).Lawful := by
  refine bitsCodec_lawful (fun value => lt_of_lt_of_eq value.isLt (two_pow_eight_mul size)) fun value => ?_
  exact Fin.ext (Nat.mod_eq_of_lt value.isLt)

theorem fixedBitsCodec_lawful (size : Nat) : (fixedBitsCodec size).Lawful := by
  refine bitsCodec_lawful (fun value => lt_of_lt_of_eq value.isLt (two_pow_eight_mul size)) fun value => ?_
  exact BitVec.eq_of_toNat_eq (Nat.mod_eq_of_lt value.isLt)

end FixedSize

section Shapes

/-- The ways to nest the built-in codecs. -/
inductive CodecShape where
  | unsigned (size : Nat)
  | bits (size : Nat)
  | string
  | rawBytes
  | tuple (first second : CodecShape)
  | product (outer inner : CodecShape)

/-- The values that a nested codec encodes. -/
def CodecShape.Value : CodecShape → Type
  | .unsigned size => Unsigned (8 * size)
  | .bits size => BitVec (8 * size)
  | .string => String
  | .rawBytes => List UInt8
  | .tuple first second => first.Value × second.Value
  | .product outer inner => Product outer.Value inner.Value

def CodecShape.codec (utf8Error : List UInt8 → String) : (shape : CodecShape) → Codec shape.Value
  | .unsigned size => fixedSizeCodec size
  | .bits size => fixedBitsCodec size
  | .string => stringCodec utf8Error
  | .rawBytes => rawBytesCodec
  | .tuple first second => tupleCodec (first.codec utf8Error) (second.codec utf8Error)
  | .product outer inner => productTimeCodec (outer.codec utf8Error) (inner.codec utf8Error)

theorem CodecShape.codec_lawful (utf8Error : List UInt8 → String) (shape : CodecShape) :
    (shape.codec utf8Error).Lawful := by
  induction shape with
  | unsigned size => exact fixedSizeCodec_lawful size
  | bits size => exact fixedBitsCodec_lawful size
  | string => exact lengthPrefixedCodec_lawful (stringOfBytes_stringBytes utf8Error)
  | rawBytes => exact lengthPrefixedCodec_lawful fun _ => rfl
  | tuple first second firstLawful secondLawful => exact sequenceCodec_lawful (fun _ => rfl) firstLawful secondLawful
  | product outer inner outerLawful innerLawful => exact sequenceCodec_lawful (fun _ => rfl) outerLawful innerLawful

theorem CodecShape.codec_rejectsPrefixes (utf8Error : List UInt8 → String) (shape : CodecShape) :
    (shape.codec utf8Error).RejectsPrefixes := by
  induction shape with
  | unsigned size => exact (bitsCodec_rejectsPrefixes : (fixedSizeCodec size).RejectsPrefixes)
  | bits size => exact (bitsCodec_rejectsPrefixes : (fixedBitsCodec size).RejectsPrefixes)
  | string => exact lengthPrefixedCodec_rejectsPrefixes
  | rawBytes => exact lengthPrefixedCodec_rejectsPrefixes
  | tuple first second firstRejects secondRejects =>
    exact sequenceCodec_rejectsPrefixes (codec_lawful utf8Error first) firstRejects secondRejects
  | product outer inner outerRejects innerRejects =>
    exact sequenceCodec_rejectsPrefixes (codec_lawful utf8Error outer) outerRejects innerRejects

end Shapes

end Instancy
