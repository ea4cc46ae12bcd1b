import Instancy.Dataflow.Channels.NetworkInbound

namespace Instancy

variable {T D : Type} {channel : DataChannel T D}

section Decoding

variable {envelope : Envelope T D}

theorem decodeWatermarkBody_recordless {timeCodec : Codec T} {rest : List UInt8}
    (decoded : decodeWatermarkBody timeCodec rest = .ok (some envelope)) : envelope.carriesRecords = false := by
  obtain ⟨⟨time, consumed⟩, _, later⟩ := Library.bind_eq_ok.mp decoded
  dsimp only at later
  split at later
  · cases later
  · cases later
    rfl

variable {utf8Error : List UInt8 → String}

theorem decodeErrorBody_recordless {rest : List UInt8}
    (decoded : decodeErrorBody utf8Error rest = .ok (some envelope)) : envelope.carriesRecords = false := by
  obtain ⟨_, _, decoded⟩ := Library.bind_eq_ok.mp decoded
  obtain ⟨_, _, decoded⟩ := Library.bind_eq_ok.mp decoded
  obtain ⟨_, _, decoded⟩ := Library.bind_eq_ok.mp decoded
  obtain ⟨_, _, decoded⟩ := Library.bind_eq_ok.mp decoded
  obtain ⟨_, _, decoded⟩ := Library.bind_eq_ok.mp decoded
  obtain ⟨_, _, decoded⟩ := Library.bind_eq_ok.mp decoded
  split at decoded
  · cases decoded
  · obtain ⟨_, _, decoded⟩ := Library.bind_eq_ok.mp decoded
    cases decoded
    rfl

/-- The envelope of a frame that the bridge takes for a control signal has no records. -/
theorem decodeEnvelope_recordless {timeCodec : Codec T} {dataCodec : Codec D} {bytes : List UInt8}
    (decoded : decodeEnvelope timeCodec dataCodec utf8Error bytes = .ok (some envelope))
    (control : frameCarriesRecords bytes = false) : envelope.carriesRecords = false := by
  cases bytes with
  | nil => cases control
  | cons tag rest =>
    simp only [frameCarriesRecords] at control
    split at control
    · rename_i signal
      rcases signal with rfl | rfl
      · exact decodeWatermarkBody_recordless decoded
      · exact decodeErrorBody_recordless decoded
    · split at control
      · rename_i close
        rw [close] at decoded
        cases rest with
        | nil => cases decoded
        | cons first more => cases control
      · cases control

end Decoding

namespace DataChannel

variable (channel)

/-- The records that a frame carries: an envelope with at least one record, or bytes that may have been one. -/
def carried (bytes : List UInt8) : Option (Except CodecError (Envelope T D)) :=
  match channel.decode bytes with
  | .ok (some envelope) => if envelope.carriesRecords then some (.ok envelope) else none
  | .ok none => none
  | .error error => if frameCarriesRecords bytes then some (.error error) else none

def recordsOf (frames : List (List UInt8)) : List (Except CodecError (Envelope T D)) :=
  frames.filterMap channel.carried

/-- The envelopes with records, in order. -/
def recordsIn (envelopes : List (Envelope T D)) : List (Except CodecError (Envelope T D)) :=
  (envelopes.filter Envelope.carriesRecords).map .ok

variable {channel}

variable {bytes : List UInt8} {envelope : Envelope T D}

theorem carried_of_some (decoded : channel.decode bytes = .ok (some envelope)) :
    channel.carried bytes = if envelope.carriesRecords then some (.ok envelope) else none := by
  simp only [carried, decoded]

theorem carried_of_none (decoded : channel.decode bytes = .ok none) :
    channel.carried bytes = none := by
  simp only [carried, decoded]

theorem carried_of_control (control : frameCarriesRecords bytes = false) :
    channel.carried bytes = none := by
  cases decoded : channel.decode bytes with
  | error error => simp [carried, decoded, control]
  | ok result =>
    cases result with
    | none => exact carried_of_none decoded
    | some envelope => simp [carried_of_some decoded, decodeEnvelope_recordless decoded control]

theorem decode_eq_none : channel.decode bytes = .ok none ↔ bytes = encodeClose :=
  decodeEnvelope_eq_none channel.utf8Error

@[simp]
theorem recordsOf_nil : channel.recordsOf [] = [] := rfl

@[simp]
theorem recordsOf_append (first second : List (List UInt8)) :
    channel.recordsOf (first ++ second) = channel.recordsOf first ++ channel.recordsOf second :=
  List.filterMap_append

theorem recordsOf_cons (bytes : List UInt8) (rest : List (List UInt8)) :
    channel.recordsOf (bytes :: rest) = channel.recordsOf [bytes] ++ channel.recordsOf rest :=
  recordsOf_append [bytes] rest

theorem recordsOf_of_carried (recordless : channel.carried bytes = none) :
    channel.recordsOf [bytes] = [] := by
  simp [recordsOf, recordless]

theorem recordsOf_of_some (decoded : channel.decode bytes = .ok (some envelope)) : channel.recordsOf
    [bytes] = recordsIn [envelope] := by
  cases carries : envelope.carriesRecords <;> simp [recordsOf, recordsIn, carried_of_some decoded, carries]

theorem recordsIn_append (first second : List (Envelope T D)) :
    recordsIn (first ++ second) = recordsIn first ++ recordsIn second := by
  simp [recordsIn]

end DataChannel

/-- The frame that the bridge delivers and has not sent. -/
def BridgePlace.hand : BridgePlace → List (List UInt8)
  | .delivering bytes => [bytes]
  | .sending bytes _ => [bytes]
  | .receiving => []
  | .sent _ => []
  | .exited => []

namespace Inbound

/-- Why the bridge reports something while it delivers a frame. -/
inductive Cause (channel : DataChannel T D) (inbound : Inbound T D) : Prop
  | follows (bytes : List UInt8) (delivering : inbound.bridge.place = .delivering bytes)
      (closed : inbound.bridge.closed = true)
  | undecodable (bytes : List UInt8) (hand : bytes ∈ inbound.bridge.place.hand)
      (invalid : channel.validate bytes = false)
  | late (bytes : List UInt8) (unseen : Bool) (sending : inbound.bridge.place = .sending bytes unseen)
      (records : frameCarriesRecords bytes = true) (gone : inbound.pull.place = .gone)
  | racing (sent : inbound.bridge.place = .sent true) (dropped : inbound.pullDropped = true)

/-- The frame that the bridge delivers needs no further step: if it may carry records that the pull end does not take,
then something was reported. -/
structure Settled (inbound : Inbound T D) : Prop where
  running : inbound.bridge.place ≠ .exited
  records : ∀ bytes ∈ inbound.bridge.place.hand, frameCarriesRecords bytes = true → inbound.reports ≠ []
  racing : inbound.bridge.place = .sent true → inbound.pullDropped = true → inbound.reports ≠ []
  behind : ∀ bytes ∈ inbound.bridge.place.hand,
    (inbound.bridge.place = .delivering bytes ∧ inbound.bridge.closed = true) ∨ inbound.pull.place = .gone

/-- The pull end is in use. -/
structure InUse (inbound : Inbound T D) : Prop where
  live : inbound.pull.place = .live
  unexhausted : inbound.pull.exhausted = false
  unfailed : inbound.pull.failed = false

/-- The two kinds of report: the channel lost data, or it ended with a failure. -/
inductive Report : LinkEvent → Prop
  | lost (detail : String) : Report (.inboundDataLost detail)
  | ended (failure : LinkFailure) : Report (.dataChannelEnded failure)

/-- What the steps of the two ends do. A step is a few of these in a row. -/
inductive Effect (channel : DataChannel T D) (inbound : Inbound T D) : Inbound T D → Prop
  | receive (bytes : List UInt8) (receiving : inbound.bridge.place = .receiving) :
      Effect channel inbound
        ({ inbound with delivered := inbound.delivered ++ [bytes] }.bridgeTo (.delivering bytes))
  | tell (event : LinkEvent) (reported corruptReported : Bool) (cause : inbound.Cause channel) (kind : Report event) :
      Effect channel inbound
        { inbound with
          reports := inbound.reports ++ [event]
          bridge := { inbound.bridge with reported := reported, corruptReported := corruptReported } }
  | settle (settled : inbound.Settled) : Effect channel inbound (inbound.bridgeTo .receiving)
  | disconnect (gone : inbound.pull.place = .gone) :
      Effect channel inbound { inbound with bridge := { inbound.bridge with tx := false } }
  | examine (bytes : List UInt8) (unseen : Bool)
      (delivering : inbound.bridge.place = .delivering bytes) (opened : inbound.bridge.closed = false) :
      Effect channel inbound
        ({ inbound with bridge := { inbound.bridge with closed := isCloseSentinel bytes } }.bridgeTo
          (.sending bytes unseen))
  | handOver (bytes : List UInt8) (unseen : Bool)
      (sending : inbound.bridge.place = .sending bytes unseen) (present : inbound.pull.place ≠ .gone) :
      Effect channel inbound
        ({ inbound with queue := inbound.queue ++ [bytes] }.bridgeTo (.sent (frameCarriesRecords bytes)))
  | drain : Effect channel inbound { inbound with bridge := { inbound.bridge with draining := true } }
  | exit (receiving : inbound.bridge.place = .receiving) : Effect channel inbound (inbound.bridgeTo .exited)
  | ended (receiving : inbound.bridge.place = .receiving) (opened : inbound.bridge.closed = false) :
      Effect channel inbound ((inbound.report (.dataChannelEnded .channelClosed)).bridgeTo .exited)
  | give (bytes : List UInt8) (rest : List (List UInt8)) (envelope : Envelope T D)
      (inUse : inbound.InUse) (first : inbound.queue = bytes :: rest)
      (decoded : channel.decode bytes = .ok (some envelope)) :
      Effect channel inbound
        { inbound with
          queue := rest, pull := { inbound.pull with returned := inbound.pull.returned ++ [envelope] } }
  | exhaust (rest : List (List UInt8)) (inUse : inbound.InUse) (first : inbound.queue = encodeClose :: rest) :
      Effect channel inbound { inbound with queue := rest, pull := { inbound.pull with exhausted := true } }
  | fail (bytes : List UInt8) (rest : List (List UInt8)) (failure : LinkFailure)
      (inUse : inbound.InUse) (first : inbound.queue = bytes :: rest) (invalid : channel.validate bytes = false) :
      Effect channel inbound
        ({ inbound with queue := rest, pull := { inbound.pull with failed := true } }.report (.dataChannelEnded failure))
  | closeEarly (inUse : inbound.InUse) :
      Effect channel inbound { inbound with pull := { inbound.pull with failed := true } }
  | drop (live : inbound.pull.place = .live) :
      Effect channel inbound ({ inbound with pullDropped := true }.pullTo (.draining 0 none))
  | discard (bytes : List UInt8) (rest : List (List UInt8)) (unconsumed more : Nat)
      (corrupt noted : Option CodecError) (draining : inbound.pull.place = .draining unconsumed corrupt)
      (first : inbound.queue = bytes :: rest) (kept : 0 < unconsumed ∨ corrupt ≠ none → 0 < more ∨ noted ≠ none)
      (counted : channel.carried bytes ≠ none → 0 < more ∨ noted ≠ none) :
      Effect channel inbound ({ inbound with queue := rest }.pullTo (.draining more noted))
  | drained (unconsumed : Nat) (corrupt : Option CodecError) (events : List LinkEvent)
      (draining : inbound.pull.place = .draining unconsumed corrupt) (empty : inbound.queue = [])
      (told : events = [] ↔ unconsumed = 0 ∧ corrupt = none) (kinds : ∀ event ∈ events, Report event) :
      Effect channel inbound ({ inbound with reports := inbound.reports ++ events }.pullTo .drained)
  | gone (drained : inbound.pull.place = .drained) : Effect channel inbound ({ inbound with queue := [] }.pullTo .gone)

/-- The flags say where the ends are. -/
structure Flagged (inbound : Inbound T D) : Prop where
  dropped : inbound.pullDropped = true ↔ inbound.pull.place ≠ .live
  sender : inbound.bridge.tx = false → inbound.pull.place = .gone
  reported : inbound.bridge.reported = true → inbound.reports ≠ []

theorem Flagged.effect {before after : Inbound T D} (flagged : before.Flagged) (effect : Effect channel before after) :
    after.Flagged := by
  obtain ⟨dropped, sender, reported⟩ := flagged
  cases effect <;> constructor <;> simp_all [bridgeTo, pullTo, report]

/-- A few effects in a row. -/
abbrev Effects (channel : DataChannel T D) : Inbound T D → Inbound T D → Prop :=
  Relation.ReflTransGen (Effect channel)

theorem Flagged.effects {before after : Inbound T D} (flagged : before.Flagged)
    (effects : Effects channel before after) : after.Flagged := by
  induction effects with
  | refl => exact flagged
  | tail _ last ih => exact ih.effect last

section Steps

variable {inbound : Inbound T D}

variable {bytes : List UInt8}

theorem check_effects (hand : bytes ∈ inbound.bridge.place.hand) :
    Effects channel inbound (inbound.check channel bytes) := by
  unfold check
  split
  · rename_i invalid
    exact .single (.tell _ _ _ (.undecodable bytes hand (by simpa using invalid.2)) (.ended _))
  · exact .refl

variable {event : LinkEvent}

theorem reportOnce_effects (cause : inbound.Cause channel) (kind : Report event) :
    Effects channel inbound (inbound.reportOnce event) := by
  unfold reportOnce
  split
  · exact .refl
  · exact .single (.tell _ _ _ cause kind)

theorem reportOnce_reports (flagged : inbound.Flagged) (event : LinkEvent) :
    (inbound.reportOnce event).reports ≠ [] := by
  unfold reportOnce
  split
  · rename_i reported
    exact flagged.reported reported
  · simp [report]

/-- The bridge reports something and is done with its frame. -/
theorem reportOnce_settles (flagged : inbound.Flagged) (cause : inbound.Cause channel) (kind : Report event)
    (running : inbound.bridge.place ≠ .exited)
    (behind : ∀ bytes ∈ inbound.bridge.place.hand,
      (inbound.bridge.place = .delivering bytes ∧ inbound.bridge.closed = true) ∨ inbound.pull.place = .gone) :
    Effects channel inbound ((inbound.reportOnce event).bridgeTo .receiving) := by
  have told := reportOnce_reports flagged event
  refine (reportOnce_effects cause kind).tail (.settle ⟨?_, fun _ _ _ => told, fun _ _ => told, ?_⟩)
  · unfold reportOnce
    split <;> exact running
  · unfold reportOnce
    split <;> exact behind

theorem check_same (channel : DataChannel T D) (inbound : Inbound T D) (bytes : List UInt8) :
    (inbound.check channel bytes).bridge.place = inbound.bridge.place ∧
      (inbound.check channel bytes).bridge.closed = inbound.bridge.closed ∧
      (inbound.check channel bytes).pull = inbound.pull := by
  unfold check
  split <;> exact ⟨rfl, rfl, rfl⟩

section

variable (flagged : inbound.Flagged)
include flagged

theorem examine_effects (delivering : inbound.bridge.place = .delivering bytes) :
    Effects channel inbound (inbound.examine channel bytes) := by
  unfold examine
  split
  · rename_i closed
    refine reportOnce_settles flagged (.follows bytes delivering closed) (.ended _) ?_ fun other member => Or.inl ⟨?_, closed⟩
    · rw [delivering]
      exact BridgePlace.noConfusion
    · rw [delivering] at member ⊢
      rw [List.mem_singleton.mp member]
  · rename_i opened
    have hand : bytes ∈ inbound.bridge.place.hand := by
      rw [delivering]
      exact List.mem_singleton_self bytes
    dsimp only
    split
    · -- The flag `closed` does not matter to the check, which may come first.
      have noted : ({ inbound with bridge := { inbound.bridge with closed := isCloseSentinel bytes } }.check channel
          bytes) = { inbound.check channel bytes with
            bridge := { (inbound.check channel bytes).bridge with closed := isCloseSentinel bytes } } := by
        unfold check
        split <;> rfl
      rw [noted]
      obtain ⟨place, closed, _⟩ := check_same channel inbound bytes
      refine (check_effects hand).tail (.examine bytes _ (place.trans delivering) ?_)
      rw [closed]
      exact Bool.eq_false_iff.mpr opened
    · exact .single (.examine bytes _ delivering (Bool.eq_false_iff.mpr opened))

theorem undeliverable_effects {unseen : Bool}
    (sending : inbound.bridge.place = .sending bytes unseen) (gone : inbound.pull.place = .gone) :
    Effects channel inbound (inbound.undeliverable channel bytes) := by
  have running : inbound.bridge.place ≠ .exited := by
    rw [sending]
    exact BridgePlace.noConfusion
  unfold undeliverable
  split
  · rename_i records
    exact reportOnce_settles flagged (.late bytes unseen sending records gone) (.lost _) running fun _ _ => Or.inr gone
  · rename_i control
    refine .single (.settle ⟨running, fun other member records => ?_, fun sent => ?_, fun _ _ => Or.inr gone⟩)
    · rw [sending] at member
      rw [List.mem_singleton.mp member] at records
      exact absurd records control
    · cases sending.symm.trans sent

theorem send_effects {unseen : Bool} (sending : inbound.bridge.place = .sending bytes unseen) :
    Effects channel inbound (inbound.send channel bytes unseen) := by
  unfold send
  split
  · split
    · rename_i gone
      generalize failed_eq : { inbound with bridge := { inbound.bridge with tx := false } } = failed
      have left : Effect channel inbound failed := failed_eq ▸ .disconnect gone
      have stillSending : failed.bridge.place = .sending bytes unseen := failed_eq ▸ sending
      have stillGone : failed.pull.place = .gone := failed_eq ▸ gone
      refine Relation.ReflTransGen.head left ?_
      split
      · exact undeliverable_effects (flagged.effect left) stillSending stillGone
      · obtain ⟨place, _, pull⟩ := check_same channel failed bytes
        have checked : Effects channel failed (failed.check channel bytes) := by
          refine check_effects ?_
          rw [stillSending]
          exact List.mem_singleton_self bytes
        refine checked.trans (undeliverable_effects ((flagged.effect left).effects checked)
          (place.trans stillSending) ?_)
        rw [pull]
        exact stillGone
    · rename_i present
      exact .single (.handOver bytes unseen sending present)
  · rename_i left
    exact undeliverable_effects flagged sending (flagged.sender (Bool.eq_false_iff.mpr left))

theorem recheck_effects {records : Bool} (sent : inbound.bridge.place = .sent records) :
    Effects channel inbound (inbound.recheck channel records) := by
  have running : inbound.bridge.place ≠ .exited := by
    rw [sent]
    exact BridgePlace.noConfusion
  have empty : ∀ bytes, bytes ∉ inbound.bridge.place.hand := by
    intro bytes
    rw [sent]
    exact List.not_mem_nil
  unfold recheck
  split
  · rename_i racing
    have cause : inbound.Cause channel := .racing (by rw [sent, racing.1]) racing.2
    exact reportOnce_settles flagged cause (.lost _) running fun bytes member => absurd member (empty bytes)
  · rename_i apart
    refine .single (.settle ⟨running, fun bytes member => absurd member (empty bytes), fun known dropped => ?_,
      fun bytes member => absurd member (empty bytes)⟩)
    cases sent.symm.trans known
    exact absurd ⟨rfl, dropped⟩ apart

theorem deliver_effects : Effects channel inbound (inbound.deliver channel) := by
  unfold deliver
  split
  · rename_i bytes delivering
    exact examine_effects flagged delivering
  · rename_i bytes unseen sending
    exact send_effects flagged sending
  · rename_i records sent
    exact recheck_effects flagged sent
  · exact .refl
  · exact .refl

end

theorem finish_effects : Effects channel inbound inbound.finish := by
  unfold finish
  split
  · rename_i receiving
    split
    · rename_i early
      exact .single (.ended receiving (by simpa using early.2))
    · exact .single (.exit receiving)
  · exact .refl

/-- A pull that does something has one effect. -/
theorem pullFrame_effect (channel : DataChannel T D) (inbound : Inbound T D) :
    inbound.pullFrame channel = inbound ∨ Effect channel inbound (inbound.pullFrame channel) := by
  unfold pullFrame
  split
  · exact Or.inl rfl
  · have inUse : inbound.InUse := ⟨by simp_all, by simp_all, by simp_all⟩
    split
    · split
      · exact Or.inr (.closeEarly inUse)
      · exact Or.inl rfl
    · rename_i bytes rest first
      split
      · rename_i envelope decoded
        exact Or.inr (.give bytes rest envelope inUse first decoded)
      · rename_i decoded
        rw [DataChannel.decode_eq_none.mp decoded] at first
        exact Or.inr (.exhaust rest inUse first)
      · rename_i error decoded
        have invalid : channel.validate bytes = false := by
          simp [DataChannel.validate, decoded, Except.isOk, Except.toBool]
        exact Or.inr (.fail bytes rest _ inUse first invalid)

theorem pullFrame_effects : Effects channel inbound (inbound.pullFrame channel) := by
  rcases pullFrame_effect channel inbound with same | effect
  · rw [same]
  · exact .single effect

theorem report_report (first second : LinkEvent) :
    (inbound.report first).report second = { inbound with reports := inbound.reports ++ [first, second] } := by
  simp [report]

theorem reportDrained_eq (channel : DataChannel T D) (inbound : Inbound T D) (unconsumed : Nat)
    (corrupt : Option CodecError) :
    ∃ events, inbound.reportDrained channel unconsumed corrupt =
        { inbound with reports := inbound.reports ++ events } ∧
      (events = [] ↔ unconsumed = 0 ∧ corrupt = none) ∧ ∀ event ∈ events, Report event := by
  unfold reportDrained
  cases corrupt with
  | none =>
    dsimp only
    split
    · exact ⟨[_], rfl, by simp; omega, by simp [Report.lost]⟩
    · exact ⟨[], by simp, by simp; omega, nofun⟩
  | some error =>
    dsimp only
    split
    · exact ⟨[_, _], report_report _ _, by simp, by simp [Report.lost, Report.ended]⟩
    · exact ⟨[_], rfl, by simp, by simp [Report.ended]⟩

theorem dropPull_effects : Effects channel inbound (inbound.dropPull channel) := by
  unfold dropPull
  split
  · rename_i live
    exact .single (.drop live)
  · rename_i unconsumed corrupt draining
    split
    · rename_i empty
      obtain ⟨events, same, told, kinds⟩ := reportDrained_eq channel inbound unconsumed corrupt
      rw [same]
      exact .single (.drained unconsumed corrupt events draining empty told kinds)
    · rename_i bytes rest first
      split
      · rename_i envelope decoded
        refine .single (.discard bytes rest unconsumed _ corrupt corrupt draining first ?_ ?_)
        · intro due
          split <;> omega
        · intro carried
          rw [DataChannel.carried_of_some decoded] at carried
          split at carried <;> simp_all
      · rename_i decoded
        exact .single (.discard bytes rest unconsumed _ corrupt corrupt draining first id fun carried =>
          absurd (DataChannel.carried_of_none decoded) carried)
      · refine .single (.discard bytes rest unconsumed _ corrupt _ draining first (fun _ => Or.inr ?_)
          fun _ => Or.inr ?_)
        · cases corrupt <;> simp
        · cases corrupt <;> simp
  · rename_i drained
    exact .single (.gone drained)
  · exact .refl

theorem receive_effects (bytes : List UInt8) : Effects channel inbound (inbound.receive bytes) := by
  unfold receive
  split
  · rename_i receiving
    exact .single (.receive bytes receiving)
  · exact .refl

theorem drain_effects : Effects channel inbound inbound.drain := by
  unfold drain
  split
  · exact .single .drain
  · exact .refl

theorem step_effects (flagged : inbound.Flagged) (move : Move) : Effects channel inbound
    (inbound.step channel move) := by
  cases move with
  | receive bytes => exact receive_effects bytes
  | deliver => exact deliver_effects flagged
  | drain => exact drain_effects
  | finish => exact finish_effects
  | pull => exact pullFrame_effects
  | drop => exact dropPull_effects

end Steps

end Inbound

end Instancy
