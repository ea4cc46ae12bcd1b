import Instancy.Communication.SharedTransport

namespace Instancy

open Library Relation

/-- The report ends the inbound side. -/
def Report.isEnd : Report → Bool
  | .event _ => false
  | .inboundEnded .. => true

variable {frame : Frame}

namespace DataflowRegistration

def ends (reg : DataflowRegistration) : List Report := reg.reports.filter Report.isEnd

/-- What one change of a registration can be. A payload frame is accepted only if it arrived. -/
inductive Effect (dataflowId : DataflowId) (arrived : Option Frame) :
    DataflowRegistration → DataflowRegistration → Prop where
  | numbered (reg : DataflowRegistration) (frame : Frame) (fits : reg.nextSendSeq + 1 < 2 ^ 64) :
      Effect dataflowId arrived reg (reg.number dataflowId frame)
  | reported (reg : DataflowRegistration) (failed : Bool) (event : PeerIoEvent) :
      Effect dataflowId arrived reg ({ reg with outboundFailed := failed }.report (.event event))
  | control (reg : DataflowRegistration) (conn : Nat) (payload : List UInt8) (running : reg.inboundFailed = false) :
      Effect dataflowId arrived reg { reg with inboundConn := some conn, controls := reg.controls ++ [payload] }
  | accepted (reg : DataflowRegistration) (conn : Nat) (frame : Frame) (running : reg.inboundFailed = false)
      (here : arrived = some frame) (next : readLe sequencePrefix frame.payload 0 = .ok reg.nextRecvSeq) :
      Effect dataflowId arrived reg
        { reg with
          inboundConn := some conn
          nextRecvSeq := reg.nextRecvSeq + 1
          accepted := reg.accepted ++ [(frame.channelId, frame.payload.drop sequencePrefix)] }
  | ended (reg : DataflowRegistration) (conn : Option Nat) (number : Nat) (event : PeerIoEvent)
      (running : reg.inboundFailed = false) (grows : reg.nextRecvSeq ≤ number) :
      Effect dataflowId arrived reg ({ reg with inboundConn := conn, nextRecvSeq := number }.endInbound event)

/-- What holds of every registration. The channels are closed exactly with the one report that ends it. -/
structure Lane (dataflowId : DataflowId) (reg : DataflowRegistration) : Prop where
  running : reg.inboundFailed = false → reg.ends = [] ∧ reg.accepted.length = reg.nextRecvSeq ∧
    ∃ senders, reg.channelSenders = some senders ∧ controlChannelId ∈ senders
  stopped : reg.inboundFailed = true → reg.channelSenders = none ∧
    ∃ event senders, reg.ends = [.inboundEnded event (some senders)]
  emitted : reg.emitted = reg.numbered.mapIdx fun seq entry => ⟨dataflowId, entry.1, leBytes 8 seq ++ entry.2⟩
  sent : reg.nextSendSeq = reg.numbered.length
  fits : reg.numbered.length < 2 ^ 64

theorem ends_report_event (reg : DataflowRegistration) (event : PeerIoEvent) :
    (reg.report (.event event)).ends = reg.ends := by
  unfold ends report
  rw [List.filter_append]
  exact List.append_nil _

theorem ends_endInbound (reg : DataflowRegistration) (event : PeerIoEvent) :
    (reg.endInbound event).ends = reg.ends ++ [.inboundEnded event reg.channelSenders] := by
  unfold ends endInbound report
  rw [List.filter_append]
  rfl

variable {dataflowId : DataflowId} {arrived : Option Frame} {reg after : DataflowRegistration}

theorem Effect.lane (effect : Effect dataflowId arrived reg after) (lane : Lane dataflowId reg) :
    Lane dataflowId after := by
  cases effect with
  | numbered frame fits =>
    unfold number
    rw [if_pos fits]
    refine ⟨lane.running, lane.stopped, ?_, ?_, ?_⟩
    · rw [List.mapIdx_append, ← lane.emitted, lane.sent]
      simp
    · rw [List.length_append, lane.sent]
      rfl
    · rw [List.length_append, ← lane.sent]
      exact fits
  | reported failed event =>
    refine ⟨?_, ?_, lane.emitted, lane.sent, lane.fits⟩
    · rw [ends_report_event]
      exact lane.running
    · rw [ends_report_event]
      exact lane.stopped
  | control conn payload running =>
    exact ⟨lane.running, lane.stopped, lane.emitted, lane.sent, lane.fits⟩
  | accepted conn frame running here next =>
    refine ⟨fun still => ?_, lane.stopped, lane.emitted, lane.sent, lane.fits⟩
    obtain ⟨none, length, senders⟩ := lane.running still
    refine ⟨none, ?_, senders⟩
    rw [List.length_append, length]
    rfl
  | ended conn number event running grows =>
    obtain ⟨none, _, senders, channels, _⟩ := lane.running running
    refine ⟨nofun, fun _ => ⟨rfl, event, senders, ?_⟩, lane.emitted, lane.sent, lane.fits⟩
    rw [ends_endInbound]
    show reg.ends ++ [.inboundEnded event reg.channelSenders] = _
    rw [none, channels, List.nil_append]

/-- How a registration may look later. Once its inbound side has ended, it accepts nothing more. -/
structure Follows (reg later : DataflowRegistration) : Prop where
  numbered : reg.numbered <+: later.numbered
  accepted : reg.accepted <+: later.accepted
  stops : reg.inboundFailed = true → later.inboundFailed = true ∧ later.accepted = reg.accepted ∧
    later.controls = reg.controls ∧ later.nextRecvSeq = reg.nextRecvSeq ∧ later.ends = reg.ends

theorem Follows.refl : Follows reg reg :=
  ⟨List.prefix_rfl, List.prefix_rfl, fun stopped => ⟨stopped, rfl, rfl, rfl, rfl⟩⟩

theorem Follows.trans {last : DataflowRegistration} (first : Follows reg after) (second : Follows after last) :
    Follows reg last := by
  refine ⟨first.numbered.trans second.numbered, first.accepted.trans second.accepted, fun stopped => ?_⟩
  obtain ⟨still, accepted, controls, number, ends⟩ := first.stops stopped
  obtain ⟨end_, accepted', controls', number', ends'⟩ := second.stops still
  exact ⟨end_, accepted'.trans accepted, controls'.trans controls, number'.trans number, ends'.trans ends⟩

theorem Effect.follows (effect : Effect dataflowId arrived reg after) : Follows reg after := by
  have never {P : Prop} (running : reg.inboundFailed = false) (stopped : reg.inboundFailed = true) : P :=
    Bool.noConfusion (running.symm.trans stopped)
  cases effect with
  | numbered frame fits =>
    unfold number
    rw [if_pos fits]
    exact ⟨List.prefix_append .., List.prefix_rfl, fun stopped => ⟨stopped, rfl, rfl, rfl, rfl⟩⟩
  | reported failed event =>
    refine ⟨List.prefix_rfl, List.prefix_rfl, fun stopped => ⟨stopped, rfl, rfl, rfl, ?_⟩⟩
    rw [ends_report_event]
    rfl
  | control conn payload running =>
    exact ⟨List.prefix_rfl, List.prefix_rfl, never running⟩
  | accepted conn frame running here next =>
    exact ⟨List.prefix_rfl, List.prefix_append .., never running⟩
  | ended conn number event running grows => exact ⟨List.prefix_rfl, List.prefix_rfl, never running⟩

/-- The changes that one critical section makes. -/
abbrev Changes (dataflowId : DataflowId) (arrived : Option Frame) := ReflTransGen (Effect dataflowId arrived)

theorem Changes.lane (changes : Changes dataflowId arrived reg after) (lane : Lane dataflowId reg) :
    Lane dataflowId after := by
  induction changes with
  | refl => exact lane
  | tail _ effect ih => exact effect.lane ih

theorem Changes.follows (changes : Changes dataflowId arrived reg after) : Follows reg after := by
  induction changes with
  | refl => exact .refl
  | tail _ effect ih => exact ih.trans effect.follows

theorem number_changes (frame : Frame) : Changes dataflowId arrived reg (reg.number dataflowId frame) := by
  by_cases fits : reg.nextSendSeq + 1 < 2 ^ 64
  · exact .single (.numbered reg frame fits)
  · unfold number
    rw [if_neg fits]

theorem endOutbound_changes (error : TransportError) : Changes dataflowId arrived reg (reg.endOutbound error) :=
  .single (.reported reg true _)

theorem report_changes (event : PeerIoEvent) : Changes dataflowId arrived reg (reg.report (.event event)) :=
  .single (.reported reg reg.outboundFailed event)

theorem failOutbound_changes (connId : Nat) (error : TransportError) :
    Changes dataflowId arrived reg (reg.failOutbound connId error) := by
  unfold failOutbound
  split
  · exact endOutbound_changes error
  · exact .refl

theorem failInbound_changes (connId : Nat) (ended : InboundEnd) :
    Changes dataflowId arrived reg (reg.failInbound connId ended dataflowId) := by
  unfold failInbound
  dsimp only
  generalize hit : decide (reg.inboundConn = some connId ∧ ¬reg.inboundFailed = true) = hits
  have first : Changes dataflowId arrived reg
      (if hits = true then reg.endInbound (ended.eventFor dataflowId) else reg) := by
    split
    · rename_i here
      have running : reg.inboundFailed = false := by
        rw [here] at hit
        exact Bool.eq_false_iff.mpr (of_decide_eq_true hit).2
      exact .single (.ended reg reg.inboundConn reg.nextRecvSeq _ running le_rfl)
    · exact .refl
  generalize (if hits = true then reg.endInbound (ended.eventFor dataflowId) else reg) = middle at first ⊢
  split
  · exact first
  split
  · exact first
  split
  · exact first.trans (report_changes _)
  · exact first.trans (endOutbound_changes _)

variable {connId : Nat}

/-- The end of the inbound connection ends the inbound side. -/
theorem failInbound_stopped (ended : InboundEnd) (dataflowId : DataflowId)
    (inbound : reg.inboundConn = some connId) : (reg.failInbound connId ended dataflowId).inboundFailed = true := by
  unfold failInbound
  dsimp only
  generalize hit : decide (reg.inboundConn = some connId ∧ ¬reg.inboundFailed = true) = hits
  have stopped : (if hits = true then reg.endInbound (ended.eventFor dataflowId) else reg).inboundFailed = true := by
    split
    · rfl
    · rename_i missed
      by_contra running
      exact missed (hit ▸ decide_eq_true ⟨inbound, running⟩)
  generalize (if hits = true then reg.endInbound (ended.eventFor dataflowId) else reg) = middle at stopped ⊢
  split
  · exact stopped
  split
  · exact stopped
  split
  · exact stopped
  · exact stopped

/-- The connection of a payload frame, its number and its channel are right. -/
def Acceptable (reg : DataflowRegistration) (laneConn connId : Nat) (frame : Frame) : Prop :=
  laneConn = connId ∧ readLe sequencePrefix frame.payload 0 = .ok reg.nextRecvSeq ∧
    ∃ senders, reg.channelSenders = some senders ∧ frame.channelId ∈ senders

/-- What the check of a payload frame can give. -/
inductive Checked (reg : DataflowRegistration) (laneConn connId : Nat) (frame : Frame) :
    Except TransportError (Option (UInt64 × List UInt8)) × DataflowRegistration → Prop where
  | accepted (right : reg.Acceptable laneConn connId frame) :
      Checked reg laneConn connId frame
        (.ok (some (frame.channelId, frame.payload.drop sequencePrefix)), { reg with nextRecvSeq := reg.nextRecvSeq + 1 })
  | violated (violation : TransportError) (number : Nat) (grows : reg.nextRecvSeq ≤ number)
      (wrong : ¬reg.Acceptable laneConn connId frame) :
      Checked reg laneConn connId frame (.error violation, { reg with nextRecvSeq := number })

variable {senders : List UInt64}

theorem checkLane_checked {laneConn : Nat} (channels : reg.channelSenders = some senders) :
    Checked reg laneConn connId frame (checkLane laneConn connId frame reg) := by
  unfold checkLane
  split
  · rename_i other
    exact .violated _ reg.nextRecvSeq le_rfl fun right => other right.1
  rename_i conn
  have conn : laneConn = connId := not_not.mp conn
  split
  · rename_i error missing
    refine .violated _ reg.nextRecvSeq le_rfl fun right => ?_
    cases missing.symm.trans right.2.1
  · rename_i seq found
    split
    · rename_i other
      refine .violated _ reg.nextRecvSeq le_rfl fun right => other ?_
      exact Except.ok.inj (found.symm.trans right.2.1)
    · rename_i next
      rw [not_not.mp next] at found
      rw [channels]
      dsimp only
      split
      · rename_i known
        rw [← channels]
        exact .accepted ⟨conn, found, senders, channels, known⟩
      · rename_i unknown
        rw [← channels]
        refine .violated _ (reg.nextRecvSeq + 1) (Nat.le_succ _) fun right => unknown ?_
        obtain ⟨_, _, others, same, known⟩ := right
        rwa [Option.some.inj (channels.symm.trans same)]

/-- A payload frame is accepted exactly if it is the next one of the lane. -/
theorem onFrame_payload (running : reg.inboundFailed = false)
    (channels : reg.channelSenders = some senders) (payload : frame.channelId ≠ controlChannelId) :
    (reg.Acceptable (reg.inboundConn.getD connId) connId frame ∧ reg.onFrame connId frame =
      { reg with
        inboundConn := some connId
        nextRecvSeq := reg.nextRecvSeq + 1
        accepted := reg.accepted ++ [(frame.channelId, frame.payload.drop sequencePrefix)] }) ∨
    (¬reg.Acceptable (reg.inboundConn.getD connId) connId frame ∧ ∃ conn number violation,
      reg.nextRecvSeq ≤ number ∧ reg.onFrame connId frame =
        { reg with inboundConn := conn, nextRecvSeq := number }.endInbound (.readFailed violation)) := by
  unfold onFrame
  rw [if_neg (Bool.eq_false_iff.mp running)]
  rw [if_neg payload]
  have checked : Checked { reg with inboundConn := some (reg.inboundConn.getD connId) } (reg.inboundConn.getD connId)
    connId frame (checkLane _ connId frame _) := checkLane_checked channels
  generalize checkLane _ connId frame _ = outcome at checked ⊢
  cases checked with
  | accepted right =>
    refine Or.inl ⟨right, ?_⟩
    rw [right.1]
  | violated violation number grows wrong => exact Or.inr ⟨wrong, _, number, violation, grows, rfl⟩

theorem onFrame_control (running : reg.inboundFailed = false)
    (channels : reg.channelSenders = some senders) (has : controlChannelId ∈ senders)
    (control : frame.channelId = controlChannelId) : reg.onFrame connId frame =
      { reg with
        inboundConn := some (reg.inboundConn.getD connId)
        controls := reg.controls ++ [frame.payload] } := by
  unfold onFrame
  rw [if_neg (Bool.eq_false_iff.mp running)]
  rw [if_pos control, channels]
  exact if_pos has

theorem onFrame_stopped (connId : Nat) (frame : Frame) (stopped : reg.inboundFailed = true) :
    reg.onFrame connId frame = reg := if_pos stopped

theorem onFrame_changes (connId : Nat) (frame : Frame) (lane : Lane dataflowId reg)
    (here : frame.channelId ≠ controlChannelId → arrived = some frame) :
    Changes dataflowId arrived reg (reg.onFrame connId frame) := by
  match running : reg.inboundFailed with
  | true =>
    rw [onFrame_stopped connId frame running]
  | false =>
    obtain ⟨_, _, senders, channels, has⟩ := lane.running running
    by_cases control : frame.channelId = controlChannelId
    · rw [onFrame_control running channels has control]
      exact .single (.control reg _ _ running)
    · rcases onFrame_payload running channels control with ⟨right, same⟩ | ⟨_, conn, number, violation, grows, same⟩
      · rw [same]
        exact .single (.accepted reg connId frame running (here control) right.2.1)
      · rw [same]
        exact .single (.ended reg conn number _ running grows)

end DataflowRegistration

/-- The payload frame of a dataflow that arrives with a critical section. -/
def ManagerOp.arrived (dataflowId : DataflowId) : ManagerOp → Option Frame
  | .frame _ _ here =>
    if here.dataflowId = dataflowId ∧ here.channelId ≠ controlChannelId ∧ here.channelId ≠ probeChannelId then
      some here
    else none
  | _ => none

variable {token : UInt64}

namespace SharedState

open DataflowRegistration

/-- The registrations of a dataflow: those that ended, and the one that it has. -/
def lanes (state : SharedState) (dataflowId : DataflowId) : List DataflowRegistration × Option DataflowRegistration :=
  (state.past dataflowId, state.registered dataflowId)

/-- A registration that has neither sent nor accepted a payload frame. -/
structure Fresh (dataflowId : DataflowId) (reg : DataflowRegistration) : Prop where
  lane : Lane dataflowId reg
  accepted : reg.accepted = []

/-- What a critical section can do to the registrations of a dataflow. -/
inductive Evolves (dataflowId : DataflowId) (arrived : Option Frame) :
    List DataflowRegistration × Option DataflowRegistration →
    List DataflowRegistration × Option DataflowRegistration → Prop where
  | same (lanes : List DataflowRegistration × Option DataflowRegistration) : Evolves dataflowId arrived lanes lanes
  | changed {past : List DataflowRegistration} {reg after : DataflowRegistration}
      (changes : Changes dataflowId arrived reg after) : Evolves dataflowId arrived (past, some reg) (past, some after)
  | finished {past : List DataflowRegistration} {reg : DataflowRegistration} :
      Evolves dataflowId arrived (past, some reg) (past ++ [reg], none)
  | started {past : List DataflowRegistration} {reg : DataflowRegistration} (fresh : Fresh dataflowId reg) :
      Evolves dataflowId arrived (past, none) (past, some reg)

variable {state : SharedState} {arrived : Option Frame}

theorem setRegistration_evolves {changed dataflowId : DataflowId} {reg after : DataflowRegistration}
    (found : state.registered changed = some reg)
    (changes : dataflowId = changed → Changes dataflowId arrived reg after) :
    Evolves dataflowId arrived (state.lanes dataflowId)
      ((state.setRegistration changed after).lanes dataflowId) := by
  unfold lanes setRegistration
  by_cases same : dataflowId = changed
  · subst same
    dsimp only
    rw [found, Function.update_self]
    exact .changed (changes rfl)
  · dsimp only
    rw [Function.update_of_ne same]
    exact .same _

theorem map_evolves {dataflowId : DataflowId} {change : DataflowRegistration → DataflowRegistration}
    (changes : ∀ reg, Changes dataflowId arrived reg (change reg)) :
    Evolves dataflowId arrived (state.lanes dataflowId)
      (state.past dataflowId, (state.registered dataflowId).map change) := by
  unfold lanes
  cases state.registered dataflowId with
  | none => exact .same _
  | some reg => exact .changed (changes reg)

theorem sendPayload_evolves (sender : DataflowId) (token : UInt64) (frame : Frame) (dataflowId : DataflowId) :
    Evolves dataflowId arrived (state.lanes dataflowId)
      ((state.sendPayload sender token frame).lanes dataflowId) := by
  unfold sendPayload
  split
  · exact .same _
  rename_i reg found
  split
  · exact .same _
  split
  · exact setRegistration_evolves found fun _ => report_changes _
  split
  · exact .same _
  split
  · exact setRegistration_evolves found fun _ => endOutbound_changes _
  · refine setRegistration_evolves found fun same => ?_
    rw [same]
    exact number_changes frame

/-- The registration of every dataflow is a lane. -/
def Lanes (state : SharedState) : Prop :=
  ∀ dataflowId, ∀ reg ∈ state.past dataflowId ++ (state.registered dataflowId).toList, Lane dataflowId reg

theorem onFrame_evolves (lanes : state.Lanes) (now connId : Nat) (frame : Frame) (dataflowId : DataflowId) :
    Evolves dataflowId ((ManagerOp.frame now connId frame).arrived dataflowId) (state.lanes dataflowId)
      ((state.onFrame now connId frame).lanes dataflowId) := by
  unfold onFrame
  split
  · exact .same _
  rename_i probe
  split
  · split
    · exact .same _
    · exact .same _
  · rename_i reg found
    have lane : Lane frame.dataflowId reg :=
      lanes _ reg (List.mem_append_right _ (by rw [found]; exact List.mem_singleton_self _))
    refine setRegistration_evolves found fun same => ?_
    subst same
    exact onFrame_changes connId frame lane fun payload => if_pos ⟨rfl, payload, probe⟩

theorem unpin_eq (connId : Nat) :
    state.unpin connId = { state with connections := (state.unpin connId).connections } := by
  unfold unpin
  split
  · rfl
  · dsimp only
    split <;> rfl

theorem unregister_evolves (ended : DataflowId) (token : Option UInt64) (dataflowId : DataflowId) :
    Evolves dataflowId arrived (state.lanes dataflowId)
      ((state.unregister ended token).lanes dataflowId) := by
  unfold unregister
  split
  · rename_i reg found
    split
    · rw [unpin_eq]
      unfold lanes
      dsimp only
      by_cases same : dataflowId = ended
      · subst same
        rw [Function.update_self, Function.update_self, found]
        exact .finished
      · rw [Function.update_of_ne same, Function.update_of_ne same]
        exact .same _
    · exact .same _
  · split
    · exact .same _
    · exact .same _

theorem idUnavailable_none {dataflowId : DataflowId}
    (free : state.idUnavailable dataflowId token = none) : state.registered dataflowId = none := by
  unfold idUnavailable at free
  split at free
  · cases free
  · rename_i unknown
    exact Option.not_isSome_iff_eq_none.mp fun some => unknown (Or.inl some)

variable {channelIds : List UInt64} {channelCapacity : Nat}

/-- A registration starts with open channels and without frames. -/
theorem register_ok {dataflowId : DataflowId}
    {after : SharedState} (done : state.register dataflowId token channelIds channelCapacity = .ok after) :
    state.idUnavailable dataflowId token = none ∧ ∃ reg, Fresh dataflowId reg ∧ reg.token = token ∧
      after.registered = Function.update state.registered dataflowId (some reg) ∧ after.past = state.past ∧
      after.completed = state.completed ∧ after.claims =
        if state.claims dataflowId = some token then Function.update state.claims dataflowId none else state.claims := by
  unfold register at done
  split at done
  · cases done
  split at done
  · cases done
  split at done
  · cases done
  rename_i free
  split at done
  · cases done
  cases done
  refine ⟨free, _, ⟨?_, ?_⟩, rfl, rfl, rfl, rfl, rfl⟩
  · exact ⟨fun _ => ⟨rfl, rfl, _, rfl, List.mem_cons_self ..⟩, nofun, rfl, rfl,
      Nat.two_pow_pos 64⟩
  · rfl

theorem register_evolves {started : DataflowId}
    {after : SharedState} (done : state.register started token channelIds channelCapacity = .ok after)
    (dataflowId : DataflowId) : Evolves dataflowId arrived (state.lanes dataflowId) (after.lanes dataflowId) := by
  obtain ⟨free, reg, fresh, _, registered, past, _⟩ := register_ok done
  unfold lanes
  rw [registered, past]
  by_cases same : dataflowId = started
  · subst same
    rw [Function.update_self, idUnavailable_none free]
    exact .started fresh
  · rw [Function.update_of_ne same]
    exact .same _

theorem failInbound_lanes (connId : Nat) (ended : InboundEnd) (dataflowId : DataflowId) :
    (state.failInbound connId ended).lanes dataflowId = (state.past dataflowId,
      (state.registered dataflowId).map (DataflowRegistration.failInbound connId ended dataflowId)) := by
  unfold failInbound lanes
  split
  · split <;> rfl
  · rfl

theorem step_evolves (lanes : state.Lanes) (op : ManagerOp) (dataflowId : DataflowId) :
    Evolves dataflowId (op.arrived dataflowId) (state.lanes dataflowId) ((state.step op).lanes dataflowId) := by
  cases op with
  | addConnection => exact .same _
  | sendPayload sender token frame => exact sendPayload_evolves sender token frame dataflowId
  | sendControl frame => exact .same _
  | frame now connId frame => exact onFrame_evolves lanes now connId frame dataflowId
  | failOutbound connId error => exact map_evolves fun reg => failOutbound_changes connId error
  | failInbound connId ended =>
    show Evolves dataflowId _ _ ((state.failInbound connId ended).lanes dataflowId)
    rw [failInbound_lanes]
    exact map_evolves fun reg => failInbound_changes connId ended
  | register started token channelIds channelCapacity =>
    rw [step]
    cases done : state.register started token channelIds channelCapacity with
    | error error => exact .same _
    | ok after => exact register_evolves done dataflowId
  | unregister ended token => exact unregister_evolves ended token dataflowId
  | claim claimed token =>
    rw [step, claim]
    split <;> exact .same _
  | dropClaim claimed token =>
    rw [step, dropClaim]
    split <;> exact .same _
  | retireClaim claimed token =>
    rw [step, retireClaim]
    split <;> exact .same _
  | clear => exact .same _

/-- All registrations of a dataflow in the order of their starts. -/
def instances (state : SharedState) (dataflowId : DataflowId) : List DataflowRegistration :=
  state.past dataflowId ++ (state.registered dataflowId).toList

section Instances

variable {dataflowId : DataflowId} {before after : List DataflowRegistration × Option DataflowRegistration}

/-- Every registration is still there, at its place. -/
theorem Evolves.forward (evolves : Evolves dataflowId arrived before after) {place : Nat} {reg : DataflowRegistration}
    (found : (before.1 ++ before.2.toList)[place]? = some reg) :
    ∃ later, (after.1 ++ after.2.toList)[place]? = some later ∧ Changes dataflowId arrived reg later := by
  cases evolves with
  | same => exact ⟨reg, found, .refl⟩
  | @changed past old new changes =>
    rw [List.getElem?_append] at found ⊢
    split at found
    · rename_i inside
      rw [if_pos inside]
      exact ⟨reg, found, .refl⟩
    · rename_i outside
      rw [if_neg outside]
      obtain ⟨index, same⟩ := List.getElem?_eq_some_iff.mp found
      have first : place - past.length = 0 := Nat.lt_one_iff.mp index
      rw [first] at found ⊢
      cases found
      exact ⟨new, rfl, changes⟩
  | finished =>
    rw [Option.toList_none, List.append_nil]
    exact ⟨reg, found, .refl⟩
  | started fresh =>
    rw [Option.toList_none, List.append_nil] at found
    exact ⟨reg, (List.getElem?_append_left (List.getElem?_eq_some_iff.mp found).1).trans found, .refl⟩

/-- Every registration comes from an earlier one, or it has just started. -/
theorem Evolves.backward (evolves : Evolves dataflowId arrived before after) {later : DataflowRegistration}
    (member : later ∈ after.1 ++ after.2.toList) :
    (∃ reg ∈ before.1 ++ before.2.toList, Changes dataflowId arrived reg later) ∨ Fresh dataflowId later := by
  cases evolves with
  | same => exact Or.inl ⟨later, member, .refl⟩
  | @changed past old new changes =>
    rcases List.mem_append.mp member with inside | last
    · exact Or.inl ⟨later, List.mem_append_left _ inside, .refl⟩
    · rw [Option.toList_some, List.mem_singleton] at last
      exact Or.inl ⟨old, List.mem_append_right _ (List.mem_singleton_self _), last ▸ changes⟩
  | finished =>
    rw [Option.toList_none, List.append_nil] at member
    exact Or.inl ⟨later, member, .refl⟩
  | started fresh =>
    rcases List.mem_append.mp member with inside | last
    · exact Or.inl ⟨later, List.mem_append_left _ inside, .refl⟩
    · rw [Option.toList_some, List.mem_singleton] at last
      exact Or.inr (last ▸ fresh)

end Instances

theorem Lanes.step (lanes : state.Lanes) (op : ManagerOp) : (state.step op).Lanes := by
  intro dataflowId reg member
  rcases (step_evolves lanes op dataflowId).backward member with ⟨old, known, changes⟩ | fresh
  · exact changes.lane (lanes dataflowId old known)
  · exact fresh.lane

def run (state : SharedState) (ops : List ManagerOp) : SharedState := ops.foldl step state

theorem Lanes.run (lanes : state.Lanes) (ops : List ManagerOp) : (state.run ops).Lanes :=
  List.foldlRecOn ops _ lanes fun _ lanes op _ => lanes.step op

theorem new_lanes (peerNodeId : String) : Lanes { peerNodeId } := nofun

/-- Every registration follows itself through a run. -/
theorem run_follows (lanes : state.Lanes) (ops : List ManagerOp) {dataflowId : DataflowId} {place : Nat}
    {reg : DataflowRegistration} (found : (state.instances dataflowId)[place]? = some reg) :
    ∃ later, ((state.run ops).instances dataflowId)[place]? = some later ∧ Follows reg later := by
  induction ops generalizing state reg with
  | nil => exact ⟨reg, found, .refl⟩
  | cons op ops ih =>
    obtain ⟨middle, next, changes⟩ := (step_evolves lanes op dataflowId).forward found
    obtain ⟨later, last, follows⟩ := ih (lanes.step op) next
    exact ⟨later, last, changes.follows.trans follows⟩

/-- What a registration of the sender numbered. -/
def numberedBy (state : SharedState) (dataflowId : DataflowId) (place : Nat) : List (UInt64 × List UInt8) :=
  ((state.instances dataflowId)[place]?.map DataflowRegistration.numbered).getD []

/-- The managers of two nodes take steps in any order. The payload frames of the dataflow that arrive were sent by one
registration, at any time before, in any order, any number of times and on any connection. -/
inductive PoolStep (dataflowId : DataflowId) (place : Nat) : SharedState × SharedState → SharedState × SharedState → Prop
    where
  | sender {sender receiver : SharedState} (op : ManagerOp) :
      PoolStep dataflowId place (sender, receiver) (sender.step op, receiver)
  | receiver {sender receiver : SharedState} (op : ManagerOp)
      (genuine : ∀ frame, op.arrived dataflowId = some frame →
        ∃ reg, (sender.instances dataflowId)[place]? = some reg ∧ frame ∈ reg.emitted) :
      PoolStep dataflowId place (sender, receiver) (sender, receiver.step op)

/-- A frame of the lane carries the number of its place. -/
theorem mem_emitted {dataflowId : DataflowId} {reg : DataflowRegistration} (lane : Lane dataflowId reg)
    (sent : frame ∈ reg.emitted) : ∃ seq, readLe sequencePrefix frame.payload 0 = .ok seq ∧
      reg.numbered[seq]? = some (frame.channelId, frame.payload.drop sequencePrefix) := by
  rw [lane.emitted] at sent
  obtain ⟨seq, inside, rfl⟩ := List.mem_mapIdx.mp sent
  have fits : seq < 256 ^ 8 := lt_trans inside lane.fits
  refine ⟨seq, ?_, ?_⟩
  · unfold readLe sequencePrefix
    rw [if_pos (by rw [List.length_append, leBytes_length]; omega), List.drop_zero,
      List.take_left' (leBytes_length 8 seq), leValue_leBytes_of_lt fits]
  · exact List.getElem?_eq_getElem inside

theorem numberedBy_step (lanes : state.Lanes) (op : ManagerOp) (dataflowId : DataflowId) (place : Nat) :
    state.numberedBy dataflowId place <+: (state.step op).numberedBy dataflowId place := by
  unfold numberedBy
  cases found : (state.instances dataflowId)[place]? with
  | none => exact List.nil_prefix
  | some reg =>
    obtain ⟨later, next, changes⟩ := (step_evolves lanes op dataflowId).forward found
    have next : ((state.step op).instances dataflowId)[place]? = some later := next
    rw [next]
    exact changes.follows.numbered

/-- A change of the receiving registration keeps the prefix if the frame that arrives was sent. -/
theorem accepted_prefix_of_changes {dataflowId : DataflowId} {reg later : DataflowRegistration}
    {sent : List (UInt64 × List UInt8)} (changes : Changes dataflowId arrived reg later) (lane : Lane dataflowId reg)
    (genuine : ∀ frame, arrived = some frame → ∃ seq, readLe sequencePrefix frame.payload 0 = .ok seq ∧
      sent[seq]? = some (frame.channelId, frame.payload.drop sequencePrefix))
    (starts : reg.accepted <+: sent) : later.accepted <+: sent := by
  induction changes with
  | refl => exact starts
  | @tail middle last front effect ih =>
    have lane := Changes.lane front lane
    cases effect with
    | numbered frame fits =>
      unfold number
      rw [if_pos fits]
      exact ih
    | reported failed event => exact ih
    | control conn payload running => exact ih
    | accepted conn frame running here next =>
      obtain ⟨seq, found, item⟩ := genuine frame here
      have same : seq = middle.nextRecvSeq := Except.ok.inj (found.symm.trans next)
      obtain ⟨_, length, _⟩ := lane.running running
      rw [same, ← length] at item
      obtain ⟨inside, item⟩ := List.getElem?_eq_some_iff.mp item
      exact item ▸ List.concat_get_prefix ih inside
    | ended conn number event running grows => exact ih

/-- The invariant of the two managers. -/
structure Delivers (dataflowId : DataflowId) (place : Nat) (pool : SharedState × SharedState) : Prop where
  sender : pool.1.Lanes
  receiver : pool.2.Lanes
  starts : ∀ reg ∈ pool.2.instances dataflowId, reg.accepted <+: pool.1.numberedBy dataflowId place

theorem Delivers.step {dataflowId : DataflowId} {place : Nat} {before after : SharedState × SharedState}
    (delivers : Delivers dataflowId place before) (step : PoolStep dataflowId place before after) :
    Delivers dataflowId place after := by
  obtain ⟨senderLanes, receiverLanes, starts⟩ := delivers
  cases step with
  | sender op =>
    refine ⟨senderLanes.step op, receiverLanes, fun reg member => ?_⟩
    exact (starts reg member).trans (numberedBy_step senderLanes op dataflowId place)
  | @receiver sender receiver op genuine =>
    refine ⟨senderLanes, receiverLanes.step op, fun reg member => ?_⟩
    rcases (step_evolves receiverLanes op dataflowId).backward member with ⟨old, known, changes⟩ | fresh
    · refine accepted_prefix_of_changes changes (receiverLanes dataflowId old known) (fun frame arrived => ?_)
        (starts old known)
      obtain ⟨source, found, sent⟩ := genuine frame arrived
      have lane : Lane dataflowId source := senderLanes dataflowId source (List.mem_of_getElem? found)
      rw [numberedBy, found]
      exact mem_emitted lane sent
    · rw [fresh.accepted]
      exact List.nil_prefix

theorem delivers {dataflowId : DataflowId} {place : Nat} {first second : String} {pool : SharedState × SharedState}
    (run : ReflTransGen (PoolStep dataflowId place) ({ peerNodeId := first }, { peerNodeId := second }) pool) :
    Delivers dataflowId place pool := by
  induction run with
  | refl => exact ⟨new_lanes _, new_lanes _, nofun⟩
  | tail _ step ih => exact ih.step step

section Single

variable {dataflowId : DataflowId} {reg : DataflowRegistration}

theorem Lanes.registered (lanes : state.Lanes) (found : state.registered dataflowId = some reg) :
    Lane dataflowId reg := by
  refine lanes dataflowId reg (List.mem_append_right _ ?_)
  rw [found]
  exact List.mem_singleton_self _

variable {now connId : Nat}

theorem onFrame_registered (found : state.registered frame.dataflowId = some reg)
    (known : frame.channelId ≠ probeChannelId) :
    (state.onFrame now connId frame).registered frame.dataflowId = some (reg.onFrame connId frame) := by
  unfold onFrame
  rw [if_neg known, found]
  exact Function.update_self ..

/-- A payload frame is accepted if it is the next one, and it ends the inbound side otherwise. -/
theorem onFrame_next (lanes : state.Lanes)
    (found : state.registered frame.dataflowId = some reg) (running : reg.inboundFailed = false)
    (payload : frame.channelId ≠ controlChannelId) (known : frame.channelId ≠ probeChannelId) :
    ∃ after, (state.onFrame now connId frame).registered frame.dataflowId = some after ∧
      (reg.Acceptable (reg.inboundConn.getD connId) connId frame → after.inboundFailed = false ∧
        after.accepted = reg.accepted ++ [(frame.channelId, frame.payload.drop sequencePrefix)]) ∧
      (¬reg.Acceptable (reg.inboundConn.getD connId) connId frame →
        after.inboundFailed = true ∧ after.accepted = reg.accepted) := by
  obtain ⟨_, _, senders, channels, _⟩ := (lanes.registered found).running running
  refine ⟨_, onFrame_registered found known, ?_⟩
  rcases onFrame_payload running channels payload with ⟨right, same⟩ | ⟨wrong, conn, number, violation, _, same⟩
  · rw [same]
    exact ⟨fun _ => ⟨running, rfl⟩, fun wrong => absurd right wrong⟩
  · rw [same]
    exact ⟨fun right => absurd right wrong, fun _ => ⟨rfl, rfl⟩⟩

/-- The failure of the inbound connection ends the inbound side. -/
theorem failInbound_stops (ended : InboundEnd) (found : state.registered dataflowId = some reg)
    (inbound : reg.inboundConn = some connId) :
    ∃ after, (state.failInbound connId ended).registered dataflowId = some after ∧ after.inboundFailed = true := by
  have after : ((state.failInbound connId ended).lanes dataflowId).2 = some (reg.failInbound connId ended dataflowId) := by
    rw [failInbound_lanes, found]
    rfl
  exact ⟨_, after, failInbound_stopped ended dataflowId inbound⟩

/-- A frame changes no registration of another dataflow. -/
theorem onFrame_other (state : SharedState) (now connId : Nat) (other : frame.dataflowId ≠ dataflowId) :
    (state.onFrame now connId frame).lanes dataflowId = state.lanes dataflowId := by
  unfold onFrame
  split
  · rfl
  split
  · split <;> rfl
  · unfold lanes setRegistration
    dsimp only
    rw [Function.update_of_ne other.symm]

/-- A control frame leaves the numbers of the lane. -/
theorem onFrame_control_numbers (lanes : state.Lanes)
    (found : state.registered dataflowId = some reg) (control : frame.channelId = controlChannelId) :
    ∃ after, (state.onFrame now connId frame).registered dataflowId = some after ∧
      after.nextRecvSeq = reg.nextRecvSeq ∧ after.nextSendSeq = reg.nextSendSeq ∧ after.accepted = reg.accepted ∧
      after.numbered = reg.numbered := by
  by_cases same : frame.dataflowId = dataflowId
  · subst same
    have known : frame.channelId ≠ probeChannelId := by
      rw [control]
      decide
    refine ⟨_, onFrame_registered found known, ?_⟩
    match running : reg.inboundFailed with
    | true =>
      rw [onFrame_stopped connId frame running]
      exact ⟨rfl, rfl, rfl, rfl⟩
    | false =>
      obtain ⟨_, _, senders, channels, has⟩ := (lanes.registered found).running running
      rw [onFrame_control running channels has control]
      exact ⟨rfl, rfl, rfl, rfl⟩
  · have other := congrArg Prod.snd (onFrame_other state now connId same)
    exact ⟨reg, other.trans found, rfl, rfl, rfl, rfl⟩

end Single

/-- A control frame of a registered dataflow goes out on the connection of its lane. -/
theorem controlConn_eq {frame : Frame} {reg : DataflowRegistration} {connId : Nat}
    (found : state.registered frame.dataflowId = some reg) (chosen : state.controlConn frame = some connId) :
    connId = reg.conn := by
  unfold controlConn at chosen
  rw [found] at chosen
  dsimp only at chosen
  split at chosen
  · cases chosen
  · obtain ⟨_, _, same⟩ := Option.map_eq_some_iff.mp chosen
    exact same.symm

/-- A registration accepts a prefix of what one registration of the peer numbered. In every run of a manager, the
channels of a registration close exactly with the one report that ends its inbound side, and it accepts nothing after
it. A payload frame that is not the next one and the end of its connection end the inbound side, a frame changes no
registration of another dataflow, and a control frame changes no number and goes out on the connection of the lane. -/
theorem lane_integrity :
    (∀ (dataflowId : DataflowId) (place : Nat) (first second : String) (sender receiver : SharedState),
      ReflTransGen (PoolStep dataflowId place) ({ peerNodeId := first }, { peerNodeId := second }) (sender, receiver) →
      ∀ reg ∈ receiver.instances dataflowId, reg.accepted <+: sender.numberedBy dataflowId place) ∧
    ∀ (peer : String) (ops : List ManagerOp) (state : SharedState), state = run { peerNodeId := peer } ops →
      ∀ dataflowId : DataflowId,
        (∀ reg ∈ state.instances dataflowId, Lane dataflowId reg) ∧
        (∀ (more : List ManagerOp) (place : Nat) (reg : DataflowRegistration),
          (state.instances dataflowId)[place]? = some reg →
          ∃ later, ((state.run more).instances dataflowId)[place]? = some later ∧ Follows reg later) ∧
        (∀ (now connId : Nat) (frame : Frame), frame.dataflowId ≠ dataflowId →
          (state.onFrame now connId frame).lanes dataflowId = state.lanes dataflowId) ∧
        ∀ reg, state.registered dataflowId = some reg →
          (∀ (now connId : Nat) (frame : Frame), frame.dataflowId = dataflowId → reg.inboundFailed = false →
            frame.channelId ≠ controlChannelId → frame.channelId ≠ probeChannelId →
            ∃ after, (state.onFrame now connId frame).registered dataflowId = some after ∧
              (reg.Acceptable (reg.inboundConn.getD connId) connId frame → after.inboundFailed = false ∧
                after.accepted = reg.accepted ++ [(frame.channelId, frame.payload.drop sequencePrefix)]) ∧
              (¬reg.Acceptable (reg.inboundConn.getD connId) connId frame →
                after.inboundFailed = true ∧ after.accepted = reg.accepted)) ∧
          (∀ (connId : Nat) (ended : InboundEnd), reg.inboundConn = some connId →
            ∃ after, (state.failInbound connId ended).registered dataflowId = some after ∧
              after.inboundFailed = true) ∧
          (∀ (now connId : Nat) (frame : Frame), frame.channelId = controlChannelId →
            ∃ after, (state.onFrame now connId frame).registered dataflowId = some after ∧
              after.nextRecvSeq = reg.nextRecvSeq ∧ after.nextSendSeq = reg.nextSendSeq ∧
              after.accepted = reg.accepted ∧ after.numbered = reg.numbered) ∧
          ∀ frame : Frame, ∃ sent,
            state.step (.sendControl frame) = { state with controlSent := state.controlSent ++ sent } ∧
              (frame.dataflowId = dataflowId → ∀ entry ∈ sent, entry = (reg.conn, frame)) := by
  refine ⟨fun dataflowId place first second sender receiver run => (delivers run).starts, ?_⟩
  intro peer ops state same dataflowId
  have lanes : state.Lanes := same ▸ (new_lanes peer).run ops
  refine ⟨lanes dataflowId, fun more place reg found => run_follows lanes more found,
    fun now connId frame other => onFrame_other state now connId other, fun reg found => ⟨?_, ?_, ?_, ?_⟩⟩
  · rintro now connId frame rfl running payload known
    exact onFrame_next lanes found running payload known
  · exact fun connId ended inbound => failInbound_stops ended found inbound
  · exact fun now connId frame control => onFrame_control_numbers lanes found control
  · refine fun frame => ⟨_, rfl, ?_⟩
    rintro rfl entry sent
    obtain ⟨connId, chosen, rfl⟩ := List.mem_map.mp sent
    rw [controlConn_eq found (Option.mem_toList.mp chosen)]

end SharedState

end Instancy
