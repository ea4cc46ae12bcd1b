import Instancy.Dataflow.Channels.FanoutDelivery

namespace Instancy

open Library

section Fanout

variable {T D Target View : Type}

def Fanout.traces (traces : Target → List (Trace T D)) : Fanout T D Target → List (Trace T D)
  | .channel leaf => [.accepted leaf.accepted]
  | .tee pusher => (pusher.targets ++ [pusher.last]).flatMap traces
  | .exchange pusher => .routed pusher.routed :: pusher.targets.flatMap traces
  | .broadcast pusher => pusher.targets.flatMap traces

variable (protocol : PushProtocol T D Target View)

def Fanout.Settled (view : Spread T D View) : Fanout T D Target → Prop
  | .channel leaf => view = .channel leaf.accepted
  | .tee pusher => ∃ views, view = .copy views ∧ pusher.Settled protocol views
  | .exchange pusher => pusher.Settled protocol view
  | .broadcast pusher => ∃ views, view = .copy views ∧ pusher.Settled protocol views

def Fanout.Partly (view : Spread T D View) (envelope : Envelope T D) : Fanout T D Target → Prop
  | .channel leaf => view = .channel leaf.accepted
  | .tee pusher => ∃ views, view = .copy views ∧ pusher.Partly protocol views envelope
  | .exchange pusher => pusher.Partly protocol view envelope
  | .broadcast pusher => ∃ views, view = .copy views ∧ pusher.Partly protocol views envelope

variable {protocol} {view : Spread T D View} {envelope : Envelope T D} {node : Fanout T D Target}

theorem Fanout.step [DecidableEq T] (offered : envelope.Offered)
    (ready : node.Settled protocol view ∨ node.Partly protocol view envelope) :
    let answered := node.tryPush protocol.offer envelope
    (answered.1 = .ok () ∧ answered.2.Settled protocol (view.deliver protocol.deliver envelope)) ∨
      (answered.1 = .error (.backpressure, envelope) ∧ answered.2.Partly protocol view envelope) := by
  cases node with
  | channel leaf =>
    have shape : view = .channel leaf.accepted := ready.elim id id
    subst shape
    refine (LeafChannel.pushProtocol.step offered (Or.inl rfl)).imp (fun taken => ⟨taken.1, ?_⟩)
      fun busy => ⟨busy.1, ?_⟩
    · exact congrArg Spread.channel (Eq.symm taken.2)
    · exact congrArg Spread.channel (Eq.symm busy.2)
  | tee pusher =>
    obtain ⟨views, rfl, due⟩ : ∃ views, view = .copy views ∧
        (pusher.Settled protocol views ∨ pusher.Partly protocol views envelope) := by
      simp only [and_or_left, exists_or]
      exact ready
    exact (TeePush.step offered due).imp (fun taken => ⟨taken.1, _, rfl, taken.2⟩)
      fun busy => ⟨busy.1, _, rfl, busy.2⟩
  | exchange pusher => exact ExchangePush.step ready
  | broadcast pusher =>
    obtain ⟨views, rfl, due⟩ : ∃ views, view = .copy views ∧
        (pusher.Settled protocol views ∨ pusher.Partly protocol views envelope) := by
      simp only [and_or_left, exists_or]
      exact ready
    exact (BroadcastPush.step offered due).imp (fun taken => ⟨taken.1, _, rfl, taken.2⟩)
      fun busy => ⟨busy.1, _, rfl, busy.2⟩

theorem sameSize_givePart (time : T) (views : List View) {parts : List (List D)} (size : parts.length = views.length) :
    ((List.zipWith (givePart protocol.deliver time) views parts).flatMap protocol.shown).length =
      (views.flatMap protocol.shown).length := by
  induction views generalizing parts with
  | nil => rw [List.zipWith_nil_left]
  | cons view views ih =>
    cases parts with
    | nil => cases size
    | cons part parts =>
      have first : (protocol.shown (givePart protocol.deliver time view part)).length =
          (protocol.shown view).length := by
        unfold givePart
        split
        · rfl
        · exact protocol.sameSize view _
      rw [List.zipWith_cons_cons, List.flatMap_cons, List.flatMap_cons, List.length_append, List.length_append,
        first, ih (Nat.succ.inj size)]

theorem Spread.sameSize (protocol : PushProtocol T D Target View) (view : Spread T D View) (envelope : Envelope T D) :
    ((view.deliver protocol.deliver envelope).traces protocol.shown).length =
      (view.traces protocol.shown).length := by
  cases view with
  | channel accepted => rfl
  | copy targets => exact sameSize_flatMap targets envelope
  | route exchangeFn routed targets =>
    cases envelope with
    | data time records => exact congrArg (· + 1) (sameSize_givePart time targets (partsOf_length ..))
    | watermark time => exact congrArg (· + 1) (sameSize_flatMap targets _)
    | error source message => exact congrArg (· + 1) (sameSize_flatMap targets _)

theorem Fanout.traces_settled (settled : node.Settled protocol view) :
    node.traces protocol.seen = view.traces protocol.shown := by
  cases node with
  | channel leaf =>
    rw [show view = .channel leaf.accepted from settled]
    rfl
  | tee pusher =>
    obtain ⟨_, rfl, opened, cursor, fronts, last, rfl, targets, untouched⟩ := settled
    exact forall₂_seen (List.rel_append targets (.cons untouched .nil))
  | exchange pusher =>
    obtain ⟨wired, pending, buckets, views, rfl, targets⟩ := settled
    exact congrArg _ (forall₂_seen targets)
  | broadcast pusher =>
    obtain ⟨_, rfl, settled⟩ := settled
    exact forall₂_seen settled.targets

theorem TeePush.seen_partly {views : List View} {tee : TeePush Target} (partly : tee.Partly protocol views envelope) :
    Interim (views.flatMap protocol.shown) ((views.map (protocol.deliver · envelope)).flatMap protocol.shown)
      ((tee.targets ++ [tee.last]).flatMap protocol.seen) := by
  cases partly with
  | front opened cursor stopped fronts last split placed untouched =>
    rw [split, List.map_append, List.flatMap_append, List.flatMap_append, List.flatMap_append]
    refine placed.seen.append ?_
    simp only [List.map_cons, List.map_nil, List.flatMap_singleton]
    exact RetryProtocol.seen_ready (Or.inl untouched)
  | last opened stopped fronts last split given ready =>
    rw [split, List.map_append, List.flatMap_append, List.flatMap_append, List.flatMap_append, forall₂_seen given]
    refine (Interim.ends (sameSize_flatMap fronts envelope)).2.append ?_
    simp only [List.map_cons, List.map_nil, List.flatMap_singleton]
    exact RetryProtocol.seen_ready ready

theorem ExchangePush.Owing.seen {exchange : ExchangePush T D Target} (owing : exchange.Owing protocol view envelope) :
    Interim (view.traces protocol.shown) ((view.deliver protocol.deliver envelope).traces protocol.shown)
      (.routed exchange.routed :: exchange.targets.flatMap protocol.seen) := by
  cases owing with
  | batch wired time records routed views kind shape log owed =>
    rw [kind, shape, log]
    exact .cons (Or.inr rfl) owed.seen
  | signal wired control views shape buckets owed =>
    rw [shape]
    cases envelope with
    | data time records => cases control
    | watermark time => exact .cons (Or.inl rfl) owed.seen
    | error source message => exact .cons (Or.inl rfl) owed.seen

theorem Fanout.traces_partly (partly : node.Partly protocol view envelope) :
    Interim (view.traces protocol.shown) ((view.deliver protocol.deliver envelope).traces protocol.shown)
      (node.traces protocol.seen) := by
  cases node with
  | channel leaf =>
    rw [show view = .channel leaf.accepted from partly]
    exact .cons (Or.inl rfl) .nil
  | tee pusher =>
    obtain ⟨views, rfl, partly⟩ := partly
    exact TeePush.seen_partly partly
  | exchange pusher => exact partly.2.seen
  | broadcast pusher =>
    obtain ⟨views, rfl, partly⟩ := partly
    exact partly.owed.seen

/-- A pusher over targets that keep the protocol keeps it too. -/
def Fanout.pushProtocol [DecidableEq T] (protocol : PushProtocol T D Target View) :
    PushProtocol T D (Fanout T D Target) (Spread T D View) where
  offer := Fanout.tryPush protocol.offer
  deliver := Spread.deliver protocol.deliver
  settled view node := node.Settled protocol view
  partly view envelope node := node.Partly protocol view envelope
  seen := Fanout.traces protocol.seen
  shown := Spread.traces protocol.shown
  step := Fanout.step
  sameSize := Spread.sameSize protocol
  seen_settled := Fanout.traces_settled
  seen_partly := Fanout.traces_partly

end Fanout

section Tree

variable {T D : Type}

/-- What the view of a node says about it, from the views of its targets. -/
def Fanout.view {Target View : Type} (view : Target → View) : Fanout T D Target → Spread T D View
  | .channel leaf => .channel leaf.accepted
  | .tee pusher => .copy ((pusher.targets ++ [pusher.last]).map view)
  | .exchange pusher => .route pusher.exchangeFn pusher.routed (pusher.targets.map view)
  | .broadcast pusher => .copy (pusher.targets.map view)

/-- A node between two envelopes: it is open, has its targets, and has no part of an envelope outstanding. -/
def Fanout.Idle {Target : Type} (idle : Target → Prop) : Fanout T D Target → Prop
  | .channel _ => True
  | .tee pusher => pusher.closed = false ∧ pusher.retryFrom = none ∧ ∀ target ∈ pusher.targets ++ [pusher.last], idle target
  | .exchange pusher =>
    pusher.Wired ∧ pusher.pending = none ∧ (pusher.buckets = pusher.targets.map fun _ => []) ∧
      ∀ target ∈ pusher.targets, idle target
  | .broadcast pusher =>
    pusher.closed = false ∧ pusher.pending = none ∧ pusher.owed.length = pusher.targets.length ∧
      ∀ target ∈ pusher.targets, idle target

def PushTree.view : (depth : Nat) → PushTree T D depth → SpreadTree T D depth
  | 0 => LeafChannel.accepted
  | depth + 1 => Fanout.view (PushTree.view depth)

def PushTree.Idle : (depth : Nat) → PushTree T D depth → Prop
  | 0 => fun _ => True
  | depth + 1 => Fanout.Idle (PushTree.Idle depth)

def PushTree.traces : (depth : Nat) → PushTree T D depth → List (Trace T D)
  | 0 => fun (channel : LeafChannel T D) => [.accepted channel.accepted]
  | depth + 1 => Fanout.traces (PushTree.traces depth)

theorem forall₂_iff_map {A B : Type} {related : A → B → Prop} {image : B → A} {good : B → Prop}
    (same : ∀ left right, related left right ↔ good right ∧ image right = left) (lefts : List A) (rights : List B) :
    List.Forall₂ related lefts rights ↔ (∀ right ∈ rights, good right) ∧ rights.map image = lefts := by
  induction rights generalizing lefts with
  | nil =>
    rw [List.forall₂_nil_right_iff]
    exact ⟨fun empty => ⟨nofun, empty.symm⟩, fun both => both.2.symm⟩
  | cons right rights ih =>
    rw [List.forall₂_cons_right_iff, List.forall_mem_cons]
    constructor
    · rintro ⟨left, rest, first, later, rfl⟩
      obtain ⟨good, rfl⟩ := (same left right).mp first
      obtain ⟨all, rfl⟩ := (ih rest).mp later
      exact ⟨⟨good, all⟩, rfl⟩
    · rintro ⟨⟨good, all⟩, rfl⟩
      exact ⟨_, _, (same _ _).mpr ⟨good, rfl⟩, (ih _).mpr ⟨all, rfl⟩, rfl⟩

/-- A node is settled exactly if it is idle and has the view. -/
theorem Fanout.settled_iff {Target View : Type} {protocol : PushProtocol T D Target View} {idle : Target → Prop}
    {image : Target → View} (same : ∀ view target, protocol.settled view target ↔ idle target ∧ image target = view)
    (view : Spread T D View) (node : Fanout T D Target) :
    node.Settled protocol view ↔ node.Idle idle ∧ node.view image = view := by
  cases node with
  | channel leaf => exact ⟨fun shape => ⟨trivial, shape.symm⟩, fun both => both.2.symm⟩
  | tee pusher =>
    constructor
    · rintro ⟨_, rfl, opened, cursor, fronts, last, rfl, targets, untouched⟩
      obtain ⟨all, shape⟩ := (forall₂_iff_map same _ _).mp (List.rel_append targets (.cons untouched .nil))
      exact ⟨⟨opened, cursor, all⟩, congrArg Spread.copy shape⟩
    · rintro ⟨⟨opened, cursor, all⟩, rfl⟩
      refine ⟨_, rfl, .idle opened cursor (pusher.targets.map image) (image pusher.last) (List.map_append ..) ?_ ?_⟩
      · exact (forall₂_iff_map same _ _).mpr ⟨fun target member => all target (List.mem_append_left _ member), rfl⟩
      · exact (same _ _).mpr ⟨all _ (List.mem_append_right _ (List.mem_singleton_self _)), rfl⟩
  | exchange pusher =>
    constructor
    · rintro ⟨wired, pending, buckets, views, rfl, targets⟩
      obtain ⟨all, shape⟩ := (forall₂_iff_map same _ _).mp targets
      exact ⟨⟨wired, pending, buckets, all⟩, congrArg _ shape⟩
    · rintro ⟨⟨wired, pending, buckets, all⟩, rfl⟩
      exact .idle wired pending buckets _ rfl ((forall₂_iff_map same _ _).mpr ⟨all, rfl⟩)
  | broadcast pusher =>
    constructor
    · rintro ⟨views, rfl, settled⟩
      obtain ⟨all, shape⟩ := (forall₂_iff_map same _ _).mp settled.targets
      exact ⟨⟨settled.opened, settled.pending, settled.owed, all⟩, congrArg Spread.copy shape⟩
    · rintro ⟨⟨opened, pending, owed, all⟩, rfl⟩
      exact ⟨_, rfl, opened, pending, owed, (forall₂_iff_map same _ _).mpr ⟨all, rfl⟩⟩

variable [DecidableEq T]

/-- Every tree of pushers keeps the protocol. -/
def PushTree.pushProtocol : (depth : Nat) → PushProtocol T D (PushTree T D depth) (SpreadTree T D depth)
  | 0 => LeafChannel.pushProtocol
  | depth + 1 => Fanout.pushProtocol (PushTree.pushProtocol depth)

variable (depth : Nat)

theorem PushTree.pushProtocol_offer :
    (PushTree.pushProtocol (T := T) (D := D) depth).offer = PushTree.tryPush depth := by
  induction depth with
  | zero => rfl
  | succ depth ih => exact congrArg Fanout.tryPush ih

theorem PushTree.pushProtocol_deliver :
    (PushTree.pushProtocol (T := T) (D := D) depth).deliver = SpreadTree.deliver depth := by
  induction depth with
  | zero => rfl
  | succ depth ih => exact congrArg Spread.deliver ih

theorem PushTree.pushProtocol_seen :
    (PushTree.pushProtocol (T := T) (D := D) depth).seen = PushTree.traces depth := by
  induction depth with
  | zero => rfl
  | succ depth ih => exact congrArg Fanout.traces ih

theorem PushTree.pushProtocol_shown :
    (PushTree.pushProtocol (T := T) (D := D) depth).shown = SpreadTree.traces depth := by
  induction depth with
  | zero => rfl
  | succ depth ih => exact congrArg Spread.traces ih

theorem PushTree.pushProtocol_settled (view : SpreadTree T D depth) (tree : PushTree T D depth) :
    (PushTree.pushProtocol depth).settled view tree ↔ tree.Idle depth ∧ tree.view depth = view := by
  induction depth with
  | zero => exact ⟨fun same => ⟨trivial, same⟩, fun both => both.2⟩
  | succ depth ih => exact Fanout.settled_iff ih view tree

/-- The state that a retrying caller reaches, in terms of the tree alone. -/
theorem PushTree.reached (depth : Nat) {tree : PushTree T D depth} (idle : tree.Idle depth)
    {envelopes : List (Envelope T D)} (offered : ∀ envelope ∈ envelopes, envelope.Offered) (count : Nat) :
    let reached := (attempt (PushTree.tryPush depth))^[count] (tree, envelopes)
    (PushTree.pushProtocol depth).Reached (tree.view depth) envelopes reached.1 reached.2 := by
  have start := (PushTree.pushProtocol_settled depth (tree.view depth) tree).mpr ⟨idle, rfl⟩
  have run := (PushTree.pushProtocol depth).attempts start offered count
  rwa [PushTree.pushProtocol_offer] at run

/-- What a tree answers to the next envelope. -/
theorem PushTree.answer {view : SpreadTree T D depth} {tree : PushTree T D depth}
    {envelope : Envelope T D} (offered : envelope.Offered) (ready : (PushTree.pushProtocol depth).settled view tree ∨
      (PushTree.pushProtocol depth).partly view envelope tree) :
    let answered := PushTree.tryPush depth tree envelope
    (answered.1 = .ok () ∧ answered.2.Idle depth ∧ answered.2.view depth = view.deliver depth envelope) ∨
      answered.1 = .error (.backpressure, envelope) := by
  have step := (PushTree.pushProtocol depth).step offered ready
  rw [PushTree.pushProtocol_offer, PushTree.pushProtocol_deliver, PushTree.pushProtocol_settled] at step
  exact step.imp id And.left

/-- What is recorded in a tree that is offered an envelope is what is recorded before it or after it. -/
theorem PushTree.traces_ready {view : SpreadTree T D depth} {tree : PushTree T D depth} {envelope : Envelope T D}
    (ready : (PushTree.pushProtocol depth).settled view tree ∨ (PushTree.pushProtocol depth).partly view envelope tree) :
    Interim (view.traces depth) ((view.deliver depth envelope).traces depth) (tree.traces depth) := by
  have seen := RetryProtocol.seen_ready ready
  rwa [PushTree.pushProtocol_shown, PushTree.pushProtocol_deliver, PushTree.pushProtocol_seen] at seen

theorem PushTree.traces_settled {view : SpreadTree T D depth} {tree : PushTree T D depth}
    (settled : (PushTree.pushProtocol depth).settled view tree) : tree.traces depth = view.traces depth := by
  have seen := (PushTree.pushProtocol depth).seen_settled settled
  rwa [PushTree.pushProtocol_shown, PushTree.pushProtocol_seen] at seen

variable {Target : Type} {push : TryPush T D Target} {envelope other : Envelope T D}

theorem ExchangePush.tryPush_other {exchange : ExchangePush T D Target} (differs : ¬envelope.Alike other)
    (waits : exchange.closed = false ∧ exchange.pending = some (.of envelope)) :
    exchange.tryPush push other = (.error (retryMismatch, other), exchange) := by
  simp only [ExchangePush.tryPush, waits, resuming_other differs, Bool.false_eq_true, if_false]

theorem BroadcastPush.tryPush_other {broadcast : BroadcastPush T Target} (differs : ¬envelope.Alike other)
    (waits : broadcast.closed = false ∧ broadcast.pending = some (.of envelope)) :
    broadcast.tryPush push other = (.error (retryMismatch, other), broadcast) := by
  simp only [BroadcastPush.tryPush, waits, resuming_other differs, Bool.false_eq_true, if_false]

/-- A caller that retries each envelope until it is accepted, over any tree and any answers of its channels. The
envelopes that are done are delivered once and in order, at every channel and at every routing function, and at most
the next one is delivered in part. The envelope comes back unchanged on a refusal, and nothing is left outstanding
once it is accepted. An exchange or a broadcast that answered with backpressure refuses an envelope of another kind,
time, length or signal and keeps its state; a tee has no such check. The routing of a batch gives each of its records
one target. -/
theorem PushTree.attempts_exactly_once (depth : Nat) {tree : PushTree T D depth} (idle : tree.Idle depth)
    {envelopes : List (Envelope T D)} (offered : ∀ envelope ∈ envelopes, envelope.Offered) (count : Nat) :
    (let reached := (attempt (PushTree.tryPush depth))^[count] (tree, envelopes)
      ∃ done, envelopes = done ++ reached.2 ∧
        let before := done.foldl (SpreadTree.deliver depth) (tree.view depth)
        (reached.2 = [] → reached.1.Idle depth ∧ reached.1.view depth = before ∧
          reached.1.traces depth = before.traces depth) ∧
        ∀ envelope rest, reached.2 = envelope :: rest →
          Interim (before.traces depth) ((before.deliver depth envelope).traces depth) (reached.1.traces depth) ∧
          let answered := PushTree.tryPush depth reached.1 envelope
          (answered.1 = .ok () ∧ answered.2.Idle depth ∧ answered.2.view depth = before.deliver depth envelope) ∨
            answered.1 = .error (.backpressure, envelope)) ∧
    (∀ (lower : Nat) (exchange : ExchangePush T D (PushTree T D lower)) (envelope other : Envelope T D),
      let answered := exchange.tryPush (PushTree.tryPush lower) envelope
      answered.1 = .error (.backpressure, envelope) → ¬envelope.Alike other →
      answered.2.tryPush (PushTree.tryPush lower) other = (.error (retryMismatch, other), answered.2)) ∧
    (∀ (lower : Nat) (broadcast : BroadcastPush T (PushTree T D lower)) (envelope other : Envelope T D),
      let answered := broadcast.tryPush (PushTree.tryPush lower) envelope
      answered.1 = .error (.backpressure, envelope) → ¬envelope.Alike other →
      answered.2.tryPush (PushTree.tryPush lower) other = (.error (retryMismatch, other), answered.2)) ∧
    ∀ (exchangeFn : ExchangeFn D) (numTargets : Nat) (routed records : List D), 0 < numTargets →
      (assigned exchangeFn numTargets routed records).map Prod.fst = records ∧
        ∀ pair ∈ assigned exchangeFn numTargets routed records, pair.2 < numTargets := by
  refine ⟨?_, fun _ _ _ _ blocked differs => ExchangePush.tryPush_other differs (ExchangePush.tryPush_blocked blocked),
    fun _ _ _ _ blocked differs => BroadcastPush.tryPush_other differs (BroadcastPush.tryPush_blocked blocked),
    fun exchangeFn numTargets routed records positive =>
      ⟨assigned_fst exchangeFn numTargets routed records, assigned_lt exchangeFn numTargets positive routed records⟩⟩
  intro reached
  obtain ⟨done, split, ready⟩ := PushTree.reached depth idle offered count
  rw [PushTree.pushProtocol_deliver] at ready
  refine ⟨done, split, fun finished => ?_, fun envelope rest next => ?_⟩
  · rcases ready with settled | ⟨envelope, rest, next, _⟩
    · have both := (PushTree.pushProtocol_settled depth _ _).mp settled
      exact ⟨both.1, both.2, PushTree.traces_settled depth settled⟩
    · exact absurd (finished.symm.trans next) (List.cons_ne_nil envelope rest).symm
  · have member : envelope ∈ envelopes := by
      rw [split]
      exact List.mem_append_right done (next ▸ List.mem_cons_self)
    have due := ready.imp id fun ⟨other, _, same, partly⟩ => by
      obtain ⟨rfl, _⟩ := List.cons.inj (next.symm.trans same)
      exact partly
    exact ⟨PushTree.traces_ready depth due, PushTree.answer depth (offered envelope member) due⟩

end Tree

/-- A tee that has delivered the first watermark in part takes the second one, and each channel gets one of them. -/
example :
    let tee : TeePush (LeafChannel Nat Nat) := ⟨[⟨[], fun _ => true, 0⟩], ⟨[], fun asked => 0 < asked, 0⟩, none, false⟩
    let first := tee.tryPush LeafChannel.tryPush (.watermark 1)
    let second := first.2.tryPush LeafChannel.tryPush (.watermark 2)
    first.1 = .error (.backpressure, .watermark 1) ∧ second.1 = .ok () ∧
      second.2.targets.map (·.accepted) = [[.watermark 1]] ∧ second.2.last.accepted = [.watermark 2] :=
  ⟨rfl, rfl, rfl, rfl⟩

section Witness

/-- A tee over an exchange with two channels and over a channel; the channels are busy at different times. -/
def teeOverExchange : PushTree Nat Nat 2 :=
  .tee {
    targets := [.exchange (ExchangePush.new
      [⟨[], fun asked => decide (asked ≠ 0), 0⟩, ⟨[], fun _ => true, 0⟩] fun routed _ => UInt64.ofNat routed.length)]
    last := .channel ⟨[], fun asked => decide (2 ≤ asked), 0⟩
    retryFrom := none
    closed := false }

theorem teeOverExchange_idle : teeOverExchange.Idle 2 := by
  refine ⟨rfl, rfl, List.forall_mem_cons.mpr ⟨?_, List.forall_mem_cons.mpr ⟨trivial, ?_⟩⟩⟩
  · refine ⟨⟨rfl, List.cons_ne_nil _ _, rfl⟩, rfl, rfl, fun _ _ => trivial⟩
  · exact nofun

theorem teeOverExchange_exactly_once :
    ∃ done, [Envelope.data 1 [4, 5, 6], .watermark 2] =
      done ++ ((attempt (PushTree.tryPush 2))^[3] (teeOverExchange, [.data 1 [4, 5, 6], .watermark 2])).2 := by
  have offered : ∀ envelope ∈ [Envelope.data 1 [4, 5, 6], Envelope.watermark 2], envelope.Offered := by decide
  obtain ⟨⟨done, split, _⟩, _⟩ := PushTree.attempts_exactly_once 2 teeOverExchange_idle offered 3
  exact ⟨done, split⟩

end Witness

end Instancy
