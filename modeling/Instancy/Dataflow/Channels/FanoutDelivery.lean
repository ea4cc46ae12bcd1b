import Instancy.Dataflow.Channels.Fanout

namespace Instancy

open Library

section Abstract

variable {T D A : Type}

/-- Every record with the target that the routing function gave it. -/
def assigned (exchangeFn : ExchangeFn D) (numTargets : Nat) : List D → List D → List (D × Nat)
  | _, [] => []
  | routed, record :: records =>
    (record, targetWorker (exchangeFn routed record) numTargets) ::
      assigned exchangeFn numTargets (routed ++ [record]) records

/-- The records that go to one target, in their order. -/
def partOf (pairs : List (D × Nat)) (target : Nat) : List D :=
  (pairs.filter fun pair => decide (pair.2 = target)).map Prod.fst

def partsOf (exchangeFn : ExchangeFn D) (numTargets : Nat) (routed records : List D) : List (List D) :=
  (List.range numTargets).map (partOf (assigned exchangeFn numTargets routed records))

/-- The view of a pusher: what its channels have accepted and which records it has routed. -/
inductive Spread (T D A : Type) where
  | channel (accepted : List (Envelope T D))
  | copy (targets : List A)
  | route (exchangeFn : ExchangeFn D) (routed : List D) (targets : List A)

/-- A target without records gets nothing. -/
def givePart (deliver : A → Envelope T D → A) (time : T) (target : A) (part : List D) : A :=
  match bucketPart time part with
  | none => target
  | some envelope => deliver target envelope

/-- The delivery of one envelope in one step: a copy to every target, or each record to its own target. -/
def Spread.deliver (deliver : A → Envelope T D → A) : Spread T D A → Envelope T D → Spread T D A
  | .channel accepted, envelope => .channel (accepted ++ [envelope])
  | .copy targets, envelope => .copy (targets.map (deliver · envelope))
  | .route exchangeFn routed targets, .data time records =>
    .route exchangeFn (routed ++ records)
      (List.zipWith (givePart deliver time) targets (partsOf exchangeFn targets.length routed records))
  | .route exchangeFn routed targets, envelope => .route exchangeFn routed (targets.map (deliver · envelope))

/-- The views of the trees of at most some depth. -/
def SpreadTree (T D : Type) : Nat → Type
  | 0 => List (Envelope T D)
  | depth + 1 => Spread T D (SpreadTree T D depth)

def SpreadTree.deliver : (depth : Nat) → SpreadTree T D depth → Envelope T D → SpreadTree T D depth
  | 0 => fun (accepted : List (Envelope T D)) envelope => accepted ++ [envelope]
  | depth + 1 => Spread.deliver (SpreadTree.deliver depth)

/-- What is recorded at one place of a tree: the envelopes of a channel or the records of a routing function. -/
inductive Trace (T D : Type) where
  | accepted (envelopes : List (Envelope T D))
  | routed (records : List D)

def Spread.traces (traces : A → List (Trace T D)) : Spread T D A → List (Trace T D)
  | .channel accepted => [.accepted accepted]
  | .copy targets => targets.flatMap traces
  | .route _ routed targets => .routed routed :: targets.flatMap traces

def SpreadTree.traces : (depth : Nat) → SpreadTree T D depth → List (Trace T D)
  | 0 => fun (accepted : List (Envelope T D)) => [.accepted accepted]
  | depth + 1 => Spread.traces (SpreadTree.traces depth)

/-- The envelope is a control signal or a batch with records. -/
def Envelope.Offered (envelope : Envelope T D) : Prop := envelope.isEmptyBatch = false

instance (envelope : Envelope T D) : Decidable envelope.Offered :=
  inferInstanceAs (Decidable (envelope.isEmptyBatch = false))

/-- The protocol that every kind of target keeps. -/
abbrev PushProtocol (T D Target View : Type) :=
  RetryProtocol Target (Envelope T D) PushError View (Trace T D) .backpressure Envelope.Offered

end Abstract

section Routing

variable {D : Type} (exchangeFn : ExchangeFn D) (numTargets : Nat)

theorem assigned_fst (routed records : List D) :
    (assigned exchangeFn numTargets routed records).map Prod.fst = records := by
  induction records generalizing routed with
  | nil => rfl
  | cons record records ih => rw [assigned, List.map_cons, ih]

theorem assigned_lt (positive : 0 < numTargets) (routed records : List D) :
    ∀ pair ∈ assigned exchangeFn numTargets routed records, pair.2 < numTargets := by
  induction records generalizing routed with
  | nil => exact nofun
  | cons record records ih =>
    intro pair member
    rcases List.mem_cons.mp member with rfl | later
    · exact Nat.mod_lt _ positive
    · exact ih _ pair later

theorem partOf_cons (record : D) (place target : Nat) (pairs : List (D × Nat)) :
    partOf ((record, place) :: pairs) target =
      if place = target then record :: partOf pairs target else partOf pairs target := by
  unfold partOf
  by_cases same : place = target
  · rw [if_pos same, List.filter_cons_of_pos (by exact decide_eq_true same), List.map_cons]
  · rw [if_neg same, List.filter_cons_of_neg (by exact fun holds => same (of_decide_eq_true holds))]

/-- The loop adds to each bucket the records of its target. -/
theorem fillBuckets_eq (records routed : List D) (buckets : List (List D)) (target : Nat) :
    (fillBuckets exchangeFn numTargets records routed buckets).1 = routed ++ records ∧
      (fillBuckets exchangeFn numTargets records routed buckets).2[target]? =
        buckets[target]?.map (· ++ partOf (assigned exchangeFn numTargets routed records) target) := by
  induction records generalizing routed buckets with
  | nil =>
    refine ⟨(List.append_nil routed).symm, ?_⟩
    simp only [fillBuckets, assigned, partOf, List.filter_nil, List.map_nil, List.append_nil, Option.map_id_fun', id]
  | cons record records ih =>
    obtain ⟨log, filled⟩ := ih (routed ++ [record])
      (buckets.modify (targetWorker (exchangeFn routed record) numTargets) (· ++ [record]))
    rw [fillBuckets, log, filled, assigned, partOf_cons, List.getElem?_modify]
    refine ⟨by rw [List.append_assoc, List.singleton_append], ?_⟩
    split
    · cases buckets[target]? with
      | none => rfl
      | some bucket =>
        simp only [Option.map_eq_map, Option.map_some, List.append_assoc, List.singleton_append]
    · cases buckets[target]? <;> rfl

theorem partsOf_length (routed records : List D) :
    (partsOf exchangeFn numTargets routed records).length = numTargets := by
  rw [partsOf, List.length_map, List.length_range]

/-- Empty buckets are filled with the parts of the targets. -/
theorem fillBuckets_of_empty {Target : Type} (targets : List Target) (records routed : List D) :
    fillBuckets exchangeFn targets.length records routed (targets.map fun _ => []) =
      (routed ++ records, partsOf exchangeFn targets.length routed records) := by
  refine Prod.ext (fillBuckets_eq exchangeFn targets.length records routed _ 0).1 ?_
  apply List.ext_getElem?
  intro target
  rw [(fillBuckets_eq exchangeFn targets.length records routed _ target).2, partsOf, List.getElem?_map,
    List.getElem?_map]
  by_cases inside : target < targets.length
  · rw [List.getElem?_eq_getElem inside, List.getElem?_range inside]
    simp only [Option.map_some, List.nil_append]
  · rw [List.getElem?_eq_none (Nat.not_lt.mp inside), List.getElem?_eq_none (by rw [List.length_range]; omega)]
    rfl

end Routing

section Channel

variable {T D : Type}

/-- A leaf channel accepts an envelope whole or not at all. -/
def LeafChannel.pushProtocol : PushProtocol T D (LeafChannel T D) (List (Envelope T D)) where
  offer := LeafChannel.tryPush
  deliver accepted envelope := accepted ++ [envelope]
  settled accepted channel := channel.accepted = accepted
  partly accepted _ channel := channel.accepted = accepted
  seen channel := [.accepted channel.accepted]
  shown accepted := [.accepted accepted]
  step := by
    intro accepted envelope channel _ ready
    have same : channel.accepted = accepted := ready.elim id id
    unfold LeafChannel.tryPush
    split
    · exact Or.inl ⟨rfl, by rw [same]⟩
    · exact Or.inr ⟨rfl, same⟩
  sameSize _ _ := rfl
  seen_settled same := by rw [same]
  seen_partly same := .cons (Or.inl (by rw [same])) .nil

end Channel

section Tee

variable {T D Target View : Type} (protocol : PushProtocol T D Target View)

/-- The tee has no pending envelope. -/
inductive TeePush.Settled (views : List View) (tee : TeePush Target) : Prop
  | idle (opened : tee.closed = false) (cursor : tee.retryFrom = none) (fronts : List View) (last : View)
      (split : views = fronts ++ [last]) (targets : List.Forall₂ protocol.settled fronts tee.targets)
      (untouched : protocol.settled last tee.last)

/-- The cursor of the tee is at a target before the last one or at the last one. -/
inductive TeePush.Partly (views : List View) (envelope : Envelope T D) (tee : TeePush Target) : Prop
  | front (opened : tee.closed = false) (cursor : Nat) (stopped : tee.retryFrom = some cursor) (fronts : List View)
      (last : View) (split : views = fronts ++ [last]) (placed : CursorAt protocol envelope cursor 0 fronts tee.targets)
      (untouched : protocol.settled last tee.last)
  | last (opened : tee.closed = false) (stopped : tee.retryFrom = some tee.targets.length) (fronts : List View)
      (last : View) (split : views = fronts ++ [last])
      (given : List.Forall₂ protocol.settled (fronts.map (protocol.deliver · envelope)) tee.targets)
      (ready : protocol.settled last tee.last ∨ protocol.partly last envelope tee.last)

variable {protocol} {tee : TeePush Target} {envelope : Envelope T D}

section Equations

variable {push : TryPush T D Target} {targets : List Target}

theorem TeePush.tryPush_of_ok (opened : tee.closed = false)
    (front : offerFrom push envelope (tee.retryFrom.getD 0) 0 tee.targets = (.ok (), targets)) :
    tee.tryPush push envelope =
      match push tee.last envelope with
      | (.ok _, last) => (.ok (), { tee with targets, last, retryFrom := none })
      | (.error refused, last) => (.error refused, { tee with targets, last, retryFrom := some targets.length }) := by
  rw [TeePush.tryPush, opened, front]
  rfl

theorem TeePush.tryPush_of_front {index : Nat} {error : PushError} (opened : tee.closed = false)
    (front : offerFrom push envelope (tee.retryFrom.getD 0) 0 tee.targets = (.error (index, error), targets)) :
    tee.tryPush push envelope =
      (.error (error, envelope), { tee with targets := targets, retryFrom := some index }) := by
  simp only [TeePush.tryPush, opened, front, Bool.false_eq_true, if_false]

end Equations

/-- The result of one offer to a tee. -/
def TeePush.Stepped (protocol : PushProtocol T D Target View) (views : List View) (envelope : Envelope T D)
    (answered : Answer PushError (Envelope T D) × TeePush Target) : Prop :=
  (answered.1 = .ok () ∧ answered.2.Settled protocol (views.map (protocol.deliver · envelope))) ∨
    (answered.1 = .error (.backpressure, envelope) ∧ answered.2.Partly protocol views envelope)

variable (offered : envelope.Offered)

include offered

/-- Once the loop is done the last target decides. -/
theorem TeePush.stepped_last (opened : tee.closed = false) {targets : List Target}
    (front : offerFrom protocol.offer envelope (tee.retryFrom.getD 0) 0 tee.targets = (.ok (), targets))
    {fronts : List View} {last : View}
    (given : List.Forall₂ protocol.settled (fronts.map (protocol.deliver · envelope)) targets)
    (ready : protocol.settled last tee.last ∨ protocol.partly last envelope tee.last) :
    TeePush.Stepped protocol (fronts ++ [last]) envelope (tee.tryPush protocol.offer envelope) := by
  have stepped := protocol.step offered ready
  rw [TeePush.tryPush_of_ok opened front]
  generalize protocol.offer tee.last envelope = answered at stepped
  obtain ⟨answer, next⟩ := answered
  obtain ⟨rfl, settled⟩ | ⟨rfl, partly⟩ := stepped
  · exact Or.inl ⟨rfl, .idle opened rfl _ _ (List.map_append ..) given settled⟩
  · exact Or.inr ⟨rfl, .last opened rfl fronts last rfl given (Or.inr partly)⟩

/-- The loop runs to its end or stops at a busy target; then the rest of the tee follows. -/
theorem TeePush.stepped_front (opened : tee.closed = false) {fronts : List View}
    {last : View} (untouched : protocol.settled last tee.last) (loop : OfferEnded protocol envelope 0 fronts
      (offerFrom protocol.offer envelope (tee.retryFrom.getD 0) 0 tee.targets)) :
    TeePush.Stepped protocol (fronts ++ [last]) envelope (tee.tryPush protocol.offer envelope) := by
  rcases loop with ⟨ok, given⟩ | ⟨place, busy, _, placed⟩
  · exact TeePush.stepped_last offered opened (Prod.ext ok rfl) given (Or.inl untouched)
  · rw [TeePush.tryPush_of_front opened (Prod.ext busy rfl)]
    exact Or.inr ⟨rfl, .front opened place rfl fronts last rfl placed untouched⟩

/-- A settled tee takes a new envelope, and a partial one goes on from its cursor. -/
theorem TeePush.step {views : List View} (ready : tee.Settled protocol views ∨ tee.Partly protocol views envelope) :
    TeePush.Stepped protocol views envelope (tee.tryPush protocol.offer envelope) := by
  rcases ready with settled | partly
  · cases settled with
    | idle opened cursor fronts last split targets untouched =>
      subst split
      refine TeePush.stepped_front offered opened untouched ?_
      rw [cursor]
      exact offerFrom_fresh offered (Nat.zero_le 0) targets
  · cases partly with
    | front opened cursor stopped fronts last split placed untouched =>
      subst split
      refine TeePush.stepped_front offered opened untouched ?_
      rw [stopped]
      exact offerFrom_spec offered placed
    | last opened stopped fronts last split given ready =>
      subst split
      refine TeePush.stepped_last offered opened ?_ given ready
      rw [stopped]
      exact offerFrom_skip tee.targets (Nat.le_of_eq (Nat.zero_add _))

end Tee

section Slots

variable {T D Target View : Type} {protocol : PushProtocol T D Target View}

variable {time : T}

theorem bucketPart_eq_none {bucket : List D} : bucketPart time bucket = none ↔ bucket = [] := by
  cases bucket with
  | nil => exact ⟨fun _ => rfl, fun _ => rfl⟩
  | cons record records =>
    constructor
    · intro none
      cases none
    · intro empty
      cases empty

theorem bucketPart_cons (time : T) (record : D) (records : List D) :
    bucketPart time (record :: records) = some (.data time (record :: records)) := rfl

variable {envelope : Envelope T D}

theorem restoreBucket_of_part {bucket : List D}
    (holds : bucketPart time bucket = some envelope) : restoreBucket bucket envelope = .ok bucket := by
  cases bucket with
  | nil => cases holds
  | cons record records =>
    cases holds
    rfl

theorem owedPart_eq_none {owed : Bool} : owedPart envelope owed = none ↔ owed = false := by
  cases owed with
  | false => exact ⟨fun _ => rfl, fun _ => rfl⟩
  | true =>
    constructor
    · intro none
      cases none
    · intro quiet
      cases quiet

variable {targets : List Target} {views : List View}

/-- Every target is owed the part that is in its bucket. -/
theorem OwedEach.of_parts (settled : List.Forall₂ protocol.settled views targets) (time : T) {parts : List (List D)}
    (size : parts.length = views.length) :
    OwedEach protocol (bucketPart time) targets parts views
      (List.zipWith (givePart protocol.deliver time) views parts) := by
  induction settled generalizing parts with
  | nil =>
    rw [List.eq_nil_of_length_eq_zero size]
    exact .nil
  | cons first _ ih =>
    cases parts with
    | nil => cases size
    | cons part parts =>
      have later := ih (Nat.succ.inj size)
      cases part with
      | nil => exact .done rfl first rfl later
      | cons record records => exact .due (bucketPart_cons time record records) rfl (Or.inl first) rfl later

/-- Every target is owed a copy. -/
theorem OwedEach.of_copies (settled : List.Forall₂ protocol.settled views targets) (offered : envelope.Offered)
    {owed : List Bool} (size : owed.length = targets.length) :
    OwedEach protocol (owedPart envelope) targets (owed.map fun _ => true) views
      (views.map (protocol.deliver · envelope)) := by
  induction settled generalizing owed with
  | nil =>
    rw [List.eq_nil_of_length_eq_zero size]
    exact .nil
  | cons first _ ih =>
    cases owed with
    | nil => cases size
    | cons flag flags => exact .due rfl offered (Or.inl first) rfl (ih (Nat.succ.inj size))

variable {buckets : List (List D)}

/-- Buckets without parts are empty. -/
theorem buckets_of_none (none : ∀ bucket ∈ buckets, bucketPart time bucket = none)
    (size : buckets.length = targets.length) : buckets = targets.map fun _ => [] := by
  induction buckets generalizing targets with
  | nil =>
    rw [List.eq_nil_of_length_eq_zero size.symm]
    rfl
  | cons bucket buckets ih =>
    cases targets with
    | nil => cases size
    | cons target targets =>
      rw [List.map_cons, ← ih (fun other member => none other (List.mem_cons_of_mem _ member)) (Nat.succ.inj size),
        bucketPart_eq_none.mp (none bucket List.mem_cons_self)]

theorem deliverBuckets_spec {afters : List View} (owed : OwedEach protocol (bucketPart time) targets buckets views afters) :
    let ended := deliverBuckets protocol.offer time targets buckets
    OwedEach protocol (bucketPart time) ended.2.1 ended.2.2 views afters ∧
      ((ended.1 = .ok () ∧ ∀ bucket ∈ ended.2.2, bucketPart time bucket = none) ∨
        ended.1 = .error .backpressure) := by
  obtain ⟨later, result⟩ := offerEach_spec protocol (fun _ => bucketPart_eq_none.mpr rfl)
    (fun _ _ holds => restoreBucket_of_part holds) owed false
  exact ⟨later, result.imp_left fun quiet => ⟨quiet.1, quiet.2.2⟩⟩

theorem deliverToOwed_spec {owed : List Bool}
    {afters : List View} (due : OwedEach protocol (owedPart envelope) targets owed views afters) :
    let ended := deliverToOwed protocol.offer envelope targets owed
    OwedEach protocol (owedPart envelope) ended.2.1 ended.2.2 views afters ∧
      ((ended.1 = .ok () ∧ ∀ flag ∈ ended.2.2, owedPart envelope flag = none) ∨
        ended.1 = .error .backpressure) := by
  obtain ⟨later, result⟩ := offerEach_spec protocol (fun _ => owedPart_eq_none.mpr rfl)
    (fun flag _ _ => (rfl : (Except.ok flag : Except PushError Bool) = .ok flag)) due false
  exact ⟨later, result.imp_left fun quiet => ⟨quiet.1, quiet.2.2⟩⟩

end Slots

section Pending

variable {T D : Type} [DecidableEq T] {envelope other : Envelope T D}

/-- Batches of one time and one length, or the same signal: a pusher cannot tell them apart. -/
inductive Envelope.Alike : Envelope T D → Envelope T D → Prop
  | data (time : T) {records others : List D} (length : records.length = others.length) :
      Alike (.data time records) (.data time others)
  | watermark (time : T) : Alike (.watermark time) (.watermark time)
  | error (source message : String) : Alike (.error source message) (.error source message)

theorem resuming_none : resuming none envelope = .ok false := rfl

theorem resuming_same : resuming (some (.of envelope)) envelope = .ok true := by
  exact if_pos (decide_eq_true rfl)

theorem resuming_other (differs : ¬envelope.Alike other) :
    resuming (some (.of envelope)) other = .error retryMismatch := by
  refine if_neg fun retry => differs ?_
  have same := of_decide_eq_true retry
  cases envelope <;> cases other <;> grind [PendingEnvelope.of, Envelope.Alike]

variable {pending next : Option (PendingEnvelope T)} {resumes : Bool}

/-- What is resumed is the pending envelope. -/
theorem resuming_ok (same : next = pending) (known : resuming pending envelope = .ok resumes) :
    (if resumes then next else some (.of envelope)) = some (.of envelope) := by
  subst same
  unfold resuming at known
  split at known
  · cases known
    rfl
  · split at known
    · rename_i retry
      cases known
      exact congrArg some (of_decide_eq_true retry)
    · cases known

theorem resuming_error : resuming pending envelope ≠ .error .backpressure := by
  unfold resuming
  split
  · exact nofun
  · split <;> exact nofun

end Pending

section Exchange

variable {T D Target View : Type} (protocol : PushProtocol T D Target View)

/-- An exchange with targets and an owed flag for each of them. -/
structure ExchangePush.Wired (exchange : ExchangePush T D Target) : Prop where
  opened : exchange.closed = false
  some : exchange.targets ≠ []
  owed : exchange.owed.length = exchange.targets.length

/-- The exchange has no pending envelope and no record in a bucket. -/
inductive ExchangePush.Settled (view : Spread T D View) (exchange : ExchangePush T D Target) : Prop
  | idle (wired : exchange.Wired) (pending : exchange.pending = none)
      (buckets : exchange.buckets = exchange.targets.map fun _ => []) (views : List View)
      (shape : view = .route exchange.exchangeFn exchange.routed views)
      (targets : List.Forall₂ protocol.settled views exchange.targets)

/-- The targets of the exchange that do not have their part find it in their bucket or are owed the signal. -/
inductive ExchangePush.Owing (view : Spread T D View) (envelope : Envelope T D) (exchange : ExchangePush T D Target) :
    Prop
  | batch (wired : exchange.Wired) (time : T) (records routed : List D) (views : List View)
      (kind : envelope = .data time records) (shape : view = .route exchange.exchangeFn routed views)
      (log : exchange.routed = routed ++ records)
      (owed : OwedEach protocol (bucketPart time) exchange.targets exchange.buckets views
        (List.zipWith (givePart protocol.deliver time) views
          (partsOf exchange.exchangeFn views.length routed records)))
  | signal (wired : exchange.Wired) (control : envelope.isControl = true) (views : List View)
      (shape : view = .route exchange.exchangeFn exchange.routed views)
      (buckets : exchange.buckets = exchange.targets.map fun _ => [])
      (owed : OwedEach protocol (owedPart envelope) exchange.targets exchange.owed views
        (views.map (protocol.deliver · envelope)))

def ExchangePush.Partly (view : Spread T D View) (envelope : Envelope T D) (exchange : ExchangePush T D Target) : Prop :=
  exchange.pending = some (.of envelope) ∧ exchange.Owing protocol view envelope

variable {protocol} {exchange : ExchangePush T D Target} {view : Spread T D View}

theorem Envelope.Offered.control_of_signal {envelope : Envelope T D} (control : envelope.isControl = true) :
    envelope.Offered := by
  cases envelope with
  | data time records => cases control
  | watermark time => rfl
  | error source message => rfl

/-- The loop over the buckets gives every target its part, or leaves it owed. -/
theorem ExchangePush.Owing.deliver_batch {time : T} {records : List D}
    (owing : exchange.Owing protocol view (.data time records)) :
    let ended := deliverBuckets protocol.offer time exchange.targets exchange.buckets
    let next := { exchange with targets := ended.2.1, buckets := ended.2.2 }
    (ended.1 = .ok () ∧ ExchangePush.Settled protocol (view.deliver protocol.deliver (.data time records))
        { next with pending := none }) ∨
      (ended.1 = .error .backpressure ∧ next.Owing protocol view (.data time records)) := by
  cases owing with
  | signal _ control => cases control
  | batch wired _ _ routed views kind shape log owed =>
    cases kind
    subst shape
    obtain ⟨later, result⟩ := deliverBuckets_spec owed
    intro ended next
    have size : ended.2.1.length = exchange.targets.length := by rw [← later.length.2, ← owed.length.2]
    have some : ended.2.1 ≠ [] := List.ne_nil_of_length_pos (size ▸ List.length_pos_of_ne_nil wired.some)
    have flags := wired.owed.trans size.symm
    rcases result with ⟨ok, quiet⟩ | busy
    · refine Or.inl ⟨ok, .idle ⟨wired.opened, some, flags⟩ rfl (buckets_of_none quiet later.length.1) _ ?_
        (later.settled protocol quiet)⟩
      rw [log]
      rfl
    · exact Or.inr ⟨busy, .batch ⟨wired.opened, some, flags⟩ time records routed views rfl rfl log later⟩

/-- The loop over the owed targets gives every target the signal, or leaves it owed. -/
theorem ExchangePush.Owing.deliver_signal {envelope : Envelope T D} (control : envelope.isControl = true)
    (owing : exchange.Owing protocol view envelope) :
    let ended := deliverToOwed protocol.offer envelope exchange.targets exchange.owed
    let next := { exchange with targets := ended.2.1, owed := ended.2.2 }
    (ended.1 = .ok () ∧ ExchangePush.Settled protocol (view.deliver protocol.deliver envelope)
        { next with pending := none }) ∨
      (ended.1 = .error .backpressure ∧ next.Owing protocol view envelope) := by
  cases owing with
  | batch _ _ _ _ _ kind =>
    subst kind
    cases control
  | signal wired _ views shape buckets owed =>
    subst shape
    obtain ⟨later, result⟩ := deliverToOwed_spec owed
    intro ended next
    have size : ended.2.1.length = exchange.targets.length := by rw [← later.length.2, ← owed.length.2]
    have some : ended.2.1 ≠ [] := List.ne_nil_of_length_pos (size ▸ List.length_pos_of_ne_nil wired.some)
    have empty : exchange.buckets = ended.2.1.map fun _ => [] := by
      rw [List.map_const', size, ← List.map_const']
      exact buckets
    rcases result with ⟨ok, quiet⟩ | busy
    · refine Or.inl ⟨ok, .idle ⟨wired.opened, some, later.length.1⟩ rfl empty _ ?_ (later.settled protocol quiet)⟩
      cases envelope with
      | data time records => cases control
      | watermark time => rfl
      | error source message => rfl
    · exact Or.inr ⟨busy, .signal ⟨wired.opened, some, later.length.1⟩ control views rfl empty later⟩

/-- A new batch fills the empty buckets. -/
theorem ExchangePush.Settled.route {time : T} (records : List D) (settled : exchange.Settled protocol view) :
    (exchange.route false records).Owing protocol view (.data time records) := by
  cases settled with
  | idle wired pending buckets views shape targets =>
    have size : views.length = exchange.targets.length := targets.length_eq
    have filled := fillBuckets_of_empty exchange.exchangeFn exchange.targets records exchange.routed
    unfold ExchangePush.route
    rw [buckets, filled]
    refine .batch ⟨wired.opened, wired.some, wired.owed⟩ time records exchange.routed views rfl shape rfl ?_
    rw [← size]
    exact OwedEach.of_parts targets time (partsOf_length ..)

/-- Every target is owed a new signal. -/
theorem ExchangePush.Settled.fillOwed {envelope : Envelope T D} (control : envelope.isControl = true)
    (settled : exchange.Settled protocol view) :
    ExchangePush.Owing protocol view envelope { exchange with owed := Instancy.fillOwed false exchange.owed } := by
  cases settled with
  | idle wired pending buckets views shape targets =>
    have size : (Instancy.fillOwed false exchange.owed).length = exchange.targets.length := by
      rw [Instancy.fillOwed, if_neg Bool.false_ne_true, List.length_map]
      exact wired.owed
    exact .signal ⟨wired.opened, wired.some, size⟩ control views shape buckets
      (OwedEach.of_copies targets (.control_of_signal control) wired.owed)

/-- The result of one delivery, for a new envelope and for a retry. -/
theorem ExchangePush.deliver_spec (exchange : ExchangePush T D Target) (envelope : Envelope T D) {resumes : Bool}
    (ready : (resumes = false ∧ exchange.Settled protocol view) ∨
      (resumes = true ∧ exchange.Owing protocol view envelope)) :
    let ended := exchange.deliver protocol.offer resumes envelope
    (ended.1 = .ok () ∧ ExchangePush.Settled protocol (view.deliver protocol.deliver envelope)
        { ended.2 with pending := none }) ∨
      (ended.1 = .error .backpressure ∧ ended.2.Owing protocol view envelope) := by
  have signals (control : envelope.isControl = true) :
      ExchangePush.Owing protocol view envelope { exchange with owed := fillOwed resumes exchange.owed } := by
    rcases ready with ⟨rfl, settled⟩ | ⟨rfl, owing⟩
    · exact settled.fillOwed control
    · exact owing
  cases envelope with
  | data time records =>
    have owing : (exchange.route resumes records).Owing protocol view (.data time records) := by
      rcases ready with ⟨rfl, settled⟩ | ⟨rfl, owing⟩
      · exact settled.route records
      · exact owing
    exact owing.deliver_batch
  | watermark time | error source message => exact (signals rfl).deliver_signal rfl

theorem ExchangePush.deliver_same (push : TryPush T D Target) (exchange : ExchangePush T D Target) (resumes : Bool)
    (envelope : Envelope T D) :
    let next := (exchange.deliver push resumes envelope).2
    next.closed = exchange.closed ∧ next.pending = exchange.pending := by
  cases envelope with
  | data time records => cases resumes <;> exact ⟨rfl, rfl⟩
  | watermark time | error source message => exact ⟨rfl, rfl⟩

theorem ExchangePush.Owing.setPending {envelope : Envelope T D} (owing : exchange.Owing protocol view envelope)
    (pending : Option (PendingEnvelope T)) :
    ExchangePush.Owing protocol view envelope { exchange with pending := pending } := by
  cases owing with
  | batch wired time records routed views kind shape log owed =>
    exact .batch ⟨wired.opened, wired.some, wired.owed⟩ time records routed views kind shape log owed
  | signal wired control views shape buckets owed =>
    exact .signal ⟨wired.opened, wired.some, wired.owed⟩ control views shape buckets owed

theorem ExchangePush.Owing.wired {envelope : Envelope T D} (owing : exchange.Owing protocol view envelope) :
    exchange.Wired := by
  cases owing with
  | batch wired => exact wired
  | signal wired => exact wired

variable [DecidableEq T] {push : TryPush T D Target} {envelope : Envelope T D} {resumes : Bool}

theorem ExchangePush.tryPush_eq (wired : exchange.Wired) (known : resuming exchange.pending envelope = .ok resumes) :
    exchange.tryPush push envelope =
      match exchange.deliver push resumes envelope with
      | (.ok _, delivered) => (.ok (), { delivered with pending := none })
      | (.error error, delivered) => (.error (error, envelope),
          { delivered with pending := if resumes then delivered.pending else some (.of envelope) }) := by
  have some : exchange.targets.length ≠ 0 := Nat.ne_of_gt (List.length_pos_of_ne_nil wired.some)
  rw [ExchangePush.tryPush, wired.opened, known]
  exact if_neg some

/-- A settled exchange routes a new envelope, and a partial one goes on with the parts that are left. -/
theorem ExchangePush.step (ready : exchange.Settled protocol view ∨ exchange.Partly protocol view envelope) :
    let answered := exchange.tryPush protocol.offer envelope
    (answered.1 = .ok () ∧ answered.2.Settled protocol (view.deliver protocol.deliver envelope)) ∨
      (answered.1 = .error (.backpressure, envelope) ∧ answered.2.Partly protocol view envelope) := by
  obtain ⟨wired, resumes, known, due⟩ : exchange.Wired ∧ ∃ resumes, resuming exchange.pending envelope = .ok resumes ∧
      ((resumes = false ∧ exchange.Settled protocol view) ∨ (resumes = true ∧ exchange.Owing protocol view envelope)) := by
    rcases ready with settled | ⟨pending, owing⟩
    · obtain ⟨wired, none⟩ := id settled
      exact ⟨wired, false, by rw [none, resuming_none], Or.inl ⟨rfl, settled⟩⟩
    · exact ⟨owing.wired, true, by rw [pending, resuming_same], Or.inr ⟨rfl, owing⟩⟩
  have delivered := exchange.deliver_spec envelope due
  have same := (exchange.deliver_same protocol.offer resumes envelope).2
  rw [ExchangePush.tryPush_eq wired known]
  generalize exchange.deliver protocol.offer resumes envelope = ended at delivered same
  obtain ⟨result, next⟩ := ended
  obtain ⟨rfl, done⟩ | ⟨rfl, owing⟩ := delivered
  · exact Or.inl ⟨rfl, done⟩
  · exact Or.inr ⟨rfl, resuming_ok same known, owing.setPending _⟩

/-- An exchange that could not deliver an envelope to every target waits for it. -/
theorem ExchangePush.tryPush_blocked (blocked : (exchange.tryPush push envelope).1 = .error (.backpressure, envelope)) :
    let next := (exchange.tryPush push envelope).2
    next.closed = false ∧ next.pending = some (.of envelope) := by
  revert blocked
  fun_cases ExchangePush.tryPush push exchange envelope with
  | case1 | case3 | case4 => exact nofun
  | case2 opened mismatch known =>
    intro blocked
    cases blocked
    exact absurd known resuming_error
  | case5 opened resumes known some error next delivered =>
    have same := exchange.deliver_same push resumes envelope
    rw [delivered] at same
    exact fun _ => ⟨same.1.trans (Bool.eq_false_iff.mpr opened), resuming_ok same.2 known⟩

end Exchange

section Broadcast

variable {T D Target View : Type} (protocol : PushProtocol T D Target View)

/-- The broadcast has no pending envelope. -/
structure BroadcastPush.Settled (views : List View) (broadcast : BroadcastPush T Target) : Prop where
  opened : broadcast.closed = false
  pending : broadcast.pending = none
  owed : broadcast.owed.length = broadcast.targets.length
  targets : List.Forall₂ protocol.settled views broadcast.targets

/-- The targets that are owed the envelope do not have it. -/
structure BroadcastPush.Partly (views : List View) (envelope : Envelope T D) (broadcast : BroadcastPush T Target) :
    Prop where
  opened : broadcast.closed = false
  pending : broadcast.pending = some (.of envelope)
  owed : OwedEach protocol (owedPart envelope) broadcast.targets broadcast.owed views
    (views.map (protocol.deliver · envelope))

variable {protocol} {broadcast : BroadcastPush T Target} {views : List View}

variable [DecidableEq T] {push : TryPush T D Target} {envelope : Envelope T D} {resumes : Bool}

theorem BroadcastPush.tryPush_eq (offered : envelope.Offered) (opened : broadcast.closed = false)
    (known : resuming broadcast.pending envelope = .ok resumes) :
    broadcast.tryPush push envelope =
      match deliverToOwed push envelope broadcast.targets (fillOwed resumes broadcast.owed) with
      | (.ok _, targets, owed) => (.ok (), { broadcast with targets, owed, pending := none })
      | (.error error, targets, owed) => (.error (error, envelope),
          { broadcast with targets, owed, pending := if resumes then broadcast.pending else some (.of envelope) }) := by
  have full : ¬ ((!resumes) = true ∧ envelope.isEmptyBatch = true) := fun both => by
    rw [show envelope.isEmptyBatch = false from offered] at both
    cases both.2
  rw [BroadcastPush.tryPush, opened, known]
  exact if_neg full

/-- A settled broadcast owes a new envelope to every target, and a partial one goes on with those that are left. -/
theorem BroadcastPush.step (offered : envelope.Offered)
    (ready : broadcast.Settled protocol views ∨ broadcast.Partly protocol views envelope) :
    let answered := broadcast.tryPush protocol.offer envelope
    (answered.1 = .ok () ∧ answered.2.Settled protocol (views.map (protocol.deliver · envelope))) ∨
      (answered.1 = .error (.backpressure, envelope) ∧ answered.2.Partly protocol views envelope) := by
  obtain ⟨opened, resumes, known, owed⟩ : broadcast.closed = false ∧ ∃ resumes,
      resuming broadcast.pending envelope = .ok resumes ∧
      OwedEach protocol (owedPart envelope) broadcast.targets (fillOwed resumes broadcast.owed) views
        (views.map (protocol.deliver · envelope)) := by
    rcases ready with settled | partly
    · refine ⟨settled.opened, false, by rw [settled.pending, resuming_none], ?_⟩
      exact OwedEach.of_copies settled.targets offered settled.owed
    · exact ⟨partly.opened, true, by rw [partly.pending, resuming_same], partly.owed⟩
  have delivered := deliverToOwed_spec owed
  rw [BroadcastPush.tryPush_eq offered opened known]
  generalize deliverToOwed protocol.offer envelope broadcast.targets (fillOwed resumes broadcast.owed) = ended at delivered
  obtain ⟨result, targets, flags⟩ := ended
  obtain ⟨later, ⟨rfl, quiet⟩ | rfl⟩ := delivered
  · exact Or.inl ⟨rfl, opened, rfl, later.length.1, later.settled protocol quiet⟩
  · exact Or.inr ⟨rfl, opened, resuming_ok rfl known, later⟩

/-- A broadcast that could not deliver an envelope to every target waits for it. -/
theorem BroadcastPush.tryPush_blocked (blocked : (broadcast.tryPush push envelope).1 = .error (.backpressure, envelope)) :
    let next := (broadcast.tryPush push envelope).2
    next.closed = false ∧ next.pending = some (.of envelope) := by
  revert blocked
  fun_cases BroadcastPush.tryPush push broadcast envelope with
  | case1 | case3 | case4 => exact nofun
  | case2 opened mismatch known =>
    intro blocked
    cases blocked
    exact absurd known resuming_error
  | case5 opened resumes known => exact fun _ => ⟨Bool.eq_false_iff.mpr opened, resuming_ok rfl known⟩

end Broadcast

end Instancy
