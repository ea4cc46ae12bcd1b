import Instancy.Dataflow.Channels.Envelope
import Instancy.Library.Retry

/-
A pusher of `tee.rs` or `exchange_channel.rs` knows its targets only through `try_push`, so each one is defined over
any type of targets.
-/

namespace Instancy

open Library

/-- The errors of a push. -/
inductive PushError where
  | backpressure
  | channelClosed
  | invalidConfig (message : String)
  | invalidGraph (message : String)
  deriving DecidableEq, Repr

def retryMismatch : PushError :=
  .invalidConfig "retry the partially delivered envelope unchanged before submitting another"

def returnedWrongEnvelope : PushError :=
  .invalidGraph "channel target returned a different envelope from try_push"

/-- The `try_push` of a kind of targets. -/
abbrev TryPush (T D Target : Type) := Target → Envelope T D → Answer PushError (Envelope T D) × Target

section Channel

variable {T D : Type}

/-- A leaf channel: the envelopes that it accepted and the answers that it will give. -/
structure LeafChannel (T D : Type) where
  accepted : List (Envelope T D)
  accepts : Nat → Bool
  asked : Nat

def LeafChannel.tryPush (channel : LeafChannel T D) (envelope : Envelope T D) :
    Answer PushError (Envelope T D) × LeafChannel T D :=
  if channel.accepts channel.asked then
    (.ok (), { channel with accepted := channel.accepted ++ [envelope], asked := channel.asked + 1 })
  else (.error (.backpressure, envelope), { channel with asked := channel.asked + 1 })

end Channel

section Tee

variable {T D Target : Type}

/-- A tee has at least one target; the cursor is the first target without the pending envelope. -/
structure TeePush (Target : Type) where
  targets : List Target
  last : Target
  retryFrom : Option Nat
  closed : Bool

/-- The targets before the last one are offered a copy from the cursor on, and the last one the envelope itself. -/
def TeePush.tryPush (push : TryPush T D Target) (tee : TeePush Target) (envelope : Envelope T D) :
    Answer PushError (Envelope T D) × TeePush Target :=
  if tee.closed then (.error (.channelClosed, envelope), tee)
  else
    match offerFrom push envelope (tee.retryFrom.getD 0) 0 tee.targets with
    | (.error (index, error), targets) =>
      (.error (error, envelope), { tee with targets := targets, retryFrom := some index })
    | (.ok _, targets) =>
      match push tee.last envelope with
      | (.ok _, last) => (.ok (), { tee with targets := targets, last := last, retryFrom := none })
      | (.error refused, last) =>
        (.error refused, { tee with targets := targets, last := last, retryFrom := some targets.length })

end Tee

section Pending

variable {T D : Type} [DecidableEq T]

/-- The envelope that a pusher has delivered only in part. -/
inductive PendingEnvelope (T : Type) where
  | data (time : T) (len : Nat)
  | watermark (time : T)
  | error (sourceOperator message : String)
  deriving DecidableEq, Repr

def PendingEnvelope.of : Envelope T D → PendingEnvelope T
  | .data time records => .data time records.length
  | .watermark time => .watermark time
  | .error sourceOperator message => .error sourceOperator message

/-- The check compares the time and the length of a batch and the whole control signal. -/
def PendingEnvelope.isRetry (pending : PendingEnvelope T) (envelope : Envelope T D) : Bool :=
  pending = PendingEnvelope.of envelope

/-- A pusher resumes the pending envelope and refuses any other one. -/
def resuming (pending : Option (PendingEnvelope T)) (envelope : Envelope T D) : Except PushError Bool :=
  match pending with
  | none => .ok false
  | some pending => if pending.isRetry envelope then .ok true else .error retryMismatch

end Pending

section Exchange

variable {T D Target : Type}

/-- The routing function. Its answer may depend on the records that it was evaluated on before. -/
abbrev ExchangeFn (D : Type) := List D → D → UInt64

def targetWorker (hash : UInt64) (numWorkers : Nat) : Nat := hash.toNat % numWorkers

/-- An exchange has a bucket and an owed flag for each target. It keeps the records that it has routed. -/
structure ExchangePush (T D Target : Type) where
  targets : List Target
  exchangeFn : ExchangeFn D
  routed : List D
  closed : Bool
  buckets : List (List D)
  pending : Option (PendingEnvelope T)
  owed : List Bool

def ExchangePush.new (targets : List Target) (exchangeFn : ExchangeFn D) : ExchangePush T D Target :=
  ⟨targets, exchangeFn, [], false, targets.map fun _ => [], none, targets.map fun _ => false⟩

/-- Each record goes to the bucket of its target. -/
def fillBuckets (exchangeFn : ExchangeFn D) (numTargets : Nat) :
    List D → List D → List (List D) → List D × List (List D)
  | [], routed, buckets => (routed, buckets)
  | record :: records, routed, buckets =>
    let target := targetWorker (exchangeFn routed record) numTargets
    fillBuckets exchangeFn numTargets records (routed ++ [record]) (buckets.modify target (· ++ [record]))

/-- A bucket that is not empty is the part of its target. -/
def bucketPart (time : T) (bucket : List D) : Option (Envelope T D) :=
  if bucket.isEmpty then none else some (.data time bucket)

/-- The bucket gets back the records of the envelope that the target returned. -/
def restoreBucket (_ : List D) (returned : Envelope T D) : Except PushError (List D) :=
  match returned with
  | .data _ records => .ok records
  | .watermark _ => .error returnedWrongEnvelope
  | .error _ _ => .error returnedWrongEnvelope

def deliverBuckets (push : TryPush T D Target) (time : T) (targets : List Target) (buckets : List (List D)) :
    Except PushError Unit × List Target × List (List D) :=
  offerEach push .backpressure (bucketPart time) (fun _ => []) restoreBucket targets buckets false

/-- A target that is owed the envelope gets a copy of it. -/
def owedPart (envelope : Envelope T D) (owed : Bool) : Option (Envelope T D) := if owed then some envelope else none

def deliverToOwed (push : TryPush T D Target) (envelope : Envelope T D) (targets : List Target) (owed : List Bool) :
    Except PushError Unit × List Target × List Bool :=
  offerEach push .backpressure (owedPart envelope) (fun _ => false) (fun flag _ => .ok flag) targets owed false

/-- A new batch is put into the buckets; a retry finds its parts there. -/
def ExchangePush.route (exchange : ExchangePush T D Target) (resumes : Bool) (records : List D) :
    ExchangePush T D Target :=
  if resumes then exchange
  else
    let filled := fillBuckets exchange.exchangeFn exchange.targets.length records exchange.routed exchange.buckets
    { exchange with routed := filled.1, buckets := filled.2 }

/-- Every target is owed a new envelope. -/
def fillOwed (resumes : Bool) (owed : List Bool) : List Bool := if resumes then owed else owed.map fun _ => true

/-- The delivery of an envelope to the targets that do not have their part. -/
def ExchangePush.deliver (push : TryPush T D Target) (exchange : ExchangePush T D Target) (resumes : Bool)
    (envelope : Envelope T D) : Except PushError Unit × ExchangePush T D Target :=
  match envelope with
  | .data time records =>
    let routed := exchange.route resumes records
    let (result, targets, buckets) := deliverBuckets push time routed.targets routed.buckets
    (result, { routed with targets := targets, buckets := buckets })
  | .watermark _ | .error _ _ =>
    let (result, targets, owed) := deliverToOwed push envelope exchange.targets (fillOwed resumes exchange.owed)
    (result, { exchange with targets := targets, owed := owed })

variable [DecidableEq T]

def ExchangePush.tryPush (push : TryPush T D Target) (exchange : ExchangePush T D Target) (envelope : Envelope T D) :
    Answer PushError (Envelope T D) × ExchangePush T D Target :=
  if exchange.closed then (.error (.channelClosed, envelope), exchange)
  else
    match resuming exchange.pending envelope with
    | .error mismatch => (.error (mismatch, envelope), exchange)
    | .ok resumes =>
      if exchange.targets.length = 0 then (.ok (), exchange)
      else
        match exchange.deliver push resumes envelope with
        | (.ok _, delivered) => (.ok (), { delivered with pending := none })
        | (.error error, delivered) =>
          (.error (error, envelope),
            { delivered with pending := if resumes then delivered.pending else some (.of envelope) })

end Exchange

section Broadcast

variable {T D Target : Type}

/-- A broadcast has an owed flag for each target. -/
structure BroadcastPush (T Target : Type) where
  targets : List Target
  closed : Bool
  pending : Option (PendingEnvelope T)
  owed : List Bool

/-- The envelope is a batch without records. -/
def Envelope.isEmptyBatch : Envelope T D → Bool
  | .data _ records => records.isEmpty
  | .watermark _ => false
  | .error _ _ => false

variable [DecidableEq T]

def BroadcastPush.tryPush (push : TryPush T D Target) (broadcast : BroadcastPush T Target) (envelope : Envelope T D) :
    Answer PushError (Envelope T D) × BroadcastPush T Target :=
  if broadcast.closed then (.error (.channelClosed, envelope), broadcast)
  else
    match resuming broadcast.pending envelope with
    | .error mismatch => (.error (mismatch, envelope), broadcast)
    | .ok resumes =>
      if !resumes ∧ envelope.isEmptyBatch then (.ok (), broadcast)
      else
        match deliverToOwed push envelope broadcast.targets (fillOwed resumes broadcast.owed) with
        | (.ok _, targets, owed) => (.ok (), { broadcast with targets := targets, owed := owed, pending := none })
        | (.error error, targets, owed) =>
          (.error (error, envelope),
            { broadcast with
              targets := targets, owed := owed
              pending := if resumes then broadcast.pending else some (.of envelope) })

end Broadcast

section Tree

variable {T D : Type} [DecidableEq T]

/-- A pusher of some kind over targets of a lower level. -/
inductive Fanout (T D Target : Type) where
  | channel (channel : LeafChannel T D)
  | tee (tee : TeePush Target)
  | exchange (exchange : ExchangePush T D Target)
  | broadcast (broadcast : BroadcastPush T Target)

def Fanout.tryPush {Target : Type} (push : TryPush T D Target) :
    Fanout T D Target → Envelope T D → Answer PushError (Envelope T D) × Fanout T D Target
  | .channel leaf, envelope => (leaf.tryPush envelope).map id .channel
  | .tee pusher, envelope => (pusher.tryPush push envelope).map id .tee
  | .exchange pusher, envelope => (pusher.tryPush push envelope).map id .exchange
  | .broadcast pusher, envelope => (pusher.tryPush push envelope).map id .broadcast

/-- The trees of pushers of at most some depth. -/
def PushTree (T D : Type) : Nat → Type
  | 0 => LeafChannel T D
  | depth + 1 => Fanout T D (PushTree T D depth)

def PushTree.tryPush : (depth : Nat) → TryPush T D (PushTree T D depth)
  | 0 => LeafChannel.tryPush
  | depth + 1 => Fanout.tryPush (PushTree.tryPush depth)

end Tree

end Instancy
