import Instancy.Runtime.CancellationReason

/-
This file models the tokens of `cancellation.rs`: threads call them in any interleaving of the loads and stores of their
flags and of the steps under the locks of their reasons. The handles that a cancellation wakes are left out.
-/

namespace Instancy

/-- A tree of tokens. A child is created from its parent, so that its number is higher. -/
structure TokenTree where
  parent : Nat → Option Nat
  older : ∀ {token above : Nat}, parent token = some above → above < token

inductive TokenCall where
  | cancelWithReason (token : Nat) (reason : CancellationReason)
  | escalate (token : Nat) (reason : CancellationReason)
  | isCancelled (token : Nat)
  | reason (token : Nat)
  deriving DecidableEq, Repr

def TokenCall.token : TokenCall → Nat
  | .cancelWithReason token _ | .escalate token _ | .isCancelled token | .reason token => token

/-- What `is_cancelled` is called for: by itself, by the check of `cancel_with_reason` and its recheck under the lock,
and by `reason`. A cancellation and a reason that `escalate` asks for carry its reason. -/
inductive Purpose where
  | query
  | check (reason : CancellationReason) (escalate : Option CancellationReason)
  | recheck (reason : CancellationReason) (escalate : Option CancellationReason)
  | read (escalate : Option CancellationReason)
  deriving DecidableEq, Repr

/-- The next step of a thread in its call. -/
inductive Place where
  | idle
  | loading (token : Nat) (purpose : Purpose) (begun current : Nat)
  | caching (token : Nat) (purpose : Purpose) (begun : Nat)
  | locking (token : Nat) (reason : CancellationReason) (escalate : Option CancellationReason)
  | storing (token : Nat) (reason : CancellationReason) (escalate : Option CancellationReason)
  | unlocking (token : Nat) (proceeds : Bool) (escalate : Option CancellationReason)
  | swapping (token : Nat) (escalate : Option CancellationReason)
  | readLocking (token begun current : Nat) (escalate : Option CancellationReason)
  | reading (token begun current : Nat) (escalate : Option CancellationReason)
  | readUnlocking (token begun current : Nat) (found : Option CancellationReason)
      (escalate : Option CancellationReason)
  | escalating (token : Nat) (reason : CancellationReason)
  deriving DecidableEq, Repr

/-- A call of `is_cancelled` or `reason` that has returned, with the times at which it began and ended. -/
inductive TokenReturn where
  | isCancelled (token : Nat) (answer : Bool) (begun ended : Nat)
  | reason (token : Nat) (answer : Option CancellationReason) (begun ended : Nat)
  deriving DecidableEq, Repr

/-- The tokens and the threads that call them. The clock, the returns, the cancellations that were asked for and the
reasons that were stored are kept for statements. -/
structure Tokens (Thread : Type) where
  cancelled : Nat → Bool
  reason : Nat → Option CancellationReason
  escalation : Nat → Option CancellationReason
  holder : Nat → Option Thread
  place : Thread → Place
  clock : Nat
  returns : List TokenReturn
  called : List (Nat × CancellationReason)
  stored : List (Nat × CancellationReason)

namespace Tokens

variable {Thread : Type} [DecidableEq Thread]

def new : Tokens Thread where
  cancelled := fun _ => false
  reason := fun _ => none
  escalation := fun _ => none
  holder := fun _ => none
  place := fun _ => .idle
  clock := 0
  returns := []
  called := []
  stored := []

variable (tokens : Tokens Thread)

def goto (thread : Thread) (place : Place) : Tokens Thread :=
  { tokens with place := Function.update tokens.place thread place }

def setFlag (token : Nat) : Tokens Thread :=
  { tokens with cancelled := Function.update tokens.cancelled token true }

def lock (thread : Thread) (token : Nat) : Tokens Thread :=
  { tokens with holder := Function.update tokens.holder token (some thread) }

def unlock (token : Nat) : Tokens Thread :=
  { tokens with holder := Function.update tokens.holder token none }

/-- The first reason is kept. -/
def store (token : Nat) (reason : CancellationReason) : Tokens Thread :=
  match tokens.reason token with
  | some _ => tokens
  | none => { tokens with
      reason := Function.update tokens.reason token (some reason)
      stored := tokens.stored ++ [(token, reason)] }

def setEscalation (token : Nat) (reason : CancellationReason) : Tokens Thread :=
  match tokens.escalation token with
  | some _ => tokens
  | none => { tokens with escalation := Function.update tokens.escalation token (some reason) }

def logReturns (answers : List TokenReturn) : Tokens Thread :=
  { tokens with returns := tokens.returns ++ answers }

/-- Where a thread goes when its cancellation is over: `escalate` with a failure asks for the first reason. -/
def afterCancel (clock token : Nat) : Option CancellationReason → Place
  | none => .idle
  | some reason => if reason.isFailure then .loading token (.read (some reason)) clock token else .idle

/-- Where a thread goes with the reason that it has read: nothing drains on a failure. -/
def afterReason (token : Nat) (answer : Option CancellationReason) : Option CancellationReason → Place
  | none => .idle
  | some reason => if answer.any CancellationReason.isFailure then .idle else .escalating token reason

/-- Where a thread goes with the answer of `is_cancelled`. -/
def afterCheck (clock token begun : Nat) (answer : Bool) : Purpose → Place
  | .query => .idle
  | .check reason escalate => if answer then afterCancel clock token escalate else .locking token reason escalate
  | .recheck reason escalate => if answer then .unlocking token false escalate else .storing token reason escalate
  | .read escalate =>
    if answer then .readLocking token begun token escalate else afterReason token none escalate

/-- The calls that return with the answer of `is_cancelled`: a token that is not cancelled has no reason. -/
def checkReturns (clock token begun : Nat) (answer : Bool) : Purpose → List TokenReturn
  | .read _ =>
    if answer then [.isCancelled token answer begun clock]
    else [.isCancelled token answer begun clock, .reason token none begun clock]
  | _ => [.isCancelled token answer begun clock]

def returnCancelled (thread : Thread) (token begun : Nat) (answer : Bool) (purpose : Purpose) : Tokens Thread :=
  (tokens.logReturns (checkReturns tokens.clock token begun answer purpose)).goto thread
    (afterCheck tokens.clock token begun answer purpose)

def returnReason (thread : Thread) (token begun : Nat) (answer : Option CancellationReason)
    (escalate : Option CancellationReason) : Tokens Thread :=
  (tokens.logReturns [.reason token answer begun tokens.clock]).goto thread (afterReason token answer escalate)

def begin (thread : Thread) : TokenCall → Tokens Thread
  | .cancelWithReason token reason =>
    { tokens with called := tokens.called ++ [(token, reason)] }.goto thread
      (.loading token (.check reason none) tokens.clock token)
  | .escalate token reason =>
    { tokens with called := tokens.called ++ [(token, reason)] }.goto thread
      (.loading token (.check reason (some reason)) tokens.clock token)
  | .isCancelled token => tokens.goto thread (.loading token .query tokens.clock token)
  | .reason token => tokens.goto thread (.loading token (.read none) tokens.clock token)

/-- The next step of a thread, which begins the given call if it is in none. A thread waits for a lock that is held. -/
def advance (tree : TokenTree) (tokens : Tokens Thread) (thread : Thread) (call : TokenCall) : Tokens Thread :=
  match tokens.place thread with
  | .idle => tokens.begin thread call
  | .loading token purpose begun current =>
    if tokens.cancelled current then
      if current = token then tokens.returnCancelled thread token begun true purpose
      else tokens.goto thread (.caching token purpose begun)
    else
      match tree.parent current with
      | some above => tokens.goto thread (.loading token purpose begun above)
      | none => tokens.returnCancelled thread token begun false purpose
  | .caching token purpose begun => (tokens.setFlag token).returnCancelled thread token begun true purpose
  | .locking token reason escalate =>
    match tokens.holder token with
    | some _ => tokens
    | none => (tokens.lock thread token).goto thread (.loading token (.recheck reason escalate) tokens.clock token)
  | .storing token reason escalate => (tokens.store token reason).goto thread (.unlocking token true escalate)
  | .unlocking token proceeds escalate =>
    (tokens.unlock token).goto thread
      (if proceeds then .swapping token escalate else afterCancel tokens.clock token escalate)
  | .swapping token escalate => (tokens.setFlag token).goto thread (afterCancel tokens.clock token escalate)
  | .readLocking token begun current escalate =>
    match tokens.holder current with
    | some _ => tokens
    | none => (tokens.lock thread current).goto thread (.reading token begun current escalate)
  | .reading token begun current escalate =>
    tokens.goto thread (.readUnlocking token begun current (tokens.reason current) escalate)
  | .readUnlocking token begun current found escalate =>
    let tokens := tokens.unlock current
    match found with
    | some reason => tokens.returnReason thread token begun (some reason) escalate
    | none =>
      match tree.parent current with
      | some above => tokens.goto thread (.readLocking token begun above escalate)
      | none => tokens.returnReason thread token begun none escalate
  | .escalating token reason => (tokens.setEscalation token reason).goto thread .idle

def tick : Tokens Thread := { tokens with clock := tokens.clock + 1 }

def step (tree : TokenTree) (tokens : Tokens Thread) (thread : Thread) (call : TokenCall) : Tokens Thread :=
  (tokens.advance tree thread call).tick

/-- Any interleaving is a list of the threads that take the next step. -/
def run (tree : TokenTree) (tokens : Tokens Thread) (schedule : List (Thread × TokenCall)) : Tokens Thread :=
  schedule.foldl (fun tokens turn => tokens.step tree turn.1 turn.2) tokens

end Tokens

end Instancy
