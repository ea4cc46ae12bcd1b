import Instancy.Library.WrappingIndex
import Instancy.Library.Loop

/-
This file models the ring of `spsc.rs`: its two endpoints take one atomic or slot access at a time, in any interleaving.
-/

namespace Instancy

open Library

/-- The ring that both endpoints share. A slot without a value is not initialized. -/
structure RingBuffer (A : Type) (width : Nat) where
  slots : BitVec width → Option A
  capacity : BitVec width
  mask : BitVec width
  head : BitVec width
  tail : BitVec width
  closed : Bool

/-- Where the producer is in its call. -/
inductive Producer (A : Type) (width : Nat) where
  | idle
  | loadClosed (value : A)
  | loadTail (value : A)
  | loadHead (value : A) (tail : BitVec width)
  | write (value : A) (tail : BitVec width)
  | storeTail (value : A) (tail : BitVec width)
  | dropped

/-- Where the consumer is in its call. -/
inductive Consumer (width : Nat) where
  | idle
  | loadHead
  | loadTail (head : BitVec width)
  | read (head : BitVec width)
  | storeHead (head : BitVec width)
  | drainTail
  | drainHead
  | drainRead (head count : BitVec width) (done : Nat)
  | drainStore (head count : BitVec width)
  | loadClosed
  | exhaustedHead
  | exhaustedTail (head : BitVec width)

inductive ProducerCall (A : Type) where
  | tryPush (value : A)
  | close
  | drop

inductive ConsumerCall where
  | pull
  | drainInto
  | isExhausted

/-- What a call returned. A refused push keeps the number of unread items at its look at the head, for statements. -/
inductive SpscReturn where
  | pushed
  | channelClosed
  | backpressure (unread : Nat)
  | pulled (count : Nat)
  | exhausted (answer : Bool)
  deriving DecidableEq

/-- The ring with its endpoints. The items that were pushed, taken out of their slots and pulled, the faulty slot
accesses and the answers are kept for statements: an item is pulled once the consumer has published the head behind
it. -/
structure Spsc (A : Type) (width : Nat) where
  ring : RingBuffer A width
  cachedHead : BitVec width
  cachedTail : BitVec width
  producer : Producer A width
  consumer : Consumer width
  pushed : List A
  taken : List A
  pulled : List A
  fault : Bool
  returns : List SpscReturn

section Ring

variable {A : Type} {width : Nat}

namespace RingBuffer

/-- The ring has the next power of two of slots; a size that overflows is refused. -/
def new (capacity : BitVec width) : Option (RingBuffer A width) :=
  if capacity = 0 then none
  else if 2 ^ width ≤ capacity.toNat + 1 then none
  else
    let size := BitVec.ofNat width (2 ^ (capacity.toNat.log2 + 1))
    if capacity < size then
      some { slots := fun _ => none, capacity := capacity, mask := size - 1, head := 0, tail := 0, closed := false }
    else none

def wrap (ring : RingBuffer A width) (index : BitVec width) : BitVec width := index &&& ring.mask

def lenFrom (_ : RingBuffer A width) (head tail : BitVec width) : BitVec width := tail - head

/-- One turn of the loop of `drop`; a slot that is not initialized would be undefined behaviour. -/
def dropStep : RingBuffer A width × List A → Option (RingBuffer A width × List A)
  | (ring, dropped) =>
    if ring.head = ring.tail then none
    else
      match ring.slots (ring.wrap ring.head) with
      | none => none
      | some value => some ({ ring with
          slots := Function.update ring.slots (ring.wrap ring.head) none
          head := ring.head + 1 }, dropped ++ [value])

/-- The items that `drop` drops, in order. -/
def drop (fuel : Nat) (ring : RingBuffer A width) : Option (RingBuffer A width × List A) := loop dropStep fuel (ring, [])

end RingBuffer

namespace Spsc

/-- A fresh channel whose indices start at a common value; the code starts at zero. -/
def startAt (ring : RingBuffer A width) (start : BitVec width) : Spsc A width where
  ring := { ring with head := start, tail := start }
  cachedHead := start
  cachedTail := start
  producer := .idle
  consumer := .idle
  pushed := []
  taken := []
  pulled := []
  fault := false
  returns := []

/-- The items that the producer has published and the consumer has not pulled. -/
def unread (channel : Spsc A width) : Nat := channel.pushed.length - channel.pulled.length

/-- The next access of the producer, which begins the given call if it is in none. -/
def produce (channel : Spsc A width) (call : ProducerCall A) : Spsc A width :=
  match channel.producer with
  | .idle =>
    match call with
    | .tryPush value => { channel with producer := .loadClosed value }
    | .close => { channel with ring := { channel.ring with closed := true } }
    | .drop => { channel with ring := { channel.ring with closed := true }, producer := .dropped }
  | .loadClosed value =>
    if channel.ring.closed then
      { channel with producer := .idle, returns := channel.returns ++ [.channelClosed] }
    else { channel with producer := .loadTail value }
  | .loadTail value =>
    if channel.ring.capacity ≤ channel.ring.lenFrom channel.cachedHead channel.ring.tail then
      { channel with producer := .loadHead value channel.ring.tail }
    else { channel with producer := .write value channel.ring.tail }
  | .loadHead value tail =>
    if channel.ring.capacity ≤ channel.ring.lenFrom channel.ring.head tail then
      { channel with
        cachedHead := channel.ring.head
        producer := .idle
        returns := channel.returns ++ [.backpressure channel.unread] }
    else { channel with cachedHead := channel.ring.head, producer := .write value tail }
  | .write value tail =>
    { channel with
      ring := { channel.ring with slots := Function.update channel.ring.slots (channel.ring.wrap tail) (some value) }
      producer := .storeTail value tail
      fault := channel.fault || (channel.ring.slots (channel.ring.wrap tail)).isSome }
  | .storeTail value tail =>
    { channel with
      ring := { channel.ring with tail := tail + 1 }
      producer := .idle
      pushed := channel.pushed ++ [value]
      returns := channel.returns ++ [.pushed] }
  | .dropped => channel

/-- The consumer moves an item out of its slot. -/
def readSlot (channel : Spsc A width) (index : BitVec width) (next : Consumer width) : Spsc A width :=
  match channel.ring.slots (channel.ring.wrap index) with
  | none => { channel with consumer := next, fault := true }
  | some value => { channel with
      ring := { channel.ring with slots := Function.update channel.ring.slots (channel.ring.wrap index) none }
      consumer := next
      taken := channel.taken ++ [value] }

/-- The consumer publishes a new head. -/
def publishHead (channel : Spsc A width) (head : BitVec width) (count : Nat) : Spsc A width :=
  { channel with
    ring := { channel.ring with head := head }
    consumer := .idle
    pulled := channel.taken
    returns := channel.returns ++ [.pulled count] }

/-- The next access of the consumer, which begins the given call if it is in none. -/
def consume (channel : Spsc A width) (call : ConsumerCall) : Spsc A width :=
  match channel.consumer with
  | .idle =>
    match call with
    | .pull => { channel with consumer := .loadHead }
    | .drainInto => { channel with consumer := .drainTail }
    | .isExhausted => { channel with consumer := .loadClosed }
  | .loadHead =>
    if channel.ring.head = channel.cachedTail then { channel with consumer := .loadTail channel.ring.head }
    else { channel with consumer := .read channel.ring.head }
  | .loadTail head =>
    if head = channel.ring.tail then
      { channel with cachedTail := channel.ring.tail, consumer := .idle, returns := channel.returns ++ [.pulled 0] }
    else { channel with cachedTail := channel.ring.tail, consumer := .read head }
  | .read head => channel.readSlot head (.storeHead head)
  | .storeHead head => channel.publishHead (head + 1) 1
  | .drainTail => { channel with cachedTail := channel.ring.tail, consumer := .drainHead }
  | .drainHead =>
    let count := channel.ring.lenFrom channel.ring.head channel.cachedTail
    if count = 0 then { channel with consumer := .idle, returns := channel.returns ++ [.pulled 0] }
    else { channel with consumer := .drainRead channel.ring.head count 0 }
  | .drainRead head count done =>
    channel.readSlot (head + BitVec.ofNat width done)
      (if done + 1 = count.toNat then .drainStore head count else .drainRead head count (done + 1))
  | .drainStore head count => channel.publishHead (head + count) count.toNat
  | .loadClosed =>
    if channel.ring.closed then { channel with consumer := .exhaustedHead }
    else { channel with consumer := .idle, returns := channel.returns ++ [.exhausted false] }
  | .exhaustedHead => { channel with consumer := .exhaustedTail channel.ring.head }
  | .exhaustedTail head =>
    { channel with consumer := .idle, returns := channel.returns ++ [.exhausted (head == channel.ring.tail)] }

end Spsc

/-- One access of one endpoint. -/
inductive SpscMove (A : Type) where
  | produce (call : ProducerCall A)
  | consume (call : ConsumerCall)

def Spsc.step (channel : Spsc A width) : SpscMove A → Spsc A width
  | .produce call => channel.produce call
  | .consume call => channel.consume call

/-- An interleaving of the accesses of both endpoints. -/
def Spsc.run (channel : Spsc A width) (moves : List (SpscMove A)) : Spsc A width := moves.foldl Spsc.step channel

end Ring

end Instancy
