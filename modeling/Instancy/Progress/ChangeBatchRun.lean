import Instancy.Progress.ChangeBatch

namespace Instancy

namespace ChangeBatch

/-- An operation on one of several batches. `drain_into` takes two of them. -/
inductive Op (P A : Type) where
  | update (place : P) (item : A) (value : Int)
  | extend (place : P) (items : List (A × Int))
  | compact (place : P)
  | iter (place : P)
  | len (place : P)
  | isEmpty (place : P)
  | drain (place : P)
  | clear (place : P)
  | drainInto (place other : P) (apart : place ≠ other)

def Op.place {P A : Type} : Op P A → P
  | .update place .. | .extend place _ | .compact place | .iter place | .len place | .isEmpty place | .drain place
  | .clear place | .drainInto place .. => place

inductive Answer (A : Type) where
  | none
  | entries (entries : List (A × Int))
  | len (count : Nat)
  | isEmpty (flag : Bool)

variable {A P : Type} [TotalOrd A] [DecidableEq P]

def len (batch : ChangeBatch A) : Nat × ChangeBatch A := (batch.compact.updates.length, batch.compact)

def intoInner (batch : ChangeBatch A) : List (A × Int) := batch.compact.updates

def clear (_ : ChangeBatch A) : ChangeBatch A := new

def step (batches : P → ChangeBatch A) (op : Op P A) : (P → ChangeBatch A) × Answer A :=
  let batch := batches op.place
  let set := Function.update batches op.place
  match op with
  | .update _ item value => (set (batch.update item value), .none)
  | .extend _ items => (set (batch.extend items), .none)
  | .compact _ => (set batch.compact, .none)
  | .iter _ => (set batch.iter.2, .entries batch.iter.1)
  | .len _ => (set batch.len.2, .len batch.len.1)
  | .isEmpty _ => (set batch.isEmpty.2, .isEmpty batch.isEmpty.1)
  | .drain _ => (set batch.drain.2, .entries batch.drain.1)
  | .clear _ => (set batch.clear, .none)
  | .drainInto _ other _ =>
    let moved := batch.drainInto (batches other)
    (Function.update (set moved.2) other moved.1, .none)

/-- What an operation does to the net values. -/
def move (nets : P → A → Int) : Op P A → P → A → Int
  | .update place item value => Function.update nets place fun key => nets place key + if item = key then value else 0
  | .extend place items => Function.update nets place fun key => nets place key + netOf items key
  | .drain place | .clear place => Function.update nets place fun _ => 0
  | .drainInto place other _ =>
    Function.update (Function.update nets place fun _ => 0) other fun key => nets other key + nets place key
  | .compact _ | .iter _ | .len _ | .isEmpty _ => nets

/-- Every key with a nonzero net value is listed once, in increasing order. -/
def Lists (nets : A → Int) (entries : List (A × Int)) : Prop :=
  (entries.Pairwise fun first second => OrdLt first.1 second.1) ∧
    ∀ entry, entry ∈ entries ↔ entry.2 ≠ 0 ∧ nets entry.1 = entry.2

def Answer.Right (nets : A → Int) : Answer A → Prop
  | .none => True
  | .entries listed => Lists nets listed
  | .len count => ∃ listed, Lists nets listed ∧ listed.length = count
  | .isEmpty flag => flag = true ↔ ∀ key, nets key = 0

theorem compact_lists (batch : ChangeBatch A) : Lists batch.net batch.compact.updates :=
  ⟨batch.compact_compacted.sorted, batch.mem_drain⟩

theorem step_right (batches : P → ChangeBatch A) (op : Op P A) :
    (step batches op).2.Right (batches op.place).net := by
  cases op with
  | iter | drain => exact compact_lists _
  | len => exact ⟨_, compact_lists _, rfl⟩
  | isEmpty => exact isEmpty_iff _
  | _ => trivial

theorem net_update (batches : P → ChangeBatch A) (place : P) (batch : ChangeBatch A) :
    (fun other => (Function.update batches place batch other).net) =
      Function.update (fun other => (batches other).net) place batch.net :=
  funext fun other => Function.apply_update (fun _ => net) batches place batch other

theorem step_net (batches : P → ChangeBatch A) (op : Op P A) :
    (fun place => ((step batches op).1 place).net) = move (fun place => (batches place).net) op := by
  have same {place : P} {batch : ChangeBatch A} (kept : ∀ key, batch.net key = (batches place).net key) :
      (fun other => (Function.update batches place batch other).net) = fun other => (batches other).net := by
    rw [net_update, funext kept, Function.update_eq_self]
  cases op with
  | compact place | iter place | len place => exact same (batches place).compact_net
  | isEmpty place => exact same (batches place).isEmpty_net
  | update place item value => exact (net_update ..).trans (congrArg _ (funext ((batches place).update_net item value)))
  | extend place items => exact (net_update ..).trans (congrArg _ (funext ((batches place).extend_net items)))
  | drain place | clear place => exact net_update ..
  | drainInto place other apart =>
    have received := funext ((batches place).drainInto_net (batches other))
    have left := funext ((batches place).drainInto_rest (batches other))
    simp only [step, Op.place, move, net_update, received, left]

def run (ops : List (Op P A)) : P → ChangeBatch A := ops.foldl (fun batches op => (step batches op).1) fun _ => new

theorem run_net (ops : List (Op P A)) : (fun place => (run ops place).net) = ops.foldl move fun _ _ => 0 :=
  (List.foldl_hom (fun (batches : P → ChangeBatch A) place => (batches place).net)
    fun batches op => (step_net batches op).symm).symm

/-- Every batch is the multiset of what the operations put into it, and every answer is right about it. -/
theorem batches_are_multisets (ops : List (Op P A)) :
    let nets := ops.foldl move fun _ _ => 0
    (∀ place, (run ops place).clean ≤ (run ops place).updates.length ∧
      Compacted ((run ops place).updates.take (run ops place).clean)) ∧
    (∀ place, (run ops place).net = nets place) ∧
    (∀ op, (step (run ops) op).2.Right (nets op.place)) ∧
    ∀ place, Lists (nets place) (run ops place).intoInner := by
  intro nets
  have net (place : P) : (run ops place).net = nets place := congrFun (run_net ops) place
  refine ⟨fun place => ⟨(run ops place).clean_le, (run ops place).compacted⟩, net, fun op => ?_, fun place => ?_⟩
  · rw [← net]
    exact step_right (run ops) op
  · rw [← net]
    exact compact_lists (run ops place)

end ChangeBatch

end Instancy
