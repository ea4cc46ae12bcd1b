import Instancy.Runtime.CancellationTree

namespace Instancy

open Relation

namespace Tokens

variable {Thread : Type}

/-- The token of the call that a thread is in. -/
def target (tokens : Tokens Thread) (thread : Thread) (call : TokenCall) : Nat :=
  match tokens.place thread with
  | .idle => call.token
  | .loading token .. | .caching token .. | .locking token .. | .storing token .. | .unlocking token ..
  | .swapping token _ | .readLocking token .. | .reading token .. | .readUnlocking token .. | .escalating token _ =>
    token

/-- A bound on the steps that a thread has left in its call. -/
def stepsLeft : Place → Nat
  | .idle => 0
  | .loading token purpose _ current => current + 2 + afterwards token purpose
  | .caching token purpose _ => 1 + afterwards token purpose
  | .locking token .. => 5 * token + 12
  | .storing token .. => 4 * token + 9
  | .unlocking token .. => 4 * token + 8
  | .swapping token _ => 4 * token + 7
  | .readLocking _ _ current _ => 3 * current + 4
  | .reading _ _ current _ => 3 * current + 3
  | .readUnlocking _ _ current _ _ => 3 * current + 2
  | .escalating .. => 1
where
  afterwards (token : Nat) : Purpose → Nat
    | .query => 0
    | .check .. => 5 * token + 12
    | .recheck .. => 4 * token + 9
    | .read _ => 3 * token + 4

/-- A thread waits for a lock that another one holds. -/
def Waits (tokens : Tokens Thread) (thread other : Thread) : Prop :=
  match tokens.place thread with
  | .locking token .. => tokens.holder token = some other
  | .readLocking _ _ current _ => tokens.holder current = some other
  | _ => False

theorem afterCancel_stepsLeft (clock token : Nat) (escalate : Option CancellationReason) :
    stepsLeft (afterCancel clock token escalate) ≤ 4 * token + 6 := by
  unfold afterCancel
  split
  · exact Nat.zero_le _
  · split
    · simp only [stepsLeft, stepsLeft.afterwards]
      omega
    · exact Nat.zero_le _

theorem afterReason_stepsLeft (token : Nat) (answer escalate : Option CancellationReason) :
    stepsLeft (afterReason token answer escalate) ≤ 1 := by
  unfold afterReason
  split
  · exact Nat.zero_le _
  · split
    · exact Nat.zero_le _
    · exact Nat.le_refl _

theorem afterCheck_stepsLeft (clock token begun : Nat) (answer : Bool) (purpose : Purpose) :
    stepsLeft (afterCheck clock token begun answer purpose) ≤ stepsLeft.afterwards token purpose := by
  cases purpose with
  | query => exact Nat.zero_le _
  | check _ escalate =>
    cases answer with
    | false => exact Nat.le_refl _
    | true =>
      have bound := afterCancel_stepsLeft clock token escalate
      simp only [afterCheck, if_true, stepsLeft.afterwards]
      omega
  | recheck _ escalate =>
    cases answer with
    | false => exact Nat.le_refl _
    | true => exact Nat.le_succ _
  | read escalate =>
    cases answer with
    | false =>
      have bound := afterReason_stepsLeft token none escalate
      simp only [afterCheck, Bool.false_eq_true, if_false, stepsLeft.afterwards]
      omega
    | true => exact Nat.le_refl _

section Calls

variable {tree : TokenTree} {tokens : Tokens Thread} {thread : Thread} [DecidableEq Thread]

theorem goto_place (tokens : Tokens Thread) (thread : Thread) (next : Place) :
    (tokens.goto thread next).tick.place thread = next :=
  Function.update_self ..

/-- Every step of a call brings its end nearer, unless the thread waits for a lock. -/
theorem step_stepsLeft (tree : TokenTree) (tokens : Tokens Thread) (thread : Thread) (call : TokenCall)
    (busy : tokens.place thread ≠ .idle) :
    stepsLeft ((tokens.step tree thread call).place thread) < stepsLeft (tokens.place thread) ∨
      ∃ other, tokens.Waits thread other := by
  unfold Waits
  rw [step, advance]
  cases here : tokens.place thread with
  | idle => exact absurd here busy
  | loading token purpose begun current =>
    have bound (answer : Bool) := afterCheck_stepsLeft tokens.clock token begun answer purpose
    refine .inl ?_
    change _ < current + 2 + stepsLeft.afterwards token purpose
    dsimp only
    split
    · split
      · rw [returnCancelled, goto_place]
        have shorter : stepsLeft (afterCheck tokens.clock token begun true purpose) ≤ _ := bound true
        exact Nat.lt_of_le_of_lt shorter (by omega)
      · rw [goto_place]
        change 1 + stepsLeft.afterwards token purpose < _
        omega
    · split
      · rename_i above link
        have lower := tree.older link
        rw [goto_place]
        change above + 2 + stepsLeft.afterwards token purpose < _
        omega
      · rw [returnCancelled, goto_place]
        have shorter : stepsLeft (afterCheck tokens.clock token begun false purpose) ≤ _ := bound false
        exact Nat.lt_of_le_of_lt shorter (by omega)
  | caching token purpose begun =>
    have bound := afterCheck_stepsLeft tokens.clock token begun true purpose
    refine .inl ?_
    dsimp only
    rw [returnCancelled, goto_place]
    exact Nat.lt_of_le_of_lt bound (by change _ < 1 + _; omega)
  | locking token reason escalate =>
    dsimp only
    split
    · rename_i other held
      exact .inr ⟨other, held⟩
    · refine .inl ?_
      rw [goto_place]
      change token + 2 + (4 * token + 9) < 5 * token + 12
      omega
  | storing token reason escalate =>
    refine .inl ?_
    rw [goto_place]
    exact Nat.lt_succ_self _
  | unlocking token proceeds escalate =>
    refine .inl ?_
    rw [goto_place]
    change _ < 4 * token + 8
    split
    · exact Nat.lt_succ_self _
    · have bound := afterCancel_stepsLeft tokens.clock token escalate
      omega
  | swapping token escalate =>
    have bound := afterCancel_stepsLeft tokens.clock token escalate
    refine .inl ?_
    rw [goto_place]
    change _ < 4 * token + 7
    omega
  | readLocking token begun current escalate =>
    dsimp only
    split
    · rename_i other held
      exact .inr ⟨other, held⟩
    · refine .inl ?_
      rw [goto_place]
      exact Nat.lt_succ_self _
  | reading token begun current escalate =>
    refine .inl ?_
    rw [goto_place]
    exact Nat.lt_succ_self _
  | readUnlocking token begun current found escalate =>
    have bound (answer : Option CancellationReason) := afterReason_stepsLeft token answer escalate
    refine .inl ?_
    change _ < 3 * current + 2
    dsimp only
    split
    · rename_i reason
      rw [returnReason, goto_place]
      have shorter := bound (some reason)
      omega
    · split
      · rename_i above link
        have lower := tree.older link
        rw [goto_place]
        change 3 * above + 4 < _
        omega
      · rw [returnReason, goto_place]
        have shorter := bound none
        omega
  | escalating token reason =>
    refine .inl ?_
    rw [goto_place]
    exact Nat.lt_succ_self _

/-- A thread that holds a lock does not wait for another one. -/
theorem Sound.holder_moves (sound : Sound tree tokens) {other : Thread} (waits : tokens.Waits thread other)
    (call : TokenCall) :
    stepsLeft ((tokens.step tree other call).place other) < stepsLeft (tokens.place other) := by
  have held : ∃ token, (tokens.place other).holds = some token := by
    unfold Waits at waits
    split at waits
    · exact ⟨_, (sound.mutex other _).mpr waits⟩
    · exact ⟨_, (sound.mutex other _).mpr waits⟩
    · exact waits.elim
  obtain ⟨token, held⟩ := held
  have busy : tokens.place other ≠ .idle := by
    intro idle
    rw [idle] at held
    cases held
  refine (step_stepsLeft tree tokens other call busy).resolve_right fun ⟨third, also⟩ => ?_
  unfold Waits at also
  split at also
  · rename_i place
    rw [place] at held
    cases held
  · rename_i place
    rw [place] at held
    cases held
  · exact also

/-- A call writes the flag and the reason of its own token only. -/
theorem step_frame (tree : TokenTree) (tokens : Tokens Thread) (thread : Thread) (call : TokenCall) {other : Nat}
    (different : other ≠ tokens.target thread call) :
    (tokens.step tree thread call).cancelled other = tokens.cancelled other ∧
      (tokens.step tree thread call).reason other = tokens.reason other := by
  unfold target at different
  rw [step, advance]
  cases here : tokens.place thread with
  | idle => cases call <;> exact ⟨rfl, rfl⟩
  | loading token purpose begun current =>
    dsimp only
    split
    · split <;> exact ⟨rfl, rfl⟩
    · split <;> exact ⟨rfl, rfl⟩
  | caching token purpose begun =>
    rw [here] at different
    exact ⟨Function.update_of_ne different .., rfl⟩
  | locking token reason escalate =>
    dsimp only
    split <;> exact ⟨rfl, rfl⟩
  | storing token reason escalate =>
    rw [here] at different
    dsimp only
    unfold store
    split
    · exact ⟨rfl, rfl⟩
    · exact ⟨rfl, Function.update_of_ne different ..⟩
  | unlocking token proceeds escalate => exact ⟨rfl, rfl⟩
  | swapping token escalate =>
    rw [here] at different
    exact ⟨Function.update_of_ne different .., rfl⟩
  | readLocking token begun current escalate =>
    dsimp only
    split <;> exact ⟨rfl, rfl⟩
  | reading token begun current escalate => exact ⟨rfl, rfl⟩
  | readUnlocking token begun current found escalate =>
    dsimp only
    split
    · exact ⟨rfl, rfl⟩
    · split <;> exact ⟨rfl, rfl⟩
  | escalating token reason =>
    dsimp only
    unfold setEscalation
    split <;> exact ⟨rfl, rfl⟩

end Calls

/-- In every interleaving of the steps of any calls: a token that was seen cancelled, and every token below it, is seen
cancelled by every later call, and every later call finds its reason; all calls find the same reason, which was passed
to a cancellation of the token or an ancestor; a reason is written once; a call changes nothing that is read for a
token that is not its own and not below it; and every call ends. -/
theorem run_reason_stable [DecidableEq Thread] (tree : TokenTree) (schedule : List (Thread × TokenCall)) :
    let tokens := (new : Tokens Thread).run tree schedule
    (∀ token begun ended, .isCancelled token true begun ended ∈ tokens.returns →
      (∀ below answer later finish, tree.Above below token → .isCancelled below answer later finish ∈ tokens.returns →
        ended < later → answer = true) ∧
      ∀ answer later finish, .reason token answer later finish ∈ tokens.returns → ended < later → answer.isSome) ∧
    (∀ token first second begun ended later finish, .reason token (some first) begun ended ∈ tokens.returns →
      .reason token (some second) later finish ∈ tokens.returns → first = second) ∧
    (∀ token reason begun ended, .reason token (some reason) begun ended ∈ tokens.returns →
      ∃ above, tree.Above token above ∧ (above, reason) ∈ tokens.called) ∧
    (∀ token, (tokens.stored.filter fun entry => entry.1 = token).length ≤ 1) ∧
    (∀ thread call token, ¬tree.Above token (tokens.target thread call) → ∀ above, tree.Above token above →
      (tokens.step tree thread call).cancelled above = tokens.cancelled above ∧
        (tokens.step tree thread call).reason above = tokens.reason above) ∧
    ∀ thread call, tokens.place thread ≠ .idle →
      stepsLeft ((tokens.step tree thread call).place thread) < stepsLeft (tokens.place thread) ∨
        ∃ other, tokens.Waits thread other ∧
          stepsLeft ((tokens.step tree other call).place other) < stepsLeft (tokens.place other) := by
  have sound := sound_run tree schedule
  generalize (new : Tokens Thread).run tree schedule = tokens at sound ⊢
  refine ⟨fun token begun ended seen => ⟨?_, ?_⟩, ?_, ?_, ?_, ?_, ?_⟩
  · intro below answer later finish ancestor returned earlier
    cases answer with
    | true => rfl
    | false =>
      exact absurd ⟨token, begun, ended, ancestor, seen, earlier⟩ (sound.answered _ returned).2
  · intro answer later finish returned earlier
    cases answer with
    | some reason => rfl
    | none => exact absurd ⟨token, begun, ended, .refl, seen, earlier⟩ (sound.answered _ returned).2
  · intro token first second begun ended later finish one two
    exact Fixed.unique (sound.answered _ one) (sound.answered _ two)
  · intro token reason begun ended returned
    obtain ⟨above, passed, found⟩ := sound.answered _ returned
    exact ⟨above, passed.above, sound.asked above reason found⟩
  · intro token
    rw [sound.stored]
    exact Bool.toNat_le _
  · intro thread call token apart above ancestor
    refine step_frame tree tokens thread call ?_
    rintro rfl
    exact apart ancestor
  · intro thread call busy
    refine (step_stepsLeft tree tokens thread call busy).imp id fun ⟨other, waits⟩ => ?_
    exact ⟨other, waits, sound.holder_moves waits call⟩

end Tokens

end Instancy
