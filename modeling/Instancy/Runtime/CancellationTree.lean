import Instancy.Runtime.Cancellation
import Mathlib.Logic.Relation

namespace Instancy

open Relation

/-- A token is above another one if it is that token or one of its ancestors. -/
def TokenTree.Above (tree : TokenTree) : Nat → Nat → Prop :=
  ReflTransGen fun token above => tree.parent token = some above

def TokenReturn.ended : TokenReturn → Nat
  | .isCancelled _ _ _ ended | .reason _ _ _ ended => ended

/-- The token whose lock a thread holds. -/
def Place.holds : Place → Option Nat
  | .loading token (.recheck ..) _ _ | .caching token (.recheck ..) _ | .storing token .. | .unlocking token .. =>
    some token
  | .reading _ _ current _ | .readUnlocking _ _ current _ _ => some current
  | _ => none

variable {answer : Bool} {place : Place}

namespace Tokens

variable {Thread : Type}

section Statements

variable (tree : TokenTree) (tokens : Tokens Thread)

/-- A token is cancelled if it or an ancestor is flagged. -/
def Flagged (token : Nat) : Prop := ∃ above, tree.Above token above ∧ tokens.cancelled above = true

/-- A token is cancelled with a reason. -/
def Sourced (token : Nat) : Prop :=
  ∃ above, tree.Above token above ∧ tokens.cancelled above = true ∧ (tokens.reason above).isSome

/-- A thread may still store a reason although the token is cancelled. -/
def Threatens (token : Nat) : Place → Prop
  | .storing other .. => other = token
  | .loading other (.recheck ..) _ current => other = token ∧ ¬Flagged tree tokens current
  | _ => False

/-- A token that is cancelled by an ancestor and has no reason of its own, now and later. -/
structure Blocked (token : Nat) : Prop where
  empty : tokens.reason token = none
  flagged : Flagged tree tokens token
  safe : ∀ thread, ¬Threatens tree tokens token (tokens.place thread)

/-- The way up over tokens that have no reason. -/
def Passed : Nat → Nat → Prop :=
  ReflTransGen fun token above => Blocked tree tokens token ∧ tree.parent token = some above

/-- The first reason on the way up. -/
def Fixed (token : Nat) (reason : CancellationReason) : Prop :=
  ∃ above, Passed tree tokens token above ∧ tokens.reason above = some reason

/-- Before a time, the token or an ancestor was seen cancelled. -/
def Warned (token time : Nat) : Prop :=
  ∃ above begun ended, tree.Above token above ∧ .isCancelled above true begun ended ∈ tokens.returns ∧ ended < time

/-- A cancellation stores only the reason that it was called with. -/
def Asked (token : Nat) : Purpose → Prop
  | .check reason _ | .recheck reason _ => (token, reason) ∈ tokens.called
  | _ => True

/-- What a thread knows at its place. -/
def Placed : Place → Prop
  | .idle | .escalating .. => True
  | .loading token purpose begun current =>
    tree.Above token current ∧ Asked tokens token purpose ∧ begun < tokens.clock ∧
      (Warned tree tokens token begun → Flagged tree tokens current)
  | .caching token purpose begun => Flagged tree tokens token ∧ Asked tokens token purpose ∧ begun < tokens.clock
  | .locking token reason _ | .storing token reason _ => (token, reason) ∈ tokens.called
  | .unlocking token proceeds _ => proceeds = true → (tokens.reason token).isSome
  | .swapping token _ => (tokens.reason token).isSome
  | .readLocking token begun current _ | .reading token begun current _ =>
    Passed tree tokens token current ∧ Sourced tree tokens current ∧ begun < tokens.clock
  | .readUnlocking token begun _ (some reason) _ => Fixed tree tokens token reason ∧ begun < tokens.clock
  | .readUnlocking token begun current none _ =>
    Passed tree tokens token current ∧ Blocked tree tokens current ∧ Sourced tree tokens current ∧
      begun < tokens.clock

/-- What the answer of a call tells, from then on. -/
def Answered : TokenReturn → Prop
  | .isCancelled token true _ _ => tokens.cancelled token = true
  | .isCancelled token false begun _ => begun < tokens.clock ∧ ¬Warned tree tokens token begun
  | .reason token (some reason) _ _ => Fixed tree tokens token reason
  | .reason token none begun _ => begun < tokens.clock ∧ ¬Warned tree tokens token begun

/-- The invariant of all interleavings. -/
structure Sound : Prop where
  sourced : ∀ token, tokens.cancelled token = true → Sourced tree tokens token
  mutex : ∀ thread token, (tokens.place thread).holds = some token ↔ tokens.holder token = some thread
  placed : ∀ thread, Placed tree tokens (tokens.place thread)
  answered : ∀ answer ∈ tokens.returns, Answered tree tokens answer
  asked : ∀ token reason, tokens.reason token = some reason → (token, reason) ∈ tokens.called
  stored : ∀ token, (tokens.stored.filter fun entry => entry.1 = token).length = (tokens.reason token).isSome.toNat

/-- What a step that leads to a place must show for its own thread. -/
structure Settled (before after : Tokens Thread) (next : Place) : Prop where
  sourced : ∀ token, after.cancelled token = true → before.cancelled token = true ∨ Sourced tree after token
  mutex : ∀ thread token, (after.place thread).holds = some token ↔ after.holder token = some thread
  placed : Placed tree after next
  answered : ∀ answer ∈ after.returns, answer ∈ before.returns ∨ Answered tree after answer

/-- What every step of a thread does to the tokens. -/
structure Moved (before after : Tokens Thread) (thread : Thread) : Prop where
  others : ∀ other, other ≠ thread → after.place other = before.place other
  flags : ∀ token, before.cancelled token = true → after.cancelled token = true
  reasons : ∀ token reason, before.reason token = some reason → after.reason token = some reason
  fresh : ∀ token, before.reason token = none →
    after.reason token = none ∨ Threatens tree before token (before.place thread)
  threat : ∀ token, Flagged tree before token → Threatens tree after token (after.place thread) →
    Threatens tree before token (before.place thread)
  called : before.called ⊆ after.called
  returns : ∃ answers, after.returns = before.returns ++ answers ∧ ∀ answer ∈ answers, before.clock ≤ answer.ended
  clock : before.clock ≤ after.clock

end Statements

section Stability

variable {tree : TokenTree} {before after : Tokens Thread} {thread : Thread} {token : Nat}

/-- The first reason on the way up is unique. -/
theorem Fixed.unique {first second : CancellationReason} (one : Fixed tree before token first)
    (two : Fixed tree before token second) : first = second := by
  obtain ⟨here, passed, found⟩ := one
  obtain ⟨there, passes, finds⟩ := two
  have unique : Relator.RightUnique fun token above => Blocked tree before token ∧ tree.parent token = some above :=
    fun _ _ _ up also => Option.some.inj (up.2.symm.trans also.2)
  -- Of two ends of the way, one comes first, and it has a reason, so that the way ends there.
  have last {near far : Nat} {reason : CancellationReason} (found : before.reason near = some reason)
      (way : Passed tree before near far) : near = far := by
    obtain same | ⟨above, link, _⟩ := way.cases_head
    · exact same
    · cases link.1.empty.symm.trans found
  obtain way | way := ReflTransGen.total_of_right_unique unique passed passes
  · cases last found way
    exact Option.some.inj (found.symm.trans finds)
  · cases last finds way
    exact Option.some.inj (found.symm.trans finds)

theorem Passed.above {above : Nat} (passed : Passed tree before token above) : tree.Above token above :=
  ReflTransGen.mono (fun _ _ link => link.2) _ _ passed

variable (step : Moved tree before after thread)

include step

theorem Flagged.moved (flagged : Flagged tree before token) :
    Flagged tree after token := by
  obtain ⟨above, ancestor, set⟩ := flagged
  exact ⟨above, ancestor, step.flags above set⟩

theorem Sourced.moved (sourced : Sourced tree before token) :
    Sourced tree after token := by
  obtain ⟨above, ancestor, set, reason⟩ := sourced
  obtain ⟨reason, found⟩ := Option.isSome_iff_exists.mp reason
  exact ⟨above, ancestor, step.flags above set, Option.isSome_iff_exists.mpr ⟨reason, step.reasons above _ found⟩⟩

theorem Threatens.moved_back (threat : Threatens tree after token place) : Threatens tree before token place := by
  unfold Threatens at threat ⊢
  split at threat
  · exact threat
  · exact ⟨threat.1, fun flagged => threat.2 (flagged.moved step)⟩
  · exact threat.elim

/-- A token that is blocked stays blocked. -/
theorem Blocked.moved (blocked : Blocked tree before token) :
    Blocked tree after token where
  empty := (step.fresh token blocked.empty).resolve_right (blocked.safe thread)
  flagged := blocked.flagged.moved step
  safe other threat := by
    by_cases same : other = thread
    · subst same
      exact blocked.safe other (step.threat token blocked.flagged threat)
    · rw [step.others other same] at threat
      exact blocked.safe other (threat.moved_back step)

theorem Passed.moved {above : Nat} (passed : Passed tree before token above) : Passed tree after token above :=
  ReflTransGen.mono (fun _ _ link => ⟨link.1.moved step, link.2⟩) _ _ passed

theorem Fixed.moved {reason : CancellationReason} (fixed : Fixed tree before token reason) :
    Fixed tree after token reason := by
  obtain ⟨above, passed, found⟩ := fixed
  exact ⟨above, passed.moved step, step.reasons above reason found⟩

theorem Warned.moved_back {time : Nat} (early : time < before.clock) (warned : Warned tree after token time) :
    Warned tree before token time := by
  obtain ⟨above, begun, ended, ancestor, returned, earlier⟩ := warned
  obtain ⟨answers, returns, late⟩ := step.returns
  rw [returns] at returned
  refine ⟨above, begun, ended, ancestor, (List.mem_append.mp returned).resolve_right fun now => ?_, earlier⟩
  have late : before.clock ≤ ended := late _ now
  omega

theorem Asked.moved {purpose : Purpose} (asked : Asked before token purpose) : Asked after token purpose := by
  unfold Asked at asked ⊢
  split at asked
  · exact step.called asked
  · exact step.called asked
  · trivial

/-- What a thread knows stays true while others move. -/
theorem Placed.moved {place : Place} (placed : Placed tree before place) : Placed tree after place := by
  have isSome_moved {token : Nat} (found : (before.reason token).isSome) : (after.reason token).isSome := by
    obtain ⟨reason, found⟩ := Option.isSome_iff_exists.mp found
    exact Option.isSome_iff_exists.mpr ⟨reason, step.reasons token reason found⟩
  unfold Placed at placed ⊢
  split at placed
  · trivial
  · trivial
  · obtain ⟨ancestor, asked, early, warned⟩ := placed
    exact ⟨ancestor, asked.moved step, Nat.lt_of_lt_of_le early step.clock,
      fun warning => (warned (warning.moved_back step early)).moved step⟩
  · exact ⟨placed.1.moved step, placed.2.1.moved step, Nat.lt_of_lt_of_le placed.2.2 step.clock⟩
  · exact step.called placed
  · exact step.called placed
  · exact fun proceeds => isSome_moved (placed proceeds)
  · exact isSome_moved placed
  · exact ⟨placed.1.moved step, placed.2.1.moved step, Nat.lt_of_lt_of_le placed.2.2 step.clock⟩
  · exact ⟨placed.1.moved step, placed.2.1.moved step, Nat.lt_of_lt_of_le placed.2.2 step.clock⟩
  · exact ⟨placed.1.moved step, Nat.lt_of_lt_of_le placed.2 step.clock⟩
  · exact ⟨placed.1.moved step, placed.2.1.moved step, placed.2.2.1.moved step, Nat.lt_of_lt_of_le placed.2.2.2 step.clock⟩

theorem Answered.moved {answer : TokenReturn} (answered : Answered tree before answer) : Answered tree after answer := by
  unfold Answered at answered ⊢
  split at answered
  · exact step.flags _ answered
  · exact ⟨Nat.lt_of_lt_of_le answered.1 step.clock, fun warned => answered.2 (warned.moved_back step answered.1)⟩
  · exact answered.moved step
  · exact ⟨Nat.lt_of_lt_of_le answered.1 step.clock, fun warned => answered.2 (warned.moved_back step answered.1)⟩

end Stability

variable {holder : Nat → Option Thread}

section Steps

variable {tree : TokenTree} {tokens : Tokens Thread} {thread : Thread} {token : Nat}

/-- The flag above a token that is not flagged itself is above its parent. -/
theorem Flagged.parent (flagged : Flagged tree tokens token) (clear : ¬tokens.cancelled token = true) :
    ∃ above, tree.parent token = some above ∧ Flagged tree tokens above := by
  obtain ⟨origin, ancestor, set⟩ := flagged
  obtain rfl | ⟨above, link, rest⟩ := ancestor.cases_head
  · exact absurd set clear
  · exact ⟨above, link, origin, rest, set⟩

variable {clock other begun : Nat} {escalate : Option CancellationReason}

theorem afterCancel_safe (threat : Threatens tree tokens other (afterCancel clock token escalate)) : False := by
  unfold afterCancel at threat
  split at threat
  · exact threat
  · split at threat <;> exact threat

theorem afterReason_safe {answer : Option CancellationReason}
    (threat : Threatens tree tokens other (afterReason token answer escalate)) : False := by
  unfold afterReason at threat
  split at threat
  · exact threat
  · split at threat <;> exact threat

variable {purpose : Purpose}

/-- Only a recheck that finds no flag leads to a store. -/
theorem afterCheck_safe (threat : Threatens tree tokens other (afterCheck clock token begun answer purpose)) :
    answer = false ∧ token = other ∧ ∃ reason escalate, purpose = .recheck reason escalate := by
  unfold afterCheck at threat
  split at threat
  · exact threat.elim
  · split at threat
    · exact (afterCancel_safe threat).elim
    · exact threat.elim
  · rename_i reason escalate
    split at threat
    · exact threat.elim
    · rename_i negative
      exact ⟨Bool.eq_false_iff.mpr negative, threat, reason, escalate, rfl⟩
  · split at threat
    · exact threat.elim
    · exact (afterReason_safe threat).elim

theorem checkReturns_ended {returned : TokenReturn}
    (now : returned ∈ checkReturns clock token begun answer purpose) : returned.ended = clock := by
  unfold checkReturns at now
  split at now
  · split at now
    · cases List.mem_singleton.mp now
      rfl
    · simp only [List.mem_cons, List.not_mem_nil, or_false] at now
      obtain rfl | rfl := now <;> rfl
  · cases List.mem_singleton.mp now
    rfl

theorem update_flags {flags : Nat → Bool} (token other : Nat) (set : flags other = true) :
    Function.update flags token true other = true := by
  by_cases same : other = token
  · rw [same, Function.update_self]
  · rw [Function.update_of_ne same, set]

variable [DecidableEq Thread]

/-- A step that stores no reason. -/
theorem moved_of {after : Tokens Thread} {next : Place} (answers : List TokenReturn)
    (place : after.place = Function.update tokens.place thread next)
    (flags : ∀ token, tokens.cancelled token = true → after.cancelled token = true)
    (reasons : after.reason = tokens.reason) (called : tokens.called ⊆ after.called)
    (returns : after.returns = tokens.returns ++ answers) (late : ∀ answer ∈ answers, tokens.clock ≤ answer.ended)
    (clock : tokens.clock ≤ after.clock)
    (threat : ∀ token, Flagged tree tokens token → Threatens tree after token next →
      Threatens tree tokens token (tokens.place thread)) : Moved tree tokens after thread where
  others other different := by rw [place, Function.update_of_ne different]
  flags := flags
  reasons token reason found := by rw [reasons, found]
  fresh token empty := .inl (by rw [reasons, empty])
  threat token flagged threatens := by
    rw [place, Function.update_self] at threatens
    exact threat token flagged threatens
  called := called
  returns := ⟨answers, returns, late⟩
  clock := clock

/-- A step that only goes on to another place, with a lock taken or released. -/
theorem moved_goto (holder : Nat → Option Thread) (next : Place)
    (threat : ∀ token, Flagged tree tokens token → Threatens tree tokens token next →
      Threatens tree tokens token (tokens.place thread)) :
    Moved tree tokens ({ tokens with holder }.goto thread next).tick thread :=
  moved_of [] rfl (fun _ set => set) rfl (List.Subset.refl _) (List.append_nil _).symm
    nofun (Nat.le_succ _) threat

/-- A thread waits. -/
theorem moved_wait : Moved tree tokens tokens.tick thread :=
  moved_of [] (Function.update_eq_self ..).symm (fun _ set => set) rfl (List.Subset.refl _)
    (List.append_nil _).symm nofun (Nat.le_succ _) fun _ _ threat => threat

/-- The answer of `is_cancelled` comes back, perhaps with the flag that it cached. -/
theorem moved_check {flags : Nat → Bool} (kept : ∀ token, tokens.cancelled token = true → flags token = true)
    (threat : answer = false → ∀ reason escalate, purpose = .recheck reason escalate →
      Threatens tree tokens token (tokens.place thread)) :
    Moved tree tokens ({ tokens with cancelled := flags }.returnCancelled thread token begun answer purpose).tick
      thread := by
  refine moved_of _ rfl kept rfl (List.Subset.refl _) rfl (fun returned now => ?_) (Nat.le_succ _) ?_
  · exact Nat.le_of_eq (checkReturns_ended now).symm
  · intro other _ threatens
    obtain ⟨negative, rfl, reason, escalate, recheck⟩ := afterCheck_safe threatens
    exact threat negative reason escalate recheck

theorem moved_reason {answer : Option CancellationReason} :
    Moved tree tokens ({ tokens with holder }.returnReason thread token begun answer escalate).tick thread := by
  refine moved_of _ rfl (fun _ set => set) rfl (List.Subset.refl _) rfl (fun returned now => ?_) (Nat.le_succ _) ?_
  · cases List.mem_singleton.mp now
    exact Nat.le_refl _
  · exact fun _ _ threat => (afterReason_safe threat).elim

theorem moved_begin (call : TokenCall) :
    Moved tree tokens (tokens.begin thread call).tick thread := by
  cases call with
  | cancelWithReason token reason | escalate token reason =>
    exact moved_of [] rfl (fun _ set => set) rfl (List.subset_append_left ..) (List.append_nil _).symm
      nofun (Nat.le_succ _) fun _ _ threat => threat.elim
  | isCancelled token | reason token => exact moved_goto tokens.holder _ fun _ _ threat => threat.elim

/-- The reason is stored under the lock. -/
theorem moved_store {reason : CancellationReason} (here : tokens.place thread = .storing token reason escalate) :
    Moved tree tokens ((tokens.store token reason).goto thread (.unlocking token true escalate)).tick thread := by
  unfold store
  cases found : tokens.reason token with
  | some first => exact moved_goto tokens.holder _ fun _ _ threat => threat.elim
  | none =>
    exact
      { others := fun other different => Function.update_of_ne different ..
        flags := fun _ set => set
        reasons := fun other first kept => by
          have different : other ≠ token := by
            rintro rfl
            cases kept.symm.trans found
          exact (Function.update_of_ne different ..).trans kept
        fresh := fun other empty => by
          by_cases same : other = token
          · rw [here]
            exact .inr same.symm
          · exact .inl ((Function.update_of_ne same ..).trans empty)
        threat := fun other _ threat => by
          dsimp only [goto, tick] at threat
          rw [Function.update_self] at threat
          exact threat.elim
        called := List.Subset.refl _
        returns := ⟨[], (List.append_nil _).symm, nofun⟩
        clock := Nat.le_succ _ }

/-- Every step of a thread keeps the flags, the reasons and the blocked tokens. -/
theorem step_moved (tree : TokenTree) (tokens : Tokens Thread) (thread : Thread) (call : TokenCall) :
    Moved tree tokens (tokens.step tree thread call) thread := by
  unfold step advance
  split
  case h_1 => exact moved_begin call
  case h_2 token purpose begun current here =>
    split
    · split
      · exact moved_check (fun _ set => set) nofun
      · exact moved_goto tokens.holder _ fun _ _ threat => threat.elim
    · rename_i clear
      split
      · rename_i above link
        refine moved_goto tokens.holder _ fun other _ threat => ?_
        rw [here]
        cases purpose with
        | recheck reason escalate =>
          refine ⟨threat.1, fun flagged => threat.2 ?_⟩
          obtain ⟨next, up, flagged⟩ := flagged.parent clear
          cases link.symm.trans up
          exact flagged
        | _ => exact threat.elim
      · rename_i top
        refine moved_check (fun _ set => set) fun _ reason escalate recheck => ?_
        subst recheck
        rw [here]
        refine ⟨rfl, fun flagged => ?_⟩
        obtain ⟨above, link, _⟩ := flagged.parent clear
        cases top.symm.trans link
  case h_3 token purpose begun here =>
    exact moved_check (update_flags token) nofun
  case h_4 token reason escalate here =>
    split
    · exact moved_wait
    · exact moved_goto _ _ fun other flagged threat => absurd (threat.1 ▸ flagged) threat.2
  case h_5 token reason escalate here => exact moved_store here
  case h_6 token proceeds escalate here =>
    refine moved_goto _ _ fun other _ threat => ?_
    split at threat
    · exact threat.elim
    · exact (afterCancel_safe threat).elim
  case h_7 token escalate here =>
    exact moved_of [] rfl (update_flags token) rfl (List.Subset.refl _) (List.append_nil _).symm
      nofun (Nat.le_succ _) fun _ _ threat => (afterCancel_safe threat).elim
  case h_8 token begun current escalate here =>
    split
    · exact moved_wait
    · exact moved_goto _ _ fun _ _ threat => threat.elim
  case h_9 token begun current escalate here => exact moved_goto tokens.holder _ fun _ _ threat => threat.elim
  case h_10 token begun current found escalate here =>
    split
    · exact moved_reason
    · split
      · exact moved_goto _ _ fun _ _ threat => threat.elim
      · exact moved_reason
  case h_11 token reason here =>
    unfold setEscalation
    split
    · exact moved_goto tokens.holder _ fun _ _ threat => threat.elim
    · exact moved_of [] rfl (fun _ set => set) rfl (List.Subset.refl _) (List.append_nil _).symm
        nofun (Nat.le_succ _) fun _ _ threat => threat.elim

end Steps

section Soundness

variable {tree : TokenTree} {tokens after : Tokens Thread} {thread : Thread}

theorem Flagged.sourced (sound : Sound tree tokens) {token : Nat} (flagged : Flagged tree tokens token) :
    Sourced tree tokens token := by
  obtain ⟨above, ancestor, set⟩ := flagged
  obtain ⟨origin, further, found⟩ := sound.sourced above set
  exact ⟨origin, ancestor.trans further, found⟩

theorem Sourced.flagged {token : Nat} (sourced : Sourced tree tokens token) : Flagged tree tokens token := by
  obtain ⟨above, ancestor, set, _⟩ := sourced
  exact ⟨above, ancestor, set⟩

/-- The source above a token without a reason is above its parent. -/
theorem Sourced.parent {token : Nat} (sourced : Sourced tree tokens token) (empty : tokens.reason token = none) :
    ∃ above, tree.parent token = some above ∧ Sourced tree tokens above := by
  obtain ⟨origin, ancestor, set, reason⟩ := sourced
  obtain rfl | ⟨above, link, rest⟩ := ancestor.cases_head
  · rw [empty] at reason
    cases reason
  · exact ⟨above, link, origin, rest, set, reason⟩

/-- A token that was seen cancelled is cancelled. -/
theorem Warned.flagged (sound : Sound tree tokens) {token time : Nat} (warned : Warned tree tokens token time) :
    Flagged tree tokens token := by
  obtain ⟨above, begun, ended, ancestor, returned, _⟩ := warned
  exact ⟨above, ancestor, sound.answered _ returned⟩

theorem threat_holds {token : Nat} (threat : Threatens tree tokens token place) :
    place.holds = some token := by
  unfold Threatens at threat
  split at threat
  · exact congrArg some threat
  · exact congrArg some threat.1
  · exact threat.elim

variable {begun current locked : Nat} {escalate : Option CancellationReason}

section

variable (sound : Sound tree tokens)

include sound

theorem Sound.stands (here : tokens.place thread = place) :
    Placed tree tokens place :=
  here ▸ sound.placed thread

/-- A reader that holds the lock of a cancelled token without a reason knows that it is blocked. -/
theorem Sound.blocked {token : Nat}
    (here : tokens.place thread = .reading token begun current escalate) (empty : tokens.reason current = none) :
    Blocked tree tokens current where
  empty := empty
  flagged := (sound.stands here).2.1.flagged
  safe other threat := by
    have mine : tokens.holder current = some thread := (sound.mutex thread current).mp (by rw [here]; rfl)
    have theirs := (sound.mutex other current).mp (threat_holds threat)
    cases mine.symm.trans theirs
    rw [here] at threat
    exact threat

/-- A step that settles what its own thread has to show keeps the invariant. -/
theorem Sound.next [DecidableEq Thread] {next : Place} (moved : Moved tree tokens after thread)
    (place : after.place = Function.update tokens.place thread next) (settled : Settled tree tokens after next)
    (asked : ∀ token reason, after.reason token = some reason →
      tokens.reason token = some reason ∨ (token, reason) ∈ after.called)
    (stored : ∀ token, (after.stored.filter fun entry => entry.1 = token).length = (after.reason token).isSome.toNat) :
    Sound tree after where
  sourced token set := (settled.sourced token set).elim (fun old => (sound.sourced token old).moved moved) id
  mutex := settled.mutex
  placed other := by
    by_cases same : other = thread
    · rw [same, place, Function.update_self]
      exact settled.placed
    · rw [moved.others other same]
      exact (sound.placed other).moved moved
  answered answer returned :=
    (settled.answered answer returned).elim (fun old => (sound.answered answer old).moved moved) id
  asked token reason found := (asked token reason found).elim (fun old => moved.called (sound.asked token reason old)) id
  stored := stored

/-- What a step that stores no reason must show. -/
theorem Sound.quiet [DecidableEq Thread] {next : Place} (moved : Moved tree tokens after thread)
    (place : after.place = Function.update tokens.place thread next) (reasons : after.reason = tokens.reason)
    (stores : after.stored = tokens.stored) (settled : Settled tree tokens after next) : Sound tree after :=
  sound.next moved place settled (fun token reason found => .inl (reasons ▸ found))
    (fun token => by
      rw [stores, reasons]
      exact sound.stored token)

/-- A step that only goes on to another place, with a lock taken or released. -/
theorem Sound.goes [DecidableEq Thread] {next : Place}
    (moved : Moved tree tokens ({ tokens with holder }.goto thread next).tick thread)
    (mutex : ∀ other token, (Function.update tokens.place thread next other).holds = some token ↔ holder token = some other)
    (placed : Placed tree ({ tokens with holder }.goto thread next).tick next) :
    Sound tree ({ tokens with holder }.goto thread next).tick :=
  sound.quiet moved rfl rfl rfl ⟨fun _ set => .inl set, mutex, placed, fun _ returned => .inl returned⟩

variable {purpose : Purpose}

/-- A call that begins now knows of every cancellation that was seen before. -/
theorem Sound.begins (moved : Moved tree tokens after thread)
    (clock : after.clock = tokens.clock + 1) {token : Nat} (asked : Asked after token purpose) :
    Placed tree after (.loading token purpose tokens.clock token) := by
  refine ⟨.refl, asked, clock ▸ Nat.lt_succ_self _, fun warned => Flagged.moved moved ?_⟩
  obtain ⟨above, begun, ended, ancestor, returned, earlier⟩ := warned
  obtain ⟨answers, returns, late⟩ := moved.returns
  rw [returns] at returned
  obtain old | now := List.mem_append.mp returned
  · exact Warned.flagged sound ⟨above, begun, ended, ancestor, old, earlier⟩
  · exact absurd earlier (Nat.not_lt.mpr (late _ now))

theorem Sound.afterCancel_placed (moved : Moved tree tokens after thread)
    (clock : after.clock = tokens.clock + 1) (token : Nat) (escalate : Option CancellationReason) :
    Placed tree after (afterCancel tokens.clock token escalate) := by
  unfold afterCancel
  split
  · trivial
  · split
    · exact sound.begins moved clock trivial
    · trivial

end

theorem afterReason_placed (token : Nat) (answer escalate : Option CancellationReason) :
    Placed tree after (afterReason token answer escalate) := by
  unfold afterReason
  split
  · trivial
  · split <;> trivial

/-- The answer of `is_cancelled` leads to a place where the thread knows enough. -/
theorem Sound.afterCheck_placed (sound : Sound tree tokens) (moved : Moved tree tokens after thread)
    (clock : after.clock = tokens.clock + 1) {token : Nat}
    (flagged : answer = true → Flagged tree tokens token) (asked : Asked tokens token purpose)
    (early : begun < tokens.clock) : Placed tree after (afterCheck tokens.clock token begun answer purpose) := by
  cases purpose with
  | query => trivial
  | check reason escalate =>
    cases answer with
    | false => exact moved.called asked
    | true => exact sound.afterCancel_placed moved clock token escalate
  | recheck reason escalate =>
    cases answer with
    | false => exact moved.called asked
    | true => exact nofun
  | read escalate =>
    cases answer with
    | false => exact afterReason_placed ..
    | true => exact ⟨.refl, ((flagged rfl).sourced sound).moved moved, Nat.lt_of_lt_of_le early moved.clock⟩

theorem checkReturns_answered {clock token : Nat} (set : answer = true → after.cancelled token = true)
    (unwarned : answer = false → ¬Warned tree after token begun) (early : begun < after.clock)
    {returned : TokenReturn} (now : returned ∈ checkReturns clock token begun answer purpose) :
    Answered tree after returned := by
  have answered : Answered tree after (.isCancelled token answer begun clock) := by
    cases answer with
    | false => exact ⟨early, unwarned rfl⟩
    | true => exact set rfl
  unfold checkReturns at now
  split at now
  · split at now
    · cases List.mem_singleton.mp now
      exact answered
    · rename_i negative
      simp only [List.mem_cons, List.not_mem_nil, or_false] at now
      obtain rfl | rfl := now
      · exact answered
      · exact ⟨early, unwarned (Bool.eq_false_iff.mpr negative)⟩
  · cases List.mem_singleton.mp now
    exact answered

theorem update_sourced {token other : Nat} (flagged : tokens.cancelled token = true ∨ Sourced tree after token)
    (set : Function.update tokens.cancelled token true other = true) :
    tokens.cancelled other = true ∨ Sourced tree after other := by
  by_cases same : other = token
  · subst same
    exact flagged
  · rw [Function.update_of_ne same] at set
    exact .inl set

theorem sound_new (tree : TokenTree) : Sound tree (new : Tokens Thread) where
  sourced _ set := Bool.noConfusion set
  mutex thread token := ⟨fun holds => (by cases holds), fun holds => (by cases holds)⟩
  placed _ := trivial
  answered _ returned := absurd returned List.not_mem_nil
  asked _ _ found := (by cases found)
  stored _ := rfl

variable [DecidableEq Thread]

section

variable (sound : Sound tree tokens) {next : Place} (here : tokens.place thread = place)

include sound here

/-- The locks of a thread that goes on with the same lock. -/
theorem mutex_same (same : next.holds = place.holds) (other : Thread) (token : Nat) :
    (Function.update tokens.place thread next other).holds = some token ↔ tokens.holder token = some other := by
  rw [← sound.mutex]
  by_cases equal : other = thread
  · rw [equal, Function.update_self, same, here]
  · rw [Function.update_of_ne equal]

theorem mutex_lock (free : tokens.holder locked = none) (open_ : place.holds = none) (holds : next.holds = some locked)
    (other : Thread) (token : Nat) :
    (Function.update tokens.place thread next other).holds = some token ↔
      Function.update tokens.holder locked (some thread) token = some other := by
  have mutex := sound.mutex other token
  by_cases equal : other = thread
  · subst equal
    rw [Function.update_self, holds]
    by_cases same : token = locked
    · simp [same]
    · rw [Function.update_of_ne same, ← mutex, here, open_]
      simp [Ne.symm same]
  · rw [Function.update_of_ne equal, mutex]
    by_cases same : token = locked
    · rw [same, Function.update_self, free]
      simp [Ne.symm equal]
    · rw [Function.update_of_ne same]

theorem mutex_unlock (held : place.holds = some locked) (holds : next.holds = none) (other : Thread) (token : Nat) :
    (Function.update tokens.place thread next other).holds = some token ↔
      Function.update tokens.holder locked none token = some other := by
  have mutex := sound.mutex other token
  have mine := (sound.mutex thread locked).mp (here ▸ held)
  by_cases equal : other = thread
  · subst equal
    rw [Function.update_self, holds]
    by_cases same : token = locked
    · simp [same]
    · rw [Function.update_of_ne same, ← mutex, here, held]
      simp [Ne.symm same]
  · rw [Function.update_of_ne equal, mutex]
    by_cases same : token = locked
    · rw [same, Function.update_self, mine]
      simp [Ne.symm equal]
    · rw [Function.update_of_ne same]

end

theorem afterCancel_holds (clock token : Nat) (escalate : Option CancellationReason) :
    (afterCancel clock token escalate).holds = none := by
  unfold afterCancel
  split
  · rfl
  · split <;> rfl

theorem afterReason_holds (token : Nat) (answer escalate : Option CancellationReason) :
    (afterReason token answer escalate).holds = none := by
  unfold afterReason
  split
  · rfl
  · split <;> rfl

/-- The answer of `is_cancelled` is used under the same lock. -/
theorem afterCheck_holds (clock token begun current : Nat) (answer : Bool) (purpose : Purpose) :
    (afterCheck clock token begun answer purpose).holds = (Place.loading token purpose begun current).holds ∧
      (afterCheck clock token begun answer purpose).holds = (Place.caching token purpose begun).holds := by
  cases purpose with
  | query => exact ⟨rfl, rfl⟩
  | check reason escalate =>
    cases answer with
    | false => exact ⟨rfl, rfl⟩
    | true => exact ⟨afterCancel_holds .., afterCancel_holds ..⟩
  | recheck reason escalate => cases answer <;> exact ⟨rfl, rfl⟩
  | read escalate =>
    cases answer with
    | false => exact ⟨afterReason_holds .., afterReason_holds ..⟩
    | true => exact ⟨rfl, rfl⟩

/-- A thread that waits for a lock knows what it knew. -/
theorem Sound.waits (sound : Sound tree tokens) (moved : Moved tree tokens tokens.tick thread) : Sound tree tokens.tick :=
  sound.quiet moved (Function.update_eq_self thread _).symm rfl rfl ⟨fun _ set => .inl set, sound.mutex,
    (sound.placed thread).moved moved, fun _ returned => .inl returned⟩

section

variable {call : TokenCall} {token : Nat} (sound : Sound tree tokens)
  (moved : Moved tree tokens (tokens.step tree thread call) thread)
include sound moved

theorem Sound.idle (here : tokens.place thread = .idle) : Sound tree (tokens.step tree thread call) := by
  rw [Tokens.step, advance, here] at moved ⊢
  cases call with
  | cancelWithReason token reason | escalate token reason =>
    refine sound.quiet moved rfl rfl rfl ⟨fun _ set => .inl set, mutex_same sound here rfl, ?_,
      fun _ returned => .inl returned⟩
    exact sound.begins moved rfl (List.mem_append_right _ (List.mem_singleton.mpr rfl))
  | isCancelled token | reason token =>
    exact sound.goes moved (mutex_same sound here rfl) (sound.begins moved rfl trivial)

theorem Sound.loading (here : tokens.place thread = .loading token purpose begun current) :
    Sound tree (tokens.step tree thread call) := by
  obtain ⟨ancestor, asked, early, warned⟩ := sound.stands here
  rw [Tokens.step, advance, here] at moved ⊢
  dsimp only at moved ⊢
  by_cases set : tokens.cancelled current = true
  · rw [if_pos set] at moved ⊢
    by_cases own : current = token
    · subst own
      rw [if_pos rfl] at moved ⊢
      refine sound.quiet moved rfl rfl rfl ⟨fun _ set => .inl set, mutex_same sound here (afterCheck_holds ..).1, ?_,
        fun answer returned => ?_⟩
      · exact sound.afterCheck_placed moved rfl (fun _ => ⟨_, .refl, set⟩) asked early
      · refine (List.mem_append.mp returned).imp id fun now => ?_
        refine checkReturns_answered ?_ ?_ ?_ now
        · exact fun _ => set
        · exact nofun
        · exact Nat.lt_succ_of_lt early
    · rw [if_neg own] at moved ⊢
      refine sound.goes moved (mutex_same sound here ?_) ?_
      · cases purpose <;> rfl
      · exact ⟨⟨current, ancestor, set⟩, asked.moved moved, Nat.lt_succ_of_lt early⟩
  · rw [if_neg set] at moved ⊢
    cases link : tree.parent current with
    | some above =>
      rw [link] at moved
      refine sound.goes moved (mutex_same sound here ?_) ?_
      · cases purpose <;> rfl
      · refine ⟨ancestor.tail link, asked.moved moved, Nat.lt_succ_of_lt early, fun warning => ?_⟩
        obtain ⟨next, up, flagged⟩ := (warned (warning.moved_back moved early)).parent set
        cases link.symm.trans up
        exact flagged.moved moved
    | none =>
      rw [link] at moved
      refine sound.quiet moved rfl rfl rfl ⟨fun _ set => .inl set, mutex_same sound here (afterCheck_holds ..).1, ?_,
        fun answer returned => ?_⟩
      · exact sound.afterCheck_placed moved rfl nofun asked early
      · refine (List.mem_append.mp returned).imp id fun now => ?_
        refine checkReturns_answered ?_ ?_ ?_ now
        · exact nofun
        · intro _ warning
          obtain ⟨next, up, _⟩ := (warned (warning.moved_back moved early)).parent set
          cases link.symm.trans up
        · exact Nat.lt_succ_of_lt early

theorem Sound.caching (here : tokens.place thread = .caching token purpose begun) :
    Sound tree (tokens.step tree thread call) := by
  obtain ⟨flagged, asked, early⟩ := sound.stands here
  rw [Tokens.step, advance, here] at moved ⊢
  have sourced := (flagged.sourced sound).moved moved
  refine sound.quiet moved rfl rfl rfl ⟨fun _ => update_sourced (.inr sourced), mutex_same sound here ?_, ?_,
    fun answer returned => ?_⟩
  · exact (afterCheck_holds _ _ _ 0 _ _).2
  · exact sound.afterCheck_placed moved rfl (fun _ => flagged) asked early
  · refine (List.mem_append.mp returned).imp id fun now => ?_
    refine checkReturns_answered ?_ ?_ ?_ now
    · exact fun _ => Function.update_self ..
    · exact nofun
    · exact Nat.lt_succ_of_lt early

variable {reason : CancellationReason}

theorem Sound.locking (here : tokens.place thread = .locking token reason escalate) :
    Sound tree (tokens.step tree thread call) := by
  have placed := sound.stands here
  rw [Tokens.step, advance, here] at moved ⊢
  dsimp only at moved ⊢
  cases free : tokens.holder token with
  | some other =>
    rw [free] at moved
    exact sound.waits moved
  | none =>
    rw [free] at moved
    exact sound.goes moved (mutex_lock sound here free rfl rfl) (sound.begins moved rfl (moved.called placed))

/-- The reason is written once. -/
theorem Sound.storing (here : tokens.place thread = .storing token reason escalate) :
    Sound tree (tokens.step tree thread call) := by
  have placed := sound.stands here
  rw [Tokens.step, advance, here] at moved ⊢
  dsimp only at moved ⊢
  unfold store at moved ⊢
  cases found : tokens.reason token with
  | some first =>
    rw [found] at moved
    refine sound.goes moved (mutex_same sound here rfl) ?_
    intro _
    show (tokens.reason token).isSome
    rw [found]
    rfl
  | none =>
    rw [found] at moved
    refine sound.next moved rfl ⟨fun _ set => .inl set, mutex_same sound here rfl, fun _ => ?_,
      fun _ returned => .inl returned⟩ (fun other first kept => ?_) fun other => ?_
    · show (Function.update tokens.reason token (some reason) token).isSome
      rw [Function.update_self]
      rfl
    · change Function.update tokens.reason token (some reason) other = some first at kept
      by_cases equal : other = token
      · subst equal
        rw [Function.update_self] at kept
        cases kept
        exact .inr placed
      · rw [Function.update_of_ne equal] at kept
        exact .inl kept
    · show ((tokens.stored ++ [(token, reason)]).filter fun entry => entry.1 = other).length =
        (Function.update tokens.reason token (some reason) other).isSome.toNat
      have held := sound.stored other
      rw [List.filter_append, List.length_append, held]
      by_cases equal : other = token
      · subst equal
        rw [found, Function.update_self]
        simp
      · rw [Function.update_of_ne equal]
        simp [Ne.symm equal]

theorem Sound.unlocking {proceeds : Bool}
    (here : tokens.place thread = .unlocking token proceeds escalate) : Sound tree (tokens.step tree thread call) := by
  have placed := sound.stands here
  rw [Tokens.step, advance, here] at moved ⊢
  cases proceeds with
  | true =>
    exact sound.goes moved (mutex_unlock sound here rfl rfl) (placed rfl)
  | false =>
    exact sound.goes moved (mutex_unlock sound here rfl (afterCancel_holds ..))
      (sound.afterCancel_placed moved rfl token escalate)

theorem Sound.swapping (here : tokens.place thread = .swapping token escalate) :
    Sound tree (tokens.step tree thread call) := by
  have placed := sound.stands here
  rw [Tokens.step, advance, here] at moved ⊢
  refine sound.quiet moved rfl rfl rfl ⟨fun _ => update_sourced (.inr ?_), mutex_same sound here (afterCancel_holds ..),
    sound.afterCancel_placed moved rfl token escalate, fun _ returned => .inl returned⟩
  exact ⟨token, .refl, Function.update_self .., placed⟩

theorem Sound.readLocking (here : tokens.place thread = .readLocking token begun current escalate) :
    Sound tree (tokens.step tree thread call) := by
  obtain ⟨passed, sourced, early⟩ := sound.stands here
  rw [Tokens.step, advance, here] at moved ⊢
  dsimp only at moved ⊢
  cases free : tokens.holder current with
  | some other =>
    rw [free] at moved
    exact sound.waits moved
  | none =>
    rw [free] at moved
    exact sound.goes moved (mutex_lock sound here free rfl rfl)
      ⟨passed.moved moved, sourced.moved moved, Nat.lt_succ_of_lt early⟩

theorem Sound.reading (here : tokens.place thread = .reading token begun current escalate) :
    Sound tree (tokens.step tree thread call) := by
  have blocked := sound.blocked here
  obtain ⟨passed, sourced, early⟩ := sound.stands here
  rw [Tokens.step, advance, here] at moved ⊢
  dsimp only at moved ⊢
  cases found : tokens.reason current with
  | some reason =>
    rw [found] at moved
    exact sound.goes moved (mutex_same sound here rfl)
      ⟨Fixed.moved moved ⟨current, passed, found⟩, Nat.lt_succ_of_lt early⟩
  | none =>
    rw [found] at moved
    exact sound.goes moved (mutex_same sound here rfl)
      ⟨passed.moved moved, (blocked found).moved moved, sourced.moved moved, Nat.lt_succ_of_lt early⟩

theorem Sound.readUnlocking {found : Option CancellationReason}
    (here : tokens.place thread = .readUnlocking token begun current found escalate) :
    Sound tree (tokens.step tree thread call) := by
  have placed := sound.stands here
  rw [Tokens.step, advance, here] at moved ⊢
  dsimp only at moved ⊢
  cases found with
  | some reason =>
    refine sound.quiet moved rfl rfl rfl ⟨fun _ set => .inl set, mutex_unlock sound here rfl (afterReason_holds ..),
      afterReason_placed .., fun answer returned => ?_⟩
    refine (List.mem_append.mp returned).imp id fun now => ?_
    cases List.mem_singleton.mp now
    exact placed.1.moved moved
  | none =>
    obtain ⟨passed, blocked, sourced, early⟩ := placed
    -- A token without a reason has its source further up, so that the way does not end here.
    obtain ⟨above, link, sourced⟩ := sourced.parent blocked.empty
    rw [link] at moved ⊢
    refine sound.goes moved (mutex_unlock sound here rfl rfl) ?_
    have further : Passed tree tokens token above := passed.tail ⟨blocked, link⟩
    exact ⟨further.moved moved, sourced.moved moved, Nat.lt_succ_of_lt early⟩

theorem Sound.escalating (here : tokens.place thread = .escalating token reason) :
    Sound tree (tokens.step tree thread call) := by
  rw [Tokens.step, advance, here] at moved ⊢
  dsimp only at moved ⊢
  unfold setEscalation at moved ⊢
  cases found : tokens.escalation token with
  | some first | none =>
    rw [found] at moved
    exact sound.quiet moved rfl rfl rfl ⟨fun _ set => .inl set, mutex_same sound here rfl, trivial,
      fun _ returned => .inl returned⟩

end

/-- Every step keeps the invariant. -/
theorem Sound.step (sound : Sound tree tokens) (thread : Thread) (call : TokenCall) :
    Sound tree (tokens.step tree thread call) := by
  have moved := step_moved tree tokens thread call
  cases here : tokens.place thread with
  | idle => exact sound.idle moved here
  | loading token purpose begun current => exact sound.loading moved here
  | caching token purpose begun => exact sound.caching moved here
  | locking token reason escalate => exact sound.locking moved here
  | storing token reason escalate => exact sound.storing moved here
  | unlocking token proceeds escalate => exact sound.unlocking moved here
  | swapping token escalate => exact sound.swapping moved here
  | readLocking token begun current escalate => exact sound.readLocking moved here
  | reading token begun current escalate => exact sound.reading moved here
  | readUnlocking token begun current found escalate => exact sound.readUnlocking moved here
  | escalating token reason => exact sound.escalating moved here

theorem sound_run (tree : TokenTree) (schedule : List (Thread × TokenCall)) :
    Sound tree ((new : Tokens Thread).run tree schedule) := by
  refine List.foldlRecOn (motive := fun tokens => Sound tree tokens) schedule _ (sound_new tree) ?_
  exact fun _ sound turn _ => sound.step turn.1 turn.2

end Soundness

end Tokens

end Instancy
