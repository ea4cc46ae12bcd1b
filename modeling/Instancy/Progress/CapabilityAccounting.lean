import Instancy.Progress.Capability

namespace Instancy

open Library

section Counts

variable {T : Type} [TimeOrder T]

/-- The number of capabilities at a time. -/
def countAt (live : List (Capability T)) (time : T) : Int := (live.countP fun capability => capability.time = time : Nat)

theorem countAt_perm {first second : List (Capability T)} (same : first.Perm second) (time : T) :
    countAt first time = countAt second time := by
  unfold countAt
  rw [same.countP_eq]

theorem countAt_cons (capability : Capability T) (live : List (Capability T)) (time : T) :
    countAt (capability :: live) time = countAt live time + if capability.time = time then 1 else 0 := by
  unfold countAt
  by_cases same : capability.time = time <;> simp [same]

theorem countAt_pos_iff {live : List (Capability T)} {time : T} :
    0 < countAt live time ↔ ∃ capability ∈ live, capability.time = time := by
  unfold countAt
  rw [Int.natCast_pos, List.countP_pos_iff]
  simp only [decide_eq_true_eq]

namespace ProgressReporter

@[simp] theorem update_pending (reporter : ProgressReporter T) (time : T) (diff : Int) (query : T) :
    (reporter.update time diff).pending.net query = reporter.pending.net query + if time = query then diff else 0 :=
  ChangeBatch.update_net reporter.pending time diff query

@[simp] theorem downgrade_pending (reporter : ProgressReporter T) (oldTime newTime query : T) :
    (reporter.downgrade oldTime newTime).pending.net query =
      reporter.pending.net query + (if oldTime = query then -1 else 0) + if newTime = query then 1 else 0 := by
  change ((reporter.pending.update oldTime (-1)).update newTime 1).net query = _
  rw [ChangeBatch.update_net, ChangeBatch.update_net]

end ProgressReporter

/-- One call of the reporter together with the capability that it makes, drops or moves. -/
inductive Reported (reporter : ProgressReporter T) (live : List (Capability T)) :
    ProgressReporter T → List (Capability T) → Prop
  | silent {after : List (Capability T)} (same : after.Perm live) : Reported reporter live reporter after
  | created {after : List (Capability T)} (time : T) (more : after.Perm (⟨time⟩ :: live)) :
      Reported reporter live (reporter.update time 1) after
  | dropped {after : List (Capability T)} (capability : Capability T) (fewer : live.Perm (capability :: after)) :
      Reported reporter live (reporter.release capability.time) after
  | moved {after rest : List (Capability T)} (capability : Capability T) (time : T)
      (before : live.Perm (capability :: rest)) (later : after.Perm (⟨time⟩ :: rest)) :
      Reported reporter live (reporter.downgrade capability.time time) after

/-- The reporter moves its held count and its pending changes as the live capabilities move. -/
theorem Reported.counts {reporter next : ProgressReporter T} {live after : List (Capability T)}
    (reported : Reported reporter live next after) (time : T) :
    next.heldAt time - reporter.heldAt time = countAt after time - countAt live time ∧
      next.pending.net time - reporter.pending.net time = countAt after time - countAt live time := by
  cases reported with
  | silent same =>
    rw [countAt_perm same, Int.sub_self, Int.sub_self, Int.sub_self]
    exact ⟨rfl, rfl⟩
  | created made more =>
    rw [countAt_perm more, countAt_cons, ProgressReporter.update_heldAt, ProgressReporter.update_pending]
    split <;> omega
  | dropped capability fewer =>
    rw [countAt_perm fewer, countAt_cons]
    unfold ProgressReporter.release
    rw [ProgressReporter.update_heldAt, ProgressReporter.update_pending]
    split <;> omega
  | moved capability made before later =>
    rw [countAt_perm before, countAt_perm later, countAt_cons, countAt_cons, ProgressReporter.downgrade_heldAt,
      ProgressReporter.downgrade_pending]
    split <;> split <;> omega

/-- Capabilities that a step does not touch can be added on both sides. -/
theorem Reported.beside {reporter next : ProgressReporter T} {live after : List (Capability T)}
    (reported : Reported reporter live next after) {whole later others : List (Capability T)}
    (before : whole.Perm (live ++ others)) (behind : later.Perm (after ++ others)) :
    Reported reporter whole next later := by
  cases reported with
  | silent same => exact .silent (behind.trans ((same.append_right others).trans before.symm))
  | created time more => exact .created time (behind.trans ((more.append_right others).trans (before.symm.cons _)))
  | dropped capability fewer => exact .dropped capability (before.trans ((fewer.append_right others).trans (behind.symm.cons _)))
  | moved capability time first second =>
    exact .moved capability time (before.trans (first.append_right others)) (behind.trans (second.append_right others))

end Counts

section Insertion

variable {T : Type} [TimeOrder T]

/-- The times of a set after an insertion. -/
def insertTime (times : List T) (time : T) : List T :=
  if times.any fun element => element ≤ time then times else times.filter (fun element => ¬ time ≤ element) ++ [time]

/-- An insertion adds the time to what the set is the frontier of. -/
theorem insertTime_isFrontier {times : List T} {holds : T → Prop} (isFrontier : IsFrontier times holds) (time : T) :
    IsFrontier (insertTime times time) fun other => holds other ∨ other = time := by
  unfold insertTime
  split
  · rename_i covered
    obtain ⟨element, member, below⟩ := List.any_eq_true.mp covered
    refine ⟨isFrontier.incomparable, fun other found => Or.inl (isFrontier.sound other found), fun other either => ?_⟩
    rcases either with held | same
    · exact isFrontier.covers other held
    · exact ⟨element, member, same ▸ of_decide_eq_true below⟩
  · rename_i fresh
    have above : ∀ element ∈ times, ¬ element ≤ time := fun element member below =>
      fresh (List.any_eq_true.mpr ⟨element, member, decide_eq_true below⟩)
    refine ⟨?_, fun other found => ?_, fun other either => ?_⟩
    · rw [List.pairwise_append]
      refine ⟨isFrontier.incomparable.filter _, List.pairwise_singleton _ _, fun element kept last isLast => ?_⟩
      obtain ⟨member, apart⟩ := List.mem_filter.mp kept
      rw [List.mem_singleton.mp isLast]
      exact ⟨above element member, of_decide_eq_true apart⟩
    · rcases List.mem_append.mp found with kept | last
      · exact Or.inl (isFrontier.sound other (List.mem_filter.mp kept).1)
      · exact Or.inr (List.mem_singleton.mp last)
    · rcases either with held | same
      · obtain ⟨below, member, under⟩ := isFrontier.covers other held
        by_cases evicted : time ≤ below
        · exact ⟨time, List.mem_append_right _ List.mem_cons_self, evicted.trans under⟩
        · exact ⟨below, List.mem_append_left _ (List.mem_filter.mpr ⟨member, decide_eq_true evicted⟩), under⟩
      · exact ⟨time, List.mem_append_right _ List.mem_cons_self, le_of_eq same.symm⟩

theorem foldl_insertTime_isFrontier (given : List T) : ∀ {times : List T} {holds : T → Prop}, IsFrontier times holds →
    IsFrontier (given.foldl insertTime times) fun other => holds other ∨ other ∈ given := by
  induction given with
  | nil => exact fun isFrontier => isFrontier.congr fun _ => by simp
  | cons time rest ih =>
    intro times holds isFrontier
    refine (ih (insertTime_isFrontier isFrontier time)).congr fun other => ?_
    rw [List.mem_cons, or_assoc]

end Insertion

namespace SetPhase

variable {T : Type} [TimeOrder T]

/-- The live capabilities of a set and of its current call. -/
def live : SetPhase T → List (Capability T)
  | idle elements => elements
  | refusing elements refused later => elements ++ refused :: later
  | retaining kept rest inserted later => kept ++ rest ++ inserted :: later
  | creating elements made _ => elements ++ made
  | clearing elements made => elements ++ made

/-- The capabilities that the set itself holds. -/
def elements : SetPhase T → List (Capability T)
  | idle elements => elements
  | refusing elements _ _ => elements
  | retaining kept rest _ _ => kept ++ rest
  | creating elements _ _ => elements
  | clearing elements _ => elements

/-- The times of the set at the end of the call. -/
def result : SetPhase T → List T
  | idle elements => elements.map Capability.time
  | refusing elements _ later => (later.map Capability.time).foldl insertTime (elements.map Capability.time)
  | retaining kept rest inserted later =>
    (later.map Capability.time).foldl insertTime (kept.map Capability.time ++
      (rest.map Capability.time).filter (fun time => ¬ inserted.time ≤ time) ++ [inserted.time])
  | creating _ made times => (made.map Capability.time ++ times).foldl insertTime []
  | clearing _ made => (made.map Capability.time).foldl insertTime []

/-- The set is an antichain, what is refused is covered, and what is to be created is covered. -/
def Sound : SetPhase T → Prop
  | idle elements => (elements.map Capability.time).Pairwise Incomparable
  | refusing elements refused _ =>
    (elements.map Capability.time).Pairwise Incomparable ∧ ∃ element ∈ elements, element.time ≤ refused.time
  | retaining kept rest inserted _ =>
    ((kept ++ rest).map Capability.time).Pairwise Incomparable ∧
      (kept.map Capability.time ++ (rest.map Capability.time).filter (fun time => ¬ inserted.time ≤ time) ++
        [inserted.time]).Pairwise Incomparable
  | creating elements _ times =>
    (elements.map Capability.time).Pairwise Incomparable ∧ ∀ time ∈ times, ∃ element ∈ elements, element.time ≤ time
  | clearing elements _ => (elements.map Capability.time).Pairwise Incomparable

/-- Every given time has a capability at or before it. -/
def Covers (given : List T) (capabilities : List (Capability T)) : Prop :=
  ∀ time ∈ given, ∃ capability ∈ capabilities, capability.time ≤ time

/-- A downgrade to the given times is covered now and stays so. -/
def Guards (given : List T) : SetPhase T → Prop
  | creating _ made times => ∀ time ∈ given, time ∈ made.map Capability.time ∨ time ∈ times
  | clearing _ made => Covers given made
  | phase => Covers given phase.live

variable {phase : SetPhase T}

theorem Sound.antichain (sound : phase.Sound) :
    (phase.elements.map Capability.time).Pairwise Incomparable := by
  cases phase with
  | idle | clearing => exact sound
  | refusing | retaining | creating => exact sound.1

variable {given : List T} {first second : List (Capability T)}

theorem Covers.mono (covers : Covers given first)
    (inside : ∀ capability ∈ first, capability ∈ second) : Covers given second := by
  intro time member
  obtain ⟨capability, found, below⟩ := covers time member
  exact ⟨capability, inside capability found, below⟩

/-- A capability may go if another one at or before it stays. -/
theorem Covers.without (covers : Covers given first)
    (stays : ∀ capability ∈ first, ∃ other ∈ second, other.time ≤ capability.time) : Covers given second := by
  intro time member
  obtain ⟨capability, found, below⟩ := covers time member
  obtain ⟨other, kept, under⟩ := stays capability found
  exact ⟨other, kept, under.trans below⟩

theorem Guards.covers (sound : phase.Sound) (guards : phase.Guards given) :
    Covers given phase.live := by
  cases phase with
  | idle | refusing | retaining => exact guards
  | clearing elements made => exact guards.mono fun _ member => List.mem_append_right _ member
  | creating elements made times =>
    intro time member
    rcases guards time member with isMade | isLeft
    · obtain ⟨capability, found, same⟩ := List.mem_map.mp isMade
      exact ⟨capability, List.mem_append_right _ found, le_of_eq same⟩
    · obtain ⟨element, found, below⟩ := sound.2 time isLeft
      exact ⟨element, List.mem_append_left _ found, below⟩

/-- A call that puts the capabilities `later` into a set of `elements`. -/
structure Begins (elements later : List (Capability T)) (phase : SetPhase T) : Prop where
  live : phase.live = elements ++ later
  result : phase.result = (later.map Capability.time).foldl insertTime (elements.map Capability.time)
  sound : (elements.map Capability.time).Pairwise Incomparable → phase.Sound
  guards : ∀ given, Covers given (elements ++ later) → phase.Guards given

theorem insert_begins (elements : List (Capability T)) (inserted : Capability T) (later : List (Capability T)) :
    Begins elements (inserted :: later) (insert elements inserted later) := by
  unfold insert
  split <;> rename_i covered
  · have same : insertTime (elements.map Capability.time) inserted.time = elements.map Capability.time := by
      rw [insertTime, List.any_map]
      exact if_pos covered
    obtain ⟨element, member, below⟩ := List.any_eq_true.mp covered
    exact ⟨rfl, by rw [List.map_cons, List.foldl_cons, same]; rfl,
      fun antichain => ⟨antichain, element, member, of_decide_eq_true below⟩, fun _ covers => covers⟩
  · have same : insertTime (elements.map Capability.time) inserted.time =
        (elements.map Capability.time).filter (fun time => ¬ inserted.time ≤ time) ++ [inserted.time] := by
      rw [insertTime, List.any_map]
      exact if_neg covered
    refine ⟨rfl, by rw [List.map_cons, List.foldl_cons, same]; rfl, fun antichain => ⟨antichain, ?_⟩, fun _ covers => covers⟩
    exact same ▸ (insertTime_isFrontier (.self antichain) inserted.time).incomparable

theorem insertNext_begins (elements later : List (Capability T)) :
    Begins elements later (insertNext elements later) := by
  cases later with
  | nil => exact ⟨(List.append_nil _).symm, rfl, fun antichain => antichain, fun _ covers => List.append_nil elements ▸ covers⟩
  | cons inserted later => exact insert_begins elements inserted later

/-- One step of a call: the reporter follows the capabilities, the set keeps its invariants, the times it ends with do not
change, and the given times of a downgrade stay covered. -/
structure Advances (reporter : ProgressReporter T) (phase : SetPhase T) (next : ProgressReporter T) (after : SetPhase T) :
    Prop where
  reported : Reported reporter phase.live next after.live
  sound : after.Sound
  result : after.result = phase.result
  guards : ∀ given, phase.Guards given → after.Guards given

variable {reporter : ProgressReporter T}

/-- A step that ends with the next insertion. -/
theorem Begins.advances {elements later : List (Capability T)} {after : SetPhase T} (begins : Begins elements later after)
    {next : ProgressReporter T} (reported : Reported reporter phase.live next (elements ++ later))
    (antichain : (elements.map Capability.time).Pairwise Incomparable)
    (result : (later.map Capability.time).foldl insertTime (elements.map Capability.time) = phase.result)
    (covers : ∀ given, phase.Guards given → Covers given (elements ++ later)) : Advances reporter phase next after :=
  ⟨begins.live ▸ reported, begins.sound antichain, begins.result.trans result,
    fun given guards => begins.guards given (covers given guards)⟩

theorem advance_refusing {elements later : List (Capability T)} {refused : Capability T}
    (sound : (refusing elements refused later).Sound) :
    Advances reporter (refusing elements refused later) (refused.drop reporter) (insertNext elements later) := by
  obtain ⟨antichain, element, member, below⟩ := sound
  refine (insertNext_begins elements later).advances (.dropped refused List.perm_middle) antichain rfl fun given guards => ?_
  refine guards.without fun capability found => ?_
  -- the refused capability is at or after an element of the set
  rcases List.mem_append.mp found with inSet | inCall
  · exact ⟨capability, List.mem_append_left _ inSet, le_refl _⟩
  · rcases List.mem_cons.mp inCall with same | inLater
    · exact ⟨element, List.mem_append_left _ member, same ▸ below⟩
    · exact ⟨capability, List.mem_append_right _ inLater, le_refl _⟩

theorem advance_retained {kept later : List (Capability T)} {inserted : Capability T}
    (sound : (retaining kept [] inserted later).Sound) :
    Advances reporter (retaining kept [] inserted later) reporter (insertNext (kept ++ [inserted]) later) := by
  have same : (kept ++ [inserted]).map Capability.time =
      kept.map Capability.time ++ (([] : List (Capability T)).map Capability.time).filter
        (fun time => ¬ inserted.time ≤ time) ++ [inserted.time] := by
    simp
  refine (insertNext_begins _ later).advances (.silent (by simp [live])) (same ▸ sound.2) (by rw [same, SetPhase.result])
    fun given guards => Covers.mono guards fun capability found => ?_
  simpa [live] using found

theorem advance_evict {kept rest later : List (Capability T)} {first inserted : Capability T}
    (sound : (retaining kept (first :: rest) inserted later).Sound) (evicted : inserted.time ≤ first.time) :
    Advances reporter (retaining kept (first :: rest) inserted later) (first.drop reporter)
      (retaining kept rest inserted later) := by
  have same : ((first :: rest).map Capability.time).filter (fun time => ¬ inserted.time ≤ time) =
      (rest.map Capability.time).filter (fun time => ¬ inserted.time ≤ time) := by
    rw [List.map_cons, List.filter_cons_of_neg (by simpa using evicted)]
  obtain ⟨antichain, settled⟩ := sound
  rw [same] at settled
  refine ⟨.dropped first ?_, ⟨?_, settled⟩, ?_, fun given guards => ?_⟩
  · simp only [live, List.append_assoc, List.cons_append]
    exact List.perm_middle
  · rw [List.map_append] at antichain ⊢
    exact antichain.sublist (List.Sublist.append_left (List.sublist_cons_self _ _) _)
  · simp only [SetPhase.result, same]
  · refine Covers.without guards fun capability found => ?_
    -- the evicted capability is at or after the inserted one
    by_cases isFirst : capability = first
    · exact ⟨inserted, List.mem_append_right _ List.mem_cons_self, isFirst ▸ evicted⟩
    · refine ⟨capability, ?_, le_refl _⟩
      simp only [live, List.mem_append, List.mem_cons] at found ⊢
      tauto

theorem advance_retain {kept rest later : List (Capability T)} {first inserted : Capability T}
    (sound : (retaining kept (first :: rest) inserted later).Sound) (stays : ¬ inserted.time ≤ first.time) :
    Advances reporter (retaining kept (first :: rest) inserted later) reporter
      (retaining (kept ++ [first]) rest inserted later) := by
  have moved : kept ++ [first] ++ rest = kept ++ first :: rest := List.append_cons kept first rest |>.symm
  have same : (kept ++ [first]).map Capability.time ++
      (rest.map Capability.time).filter (fun time => ¬ inserted.time ≤ time) =
        kept.map Capability.time ++ ((first :: rest).map Capability.time).filter (fun time => ¬ inserted.time ≤ time) := by
    rw [List.map_cons, List.filter_cons_of_pos (by simpa using stays)]
    simp
  obtain ⟨antichain, settled⟩ := sound
  refine ⟨.silent ?_, ⟨moved ▸ antichain, same ▸ settled⟩, ?_, fun given guards => ?_⟩
  · simp only [live, moved]
    exact List.Perm.refl _
  · simp only [SetPhase.result, same]
  · refine Covers.mono guards fun capability found => ?_
    simpa only [live, moved] using found

theorem advance_create {elements made : List (Capability T)} {time : T} {times : List T}
    (sound : (creating elements made (time :: times)).Sound) :
    Advances reporter (creating elements made (time :: times)) (reporter.update time 1)
      (creating elements (made ++ [⟨time⟩]) times) := by
  refine ⟨.created time ?_, ⟨sound.1, fun other member => sound.2 other (List.mem_cons_of_mem time member)⟩, ?_,
    fun given guards other member => ?_⟩
  · simp only [live, ← List.append_assoc]
    exact List.perm_append_singleton _ _
  · simp [SetPhase.result]
  · rcases guards other member with isMade | isLeft
    · exact Or.inl (by simp [List.mem_map.mp isMade])
    · rcases List.mem_cons.mp isLeft with same | inTimes
      · exact Or.inl (by simp [same])
      · exact Or.inr inTimes

variable [ToString T]

/-- Every step of a sound call is possible and keeps it sound. -/
theorem advance_spec (sound : phase.Sound) (busy : ∀ elements, phase ≠ idle elements) (reporter : ProgressReporter T) :
    ∃ after next, phase.advance reporter = some (after, next) ∧ Advances reporter phase next after := by
  cases phase with
  | idle elements => exact absurd rfl (busy elements)
  | refusing elements refused later => exact ⟨_, _, rfl, advance_refusing sound⟩
  | retaining kept rest inserted later =>
    cases rest with
    | nil => exact ⟨_, _, rfl, advance_retained sound⟩
    | cons first rest =>
      by_cases evicted : inserted.time ≤ first.time
      · exact ⟨_, _, by rw [advance, if_pos evicted], advance_evict sound evicted⟩
      · exact ⟨_, _, by rw [advance, if_neg evicted], advance_retain sound evicted⟩
  | creating elements made times =>
    cases times with
    | nil =>
      refine ⟨_, _, rfl, .silent (List.Perm.refl _), sound.1, by simp [SetPhase.result], fun given guards time member => ?_⟩
      obtain ⟨capability, found, same⟩ := List.mem_map.mp ((guards time member).resolve_right List.not_mem_nil)
      exact ⟨capability, found, le_of_eq same⟩
    | cons time times =>
      obtain ⟨element, member, below⟩ := sound.2 time List.mem_cons_self
      obtain ⟨found, isFound⟩ : ∃ found, elements.find? (fun element => element.time ≤ time) = some found :=
        Option.isSome_iff_exists.mp (List.find?_isSome.mpr ⟨element, member, decide_eq_true below⟩)
      have covered : found.time ≤ time := by simpa using List.find?_some isFound
      refine ⟨_, _, ?_, advance_create sound⟩
      rw [advance, isFound]
      simp only [Capability.delayed, if_pos covered, Capability.new]
  | clearing elements made =>
    cases elements with
    | nil =>
      exact ⟨_, _, rfl, (insertNext_begins [] made).advances (.silent (List.Perm.refl _)) List.Pairwise.nil rfl
        fun _ guards => guards⟩
    | cons first rest =>
      exact ⟨_, _, rfl, .dropped first (List.Perm.refl _), (List.pairwise_cons.mp sound).2, rfl, fun _ guards => guards⟩

end SetPhase

/-- The times that a set has at the end of its last call are the minimal ones of these. -/
def SetCall.holds {T : Type} (last : Option (SetCall T)) (time : T) : Prop :=
  match last with
  | some (.insert old inserted) => time ∈ old ∨ time = inserted
  | some (.downgrade given) => time ∈ given
  | _ => False

/-- The invariant of a set with its last call. -/
structure SetState.Sound {T : Type} [TimeOrder T] (state : SetState T) : Prop where
  phase : state.phase.Sound
  result : IsFrontier state.phase.result (SetCall.holds state.last)
  guards : ∀ given, state.last = some (.downgrade given) → state.phase.Guards given

variable {set : Nat}

namespace CapabilityWorld

section Lists

variable {T : Type}

variable {index : Nat}

/-- The sets without one of them. -/
theorem flatMap_set {sets : List (SetState T)} {state : SetState T} (found : sets[index]? = some state) :
    ∃ others, (sets.flatMap fun other => other.phase.live).Perm (state.phase.live ++ others) ∧
      ∀ changed : SetState T, ((sets.set index changed).flatMap fun other => other.phase.live).Perm
        (changed.phase.live ++ others) := by
  induction sets generalizing index with
  | nil => cases found
  | cons first rest ih =>
    cases index with
    | zero =>
      cases found
      exact ⟨_, List.Perm.refl _, fun _ => List.Perm.refl _⟩
    | succ index =>
      obtain ⟨others, before, after⟩ := ih (show rest[index]? = some state from found)
      have swap : ∀ (some_ : List (Capability T)), (first.phase.live ++ (some_ ++ others)).Perm
          (some_ ++ (first.phase.live ++ others)) := fun _ => List.perm_append_comm_assoc _ _ _
      refine ⟨first.phase.live ++ others, ?_, fun changed => ?_⟩
      · exact (before.append_left _).trans (swap _)
      · exact ((after changed).append_left _).trans (swap _)

variable {loose : List (Capability T)} {capability : Capability T}

theorem loose_erase (found : loose[index]? = some capability) : loose.Perm (capability :: loose.eraseIdx index) := by
  obtain ⟨inside, same⟩ := List.getElem?_eq_some_iff.mp found
  exact same ▸ (List.getElem_cons_eraseIdx_perm inside).symm

theorem loose_set (found : loose[index]? = some capability) (changed : Capability T) :
    (loose.set index changed).Perm (changed :: loose.eraseIdx index) := by
  obtain ⟨inside, _⟩ := List.getElem?_eq_some_iff.mp found
  exact List.set_perm_cons_eraseIdx inside changed

end Lists

variable {T : Type} [TimeOrder T]

/-- All live capabilities. -/
def live (world : CapabilityWorld T) : List (Capability T) :=
  world.loose ++ world.sets.flatMap fun state => state.phase.live

/-- The sum of all changes that were drained, by `drain` and by `drain_into`. -/
def drainedAt (world : CapabilityWorld T) (time : T) : Int := netOf world.drained time + world.collected.net time

/-- The reporter counts the live capabilities, and every change is drained or pending. -/
structure Accounted (world : CapabilityWorld T) : Prop where
  held : ∀ time, world.reporter.heldAt time = countAt world.live time
  reported : ∀ time, world.drainedAt time + world.reporter.pending.net time + world.seeded.count time =
    countAt world.live time
  sets : ∀ state ∈ world.sets, state.Sound

variable {world next : CapabilityWorld T}

variable {elements : List (Capability T)}

theorem idleSet_some (found : world.idleSet set = some elements) :
    ∃ last, world.sets[set]? = some ⟨last, .idle elements⟩ := by
  obtain ⟨state, isState, isIdle⟩ := Option.bind_eq_some_iff.mp found
  obtain ⟨last, phase⟩ := state
  cases phase with
  | idle own =>
    cases isIdle
    exact ⟨last, isState⟩
  | _ => cases isIdle

theorem unchanged_live {phase after : SetPhase T} (same : after.live = phase.live) :
    Reported world.reporter (phase.live ++ world.loose) world.reporter (after.live ++ world.loose) :=
  .silent (by rw [same])

theorem init_accounted : (init : CapabilityWorld T).Accounted :=
  ⟨fun _ => rfl, fun _ => rfl, nofun⟩

/-- What an action does: it keeps the accounts, and a request that fails leaves everything as it is. -/
def Kept (world : CapabilityWorld T) (result : Except CapabilityError Unit × CapabilityWorld T) : Prop :=
  result.2.Accounted ∧ ∀ error, result.1 = .error error → result.2 = world

theorem Kept.done {world next : CapabilityWorld T} (accounted : next.Accounted) : world.Kept (.ok (), next) :=
  ⟨accounted, fun _ failed => by cases failed⟩

section

variable (accounted : world.Accounted)

include accounted

/-- A reported step keeps the accounts. -/
theorem Accounted.reported_step (reported : Reported world.reporter world.live next.reporter next.live)
    (sameCollected : next.collected = world.collected) (sameDrained : next.drained = world.drained) (sameSeeded : next.seeded = world.seeded)
    (sets : ∀ state ∈ next.sets, state.Sound) : next.Accounted := by
  refine ⟨fun time => ?_, fun time => ?_, sets⟩
  · have before := accounted.held time
    have moved := (reported.counts time).1
    omega
  · have before := accounted.reported time
    have moved := (reported.counts time).2
    unfold drainedAt at before ⊢
    rw [sameCollected, sameDrained, sameSeeded]
    omega

/-- A new capability outside of the sets. -/
theorem Accounted.keep (time : T) : (world.keep (Capability.new time world.reporter)).Accounted :=
  accounted.reported_step (.created time (List.Perm.refl _)) rfl rfl rfl accounted.sets

/-- The set at an index changes, with one call of the reporter and perhaps a capability from outside. -/
theorem Accounted.change_set {state changed : SetState T}
    (found : world.sets[set]? = some state) {reporter : ProgressReporter T} {loose : List (Capability T)}
    (reported : Reported world.reporter (state.phase.live ++ world.loose) reporter (changed.phase.live ++ loose))
    (sound : changed.Sound) :
    ({ world with reporter := reporter, loose := loose, sets := world.sets.set set changed } :
      CapabilityWorld T).Accounted := by
  obtain ⟨others, before, after⟩ := flatMap_set found
  have swap : ∀ outside own : List (Capability T), (outside ++ (own ++ others)).Perm (own ++ outside ++ others) := by
    intro outside own
    rw [List.append_assoc]
    exact List.perm_append_comm_assoc _ _ _
  refine accounted.reported_step (reported.beside ((before.append_left _).trans (swap _ _))
    (((after changed).append_left _).trans (swap _ _))) rfl rfl rfl fun other member => ?_
  · rcases List.mem_or_eq_of_mem_set member with old | same
    · exact accounted.sets other old
    · exact same ▸ sound

theorem Accounted.sound_of {state : SetState T} (found : world.sets[set]? = some state) : state.Sound :=
  accounted.sets state (List.mem_of_getElem? found)

theorem Accounted.setInsert {index : Nat} {capability : Capability T} (idle : world.idleSet set = some elements)
    (found : world.loose[index]? = some capability) :
    ({ world with loose := world.loose.eraseIdx index }.setPhase set
      (some (.insert (elements.map Capability.time) capability.time)) (.insert elements capability [])).Accounted := by
  obtain ⟨last, isIdle⟩ := idleSet_some idle
  have antichain : (elements.map Capability.time).Pairwise Incomparable := (accounted.sound_of isIdle).phase
  have begins := SetPhase.insert_begins elements capability []
  have taken : Reported world.reporter (elements ++ world.loose) world.reporter
      ((SetPhase.insert elements capability []).live ++ world.loose.eraseIdx index) := by
    refine .silent ?_
    rw [begins.live, List.append_assoc]
    exact List.Perm.append_left elements (loose_erase found).symm
  refine accounted.change_set isIdle taken ⟨begins.sound antichain, ?_, fun given same => by cases same⟩
  rw [begins.result]
  exact insertTime_isFrontier (.self antichain) capability.time

theorem Accounted.drain :
    ({ world with reporter := world.reporter.drain.2, drained := world.drained ++ world.reporter.drain.1 } :
      CapabilityWorld T).Accounted := by
  refine ⟨accounted.held, fun time => ?_, accounted.sets⟩
  have before := accounted.reported time
  have taken : netOf world.reporter.drain.1 time = world.reporter.pending.net time := ChangeBatch.drain_net _ time
  have left : world.reporter.drain.2.pending.net time = 0 := ChangeBatch.new_net time
  change netOf (world.drained ++ world.reporter.drain.1) time + world.collected.net time +
    world.reporter.drain.2.pending.net time + world.seeded.count time = countAt world.live time
  unfold drainedAt at before
  rw [netOf_append]
  omega

theorem Accounted.drainInto :
    ({ world with reporter := (world.reporter.drainInto world.collected).2
                  collected := (world.reporter.drainInto world.collected).1 } : CapabilityWorld T).Accounted := by
  refine ⟨accounted.held, fun time => ?_, accounted.sets⟩
  have before := accounted.reported time
  have taken := ChangeBatch.drainInto_net world.reporter.pending world.collected time
  have left := ChangeBatch.drainInto_rest world.reporter.pending world.collected time
  change netOf world.drained time + (world.reporter.pending.drainInto world.collected).1.net time +
    (world.reporter.pending.drainInto world.collected).2.net time + world.seeded.count time = countAt world.live time
  unfold drainedAt at before
  omega

theorem Accounted.refused (error : CapabilityError) : world.Kept (.error error, world) :=
  ⟨accounted, fun _ _ => rfl⟩

end

section Step

variable [ToString T]

section

variable (accounted : world.Accounted)

include accounted

theorem Accounted.setDowngrade (idle : world.idleSet set = some elements) {times : List T} {phase : SetPhase T}
    (passed : SetPhase.downgrade elements times = .ok phase) :
    (world.setPhase set (some (.downgrade times)) phase).Accounted := by
  obtain ⟨last, isIdle⟩ := idleSet_some idle
  unfold SetPhase.downgrade at passed
  split at passed
  · cases passed
  · rename_i valid
    cases passed
    refine accounted.change_set isIdle (unchanged_live (by simp [SetPhase.live]))
      ⟨⟨(accounted.sound_of isIdle).phase, fun time member => ?_⟩, ?_, fun given same time member => ?_⟩
    · have covered := List.find?_eq_none.mp valid time member
      rw [Bool.not_eq_true, Bool.not_eq_false', List.any_eq_true] at covered
      obtain ⟨element, inside, below⟩ := covered
      exact ⟨element, inside, of_decide_eq_true below⟩
    · exact (foldl_insertTime_isFrontier times .nil).congr fun time => by simp [SetCall.holds]
    · cases same
      exact Or.inr member

theorem Accounted.setAdvance {state : SetState T} (found : world.sets[set]? = some state)
    {moved : SetPhase T × ProgressReporter T}
    (advanced : state.phase.advance world.reporter = some moved) :
    ({ world with reporter := moved.2 }.setPhase set state.last moved.1).Accounted := by
  have sound := accounted.sound_of found
  have busy : ∀ elements, state.phase ≠ .idle elements := by
    intro elements same
    rw [same] at advanced
    cases advanced
  obtain ⟨after, reporter, done, advances⟩ := SetPhase.advance_spec sound.phase busy world.reporter
  cases done.symm.trans advanced
  exact accounted.change_set found (advances.reported.beside (List.Perm.refl _) (List.Perm.refl _))
    ⟨advances.sound, advances.result ▸ sound.result, fun given isDowngrade =>
      advances.guards given (sound.guards given isDowngrade)⟩

theorem Accounted.request (capability : Capability T) (time : T) :
    world.Kept (world.request (capability.delayed time world.reporter)) := by
  unfold Capability.delayed
  split
  · exact .done (accounted.keep time)
  · exact accounted.refused _

variable {action : CapabilityAction T}

theorem Accounted.step {result : Except CapabilityError Unit × CapabilityWorld T}
    (stepped : world.step action = some result) : world.Kept result := by
  cases action with
  | seeded time =>
    cases stepped
    refine .done ⟨fun query => ?_, fun query => ?_, accounted.sets⟩
    · change (world.reporter.hold time 1).heldAt query = countAt (⟨time⟩ :: world.live) query
      rw [ProgressReporter.hold_heldAt, accounted.held, countAt_cons]
    · have before := accounted.reported query
      change world.drainedAt query + world.reporter.pending.net query + ((time :: world.seeded).count query : Nat) =
        countAt (⟨time⟩ :: world.live) query
      rw [countAt_cons]
      by_cases same : time = query <;> simp [same] <;> omega
  | new time =>
    cases stepped
    exact .done (accounted.keep time)
  | clone index =>
    obtain ⟨capability, _, same⟩ := Option.map_eq_some_iff.mp stepped
    cases same
    exact .done (accounted.keep capability.time)
  | delayed index time =>
    obtain ⟨capability, _, same⟩ := Option.map_eq_some_iff.mp stepped
    cases same
    exact accounted.request capability time
  | downgrade index time =>
    obtain ⟨capability, found, same⟩ := Option.map_eq_some_iff.mp stepped
    cases same
    unfold Capability.downgrade
    split
    · exact accounted.refused _
    · rename_i moved reporter passed
      split at passed
      · cases passed
        exact .done (accounted.reported_step (.moved capability time ((loose_erase found).append_right _)
          ((loose_set found _).append_right _)) rfl rfl rfl accounted.sets)
      · cases passed
  | drop index =>
    obtain ⟨capability, found, same⟩ := Option.map_eq_some_iff.mp stepped
    cases same
    exact .done (accounted.reported_step (.dropped capability ((loose_erase found).append_right _)) rfl rfl rfl
      accounted.sets)
  | newSet =>
    cases stepped
    refine .done (accounted.reported_step (.silent ?_) rfl rfl rfl fun state member => ?_)
    · simp [live, SetPhase.live]
    · rcases List.mem_append.mp member with old | fresh
      · exact accounted.sets state old
      · rw [List.mem_singleton.mp fresh]
        exact ⟨List.Pairwise.nil, .nil, fun given same => by cases same⟩
  | setInsert set index =>
    obtain ⟨elements, idle, rest⟩ := Option.bind_eq_some_iff.mp stepped
    obtain ⟨capability, found, same⟩ := Option.map_eq_some_iff.mp rest
    cases same
    exact .done (accounted.setInsert idle found)
  | setDelayed set time =>
    obtain ⟨elements, _, same⟩ := Option.map_eq_some_iff.mp stepped
    cases same
    split
    · exact accounted.refused _
    · rename_i found covered
      exact accounted.request found time
  | setDowngrade set times =>
    obtain ⟨elements, idle, same⟩ := Option.map_eq_some_iff.mp stepped
    cases same
    split
    · exact accounted.refused _
    · rename_i phase passed
      exact .done (accounted.setDowngrade idle passed)
  | setDrop set =>
    obtain ⟨elements, idle, same⟩ := Option.map_eq_some_iff.mp stepped
    cases same
    obtain ⟨last, isIdle⟩ := idleSet_some idle
    exact .done (accounted.change_set isIdle (unchanged_live (by simp [SetPhase.live]))
      ⟨(accounted.sound_of isIdle).phase, .nil, fun given same => by cases same⟩)
  | setAdvance set =>
    obtain ⟨state, found, rest⟩ := Option.bind_eq_some_iff.mp stepped
    obtain ⟨moved, advanced, same⟩ := Option.map_eq_some_iff.mp rest
    cases same
    exact .done (accounted.setAdvance found advanced)
  | drain =>
    cases stepped
    exact .done accounted.drain
  | drainInto =>
    cases stepped
    exact .done accounted.drainInto

end

theorem run_accounted (actions : List (CapabilityAction T)) : (run actions : CapabilityWorld T).Accounted := by
  refine List.foldlRecOn (motive := fun world : CapabilityWorld T => world.Accounted) actions _ init_accounted
    fun world accounted action _ => ?_
  cases stepped : world.step action with
  | none => exact accounted
  | some result => exact (accounted.step stepped).1

/-- A drain leaves nothing pending. -/
theorem step_drain (drains : action = .drain ∨ action = .drainInto)
    {outcome : Except CapabilityError Unit} (stepped : world.step action = some (outcome, next)) (time : T) :
    next.reporter.pending.net time = 0 := by
  rcases drains with same | same
  · subst same
    cases stepped
    exact ChangeBatch.new_net time
  · subst same
    cases stepped
    exact ChangeBatch.drainInto_rest world.reporter.pending world.collected time

/-- In every interleaving of the calls on capabilities and sets of capabilities with the drains of their reporter: at
every drain the drained changes and the seeded times add up to the live capabilities, which are the held ones; a failed
request changes nothing; a running call of a set can always go on; a set is always an antichain and has the minimal times
of its last insertion or downgrade when the call has ended; and throughout a downgrade, a capability that is live and
held is at or before every given time. -/
theorem run_counts_live (actions : List (CapabilityAction T)) :
    (∀ action outcome next, action = .drain ∨ action = .drainInto →
      (run actions : CapabilityWorld T).step action = some (outcome, next) →
      ∀ time, next.drainedAt time + next.seeded.count time = countAt next.live time ∧
        next.reporter.heldAt time = countAt next.live time ∧
        ∀ count, (time, count) ∈ next.reporter.held ↔ 0 < count ∧ count = countAt next.live time) ∧
    (∀ action error next, (run actions : CapabilityWorld T).step action = some (.error error, next) →
      next = run actions) ∧
    ∀ set state, (run actions : CapabilityWorld T).sets[set]? = some state →
      (state.phase.elements.map Capability.time).Pairwise Incomparable ∧
      ((∃ elements, state.phase = .idle elements) ∨
        ∃ next, (run actions : CapabilityWorld T).step (.setAdvance set) = some (.ok (), next)) ∧
      (∀ elements, state.phase = .idle elements → ∀ old inserted, state.last = some (.insert old inserted) →
        ∀ time, time ∈ elements.map Capability.time ↔ Minimal (fun other => other ∈ old ∨ other = inserted) time) ∧
      (∀ elements, state.phase = .idle elements → ∀ given, state.last = some (.downgrade given) →
        ∀ time, time ∈ elements.map Capability.time ↔ Minimal (fun other => other ∈ given) time) ∧
      ∀ given, state.last = some (.downgrade given) → ∀ time ∈ given, ∃ capability ∈ state.phase.live,
        capability.time ≤ time ∧ 0 < (run actions : CapabilityWorld T).reporter.heldAt capability.time := by
  have accounted := run_accounted (T := T) actions
  refine ⟨fun action outcome next drains stepped time => ?_, fun action error next stepped =>
    (accounted.step stepped).2 error rfl,
    fun set state found => ?_⟩
  · have after : next.Accounted := (accounted.step stepped).1
    have exactly := after.reported time
    rw [step_drain drains stepped time, Int.add_zero] at exactly
    refine ⟨exactly, after.held time, fun count => ?_⟩
    rw [next.reporter.heldMap.mem_iff]
    have held := after.held time
    unfold ProgressReporter.heldAt at held
    have nonneg : 0 ≤ countAt next.live time := Int.natCast_nonneg _
    rw [held]
    omega
  · have sound := accounted.sound_of found
    have live : ∀ capability ∈ state.phase.live, capability ∈ (run actions : CapabilityWorld T).live :=
      fun capability member => List.mem_append_right _ (List.mem_flatMap.mpr ⟨state, List.mem_of_getElem? found, member⟩)
    refine ⟨sound.phase.antichain, ?_, fun elements isIdle old inserted isLast time => ?_,
      fun elements isIdle given isLast time => ?_, fun given isLast time member => ?_⟩
    · by_cases idle : ∃ elements, state.phase = .idle elements
      · exact Or.inl idle
      · obtain ⟨after, reporter, done, _⟩ := SetPhase.advance_spec sound.phase (not_exists.mp idle)
          (run actions : CapabilityWorld T).reporter
        right
        rw [CapabilityWorld.step, found, Option.bind_some, done]
        exact ⟨_, rfl⟩
    · have frontier := sound.result
      rw [isIdle, isLast] at frontier
      exact frontier.mem_iff_minimal time
    · have frontier := sound.result
      rw [isIdle, isLast] at frontier
      exact frontier.mem_iff_minimal time
    · obtain ⟨capability, isLive, below⟩ := (sound.guards given isLast).covers sound.phase time member
      refine ⟨capability, isLive, below, ?_⟩
      rw [accounted.held]
      exact countAt_pos_iff.mpr ⟨capability, live capability isLive, rfl⟩

end Step

end CapabilityWorld

end Instancy
