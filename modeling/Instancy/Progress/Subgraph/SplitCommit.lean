import Instancy.Progress.Subgraph.PeerChanges

namespace Instancy

open Relation

section Order

variable {A K : Type} [DecidableEq K]

/-- A net value is of a kind that has zero and all sums if every entry is. -/
theorem netOf_keeps (keep : Int → Prop) {entries : List (K × Int)} (all : ∀ entry ∈ entries, keep entry.2)
    (none : keep 0) (sum : ∀ first second, keep first → keep second → keep (first + second)) (key : K) :
    keep (netOf entries key) := by
  induction entries with
  | nil => exact none
  | cons entry rest ih =>
    have later := ih fun other member => all other (List.mem_cons_of_mem entry member)
    rw [netOf_cons]
    split
    · exact sum _ _ (all entry List.mem_cons_self) later
    · exact sum _ _ none later

theorem orderCommit_perm (diff : A → Int) (items : List A) : (orderCommit diff items).Perm items := by
  have turn : items.filter (fun item => decide (diff item ≤ 0)) = items.filter fun item => !decide (diff item > 0) := by
    apply List.filter_congr
    intro item _
    rw [← decide_not]
    exact decide_eq_decide.mpr (by omega)
  unfold orderCommit
  rw [turn]
  exact List.filter_append_perm _ _

theorem splitCommit_perm (diff : A → Int) (maxBatchSize : Nat) (items : List A) :
    (splitCommit diff maxBatchSize items).flatten.Perm items := by
  rcases splitCommit_flatten diff maxBatchSize items with same | same
  · rw [same]
  · rw [same]
    exact orderCommit_perm diff items

/-- The first chunks of a commit count nothing negative, or leave out nothing positive. -/
theorem splitCommit_take (diff : A → Int) {entry : A → Option (K × Int)}
    (agrees : ∀ item found, entry item = some found → found.2 = diff item) (maxBatchSize : Nat) (items : List A)
    (sent : Nat) :
    (∀ key, 0 ≤ netOf (((splitCommit diff maxBatchSize items).take sent).flatten.filterMap entry) key) ∨
      ∀ key, netOf (items.filterMap entry) key ≤
        netOf (((splitCommit diff maxBatchSize items).take sent).flatten.filterMap entry) key := by
  have whole := splitCommit_perm diff maxBatchSize items
  rw [← List.take_append_drop sent (splitCommit diff maxBatchSize items), List.flatten_append] at whole
  have total : ∀ key, netOf (items.filterMap entry) key =
      netOf (((splitCommit diff maxBatchSize items).take sent).flatten.filterMap entry) key +
        netOf (((splitCommit diff maxBatchSize items).drop sent).flatten.filterMap entry) key := by
    intro key
    rw [← netOf_append, ← List.filterMap_append]
    exact netOf_perm (whole.symm.filterMap entry) key
  have signed : ∀ (keep : Int → Prop) {part : List A}, (∀ item ∈ part, keep (diff item)) →
      ∀ found ∈ part.filterMap entry, keep found.2 := by
    intro keep part all found member
    obtain ⟨item, inPart, isEntry⟩ := List.mem_filterMap.mp member
    rw [agrees item found isEntry]
    exact all item inPart
  by_cases small : items.length ≤ effectiveMax maxBatchSize
  · have single : splitCommit diff maxBatchSize items = [items] := if_pos small
    rw [single]
    cases sent with
    | zero => exact Or.inl fun _ => Int.le_refl 0
    | succ sent =>
      refine Or.inr fun key => ?_
      rw [List.take_succ_cons, List.take_nil, List.flatten_cons, List.flatten_nil, List.append_nil]
  · have chunks : (splitCommit diff maxBatchSize items).flatten = orderCommit diff items := by
      unfold splitCommit
      rw [if_neg small]
      exact Library.chunksOf_flatten (effectiveMax_pos maxBatchSize) _ _ le_rfl
    rw [← List.take_append_drop sent (splitCommit diff maxBatchSize items), List.flatten_append] at chunks
    -- The boundary between the sent and the missing chunks is among the positive changes or after them.
    rcases List.append_eq_append_iff.mp chunks with ⟨middle, early, _⟩ | ⟨middle, _, late⟩
    · have positives : ∀ item ∈ ((splitCommit diff maxBatchSize items).take sent).flatten, 0 ≤ diff item := by
        intro item member
        have positive := List.of_mem_filter (early ▸ List.mem_append_left middle member)
        have isPositive := of_decide_eq_true positive
        omega
      exact Or.inl (netOf_keeps _ (signed (0 ≤ ·) positives) (Int.le_refl 0) fun _ _ => Int.add_nonneg)
    · refine Or.inr fun key => ?_
      have others : ∀ item ∈ ((splitCommit diff maxBatchSize items).drop sent).flatten, diff item ≤ 0 := by
        intro item member
        have other := List.of_mem_filter (late ▸ List.mem_append_right middle member)
        exact of_decide_eq_true other
      have missing := netOf_keeps (· ≤ 0) (signed (· ≤ 0) others) (Int.le_refl 0) (by omega) key
      rw [total key]
      omega

end Order

section Batches

variable {Time : Nat → Type}

theorem pushSection_perm (scope : Nat) (change : ProgressChange (Time scope))
    (parts : List ((scope : Nat) × List (ProgressChange (Time scope)))) :
    ((pushSection scope change parts).flatMap fun part =>
        part.2.map fun own => (⟨part.1, own⟩ : ScopedChange Time)).Perm
      ((parts.flatMap fun part => part.2.map fun own => (⟨part.1, own⟩ : ScopedChange Time)) ++ [⟨scope, change⟩]) := by
  induction parts with
  | nil => exact List.Perm.refl _
  | cons part rest ih =>
    obtain ⟨other, changes⟩ := part
    unfold pushSection
    by_cases same : scope = other
    · subst same
      rw [dif_pos rfl, List.flatMap_cons, List.flatMap_cons, List.map_append, List.append_assoc, List.append_assoc]
      exact List.Perm.append_left _ List.perm_append_comm
    · rw [dif_neg same, List.flatMap_cons, List.flatMap_cons, List.append_assoc]
      exact List.Perm.append_left _ ih

namespace ProgressBatch

theorem changes_push (batch : ProgressBatch Time) (change : ScopedChange Time) :
    (batch.push change).changes.Perm (batch.changes ++ [change]) := by
  obtain ⟨scope, change⟩ := change
  cases scope with
  | zero =>
    change ((batch.root ++ [change]).map _ ++ _).Perm (batch.root.map _ ++ _ ++ _)
    rw [List.map_append, List.append_assoc, List.append_assoc]
    exact List.Perm.append_left _ List.perm_append_comm
  | succ scope =>
    change (batch.root.map _ ++ _).Perm (batch.root.map _ ++ _ ++ _)
    rw [List.append_assoc]
    exact List.Perm.append_left _ (pushSection_perm (scope + 1) change batch.scopes)

/-- A decoded frame has the changes that were sent in it. -/
theorem changes_foldl_push (chunk : List (ScopedChange Time)) (batch : ProgressBatch Time) :
    (chunk.foldl push batch).changes.Perm (batch.changes ++ chunk) := by
  induction chunk generalizing batch with
  | nil => rw [List.append_nil, List.foldl_nil]
  | cons change rest ih =>
    refine (ih (batch.push change)).trans ?_
    rw [List.append_cons]
    exact (changes_push batch change).append_right rest

/-- A decoded frame has sections of the scopes of its changes only. -/
theorem scopes_foldl_push (keep : Nat → Prop) (chunk : List (ScopedChange Time))
    (all : ∀ change ∈ chunk, keep change.1) (batch : ProgressBatch Time)
    (before : ∀ id ∈ batch.scopes.map Sigma.fst, keep id) :
    ∀ id ∈ (chunk.foldl push batch).scopes.map Sigma.fst, keep id := by
  induction chunk generalizing batch with
  | nil => exact before
  | cons change rest ih =>
    apply ih (fun other member => all other (List.mem_cons_of_mem change member))
    have own := all change List.mem_cons_self
    obtain ⟨scope, change⟩ := change
    cases scope with
    | zero => exact before
    | succ scope =>
      intro id member
      change id ∈ (pushSection (scope + 1) change batch.scopes).map Sigma.fst at member
      rw [pushSection_ids] at member
      split at member
      · exact before id member
      · rcases List.mem_append.mp member with old | new
        · exact before id old
        · exact List.mem_singleton.mp new ▸ own

end ProgressBatch

end Batches

section Receiver

variable {P : TimeType} {graph : ProgressGraph P}

/-- The calls of a receiver: it applies the batches that it drained, or it propagates. -/
inductive ReceiverCall (graph : ProgressGraph P) where
  | receive (batches : List (ProgressBatch graph.Time))
  | exportAndPropagate

/-- The drained batches add their net changes to the counts. -/
theorem ProgressTracker.receivePeerChanges_spec (batches : List (ProgressBatch graph.Time)) :
    ∀ state : ProgressTracker graph, state.Idle → (∀ batch ∈ batches, graph.Admits batch) →
      ∃ next, receivePeerChanges batches state = some (.ok next) ∧ next.Idle ∧
        ∀ point, next.count point = netOf (batches.flatMap graph.entries) point + state.count point := by
  induction batches with
  | nil => exact fun state idle _ => ⟨state, rfl, idle, fun _ => (Int.zero_add _).symm⟩
  | cons batch rest ih =>
    intro state idle admits
    obtain ⟨middle, applied, idleMiddle, middleCount⟩ := applyBatch_spec idle (admits batch List.mem_cons_self)
    obtain ⟨last, done, idleLast, lastCount⟩ :=
      ih middle idleMiddle fun other member => admits other (List.mem_cons_of_mem batch member)
    refine ⟨last, ?_, idleLast, fun point => ?_⟩
    · rw [receivePeerChanges, applied]
      exact done
    · rw [lastCount, middleCount, List.flatMap_cons, netOf_append]
      omega

namespace ReceiverCall

def run (fuel : Nat) (state : ProgressTracker graph) :
    ReceiverCall graph → Option (Except DataflowError (ProgressTracker graph))
  | receive batches => ProgressTracker.receivePeerChanges batches state
  | exportAndPropagate => (state.exportAndPropagate fuel).map Except.ok

def runAll (fuel : Nat) : List (ReceiverCall graph) → ProgressTracker graph →
    Option (Except DataflowError (ProgressTracker graph))
  | [], state => some (.ok state)
  | call :: rest, state => attempt (call.run fuel state) (runAll fuel rest)

/-- The batches that a call applies. -/
def received : ReceiverCall graph → List (ProgressBatch graph.Time)
  | receive batches => batches
  | exportAndPropagate => []

/-- The entries that a list of calls applies. -/
def entries (calls : List (ReceiverCall graph)) : List (graph.Point × Int) :=
  (calls.flatMap received).flatMap graph.entries

theorem run_spec (wired : graph.Wired) (apart : graph.loops.Apart) {state : ProgressTracker graph} (idle : state.Idle)
    (call : ReceiverCall graph) (admits : ∀ batch ∈ call.received, graph.Admits batch) :
    ∃ bound next, (∀ fuel, bound ≤ fuel → call.run fuel state = some (.ok next)) ∧ next.Idle ∧
      ∀ point, graph.IsRaw point ∨ call ≠ exportAndPropagate →
        next.count point = netOf (entries [call]) point + state.count point := by
  cases call with
  | receive batches =>
    obtain ⟨next, done, idleNext, counts⟩ := ProgressTracker.receivePeerChanges_spec batches state idle admits
    refine ⟨0, next, fun _ _ => done, idleNext, fun point _ => ?_⟩
    rw [counts point]
    unfold entries received
    rw [List.flatMap_singleton]
  | exportAndPropagate =>
    obtain ⟨bound, next, done, idleNext, _, counts⟩ := ProgressTracker.exportAndPropagate_spec wired apart idle
    refine ⟨bound, next, fun fuel enough => ?_, idleNext, fun point either => ?_⟩
    · rw [run, done fuel enough]
      rfl
    · have raw := either.resolve_right fun differs => differs rfl
      exact (counts point raw).trans (Int.zero_add _).symm

theorem entries_cons (call : ReceiverCall graph) (rest : List (ReceiverCall graph)) :
    entries (call :: rest) = entries [call] ++ entries rest := by
  unfold entries
  rw [← List.flatMap_append, ← List.flatMap_append]
  rfl

/-- Any grouping of the batches and any propagations between them give the same counts. -/
theorem runAll_spec (wired : graph.Wired) (apart : graph.loops.Apart) (calls : List (ReceiverCall graph)) :
    ∀ state : ProgressTracker graph, state.Idle → (∀ batch ∈ calls.flatMap received, graph.Admits batch) →
      ∃ bound next, (∀ fuel, bound ≤ fuel → runAll fuel calls state = some (.ok next)) ∧ next.Idle ∧
        ∀ point, graph.IsRaw point ∨ exportAndPropagate ∉ calls →
          next.count point = netOf (entries calls) point + state.count point := by
  induction calls with
  | nil => exact fun state idle _ => ⟨0, state, fun _ _ => rfl, idle, fun _ _ => (Int.zero_add _).symm⟩
  | cons call rest ih =>
    intro state idle admits
    obtain ⟨first, middle, ran, idleMiddle, middleCount⟩ := run_spec wired apart idle call fun batch member =>
      admits batch (List.mem_flatMap.mpr ⟨call, List.mem_cons_self, member⟩)
    obtain ⟨second, last, ranRest, idleLast, lastCount⟩ := ih middle idleMiddle fun batch member =>
      admits batch (List.mem_append_right call.received member)
    refine ⟨max first second, last, fun fuel enough => ?_, idleLast, fun point either => ?_⟩
    · rw [runAll, ran fuel (by omega)]
      exact ranRest fuel (by omega)
    · have later := either.imp_right fun absent member => absent (List.mem_cons_of_mem call member)
      have here : graph.IsRaw point ∨ call ≠ exportAndPropagate :=
        either.imp_right fun absent same => absent (same ▸ List.mem_cons_self)
      rw [lastCount point later, middleCount point here, entries_cons call rest, netOf_append]
      omega

end ReceiverCall

/-- At every location the first frontier is at or before the second one. -/
def ProgressTracker.FrontierLe (first second : ProgressTracker graph) : Prop :=
  ∀ point, second.OnFrontier point → ∃ low, first.OnFrontier low ∧ low ≤ point

/-- More raw counts give earlier frontiers. -/
theorem ProgressTracker.Bridged.frontierLe {first second : ProgressTracker graph} (wired : graph.Wired)
    (bridgedFirst : first.Bridged) (bridgedSecond : second.Bridged)
    (more : ∀ point, graph.IsRaw point → second.count point ≤ first.count point) : first.FrontierLe second := by
  intro point onFrontier
  obtain ⟨origin, raw, positive, walk⟩ := bridgedSecond.sound wired onFrontier
  exact bridgedFirst.covers wired ⟨origin, raw, lt_of_lt_of_le positive (more origin raw), walk⟩

theorem LoopScopes.entryIn_diff (loops : LoopScopes P) : ∀ (found : Option loops.Place)
    (change : ProgressChange (loops.TimeIn found)) (entry : loops.Point × Int),
    loops.entryIn found change = some entry → entry.2 = change.diff
  | none, _, _, impossible => by cases impossible
  | some _, _, _, isEntry => by
    cases isEntry
    rfl

/-- The diff of an entry is that of its change. -/
theorem ProgressGraph.entry_diff (graph : ProgressGraph P) {change : ScopedChange graph.Time}
    {found : graph.Point × Int} (isEntry : graph.entry change = some found) : found.2 = change.2.diff := by
  obtain ⟨scope, change⟩ := change
  cases scope with
  | zero =>
    cases isEntry
    rfl
  | succ id =>
    obtain ⟨inside, isInside, same⟩ := Option.map_eq_some_iff.mp isEntry
    subst same
    exact graph.loops.entryIn_diff _ change inside isInside

/-- Every change of an admitted batch has a known scope. -/
theorem ProgressGraph.Admits.knows {batch : ProgressBatch graph.Time} (admits : graph.Admits batch)
    {change : ScopedChange graph.Time} (member : change ∈ batch.changes) : graph.Knows change.1 := by
  rcases List.mem_append.mp member with inRoot | inSections
  · obtain ⟨own, _, same⟩ := List.mem_map.mp inRoot
    exact same ▸ trivial
  · obtain ⟨part, isPart, inPart⟩ := List.mem_flatMap.mp inSections
    obtain ⟨own, _, same⟩ := List.mem_map.mp inPart
    exact same ▸ admits.known part isPart

/-- The frames of an admitted batch are admitted. -/
theorem ProgressGraph.Admits.chunk {batch : ProgressBatch graph.Time} (admits : graph.Admits batch)
    {chunk : List (ScopedChange graph.Time)} (inside : ∀ change ∈ chunk, change ∈ batch.changes) :
    graph.Admits (chunk.foldl ProgressBatch.push ⟨[], []⟩) where
  known part member := by
    apply ProgressBatch.scopes_foldl_push graph.Knows chunk (fun change isIn => admits.knows (inside change isIn))
      ⟨[], []⟩ nofun
    exact List.mem_map_of_mem member
  raw entry member := by
    obtain ⟨change, isIn, isEntry⟩ := List.mem_filterMap.mp member
    have sent := (ProgressBatch.changes_foldl_push chunk ⟨[], []⟩).mem_iff.mp isIn
    exact admits.raw entry (List.mem_filterMap.mpr ⟨change, inside change sent, isEntry⟩)

/-- The batches of the frames of a commit. -/
def ProgressBatch.parts {Time : Nat → Type} (maxBatchSize : Nat) (batch : ProgressBatch Time) :
    List (ProgressBatch Time) :=
  (splitCommit (fun change => change.2.diff) maxBatchSize batch.changes).map fun chunk => chunk.foldl push ⟨[], []⟩

theorem ProgressGraph.Admits.parts {batch : ProgressBatch graph.Time} (admits : graph.Admits batch)
    {maxBatchSize : Nat} : ∀ part ∈ batch.parts maxBatchSize, graph.Admits part := by
  intro part member
  obtain ⟨chunk, isChunk, same⟩ := List.mem_map.mp member
  subst same
  exact admits.chunk fun change isIn => mem_splitCommit isChunk isIn

theorem ProgressGraph.netOf_parts (graph : ProgressGraph P) (batch : ProgressBatch graph.Time)
    (maxBatchSize sent : Nat) (point : graph.Point) :
    netOf (((batch.parts maxBatchSize).take sent).flatMap graph.entries) point =
      netOf (((splitCommit (fun change => change.2.diff) maxBatchSize batch.changes).take sent).flatten.filterMap
        graph.entry) point := by
  unfold ProgressBatch.parts
  rw [← List.map_take]
  generalize (splitCommit (fun change : ScopedChange graph.Time => change.2.diff) maxBatchSize batch.changes).take sent =
    chunks
  induction chunks with
  | nil => rfl
  | cons chunk rest ih =>
    rw [List.map_cons, List.flatMap_cons, List.flatten_cons, List.filterMap_append, netOf_append, netOf_append, ih]
    congr 1
    exact netOf_perm ((ProgressBatch.changes_foldl_push chunk ⟨[], []⟩).filterMap graph.entry) point

/-- The first frames of a commit count nothing negative, or leave out nothing positive. -/
theorem ProgressGraph.netOf_take_parts (graph : ProgressGraph P) (batch : ProgressBatch graph.Time)
    (maxBatchSize sent : Nat) :
    (∀ point, 0 ≤ netOf (((batch.parts maxBatchSize).take sent).flatMap graph.entries) point) ∨
      ∀ point, netOf (graph.entries batch) point ≤
        netOf (((batch.parts maxBatchSize).take sent).flatMap graph.entries) point := by
  simp only [graph.netOf_parts]
  exact splitCommit_take _ (fun _ _ isEntry => graph.entry_diff isEntry) maxBatchSize batch.changes sent

theorem ProgressGraph.netOf_all_parts (graph : ProgressGraph P) (batch : ProgressBatch graph.Time)
    {maxBatchSize sent : Nat} (all : (batch.parts maxBatchSize).length ≤ sent) (point : graph.Point) :
    netOf (((batch.parts maxBatchSize).take sent).flatMap graph.entries) point = netOf (graph.entries batch) point := by
  have every : (splitCommit (fun change => change.2.diff) maxBatchSize batch.changes).length ≤ sent := by
    rwa [ProgressBatch.parts, List.length_map] at all
  rw [graph.netOf_parts, List.take_of_length_le every]
  exact netOf_perm ((splitCommit_perm _ maxBatchSize batch.changes).filterMap graph.entry) point

open ReceiverCall in
/-- Between any two frames of a commit the receiver has at least the counts before it or at least those after it. -/
theorem encodeProgressCommit_intermediate {buildFuel : Nat} {builder : SubgraphBuilder P} {children : LoopBuilders P}
    (built : ProgressGraph.tryBuild buildFuel builder children = some (.ok graph)) (proper : builder.Proper)
    (properChildren : children.Proper) (reach : graph.root.builder.EdgesReachInputs)
    (reachLoops : graph.loops.EdgesReachInputs) (crc : Checksum) {codecs : ProgressCodecs graph.Time}
    (lawful : codecs.Lawful) {batch : ProgressBatch graph.Time} (encodable : batch.Encodable codecs)
    (admits : graph.Admits batch) {maxBatchSize : Nat} (positive : 1 ≤ maxBatchSize)
    (history : List (ScopeCall graph)) (raw : ∀ call ∈ history, call.IsRaw) :
    ∃ (frames : List (List UInt8)) (parts : List (ProgressBatch graph.Time)) (view before after : ProgressTracker graph)
      (bound : Nat),
      encodeProgressCommit crc batch codecs maxBatchSize = .ok frames ∧
      frames.map (fun frame => decodeProgressFrameWith crc frame codecs maxBatchSize) =
        parts.map (fun part => .ok (.batch part)) ∧
      (∀ fuel, bound ≤ fuel → ScopeCall.runAll fuel history (ProgressTracker.new graph) = some view ∧
        view.exportAndPropagate fuel = some before ∧
        runAll fuel [receive [batch], exportAndPropagate] view = some (.ok after)) ∧
      ∀ sent calls, calls.flatMap received = parts.take sent →
        ∃ enough middle settled,
          (∀ fuel, enough ≤ fuel → runAll fuel calls view = some (.ok middle) ∧
            middle.exportAndPropagate fuel = some settled) ∧
          ((∀ point, graph.IsRaw point ∨ exportAndPropagate ∉ calls → view.count point ≤ middle.count point) ∧
              settled.FrontierLe before ∨
            (∀ point, graph.IsRaw point ∨ exportAndPropagate ∉ calls →
                view.count point + netOf (graph.entries batch) point ≤ middle.count point) ∧
              settled.FrontierLe after) ∧
          (parts.length ≤ sent → ∀ point, graph.IsRaw point ∨ exportAndPropagate ∉ calls →
            middle.count point = view.count point + netOf (graph.entries batch) point) := by
  obtain ⟨wired, apart⟩ := ProgressGraph.tryBuild_wired built proper properChildren reach reachLoops
  obtain ⟨frames, encoded, decoded⟩ := encodeProgressCommit_eq crc lawful encodable positive
  obtain ⟨first, view, ranHistory, idleView, _⟩ :=
    ScopeCall.runAll_spec wired apart (ProgressTracker.new_idle graph) history raw
  obtain ⟨second, before, propagated, _, bridgedBefore, beforeCount⟩ :=
    ProgressTracker.exportAndPropagate_spec wired apart idleView
  obtain ⟨whole, applied, idleWhole, wholeCount⟩ := ProgressTracker.applyBatch_spec idleView admits
  obtain ⟨third, after, propagatedWhole, _, bridgedAfter, afterCount⟩ :=
    ProgressTracker.exportAndPropagate_spec wired apart idleWhole
  refine ⟨frames, batch.parts maxBatchSize, view, before, after, max first (max second third), encoded, ?_,
    fun fuel enough => ⟨ranHistory fuel (by omega), propagated fuel (by omega), ?_⟩, fun sent calls inOrder => ?_⟩
  · rw [decoded, ProgressBatch.parts, List.map_map]
    rfl
  · simp only [runAll, run, ProgressTracker.receivePeerChanges, applied, attempt, propagatedWhole fuel (by omega),
      Option.map_some]
  · obtain ⟨low, middle, ran, idleMiddle, middleCount⟩ := runAll_spec wired apart calls view idleView fun part member =>
      admits.parts part (List.mem_of_mem_take (inOrder ▸ member))
    obtain ⟨high, settled, propagatedMiddle, _, bridgedSettled, settledCount⟩ :=
      ProgressTracker.exportAndPropagate_spec wired apart idleMiddle
    unfold entries at middleCount
    rw [inOrder] at middleCount
    refine ⟨max low high, middle, settled, fun fuel enough => ⟨ran fuel (by omega), propagatedMiddle fuel (by omega)⟩,
      ?_, fun all point own => ?_⟩
    · rcases graph.netOf_take_parts batch maxBatchSize sent with early | late
      · have more : ∀ point, graph.IsRaw point ∨ exportAndPropagate ∉ calls →
            view.count point ≤ middle.count point := by
          intro point own
          have counted := middleCount point own
          have rise := early point
          omega
        refine Or.inl ⟨more, bridgedSettled.frontierLe wired bridgedBefore fun point isRaw => ?_⟩
        rw [settledCount point isRaw, beforeCount point isRaw]
        exact more point (Or.inl isRaw)
      · have more : ∀ point, graph.IsRaw point ∨ exportAndPropagate ∉ calls →
            view.count point + netOf (graph.entries batch) point ≤ middle.count point := by
          intro point own
          have counted := middleCount point own
          have rise := late point
          omega
        refine Or.inr ⟨more, bridgedSettled.frontierLe wired bridgedAfter fun point isRaw => ?_⟩
        rw [settledCount point isRaw, afterCount point isRaw, wholeCount point, Int.add_comm]
        exact more point (Or.inl isRaw)
    · rw [middleCount point own, graph.netOf_all_parts batch all, Int.add_comm]

open ReceiverCall in
/-- Workers that received the same batches agree: whatever the order and the grouping of the batches and the propagations
between them, the next propagation ends with the frontiers of the flat graph. -/
theorem runAll_receivers_agree {buildFuel : Nat} {builder : SubgraphBuilder P} {children : LoopBuilders P}
    (built : ProgressGraph.tryBuild buildFuel builder children = some (.ok graph)) (proper : builder.Proper)
    (properChildren : children.Proper) (reach : graph.root.builder.EdgesReachInputs)
    (reachLoops : graph.loops.EdgesReachInputs) {batches : List (ProgressBatch graph.Time)}
    (admits : ∀ batch ∈ batches, graph.Admits batch) (calls : List (ReceiverCall graph))
    (same : (calls.flatMap received).Perm batches) :
    ∃ bound middle settled, (∀ fuel, bound ≤ fuel → runAll fuel calls (ProgressTracker.new graph) = some (.ok middle) ∧
        middle.exportAndPropagate fuel = some settled) ∧
      ∀ point, settled.OnFrontier point ↔
        Minimal (graph.Reaches fun origin => 0 < netOf (batches.flatMap graph.entries) origin) point := by
  obtain ⟨wired, apart⟩ := ProgressGraph.tryBuild_wired built proper properChildren reach reachLoops
  obtain ⟨first, middle, ran, idle, counts⟩ := runAll_spec wired apart calls _ (ProgressTracker.new_idle graph)
    fun batch member => admits batch (same.subset member)
  obtain ⟨second, settled, propagated, _, bridged, settledCount⟩ :=
    ProgressTracker.exportAndPropagate_spec wired apart idle
  refine ⟨max first second, middle, settled, fun fuel enough => ⟨ran fuel (by omega), propagated fuel (by omega)⟩,
    fun point => ?_⟩
  have positive : ∀ origin, graph.IsRaw origin →
      (0 < settled.count origin ↔ 0 < netOf (batches.flatMap graph.entries) origin) := by
    intro origin raw
    rw [settledCount origin raw, counts origin (Or.inl raw), ProgressTracker.new_count, Int.add_zero, entries,
      netOf_perm (same.flatMap_right _)]
  rw [bridged.onFrontier_iff wired, ProgressGraph.reaches_congr positive]

end Receiver

section LapsCommit

/-- The codecs of the dataflow with the laps loop. -/
def lapsCodecs : ProgressCodecs laps.Time where
  root := show Codec (Unsigned 64) from fixedSizeCodec 8
  scopes
    | 1 => some (show Codec (Product (Unsigned 64) (Unsigned 64)) from
        productTimeCodec (fixedSizeCodec 8) (fixedSizeCodec 8))
    | _ => none
  loopIds := rfl

theorem lapsCodecs_lawful : lapsCodecs.Lawful :=
  ProgressCodecs.lawful_of_loop (fixedSizeCodec_lawful 8) ⟨rfl, fun _ => rfl⟩
    (productTimeCodec_lawful (fixedSizeCodec_lawful 8) (fixedSizeCodec_lawful 8))

/-- A change in the root scope of the dataflow. -/
def atRoot (change : ProgressChange (Unsigned 64)) : ScopedChange laps.Time := ⟨0, change⟩

/-- A change inside the laps loop. -/
def inLaps (change : ProgressChange (Product (Unsigned 64) (Unsigned 64))) : ScopedChange laps.Time := ⟨1, change⟩

/-- The source downgrades its capability, and the feedback consumes two records and produces them again. -/
def lapsCommit : ProgressBatch laps.Time where
  root := [(atRoot ⟨.source, 1, 0, 3, -1⟩).2, (atRoot ⟨.source, 1, 0, 4, 1⟩).2]
  scopes := [⟨1, [(inLaps ⟨.target, 4, 0, ⟨2, 5⟩, -2⟩).2, (inLaps ⟨.target, 3, 1, ⟨2, 6⟩, 2⟩).2]⟩]

theorem mem_lapsCommit {change : ScopedChange laps.Time} (member : change ∈ lapsCommit.changes) :
    change = atRoot ⟨.source, 1, 0, 3, -1⟩ ∨ change = atRoot ⟨.source, 1, 0, 4, 1⟩ ∨
      change = inLaps ⟨.target, 4, 0, ⟨2, 5⟩, -2⟩ ∨ change = inLaps ⟨.target, 3, 1, ⟨2, 6⟩, 2⟩ := by
  rw [show lapsCommit.changes = [atRoot ⟨.source, 1, 0, 3, -1⟩, atRoot ⟨.source, 1, 0, 4, 1⟩,
    inLaps ⟨.target, 4, 0, ⟨2, 5⟩, -2⟩, inLaps ⟨.target, 3, 1, ⟨2, 6⟩, 2⟩] from rfl] at member
  simpa only [List.mem_cons, List.not_mem_nil, or_false] using member

theorem lapsCommit_encodable : lapsCommit.Encodable lapsCodecs := by
  have all : ∀ change ∈ lapsCommit.changes, change.2.Fits ∧ ∀ codec, lapsCodecs.find change.1 = some codec →
      ∃ bytes, codec.encode change.2.time = .ok bytes := by
    intro change member
    rcases mem_lapsCommit member with same | same | same | same <;> subst same
    all_goals exact ⟨⟨by decide, by decide, by decide, by decide⟩, fun codec found => by cases found; exact ⟨_, rfl⟩⟩
  exact .of_section rfl rfl (by decide) all

theorem lapsCommit_admits : laps.Admits lapsCommit where
  known part member := by
    rw [List.mem_singleton.mp member]
    exact rfl
  raw entry member := by
    obtain ⟨change, isIn, isEntry⟩ := List.mem_filterMap.mp member
    rcases mem_lapsCommit isIn with same | same | same | same <;> subst same <;> cases isEntry
    · exact lapsSource_raw 3
    · exact lapsSource_raw 4
    · exact ⟨⟨by decide, LoopScopes.nil_exports⟩, show Location.target 4 0 ∈ lapsScope.builder.locations by decide⟩
    · exact ⟨⟨by decide, LoopScopes.nil_exports⟩, show Location.target 3 1 ∈ lapsScope.builder.locations by decide⟩

open ReceiverCall in
theorem laps_intermediate :
    ∃ (frames : List (List UInt8)) (parts : List (ProgressBatch laps.Time)) (view before after : ProgressTracker laps)
      (bound : Nat),
      encodeProgressCommit (fun _ => 0) lapsCommit lapsCodecs 1 = .ok frames ∧
      frames.map (fun frame => decodeProgressFrameWith (fun _ => 0) frame lapsCodecs 1) =
        parts.map (fun part => .ok (.batch part)) ∧
      (∀ fuel, bound ≤ fuel → ScopeCall.runAll fuel lapsCalls (ProgressTracker.new laps) = some view ∧
        view.exportAndPropagate fuel = some before ∧
        runAll fuel [receive [lapsCommit], exportAndPropagate] view = some (.ok after)) ∧
      ∀ sent calls, calls.flatMap received = parts.take sent →
        ∃ enough middle settled,
          (∀ fuel, enough ≤ fuel → runAll fuel calls view = some (.ok middle) ∧
            middle.exportAndPropagate fuel = some settled) ∧
          ((∀ point, laps.IsRaw point ∨ exportAndPropagate ∉ calls → view.count point ≤ middle.count point) ∧
              settled.FrontierLe before ∨
            (∀ point, laps.IsRaw point ∨ exportAndPropagate ∉ calls →
                view.count point + netOf (laps.entries lapsCommit) point ≤ middle.count point) ∧
              settled.FrontierLe after) ∧
          (parts.length ≤ sent → ∀ point, laps.IsRaw point ∨ exportAndPropagate ∉ calls →
            middle.count point = view.count point + netOf (laps.entries lapsCommit) point) :=
  encodeProgressCommit_intermediate laps_built lapsRoot_proper lapsLoops_proper
    laps_reach ⟨lapsScope_reach, trivial, trivial⟩ (fun _ => 0) lapsCodecs_lawful lapsCommit_encodable lapsCommit_admits
    (by decide) lapsCalls lapsCalls_raw

/-- The source gets the capability that the commit downgrades. -/
def lapsStart : ProgressBatch laps.Time := ⟨[(atRoot ⟨.source, 1, 0, 3, 1⟩).2], []⟩

theorem lapsStart_admits : laps.Admits lapsStart where
  known part member := by cases member
  raw entry member := by
    obtain ⟨change, isIn, isEntry⟩ := List.mem_filterMap.mp member
    cases List.mem_singleton.mp (show change ∈ [_] from isIn)
    cases isEntry
    exact lapsSource_raw 3

open ReceiverCall in
/-- The commit arrives ahead of the batch that was sent before it, and a propagation comes between them. -/
theorem laps_receivers_agree :
    ∃ bound middle settled, (∀ fuel, bound ≤ fuel →
        runAll fuel [receive [lapsCommit], exportAndPropagate, receive [lapsStart]] (ProgressTracker.new laps) =
          some (.ok middle) ∧
        middle.exportAndPropagate fuel = some settled) ∧
      ∀ point, settled.OnFrontier point ↔
        Minimal (laps.Reaches fun origin => 0 < netOf ([lapsStart, lapsCommit].flatMap laps.entries) origin) point :=
  runAll_receivers_agree laps_built lapsRoot_proper lapsLoops_proper laps_reach ⟨lapsScope_reach, trivial, trivial⟩
    (List.forall_mem_cons.mpr ⟨lapsStart_admits, List.forall_mem_singleton.mpr lapsCommit_admits⟩) _ (.swap _ _ _)

end LapsCommit

end Instancy
