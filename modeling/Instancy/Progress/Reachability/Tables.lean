import Instancy.Library.Saturation
import Instancy.Progress.Reachability.Walk

namespace Instancy

open Library Relation

namespace Antichain

variable {T : Type} [PartialOrder T] [DecidableLE T]

variable {element item : T} {antichain : Antichain T}

theorem mem_of_mem_insert
    (member : item ∈ (antichain.insert element).2.elements) : item ∈ antichain.elements ∨ item = element := by
  unfold insert at member
  split at member
  · exact Or.inl member
  · rcases List.mem_append.mp member with kept | last
    · exact Or.inl (List.mem_filter.mp kept).1
    · exact Or.inr (List.mem_singleton.mp last)

variable {items : List T}

theorem mem_of_mem_extend
    (member : item ∈ (antichain.extend items).elements) : item ∈ antichain.elements ∨ item ∈ items := by
  unfold extend at member
  induction items generalizing antichain with
  | nil => exact Or.inl member
  | cons element rest ih =>
    rcases ih member with old | later
    · rcases mem_of_mem_insert old with kept | same
      · exact Or.inl kept
      · exact Or.inr (List.mem_cons.mpr (Or.inl same))
    · exact Or.inr (List.mem_cons_of_mem element later)

theorem mem_of_mem_fromElemIter (member : item ∈ (fromElemIter items).elements) : item ∈ items := by
  rcases mem_of_mem_extend member with impossible | found
  · cases impossible
  · exact found

/-- A refused element is covered and changes nothing. -/
theorem insert_refused (refused : (antichain.insert element).1 = false) :
    (antichain.insert element).2 = antichain ∧ antichain.lessEqual element = true := by
  unfold insert at refused ⊢
  split
  · rename_i covered
    exact ⟨rfl, covered⟩
  · rename_i fresh
    rw [dif_neg fresh] at refused
    cases refused

omit [DecidableLE T] in
theorem nodup (antichain : Antichain T) : antichain.elements.Nodup :=
  antichain.incomparable.imp fun apart same => apart.1 (le_of_eq same)

/-- Incomparable elements are all kept in their order. -/
theorem extend_elements (antichain : Antichain T) (items : List T)
    (apart : (antichain.elements ++ items).Pairwise Incomparable) :
    (antichain.extend items).elements = antichain.elements ++ items := by
  unfold extend
  induction items generalizing antichain with
  | nil => exact (List.append_nil _).symm
  | cons item rest ih =>
    have between : ∀ other ∈ antichain.elements, Incomparable other item :=
      fun other member => (List.pairwise_append.mp apart).2.2 other member item List.mem_cons_self
    have fresh : ¬ antichain.lessEqual item = true := by
      intro covered
      obtain ⟨other, member, below⟩ := (antichain.lessEqual_iff item).mp covered
      exact (between other member).1 below
    have kept : antichain.elements.filter (fun other => ¬ item ≤ other) = antichain.elements :=
      List.filter_eq_self.mpr fun other member => decide_eq_true (between other member).2
    have inserted : (antichain.insert item).2.elements = antichain.elements ++ [item] := by
      unfold insert
      rw [dif_neg fresh]
      change _ ++ _ = _
      rw [kept]
    rw [List.foldl_cons, ih, inserted, List.append_assoc]
    · rfl
    · rw [inserted, List.append_assoc]
      exact apart

theorem fromElemIter_elements (apart : items.Pairwise Incomparable) :
    (fromElemIter items).elements = items := extend_elements new items apart

end Antichain

variable {location : Location}

namespace Builder

variable {S : Type} [UnsignedSummary S] {builder : Builder S} {summary : S}

/-- A hop in front of a walk gives a walk. -/
theorem Walk.cons {origin middle finish : Location} {first total : S}
    (hop : (middle, first) ∈ builder.hops origin) (walk : builder.Walk middle finish summary)
    (composed : followedBy first summary = some total) : builder.Walk origin finish total := by
  induction walk generalizing total with
  | empty =>
    rw [UnsignedSummary.followedBy_identity, Option.some.injEq] at composed
    subst composed
    exact Walk.empty.snoc hop (UnsignedSummary.identity_followedBy first)
  | snoc walk last joined ih =>
    rename_i place target before step whole
    have law := UnsignedSummary.followedBy_assoc first before step
    rw [joined, Option.bind_some, composed] at law
    obtain ⟨early, started, ended⟩ := Option.bind_eq_some_iff.mp law
    exact (ih started).snoc last ended

section Relaxation

/-- Every entry is the summary of a walk to its scope output. -/
def TablesSound (builder : Builder S) (tables : PathTables S) : Prop :=
  ∀ location output, ∀ summary ∈ (tables location output).elements, builder.Walk location (.target 0 output) summary

/-- The entry that a relaxation fills already covers what it composes. -/
def Relaxation.Met (tables : PathTables S) (relaxation : Relaxation S) : Prop :=
  ∀ summary ∈ (tables relaxation.origin relaxation.output).elements, ∀ composed,
    relaxation.compose summary = some composed → (tables relaxation.into relaxation.output).lessEqual composed = true

/-- One insertion of a relaxation into its table entry. -/
def Relaxation.insertOne (relaxation : Relaxation S) (state : Bool × PathTables S) (composed : S) :
    Bool × PathTables S :=
  let inserted := (state.2 relaxation.into relaxation.output).insert composed
  (state.1 || inserted.1,
    Function.update state.2 relaxation.into
      (Function.update (state.2 relaxation.into) relaxation.output inserted.2))

variable (relaxation : Relaxation S) (state : Bool × PathTables S)

theorem Relaxation.apply_eq :
    relaxation.apply state =
      ((state.2 relaxation.origin relaxation.output).elements.filterMap relaxation.compose).foldl
        relaxation.insertOne state := rfl

/-- The filled entry gets the insertion, and every other entry is unchanged. -/
theorem Relaxation.insertOne_entry (composed : S) (location : Location) (output : Nat) :
    (relaxation.insertOne state composed).2 location output =
      if location = relaxation.into ∧ output = relaxation.output then
        ((state.2 relaxation.into relaxation.output).insert composed).2
      else state.2 location output := by
  change Function.update state.2 relaxation.into _ location output = _
  by_cases sameLocation : location = relaxation.into
  · subst sameLocation
    rw [Function.update_self]
    by_cases sameOutput : output = relaxation.output
    · subst sameOutput
      rw [Function.update_self, if_pos ⟨rfl, rfl⟩]
    · rw [Function.update_of_ne sameOutput, if_neg fun both => sameOutput both.2]
  · rw [Function.update_of_ne sameLocation, if_neg fun both => sameLocation both.1]

variable {output : Nat}

theorem Relaxation.insertOne_lessEqual (composed : S) (covered : (state.2 location output).lessEqual summary = true) :
    ((relaxation.insertOne state composed).2 location output).lessEqual summary = true := by
  rw [insertOne_entry]
  split
  · rename_i same
    rw [Antichain.insert_lessEqual, ← same.1, ← same.2]
    exact Or.inl covered
  · exact covered

/-- Insertions that report no change leave the tables as they are and were all covered. -/
theorem Relaxation.foldl_insertOne_unchanged (items : List S)
    (state : Bool × PathTables S) (unchanged : (items.foldl relaxation.insertOne state).1 = false) :
    items.foldl relaxation.insertOne state = state ∧
      ∀ composed ∈ items, (state.2 relaxation.into relaxation.output).lessEqual composed = true := by
  induction items generalizing state with
  | nil => exact ⟨rfl, nofun⟩
  | cons composed rest ih =>
    rw [List.foldl_cons] at unchanged ⊢
    obtain ⟨sameRest, coveredRest⟩ := ih _ unchanged
    rw [sameRest] at unchanged
    obtain ⟨still, refused⟩ := Bool.or_eq_false_iff.mp unchanged
    obtain ⟨sameEntry, covered⟩ := Antichain.insert_refused refused
    have sameState : relaxation.insertOne state composed = state := by
      change (_, _) = state
      rw [sameEntry, Function.update_eq_self, Function.update_eq_self, refused, Bool.or_false]
    rw [sameState] at sameRest coveredRest
    refine ⟨by rw [sameState]; exact sameRest, fun item member => ?_⟩
    rcases List.mem_cons.mp member with same | later
    · exact same ▸ covered
    · exact coveredRest item later

/-- A relaxation that reports no change leaves the tables as they are and was met. -/
theorem Relaxation.apply_unchanged (unchanged : (relaxation.apply state).1 = false) :
    relaxation.apply state = state ∧ relaxation.Met state.2 := by
  obtain ⟨same, covered⟩ := foldl_insertOne_unchanged relaxation _ state unchanged
  exact ⟨same, fun summary member composed found =>
    covered composed (List.mem_filterMap.mpr ⟨summary, member, found⟩)⟩

theorem foldl_apply_unchanged (relaxations : List (Relaxation S)) (state : Bool × PathTables S)
    (unchanged : (relaxations.foldl (fun current relaxation => relaxation.apply current) state).1 = false) :
    relaxations.foldl (fun current relaxation => relaxation.apply current) state = state ∧
      ∀ relaxation ∈ relaxations, relaxation.Met state.2 := by
  induction relaxations generalizing state with
  | nil => exact ⟨rfl, nofun⟩
  | cons relaxation rest ih =>
    rw [List.foldl_cons] at unchanged ⊢
    obtain ⟨sameRest, metRest⟩ := ih _ unchanged
    rw [sameRest] at unchanged
    obtain ⟨same, met⟩ := relaxation.apply_unchanged state unchanged
    rw [same] at sameRest metRest
    refine ⟨by rw [same]; exact sameRest, fun other member => ?_⟩
    rcases List.mem_cons.mp member with isFirst | later
    · exact isFirst ▸ met
    · exact metRest other later

theorem followedBy_identity_eq : (followedBy identity : S → Option S) = some := by
  funext summary
  exact UnsignedSummary.identity_followedBy summary

/-- Every relaxation puts one hop in front of the walks of its entry. -/
theorem relaxation_hop {relaxation : Relaxation S}
    (member : relaxation ∈ builder.internalRelaxations ++ builder.edgeRelaxations) :
    ∃ first, (relaxation.origin, first) ∈ builder.hops relaxation.into ∧ relaxation.compose = followedBy first := by
  rcases List.mem_append.mp member with inner | outer
  · obtain ⟨node, _, found⟩ := List.mem_flatMap.mp inner
    cases registered : builder.nodes node with
    | none => simp [registered] at found
    | some connectivity =>
      simp only [registered, List.mem_flatMap, List.mem_map, List.mem_range] at found
      obtain ⟨input, _, output, inside, internal, path, scopeOutput, _, same⟩ := found
      subst same
      exact ⟨internal, mem_hops_target.mpr ⟨connectivity, output, registered, inside, rfl, path⟩, rfl⟩
  · obtain ⟨node, _, ported⟩ := List.mem_flatMap.mp outer
    obtain ⟨output, _, edged⟩ := List.mem_flatMap.mp ported
    obtain ⟨edge, drawn, found⟩ := List.mem_flatMap.mp edged
    cases edge with
    | source next port => cases found
    | target next port =>
      obtain ⟨scopeOutput, _, same⟩ := List.mem_map.mp found
      subst same
      exact ⟨identity, mem_hops_source.mpr ⟨drawn, rfl⟩, followedBy_identity_eq.symm⟩

/-- Every hop of the graph is relaxed for every scope output. -/
theorem hop_relaxation (wellFormed : builder.WellFormed) (reach : builder.EdgesReachInputs)
    {origin finish : Location} {first : S} (hop : (finish, first) ∈ builder.hops origin)
    (inside : output < builder.scopeOutputs) :
    ⟨origin, finish, followedBy first, output⟩ ∈ builder.internalRelaxations ++ builder.edgeRelaxations := by
  have registered := wellFormed.hop_origin hop
  apply List.mem_append.mpr
  cases origin with
  | target node port =>
    obtain ⟨connectivity, column, found, bound, same, path⟩ := mem_hops_target.mp hop
    subst same
    rw [target_mem_locations] at registered
    apply Or.inl
    apply List.mem_flatMap.mpr
    refine ⟨node, List.mem_range.mpr registered.1, ?_⟩
    simp only [found, List.mem_flatMap, List.mem_map, List.mem_range]
    exact ⟨port, registered.2, column, bound, first, path, output, inside, rfl⟩
  | source node port =>
    obtain ⟨drawn, same⟩ := mem_hops_source.mp hop
    subst same
    rw [source_mem_locations] at registered
    apply Or.inr
    apply List.mem_flatMap.mpr
    refine ⟨node, List.mem_range.mpr registered.1, ?_⟩
    apply List.mem_flatMap.mpr
    refine ⟨port, List.mem_range.mpr registered.2, ?_⟩
    apply List.mem_flatMap.mpr
    refine ⟨finish, drawn, ?_⟩
    have input := reach node port finish drawn
    cases finish with
    | source next column => exact input.elim
    | target next column =>
      rw [followedBy_identity_eq]
      exact List.mem_map.mpr ⟨output, List.mem_range.mpr inside, rfl⟩

/-- Each insertion of a relaxation keeps the entries sound. -/
theorem TablesSound.apply {state : Bool × PathTables S} (sound : builder.TablesSound state.2)
    {relaxation : Relaxation S} (member : relaxation ∈ builder.internalRelaxations ++ builder.edgeRelaxations) :
    builder.TablesSound (relaxation.apply state).2 := by
  obtain ⟨first, hop, compose⟩ := relaxation_hop member
  -- The inserted summaries are walks because the entry they come from was sound before the relaxation.
  have walks : ∀ composed ∈ (state.2 relaxation.origin relaxation.output).elements.filterMap relaxation.compose,
      builder.Walk relaxation.into (.target 0 relaxation.output) composed := by
    intro composed found
    obtain ⟨summary, inside, joined⟩ := List.mem_filterMap.mp found
    rw [compose] at joined
    exact Walk.cons hop (sound _ _ summary inside) joined
  rw [Relaxation.apply_eq]
  revert walks
  generalize (state.2 relaxation.origin relaxation.output).elements.filterMap relaxation.compose = items
  intro walks
  induction items generalizing state with
  | nil => exact sound
  | cons composed rest ih =>
    apply ih
    · intro location output summary found
      rw [Relaxation.insertOne_entry] at found
      split at found
      · rename_i same
        rw [same.1, same.2]
        rcases Antichain.mem_of_mem_insert found with old | fresh
        · exact sound _ _ summary old
        · exact fresh ▸ walks composed List.mem_cons_self
      · exact sound _ _ summary found
    · exact fun item later => walks item (List.mem_cons_of_mem composed later)

theorem Relaxation.apply_lessEqual (covered : (state.2 location output).lessEqual summary = true) :
    ((relaxation.apply state).2 location output).lessEqual summary = true := by
  rw [apply_eq]
  generalize (state.2 relaxation.origin relaxation.output).elements.filterMap relaxation.compose = items
  induction items generalizing state with
  | nil => exact covered
  | cons composed rest ih =>
    exact ih _ (relaxation.insertOne_lessEqual state composed covered)

end Relaxation

section Tables

/-- These facts hold of the tables at every point of the computation. -/
structure TablesGrown (builder : Builder S) (tables : PathTables S) : Prop where
  sound : builder.TablesSound tables
  start : ∀ output < builder.scopeOutputs, (tables (.target 0 output) output).lessEqual identity = true

theorem initialTables_grown (wellFormed : builder.WellFormed) : builder.TablesGrown builder.initialTables := by
  refine ⟨fun location output summary member => ?_, fun output inside => ?_⟩
  · unfold initialTables at member
    split at member
    · rename_i same
      rw [same.1, List.mem_singleton.mp member]
      exact Walk.empty
    · cases member
  · have dims := (wellFormed.shape_of_node 0 _ wellFormed.boundary).2
    unfold initialTables
    rw [if_pos ⟨rfl, inside, by rw [← dims]; exact inside⟩]
    exact (Antichain.fromElem_lessEqual identity identity).mpr le_rfl

theorem TablesGrown.foldl {state : Bool × PathTables S} (grown : builder.TablesGrown state.2)
    (relaxations : List (Relaxation S))
    (members : ∀ relaxation ∈ relaxations, relaxation ∈ builder.internalRelaxations ++ builder.edgeRelaxations) :
    builder.TablesGrown (relaxations.foldl (fun current relaxation => relaxation.apply current) state).2 := by
  induction relaxations generalizing state with
  | nil => exact grown
  | cons relaxation rest ih =>
    apply ih
    · exact ⟨grown.sound.apply (members relaxation List.mem_cons_self),
        fun output inside => relaxation.apply_lessEqual state (grown.start output inside)⟩
    · exact fun other later => members other (List.mem_cons_of_mem relaxation later)

/-- The entries of a location are the minimal summaries of its walks to the scope outputs. -/
structure TablesExact (builder : Builder S) (tables : PathTables S) : Prop where
  sound : builder.TablesSound tables
  covers : ∀ location output summary, output < builder.scopeOutputs →
    builder.Walk location (.target 0 output) summary → (tables location output).lessEqual summary = true

variable {tables : PathTables S}

/-- Tables that meet every relaxation cover a walk in front of each entry. -/
theorem lessEqual_of_walk (wellFormed : builder.WellFormed) (reach : builder.EdgesReachInputs)
    (met : ∀ relaxation ∈ builder.internalRelaxations ++ builder.edgeRelaxations,
      relaxation.Met tables) {output : Nat} (inside : output < builder.scopeOutputs)
    {middle : Location} {before after total : S} (walk : builder.Walk location middle before)
    (member : (tables middle output).lessEqual after = true) (composed : followedBy before after = some total) :
    (tables location output).lessEqual total = true := by
  induction walk generalizing after total with
  | empty =>
    rw [UnsignedSummary.identity_followedBy, Option.some.injEq] at composed
    exact composed ▸ member
  | snoc walk hop joined ih =>
    rename_i place target early step whole
    -- The summary after the last hop is covered at the place before it, because its relaxation is met.
    have law := UnsignedSummary.followedBy_assoc early step after
    rw [joined, Option.bind_some, composed] at law
    obtain ⟨late, started, ended⟩ := Option.bind_eq_some_iff.mp law.symm
    obtain ⟨entry, found, below⟩ := ((tables target output).lessEqual_iff after).mp member
    obtain ⟨lower, lowered, lower_le⟩ :=
      UnsignedSummary.followedBy_mono step step entry after late le_rfl below started
    have covered := met _ (hop_relaxation wellFormed reach hop inside) entry found lower lowered
    obtain ⟨least, foundLeast, least_le⟩ := ((tables place output).lessEqual_iff lower).mp covered
    exact ih (((tables place output).lessEqual_iff late).mpr ⟨least, foundLeast, least_le.trans lower_le⟩) ended

/-- The tables of a finished computation are exact. -/
theorem backwardTables_exact (wellFormed : builder.WellFormed) (reach : builder.EdgesReachInputs) {fuel : Nat}
    (ended : builder.backwardTables fuel = some tables) : builder.TablesExact tables := by
  obtain ⟨state, finished, same⟩ := Option.map_eq_some_iff.mp ended
  subst same
  have kept := loop_invariant
    (fun state : Bool × PathTables S => builder.TablesGrown state.2 ∧ (state.1 = false →
      ∀ relaxation ∈ builder.internalRelaxations ++ builder.edgeRelaxations, relaxation.Met state.2))
    (fun current next holds step => by
      unfold backwardStep at step
      split at step
      · cases step
        refine ⟨@TablesGrown.foldl _ _ _ (false, current.2) holds.1 _ fun _ member => member,
          fun unchanged => ?_⟩
        obtain ⟨sameTables, met⟩ := foldl_apply_unchanged _ _ unchanged
        unfold backwardPass
        rw [sameTables]
        exact met
      · cases step)
    ⟨initialTables_grown wellFormed, fun impossible => by cases impossible⟩ finished
  obtain ⟨⟨grown, closed⟩, done⟩ := kept
  have quiet : state.1 = false := by
    unfold backwardStep at done
    split at done
    · cases done
    · rename_i still
      exact Bool.eq_false_iff.mpr still
  refine ⟨grown.sound, fun location output summary inside walk => ?_⟩
  exact lessEqual_of_walk wellFormed reach (closed quiet) inside walk (grown.start output inside)
    (UnsignedSummary.followedBy_identity summary)

end Tables

section Termination

/-- What the tables cover, entry by entry. -/
def Covers (tables : PathTables S) (entry : Location × Nat) (summary : S) : Prop :=
  (tables entry.1 entry.2).lessEqual summary = true

/-- The entries that some relaxation fills. -/
def filled (relaxations : List (Relaxation S)) : Set (Location × Nat) :=
  {entry | ∃ relaxation ∈ relaxations, entry = (relaxation.into, relaxation.output)}

omit [UnsignedSummary S] in
theorem filled_finite (relaxations : List (Relaxation S)) : (filled relaxations).Finite := by
  refine (relaxations.map fun relaxation => (relaxation.into, relaxation.output)).finite_toSet.subset ?_
  intro entry found
  obtain ⟨relaxation, member, same⟩ := found
  exact List.mem_map.mpr ⟨relaxation, member, same.symm⟩

/-- An insertion that is not refused makes its entry cover more. -/
theorem Relaxation.insertOne_grows {relaxations : List (Relaxation S)} {relaxation : Relaxation S}
    (member : relaxation ∈ relaxations) (state : Bool × PathTables S) (composed : S) :
    relaxation.insertOne state composed = state ∨
      Grows (filled relaxations) (Covers (relaxation.insertOne state composed).2) (Covers state.2) := by
  cases inserted : ((state.2 relaxation.into relaxation.output).insert composed).1 with
  | false =>
    obtain ⟨sameEntry, _⟩ := Antichain.insert_refused inserted
    apply Or.inl
    change (_, _) = state
    rw [sameEntry, Function.update_eq_self, Function.update_eq_self, inserted, Bool.or_false]
  | true =>
    apply Or.inr
    refine ⟨fun _ _ _ below covered => Antichain.lessEqual_mono covered below,
      fun _ _ covered => relaxation.insertOne_lessEqual state composed covered,
      (relaxation.into, relaxation.output), ⟨relaxation, member, rfl⟩, composed, ?_, fun covered => ?_⟩
    · change ((relaxation.insertOne state composed).2 relaxation.into relaxation.output).lessEqual composed = true
      rw [insertOne_entry, if_pos ⟨rfl, rfl⟩, Antichain.insert_lessEqual]
      exact Or.inr le_rfl
    · unfold Antichain.insert at inserted
      rw [dif_pos (show (state.2 relaxation.into relaxation.output).lessEqual composed = true from covered)] at inserted
      cases inserted

/-- Steps that leave a state as it is or grow it do so together. -/
theorem foldl_grows {A : Type} {keys : Set (Location × Nat)} {step : Bool × PathTables S → A → Bool × PathTables S}
    (items : List A) (grows : ∀ item ∈ items, ∀ state, step state item = state ∨
      Grows keys (Covers (step state item).2) (Covers state.2)) (state : Bool × PathTables S) :
    items.foldl step state = state ∨ Grows keys (Covers (items.foldl step state).2) (Covers state.2) := by
  induction items generalizing state with
  | nil => exact Or.inl rfl
  | cons item rest ih =>
    rw [List.foldl_cons]
    have others := ih (fun other later => grows other (List.mem_cons_of_mem item later)) (step state item)
    rcases grows item List.mem_cons_self state with same | grown
    · rw [same] at others ⊢
      exact others
    · rcases others with same | more
      · rw [same]
        exact Or.inr grown
      · exact Or.inr (more.trans grown)

/-- A pass leaves the tables as they are or makes some entry cover more. -/
theorem backwardPass_grows (builder : Builder S) (tables : PathTables S) :
    builder.backwardPass tables = (false, tables) ∨
      Grows (filled (builder.internalRelaxations ++ builder.edgeRelaxations)) (Covers (builder.backwardPass tables).2)
        (Covers tables) := by
  apply foldl_grows _ _ (false, tables)
  intro relaxation member state
  exact foldl_grows _ (fun composed _ current => relaxation.insertOne_grows member current composed) state

/-- The passes end, because every pass but the last one makes some entry cover more. -/
theorem backwardTables_terminates [WellQuasiOrderedLE S] (builder : Builder S) :
    ∃ bound tables, ∀ fuel, bound ≤ fuel → builder.backwardTables fuel = some tables := by
  have growth := grows_wellFounded (S := S) (filled_finite (builder.internalRelaxations ++ builder.edgeRelaxations))
  have lex := WellFounded.prod_lex growth (wellFounded_lt : WellFounded ((· < ·) : Bool → Bool → Prop))
  have descends : ∀ state next : Bool × PathTables S, builder.backwardStep state = some next →
      Prod.Lex (Grows (filled (builder.internalRelaxations ++ builder.edgeRelaxations))) (· < ·)
        (Covers next.2, next.1) (Covers state.2, state.1) := by
    intro state next step
    unfold backwardStep at step
    split at step
    · rename_i changed
      cases step
      rcases builder.backwardPass_grows state.2 with same | grown
      · refine Prod.lex_def.mpr (Or.inr ⟨?_, ?_⟩)
        · rw [same]
        · rw [same, changed]
          exact Bool.false_lt_true
      · exact Prod.lex_def.mpr (Or.inl grown)
    · cases step
  obtain ⟨bound, result, ended⟩ := loop_terminates (fun _ => True)
    (InvImage.wf (fun state : Bool × PathTables S => (Covers state.2, state.1)) lex) (fun _ _ _ _ => trivial)
    (fun state next _ step => descends state next step) (true, builder.initialTables) trivial
  exact ⟨bound, result.2, fun fuel enough => congrArg (Option.map Prod.snd) (ended fuel enough)⟩

/-- The entries of exact tables are the minimal summaries of the walks. -/
theorem TablesExact.mem_iff {tables : PathTables S} (isExact : builder.TablesExact tables)
    {output : Nat} (inside : output < builder.scopeOutputs) (summary : S) :
    summary ∈ (tables location output).elements ↔ Minimal (builder.Walk location (.target 0 output)) summary := by
  have frontier : IsFrontier (tables location output).elements (builder.Walk location (.target 0 output)) :=
    ⟨(tables location output).incomparable, isExact.sound location output, fun time walk =>
      (Antichain.lessEqual_iff _ _).mp (isExact.covers location output time inside walk)⟩
  exact frontier.mem_iff_minimal summary

/-- Every minimal element is kept by an antichain that is built from the elements of another one. -/
theorem mem_fromElemIter_elements {antichain : Antichain S} :
    summary ∈ (Antichain.fromElemIter antichain.elements).elements ↔ summary ∈ antichain.elements := by
  rw [Antichain.fromElemIter_elements antichain.incomparable]

/-- The tables are computed for every graph, and the tables, the scope summary and the export tables list exactly the
minimal summaries of the walks to each scope output. -/
theorem backwardTables_minimal [WellQuasiOrderedLE S] (assembled : Assembled builder)
    (reach : builder.EdgesReachInputs) :
    ∃ bound tables, (∀ fuel, bound ≤ fuel → builder.backwardTables fuel = some tables) ∧
      (∀ location output summary, output < builder.scopeOutputs →
        (summary ∈ (tables location output).elements ↔
          Minimal (builder.Walk location (.target 0 output)) summary)) ∧
      (∀ input output summary, input < builder.scopeInputs → output < builder.scopeOutputs →
        (summary ∈ ((builder.scopeSummary tables).path input output).elements ↔
          Minimal (builder.Walk (.source 0 input) (.target 0 output)) summary)) ∧
      ∀ location output summary, location.node ≠ 0 → output < builder.scopeOutputs →
        ((∃ paths, (output, paths) ∈ builder.exportTable tables location ∧ summary ∈ paths.elements) ↔
          Minimal (builder.Walk location (.target 0 output)) summary) := by
  obtain ⟨bound, tables, ended⟩ := backwardTables_terminates builder
  have isExact := backwardTables_exact assembled.wellFormed reach (ended bound le_rfl)
  have dims := (assembled.wellFormed.shape_of_node 0 _ assembled.wellFormed.boundary).2
  refine ⟨bound, tables, ended, fun location output summary inside => isExact.mem_iff inside summary,
    fun input output summary enters exits => ?_, fun location output summary operator exits => ?_⟩
  · have ports : input < (builder.shape 0).2 := by
      rw [← dims]
      exact enters
    have path : (builder.scopeSummary tables).path input output =
        Antichain.fromElemIter (tables (.source 0 input) output).elements := if_pos ⟨enters, exits, ports⟩
    rw [path, mem_fromElemIter_elements]
    exact isExact.mem_iff exits summary
  · rw [← isExact.mem_iff exits summary]
    unfold exportTable
    rw [if_neg operator]
    simp only [List.mem_filterMap, List.mem_range]
    constructor
    · intro found
      obtain ⟨paths, ⟨column, _, listed⟩, member⟩ := found
      split at listed
      · cases listed
      · cases listed
        exact member
    · intro member
      refine ⟨tables location output, ⟨output, exits, if_neg fun empty => ?_⟩, member⟩
      rw [List.isEmpty_iff.mp empty] at member
      exact List.not_mem_nil member

end Termination

section Lapped

/-- A scope with one input and one output whose body goes around a loop. -/
def lappedSteps (lap : S) : Except DataflowError (Builder S) := do
  let one ← (Builder.new 1 1).addNode 1 2 1
    (((PortConnectivity.new 2 1).setPath 0 0 (Antichain.fromElem identity)).setPath 1 0 (Antichain.fromElem identity))
  let two ← one.addNode 2 1 1 (PortConnectivity.ofIdentity lap)
  let enter ← two.addEdge (.source 0 0) (.target 1 0)
  let around ← enter.addEdge (.source 1 0) (.target 2 0)
  let back ← around.addEdge (.source 2 0) (.target 1 1)
  back.addEdge (.source 1 0) (.target 0 0)

def lapped (lap : S) : Builder S :=
  match lappedSteps lap with
  | .ok builder => builder
  | .error _ => Builder.new 1 1

theorem lapped_assembled (lap : S) : Assembled (lapped lap) := by
  have boundary : Assembled (Builder.new 1 1 : Builder S) := Assembled.new 1 1
  have one := @Assembled.addNode _ _ _ _ 1 2 1 (((PortConnectivity.new 2 1).setPath 0 0
    (Antichain.fromElem identity)).setPath 1 0 (Antichain.fromElem identity)) boundary (by decide) rfl
  have two := @Assembled.addNode _ _ _ _ 2 1 1 (PortConnectivity.ofIdentity lap) one (by decide) rfl
  have enter := @Assembled.addEdge _ _ _ _ (.source 0 0) (.target 1 0) two rfl
  have around := @Assembled.addEdge _ _ _ _ (.source 1 0) (.target 2 0) enter rfl
  have back := @Assembled.addEdge _ _ _ _ (.source 2 0) (.target 1 1) around rfl
  exact @Assembled.addEdge _ _ _ _ (.source 1 0) (.target 0 0) back rfl

theorem lapped_reach (lap : S) : (lapped lap).EdgesReachInputs :=
  (lapped_assembled lap).wellFormed.edgesReachInputs (of_decide_eq_true rfl)

/-- A lap adds one to the inner time. -/
abbrev innerLap : Product (Unsigned 64) (Unsigned 64) := ⟨0, 1⟩

theorem lapped_tables :
    ∃ bound tables, (∀ fuel, bound ≤ fuel → (lapped innerLap).backwardTables fuel = some tables) ∧
      (∀ location output summary, output < (lapped innerLap).scopeOutputs →
        (summary ∈ (tables location output).elements ↔
          Minimal ((lapped innerLap).Walk location (.target 0 output)) summary)) ∧
      (∀ input output summary, input < (lapped innerLap).scopeInputs → output < (lapped innerLap).scopeOutputs →
        (summary ∈ (((lapped innerLap).scopeSummary tables).path input output).elements ↔
          Minimal ((lapped innerLap).Walk (.source 0 input) (.target 0 output)) summary)) ∧
      ∀ location output summary, location.node ≠ 0 → output < (lapped innerLap).scopeOutputs →
        ((∃ paths, (output, paths) ∈ (lapped innerLap).exportTable tables location ∧ summary ∈ paths.elements) ↔
          Minimal ((lapped innerLap).Walk location (.target 0 output)) summary) :=
  backwardTables_minimal (lapped_assembled innerLap) (lapped_reach innerLap)

end Lapped

end Builder

end Instancy
