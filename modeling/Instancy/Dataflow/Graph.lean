import Instancy.Library.Fallible
import Instancy.Progress.Reachability.Builder

namespace Instancy

open Library

structure Slot where
  operatorIndex : Nat
  slotIndex : Nat
  deriving DecidableEq

def Slot.display (slot : Slot) : String :=
  let operator := slot.operatorIndex
  let index := slot.slotIndex
  s!"Op{operator}:Slot{index}"

structure EdgeInfo where
  source : Slot
  target : Slot

def EdgeInfo.srcIdx (edge : EdgeInfo) : Nat := edge.source.operatorIndex

def EdgeInfo.tgtIdx (edge : EdgeInfo) : Nat := edge.target.operatorIndex

structure OperatorInfo where
  name : String
  inputCount : Nat
  outputCount : Nat

/-- The operators have distinct indices. -/
structure DataflowGraph where
  operators : List (Nat × OperatorInfo)
  edges : List EdgeInfo
  feedbackEdges : List EdgeInfo
  distinct : (operators.map Prod.fst).Nodup

variable {edges : List EdgeInfo}

namespace DataflowGraph

variable (graph : DataflowGraph)

def keys : List Nat := graph.operators.map Prod.fst

def operator (index : Nat) : Option OperatorInfo := graph.operators.lookup index

/-- A target that is not registered gets a degree as well. -/
def addEdge (degrees : Nat → Option Nat) (edge : EdgeInfo) : Nat → Option Nat :=
  let target := edge.tgtIdx
  Function.update degrees target (some ((degrees target).getD 0 + 1))

def inDegree : Nat → Option Nat :=
  graph.edges.foldl addEdge fun index => (graph.operator index).map fun _ => 0

/-- The edges of a node lower the degrees of their targets. The targets that come to zero are returned. A degree below
zero panics. -/
def relax (node : Nat) : List EdgeInfo → (Nat → Option Nat) → Option ((Nat → Option Nat) × List Nat)
  | [], degrees => some (degrees, [])
  | edge :: rest, degrees =>
    if edge.srcIdx = node then
      let target := edge.tgtIdx
      match degrees target with
      | none => relax node rest degrees
      | some 0 => none
      | some (degree + 1) =>
        (relax node rest (Function.update degrees target (some degree))).map fun result =>
          (result.1, if degree = 0 then target :: result.2 else result.2)
    else relax node rest degrees

/-- The loop over the queue, from its position on. No fuel gives no result. -/
def processQueue (edges : List EdgeInfo) :
    Nat → List Nat → (Nat → Option Nat) → List Nat → Option (List Nat)
  | _, [], _, order => some order
  | 0, _ :: _, _, _ => none
  | fuel + 1, node :: queue, degrees, order =>
    (relax node edges degrees).bind fun result =>
      let newZeros := (result.2.insertionSort (· ≤ ·)).dedup
      processQueue edges fuel (queue ++ newZeros) result.1 (order ++ [node])

/-- Only operators can have the degree zero at the start. -/
def topologicalOrder : Option (Except DataflowError (List Nat)) :=
  let degrees := graph.inDegree
  let queue := (graph.keys.filter fun index => degrees index = some 0).insertionSort (· ≤ ·)
  (processQueue graph.edges (graph.operators.length + graph.edges.length) queue degrees []).map fun order =>
    if order.length ≠ graph.operators.length then
      let processed := order.length
      let registered := graph.operators.length
      .error (.invalidGraph
        s!"Cycle detected in dataflow graph: processed {processed} of {registered} operators")
    else .ok order

/-- The checks of one edge at its position. -/
def checkEdge (label : String) (i : Nat) (edge : EdgeInfo) : Except DataflowError Unit :=
  let source := edge.srcIdx
  let target := edge.tgtIdx
  match graph.operator source with
  | none => .error (.invalidGraph s!"{label} {i}: source operator {source} is not registered")
  | some sourceOp =>
    match graph.operator target with
    | none => .error (.invalidGraph s!"{label} {i}: target operator {target} is not registered")
    | some targetOp =>
      if edge.source.slotIndex ≥ sourceOp.outputCount then
        let port := edge.source.slotIndex
        let name := sourceOp.name
        let count := sourceOp.outputCount
        .error (.invalidGraph s!"{label} {i}: source port {port} exceeds operator '{name}' output count {count}")
      else if edge.target.slotIndex ≥ targetOp.inputCount then
        let port := edge.target.slotIndex
        let name := targetOp.name
        let count := targetOp.inputCount
        .error (.invalidGraph s!"{label} {i}: target port {port} exceeds operator '{name}' input count {count}")
      else .ok ()

def checkEdges (graph : DataflowGraph) (label : String) : Nat → List EdgeInfo → Except DataflowError Unit
  | _, [] => .ok ()
  | i, edge :: rest => graph.checkEdge label i edge >>= fun _ => checkEdges graph label (i + 1) rest

def checkDuplicates : Nat → List (Slot × Slot) → List EdgeInfo → Except DataflowError Unit
  | _, _, [] => .ok ()
  | i, seen, edge :: rest =>
    if (edge.source, edge.target) ∈ seen then
      let source := edge.source.display
      let target := edge.target.display
      .error (.invalidGraph s!"Duplicate edge: {source} → {target} at position {i}")
    else checkDuplicates (i + 1) ((edge.source, edge.target) :: seen) rest

def checkStructure : Except DataflowError Unit :=
  graph.checkEdges "Edge" 0 graph.edges >>= fun _ =>
    graph.checkEdges "Feedback edge" 0 graph.feedbackEdges >>= fun _ => checkDuplicates 0 [] graph.edges

def validate : Option (Except DataflowError Unit) :=
  match graph.checkStructure with
  | .error error => some (.error error)
  | .ok () => graph.topologicalOrder.map fun result => result.map fun _ => ()

/-- A regular edge leads from the first operator to the second. -/
def Leads (source target : Nat) : Prop :=
  ∃ edge ∈ graph.edges, edge.srcIdx = source ∧ edge.tgtIdx = target

def Acyclic : Prop := ∀ index, ¬Relation.TransGen graph.Leads index index

/-- Both ends of every regular edge are registered. -/
def Registered : Prop :=
  ∀ source target, graph.Leads source target → source ∈ graph.keys ∧ target ∈ graph.keys

/-- The edges to an operator that still wait for their source. -/
def waitingFor (done : List Nat) (index : Nat) : Nat :=
  graph.edges.countP fun edge => edge.tgtIdx = index ∧ edge.srcIdx ∉ done

/-- The degrees of the loop once some operators are done. -/
def degreesAfter (done : List Nat) (index : Nat) : Option Nat :=
  (graph.operator index).map fun _ => graph.waitingFor done index

/-- The edges of a node to an operator. -/
def edgesBetween (edges : List EdgeInfo) (node index : Nat) : Nat :=
  edges.countP fun edge => edge.srcIdx = node ∧ edge.tgtIdx = index

/-- The invariant of the loop. -/
structure Ordered (done queue : List Nat) : Prop where
  known : done ++ queue ⊆ graph.keys
  nodup : (done ++ queue).Nodup
  ready : ∀ index ∈ graph.keys, index ∈ done ++ queue ↔ graph.waitingFor done index = 0
  before : ∀ source target, graph.Leads source target → target ∈ done → done.idxOf source < done.idxOf target

variable {graph} {done queue : List Nat} {degrees : Nat → Option Nat} {index node : Nat}

theorem operator_isSome : (graph.operator index).isSome ↔ index ∈ graph.keys := by
  simp [operator, keys, List.lookup_isSome_iff]

theorem waitingFor_eq_zero :
    graph.waitingFor done index = 0 ↔ ∀ source, graph.Leads source index → source ∈ done := by
  simp only [waitingFor, List.countP_eq_zero, Leads, decide_eq_true_eq, not_and, not_not]
  constructor
  · rintro all source ⟨edge, member, rfl, target⟩
    exact all edge member target
  · exact fun all edge member target => all _ ⟨edge, member, rfl, target⟩

theorem edgesBetween_cons (edge : EdgeInfo) (rest : List EdgeInfo) : edgesBetween (edge :: rest) node index =
    edgesBetween rest node index + if edge.srcIdx = node ∧ edge.tgtIdx = index then 1 else 0 := by
  simp [edgesBetween, List.countP_cons]

/-- A node that is done takes its edges from those that wait. -/
theorem waitingFor_concat (fresh : node ∉ done) (index : Nat) :
    graph.waitingFor done index = graph.waitingFor (done ++ [node]) index + edgesBetween graph.edges node index := by
  unfold waitingFor
  induction graph.edges with
  | nil => rfl
  | cons edge rest ih =>
    rw [List.countP_cons, List.countP_cons, edgesBetween_cons, ih]
    by_cases same : edge.srcIdx = node
    · simp [same, fresh]
      omega
    · simp [same]
      omega

/-- The degrees after the edges of a node are relaxed, and the targets that come to zero. -/
theorem relax_eq {final : Nat → Option Nat}
    (counted : ∀ index, degrees index = (final index).map (· + edgesBetween edges node index)) :
    ∃ zeros, relax node edges degrees = some (final, zeros) ∧
      ∀ index, index ∈ zeros ↔ final index = some 0 ∧ 0 < edgesBetween edges node index := by
  induction edges generalizing degrees with
  | nil =>
    refine ⟨[], ?_, fun index => by simp [edgesBetween]⟩
    rw [relax, show degrees = final from funext fun index => (counted index).trans (by simp [edgesBetween])]
  | cons edge rest ih =>
    unfold relax
    simp only [edgesBetween_cons] at counted ⊢
    by_cases here : edge.srcIdx = node
    · simp only [here, true_and, if_true] at counted ⊢
      have target := counted edge.tgtIdx
      cases last : final edge.tgtIdx with
      | none =>
        rw [last] at target
        have kept : ∀ index, degrees index = (final index).map (· + edgesBetween rest node index) := by grind
        obtain ⟨zeros, relaxed, mem⟩ := ih kept
        rw [target]
        exact ⟨zeros, relaxed, by grind⟩
      | some base =>
        rw [last, if_pos rfl] at target
        have lowered : ∀ index, Function.update degrees edge.tgtIdx
            (some (base + edgesBetween rest node edge.tgtIdx)) index =
              (final index).map (· + edgesBetween rest node index) := by grind
        obtain ⟨zeros, relaxed, mem⟩ := ih lowered
        rw [target]
        simp only [Option.map_some, ← Nat.add_assoc, relaxed]
        exact ⟨_, rfl, by grind⟩
    · simp only [here, false_and, if_false, Nat.add_zero] at counted ⊢
      exact ih counted

theorem degreesAfter_eq_zero : graph.degreesAfter done index = some 0 ↔
    index ∈ graph.keys ∧ graph.waitingFor done index = 0 := by
  simp [degreesAfter, ← operator_isSome, Option.isSome_iff_exists]

theorem Ordered.step (ordered : Ordered graph done (node :: queue)) :
    ∃ zeros, relax node graph.edges (graph.degreesAfter done) = some (graph.degreesAfter (done ++ [node]), zeros) ∧
      Ordered graph (done ++ [node]) (queue ++ (zeros.insertionSort (· ≤ ·)).dedup) := by
  obtain ⟨known, nodup, ready, before⟩ := ordered
  obtain ⟨fresh, _⟩ : node ∉ done ∧ node ∉ queue := by grind
  have concat (index) := graph.waitingFor_concat fresh index
  have counted : ∀ index, graph.degreesAfter done index =
      (graph.degreesAfter (done ++ [node]) index).map (· + edgesBetween graph.edges node index) := by
    intro index
    simp [degreesAfter, concat, Function.comp_def]
  obtain ⟨zeros, relaxed, mem⟩ := relax_eq counted
  simp only [degreesAfter_eq_zero] at mem
  have sources : ∀ source, graph.Leads source node → source ∈ done :=
    waitingFor_eq_zero.mp ((ready node (known (by simp))).mp (by simp))
  have whole : done ++ [node] ++ (queue ++ (zeros.insertionSort (· ≤ ·)).dedup) =
      done ++ node :: queue ++ (zeros.insertionSort (· ≤ ·)).dedup := by simp
  have newZeros (index) : index ∈ (zeros.insertionSort (· ≤ ·)).dedup ↔ index ∈ zeros := by simp
  refine ⟨zeros, relaxed, ?_, ?_, ?_, ?_⟩
  · rw [whole]
    exact List.append_subset.mpr ⟨known, fun index zero => ((mem index).mp ((newZeros index).mp zero)).1.1⟩
  · rw [whole, List.nodup_append]
    refine ⟨nodup, List.nodup_dedup _, fun index old other new same => ?_⟩
    obtain ⟨_, positive⟩ := (mem index).mp ((newZeros index).mp (same ▸ new))
    have settled := (ready index (known old)).mp old
    rw [concat] at settled
    omega
  · intro index key
    rw [whole, List.mem_append, newZeros, mem, ready index key, concat]
    simp only [key, true_and]
    omega
  · intro source target leads member
    rcases List.mem_append.mp member with old | new
    · have earlier := before source target leads old
      have known : source ∈ done := List.idxOf_lt_length_iff.mp (earlier.trans_le List.idxOf_le_length)
      rwa [List.idxOf_append_of_mem known, List.idxOf_append_of_mem old]
    · rw [List.mem_singleton.mp new] at leads ⊢
      have known := sources source leads
      rw [List.idxOf_append_of_mem known, List.idxOf_append_of_notMem fresh]
      exact Nat.lt_add_right _ (List.idxOf_lt_length_iff.mpr known)

theorem Ordered.processQueue {fuel : Nat} (ordered : Ordered graph done queue)
    (enough : graph.operators.length ≤ done.length + fuel) :
    ∃ order, processQueue graph.edges fuel queue (graph.degreesAfter done) done = some order ∧
      Ordered graph order [] := by
  induction fuel generalizing done queue with
  | zero =>
    cases queue with
    | nil => exact ⟨done, rfl, ordered⟩
    | cons node queue =>
      have bound := (List.subperm_of_subset ordered.nodup ordered.known).length_le
      simp only [keys, List.length_append, List.length_cons, List.length_map] at bound
      omega
  | succ fuel ih =>
    cases queue with
    | nil => exact ⟨done, rfl, ordered⟩
    | cons node queue =>
      obtain ⟨zeros, relaxed, next⟩ := ordered.step
      rw [DataflowGraph.processQueue, relaxed]
      refine ih next ?_
      rw [List.length_append, List.length_singleton]
      omega

theorem addEdge_eq (known : ∀ edge ∈ edges, (degrees edge.tgtIdx).isSome) :
    edges.foldl addEdge degrees = fun index =>
      (degrees index).map (· + edges.countP fun edge => edge.tgtIdx = index) := by
  induction edges generalizing degrees with
  | nil => simp
  | cons edge rest ih =>
    obtain ⟨degree, found⟩ := Option.isSome_iff_exists.mp (known edge List.mem_cons_self)
    rw [List.foldl_cons, ih]
    · funext index
      rcases eq_or_ne index edge.tgtIdx with rfl | other
      · simp [addEdge, found]
        omega
      · simp [addEdge, other, other.symm]
    · intro other member
      have := known other (List.mem_cons_of_mem _ member)
      unfold addEdge
      grind

theorem inDegree_eq (registered : graph.Registered) : graph.inDegree = graph.degreesAfter [] := by
  unfold inDegree
  rw [addEdge_eq]
  · funext index
    simp [degreesAfter, waitingFor, Function.comp_def]
  · intro edge member
    rw [Option.isSome_map]
    exact operator_isSome.mpr (registered _ _ ⟨edge, member, rfl, rfl⟩).2

theorem Ordered.perm_keys {order : List Nat} (registered : graph.Registered) (ordered : Ordered graph order [])
    (acyclic : graph.Acyclic) : order.Perm graph.keys := by
  obtain ⟨known, nodup, ready, _⟩ := ordered
  rw [List.append_nil] at known nodup
  simp only [List.append_nil] at ready
  have wellFounded := wellFounded_of_acyclic graph.keys.finite_toSet registered acyclic
  refine (List.perm_ext_iff_of_nodup nodup graph.distinct).mpr fun index => ⟨@known index, ?_⟩
  induction index using wellFounded.induction with
  | _ index ih =>
    intro key
    refine (ready index key).mpr (waitingFor_eq_zero.mpr fun source leads => ?_)
    exact ih source leads (registered source index leads).1

/-- An order in which every edge goes on has no cycle. -/
theorem acyclic_of_before {order : List Nat}
    (before : ∀ source target, graph.Leads source target → order.idxOf source < order.idxOf target) : graph.Acyclic := by
  have rises {first last : Nat} (walk : Relation.TransGen graph.Leads first last) :
      order.idxOf first < order.idxOf last := by
    induction walk with
    | single leads => exact before _ _ leads
    | tail _ leads ih => exact ih.trans (before _ _ leads)
  exact fun index cycle => lt_irrefl _ (rises cycle)

theorem topologicalOrder_cases (registered : graph.Registered) :
    (∃ order, graph.topologicalOrder = some (.ok order) ∧ graph.Acyclic ∧ order.Perm graph.keys ∧
      ∀ source target, graph.Leads source target → order.idxOf source < order.idxOf target) ∨
    ¬graph.Acyclic ∧ ∃ error, graph.topologicalOrder = some (.error error) := by
  have start : Ordered graph []
      ((graph.keys.filter fun index => graph.degreesAfter [] index = some 0).insertionSort (· ≤ ·)) := by
    refine ⟨?_, ?_, fun index key => ?_, fun _ _ _ member => absurd member List.not_mem_nil⟩
    · exact fun index member => List.mem_of_mem_filter ((List.mem_insertionSort _).mp member)
    · exact ((List.perm_insertionSort _ _).nodup_iff).mpr (graph.distinct.filter _)
    · simp [degreesAfter_eq_zero, key]
  have enough := Nat.le_add_right graph.operators.length graph.edges.length
  obtain ⟨order, processed, ordered⟩ := start.processQueue (enough.trans (Nat.le_add_left _ 0))
  unfold topologicalOrder
  rw [inDegree_eq registered]
  dsimp only
  rw [processed, Option.map_some]
  have count : graph.keys.length = graph.operators.length := List.length_map ..
  split
  · rename_i partly
    refine .inr ⟨fun acyclic => partly ?_, _, rfl⟩
    rw [(ordered.perm_keys registered acyclic).length_eq, count]
  · rename_i full
    have inside : order.Subperm graph.keys := by simpa using List.subperm_of_subset ordered.nodup ordered.known
    have complete := inside.perm_of_length_le (count.trans (not_not.mp full).symm).le
    have before source target (leads : graph.Leads source target) := ordered.before source target leads
      (complete.mem_iff.mpr (registered source target leads).2)
    exact .inl ⟨order, rfl, acyclic_of_before before, complete, before⟩

/-- Both ends of an edge are ports of registered operators. -/
def Placed (graph : DataflowGraph) (edge : EdgeInfo) : Prop :=
  (∃ op, graph.operator edge.srcIdx = some op ∧ edge.source.slotIndex < op.outputCount) ∧
    ∃ op, graph.operator edge.tgtIdx = some op ∧ edge.target.slotIndex < op.inputCount

variable {label : String} {i : Nat} {done : Unit}

theorem checkEdge_ok {edge : EdgeInfo} : graph.checkEdge label i edge = .ok done ↔ graph.Placed edge := by
  unfold checkEdge Placed
  dsimp only
  split
  · simp [*]
  split
  · simp [*]
  split
  · simp [*]
  split
  · simp [*]
  · simp_all

theorem checkEdges_ok :
    graph.checkEdges label i edges = .ok done ↔ ∀ edge ∈ edges, graph.Placed edge := by
  induction edges generalizing i with
  | nil => simp [checkEdges]
  | cons edge rest ih => simp [checkEdges, bind_eq_ok, checkEdge_ok, ih]

theorem checkDuplicates_ok {seen : List (Slot × Slot)} :
    checkDuplicates i seen edges = .ok done ↔ (edges.map fun edge => (edge.source, edge.target)).Nodup ∧
      ∀ edge ∈ edges, (edge.source, edge.target) ∉ seen := by
  induction edges generalizing i seen with
  | nil => simp [checkDuplicates]
  | cons edge rest ih =>
    unfold checkDuplicates
    split
    · simp [*]
    · simp [*]
      grind

theorem checkStructure_ok : graph.checkStructure = .ok () ↔
    (∀ edge ∈ graph.edges ++ graph.feedbackEdges, graph.Placed edge) ∧
      (graph.edges.map fun edge => (edge.source, edge.target)).Nodup := by
  simp [checkStructure, bind_eq_ok, checkEdges_ok, checkDuplicates_ok, or_imp, forall_and, and_assoc]

/-- The order exists exactly if the regular edges are acyclic. It has every operator once, and the source of every
regular edge before its target. A graph is valid exactly if its edges are placed, the regular ones are distinct and
they are acyclic. -/
theorem graph_order_exact (graph : DataflowGraph) :
    (graph.Registered → graph.topologicalOrder.isSome ∧
      ((∃ order, graph.topologicalOrder = some (.ok order)) ↔ graph.Acyclic) ∧
      ∀ order, graph.topologicalOrder = some (.ok order) → order.Perm graph.keys ∧ order.Nodup ∧
        ∀ source target, graph.Leads source target → order.idxOf source < order.idxOf target) ∧
    graph.validate.isSome ∧ (graph.validate = some (.ok ()) ↔
      (∀ edge ∈ graph.edges ++ graph.feedbackEdges, graph.Placed edge) ∧
      (graph.edges.map fun edge => (edge.source, edge.target)).Nodup ∧ graph.Acyclic) := by
  constructor
  · intro registered
    obtain ⟨order, found, acyclic, complete, before⟩ | ⟨cyclic, error, failed⟩ := topologicalOrder_cases registered
    · rw [found]
      refine ⟨rfl, iff_of_true ⟨order, rfl⟩ acyclic, fun other same => ?_⟩
      cases same
      exact ⟨complete, complete.nodup_iff.mpr graph.distinct, before⟩
    · rw [failed]
      exact ⟨rfl, iff_of_false (by simp) cyclic, by simp⟩
  · unfold validate
    cases checked : graph.checkStructure with
    | error error =>
      refine ⟨rfl, iff_of_false (by simp) fun valid => ?_⟩
      cases checked.symm.trans (checkStructure_ok.mpr ⟨valid.1, valid.2.1⟩)
    | ok done =>
      obtain ⟨placed, distinct⟩ := checkStructure_ok.mp checked
      have registered : graph.Registered := by
        rintro _ _ ⟨edge, member, rfl, rfl⟩
        obtain ⟨⟨source, found, _⟩, target, found', _⟩ := placed edge (List.mem_append_left _ member)
        exact ⟨operator_isSome.mp (found ▸ rfl), operator_isSome.mp (found' ▸ rfl)⟩
      obtain ⟨order, found, acyclic, _⟩ | ⟨cyclic, error, failed⟩ := topologicalOrder_cases registered
      · rw [found]
        exact ⟨rfl, iff_of_true rfl ⟨placed, distinct, acyclic⟩⟩
      · rw [failed]
        exact ⟨rfl, iff_of_false (by simp [Except.map]) fun valid => cyclic valid.2.2⟩

end DataflowGraph

end Instancy
