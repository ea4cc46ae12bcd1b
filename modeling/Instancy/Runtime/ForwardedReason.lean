import Instancy.Runtime.CancellationReason

namespace Instancy

variable {id : List Char}

namespace CancellationReason

def display : CancellationReason → String
  | .userRequested => "user requested cancellation"
  | .runtimeShutdown => "runtime shutdown"
  | .networkError detail => "network error: " ++ detail
  | .workerFailed detail => "worker failed: " ++ detail
  | .handleDropped => "handle dropped"
  | .operatorError detail => "operator error: " ++ detail
  | .peerCancelled peerId detail => "peer " ++ peerId ++ " cancelled dataflow: " ++ detail
  | .peerDown nodeId => "peer node down: " ++ nodeId
  | .internalError detail => "internal error: " ++ detail

/-- A peer reports a reason as its text. -/
def forwardedBy (reason : CancellationReason) (peerId : String) : CancellationReason :=
  .peerCancelled peerId reason.display

/-- The separator without its first blank. -/
def separatorRest : List Char := "cancelled dataflow: ".toList

/-- An id behind which the text goes on, up to the first separator. -/
structure Plain (id : List Char) : Prop where
  whole : splitOnce forwards (id ++ [' ']) = none
  named : ¬ "node down: ".toList <+: id ++ [' ']

/-- An id that is plain, or that reads itself as the text of a chain of plain ids. -/
inductive Relays : List Char → Prop
  | plain {id : List Char} : Plain id → Relays id
  | chained {first id : List Char} : Plain first → Relays id → Relays (first ++ forwards ++ "peer ".toList ++ id)

theorem forwards_cons : forwards = ' ' :: separatorRest := by decide

section Text

variable {word text detail : List Char}

theorem prefix_within (found : word <+: text ++ (separatorRest ++ detail)) (fits : word.length ≤ text.length + 20) :
    word <+: text ++ separatorRest := by
  rw [← List.append_assoc] at found
  exact List.prefix_of_prefix_length_le found (List.prefix_append _ _) (by rwa [List.length_append])

/-- A word at the start of a text that the separator follows ends inside of the text or of the separator. -/
theorem prefix_separator (found : word <+: text ++ (separatorRest ++ detail)) (fits : word.length ≤ text.length + 20) :
    word <+: text ∨ text.length < word.length ∧ word.drop text.length <+: separatorRest := by
  have within := prefix_within found fits
  obtain short | long := Nat.lt_or_ge text.length word.length
  · obtain ⟨rest, rfl⟩ := List.prefix_of_prefix_length_le (List.prefix_append text _) within (Nat.le_of_lt short)
    rw [List.prefix_append_right_inj] at within
    rw [List.drop_left]
    exact .inr ⟨short, within⟩
  · exact .inl (List.prefix_of_prefix_length_le found (List.prefix_append text _) long)

/-- The first separator behind an id without one is the one that follows it. -/
theorem splitOnce_forwards (whole : splitOnce forwards (id ++ [' ']) = none) :
    splitOnce forwards (id ++ [' '] ++ (separatorRest ++ detail)) = some detail := by
  induction id with
  | nil => rfl
  | cons first id ih =>
    rw [List.cons_append, splitOnce] at whole
    split at whole
    · cases whole
    · rename_i absent
      rw [List.cons_append, List.cons_append, splitOnce, if_neg fun found => ?_]
      · exact ih whole
      · have fits : forwards.length ≤ (first :: (id ++ [' '])).length + 20 := Nat.le_add_left 21 _
        obtain inside | ⟨short, behind⟩ := prefix_separator (List.isPrefixOf_iff_prefix.mp found) fits
        · exact absent (List.isPrefixOf_iff_prefix.mpr inside)
        -- no other end of the separator is its start without the blank
        · have none_ : ∀ count < forwards.length, 1 < count → ¬ forwards.drop count <+: separatorRest := by decide
          exact none_ _ short (by simp) behind

theorem splitOnce_some {rest : List Char} (found : splitOnce forwards text = some rest) :
    ∃ first, text = first ++ forwards ++ rest ∧ splitOnce forwards (first ++ [' ']) = none := by
  induction text with
  | nil => cases found
  | cons char text ih =>
    rw [splitOnce] at found
    split at found
    · rename_i here
      cases found
      exact ⟨[], (List.prefix_iff_eq_append.mp (List.isPrefixOf_iff_prefix.mp here)).symm, rfl⟩
    · rename_i absent
      obtain ⟨first, same, whole⟩ := ih found
      refine ⟨char :: first, congrArg _ same, ?_⟩
      rw [List.cons_append, splitOnce, if_neg fun here => absent ?_, whole]
      have begins : char :: (first ++ [' ']) <+: char :: text := by
        rw [same, forwards_cons]
        exact ⟨separatorRest ++ rest, by simp⟩
      exact List.isPrefixOf_iff_prefix.mpr ((List.isPrefixOf_iff_prefix.mp here).trans begins)

theorem describesFailure_true {start : List Char} (member : start ∈ failurePrefixes) (detail : List Char) :
    describesFailure (start ++ detail) = true := by
  rw [describesFailure, if_pos]
  exact List.any_eq_true.mpr ⟨start, member, List.isPrefixOf_iff_prefix.mpr (List.prefix_append _ _)⟩

/-- The text of a peer tells what the text behind the first separator tells. -/
theorem describesFailure_peer (named : ¬ "node down: ".toList <+: text) :
    describesFailure ("peer ".toList ++ text) = (splitOnce forwards text).any describesFailure := by
  rw [describesFailure, if_neg, if_pos]
  · split
    all_goals rename_i found; rw [show splitOnce forwards text = _ from found]; rfl
  · exact List.isPrefixOf_iff_prefix.mpr (List.prefix_append _ _)
  · simpa [failurePrefixes, List.isPrefixOf] using named

theorem describesFailure_nil : describesFailure [] = false := by
  rw [describesFailure]
  rfl

theorem prefix_of_describesFailure (failed : describesFailure text = true) :
    (∃ start ∈ failurePrefixes, start <+: text) ∨ "peer ".toList <+: text := by
  rw [describesFailure] at failed
  split at failed
  · rename_i found
    obtain ⟨start, member, begins⟩ := List.any_eq_true.mp found
    exact .inl ⟨start, member, List.isPrefixOf_iff_prefix.mp begins⟩
  · split at failed
    · rename_i peer
      exact .inr (List.isPrefixOf_iff_prefix.mp peer)
    · cases failed

end Text

/-- The text that a peer with an id forwards. -/
def forwardedText (id detail : List Char) : List Char := "peer ".toList ++ (id ++ [' '] ++ (separatorRest ++ detail))

theorem forwardedText_eq (id detail : List Char) :
    forwardedText id detail = "peer ".toList ++ (id ++ [' '] ++ (separatorRest ++ detail)) := rfl

def Agrees (id : List Char) : Prop := ∀ detail, describesFailure (forwardedText id detail) = describesFailure detail

theorem Plain.agrees (plain : Plain id) : Agrees id := by
  intro detail
  rw [forwardedText_eq, describesFailure_peer fun named => ?_, splitOnce_forwards plain.whole, Option.any_some]
  have fits : "node down: ".toList.length ≤ (id ++ [' ']).length + 20 := by
    exact Nat.le_add_left_of_le (by decide)
  obtain inside | ⟨short, behind⟩ := prefix_separator named fits
  · exact plain.named inside
  · have none_ : ∀ count < "node down: ".toList.length, ¬ "node down: ".toList.drop count <+: separatorRest := by decide
    exact none_ _ short behind

theorem forwardedText_chained (first id detail : List Char) :
    forwardedText (first ++ forwards ++ "peer ".toList ++ id) detail =
      forwardedText first (forwardedText id detail) := by
  simp only [forwardedText_eq, forwards_cons, List.append_assoc, List.cons_append, List.nil_append]

theorem Relays.agrees (relays : Relays id) : Agrees id := by
  induction relays with
  | plain isPlain => exact isPlain.agrees
  | chained isPlain _ ih =>
    intro detail
    rw [forwardedText_chained, isPlain.agrees, ih]

/-- Behind an early separator, only the text of a further peer tells what the detail tells. -/
theorem peer_behind {rest : List Char}
    (behind : ∀ detail, describesFailure (rest ++ (separatorRest ++ detail)) = describesFailure detail) :
    ∃ id, id ≠ [] ∧ rest = "peer ".toList ++ id := by
  have failed := describesFailure_true (show "network error: ".toList ∈ failurePrefixes by decide) []
  rw [List.append_nil, ← behind] at failed
  obtain ⟨start, member, begins⟩ | peer := prefix_of_describesFailure failed
  · have short : ∀ start ∈ failurePrefixes, start.length ≤ 20 := by decide
    obtain ⟨more, same⟩ := prefix_within begins (Nat.le_add_left_of_le (short start member))
    have stopped := behind []
    rw [List.append_nil, ← same, describesFailure_true member, describesFailure_nil] at stopped
    cases stopped
  · obtain ⟨id, rfl⟩ | ⟨short, inside⟩ := prefix_separator peer (Nat.le_add_left_of_le (by decide))
    · refine ⟨id, ?_, rfl⟩
      rintro rfl
      rw [List.append_nil, describesFailure_peer (by decide)] at failed
      exact absurd failed (by decide)
    · have none_ : ∀ count < "peer ".toList.length, ¬ "peer ".toList.drop count <+: separatorRest := by decide
      exact absurd inside (none_ _ short)

/-- An id that always tells what the detail tells relays. -/
theorem Agrees.relays (id : List Char) (agrees : Agrees id) : Relays id := by
  by_cases named : "node down: ".toList <+: id ++ [' ']
  · obtain ⟨more, same⟩ := named
    have failed := agrees []
    rw [forwardedText_eq, ← same, List.append_assoc, ← List.append_assoc, describesFailure_true (by decide),
      describesFailure_nil] at failed
    cases failed
  cases found : splitOnce forwards (id ++ [' ']) with
  | none => exact .plain ⟨found, named⟩
  | some rest =>
    obtain ⟨first, same, whole⟩ := splitOnce_some found
    have begins : first ++ [' '] <+: id ++ [' '] := by
      rw [same, forwards_cons]
      exact ⟨separatorRest ++ rest, by simp⟩
    have plain : Plain first := ⟨whole, fun start => named (start.trans begins)⟩
    have behind (detail : List Char) :
        describesFailure (rest ++ (separatorRest ++ detail)) = describesFailure detail := by
      rw [← agrees detail, forwardedText_eq, same, ← plain.agrees]
      simp only [forwardedText_eq, forwards_cons, List.append_assoc, List.cons_append, List.nil_append]
    obtain ⟨more, some_, isPeer⟩ := peer_behind behind
    obtain ⟨inner, last, rfl⟩ := (List.eq_nil_or_concat' more).resolve_left some_
    subst isPeer
    rw [← List.append_assoc, ← List.append_assoc] at same
    obtain ⟨isId, blank⟩ := List.append_inj' same rfl
    cases blank
    rw [isId]
    refine .chained plain (Agrees.relays inner fun detail => ?_)
    rw [← behind detail, forwardedText_eq, List.append_assoc "peer ".toList]
termination_by id.length

theorem display_peerCancelled (peerId detail : String) :
    (peerCancelled peerId detail).display.toList = forwardedText peerId.toList detail.toList := by
  change ("peer " ++ peerId ++ " cancelled dataflow: " ++ detail).toList = _
  rw [String.toList_append, String.toList_append, String.toList_append, forwardedText_eq]
  change "peer ".toList ++ peerId.toList ++ forwards ++ detail.toList = _
  simp [forwards_cons]

theorem describesFailure_append {start : String} (member : start.toList ∈ failurePrefixes) (detail : String) :
    describesFailure (start ++ detail).toList = true := by
  rw [String.toList_append]
  exact describesFailure_true member _

theorem describesFailure_display (reason : CancellationReason)
    (relays : ∀ peerId detail, reason = .peerCancelled peerId detail → Relays peerId.toList) :
    describesFailure reason.display.toList = reason.isFailure := by
  cases reason with
  | userRequested | runtimeShutdown | handleDropped =>
    rw [describesFailure]
    rfl
  | networkError | workerFailed | operatorError | peerDown | internalError =>
    exact describesFailure_append (by decide) _
  | peerCancelled peerId detail =>
    rw [display_peerCancelled]
    exact (relays peerId detail rfl).agrees _

/-- Peers with these ids keep the classification of every reason, however many forward it, if and only if each id
relays. -/
theorem isFailure_forwarded_iff (allowed : String → Prop) :
    (∀ (reason : CancellationReason) (peers : List String),
      (∀ peerId detail, reason = .peerCancelled peerId detail → allowed peerId) → (∀ peerId ∈ peers, allowed peerId) →
        (peers.foldl forwardedBy reason).isFailure = reason.isFailure ∧
          describesFailure (peers.foldl forwardedBy reason).display.toList = reason.isFailure) ↔
      ∀ peerId, allowed peerId → Relays peerId.toList := by
  constructor
  · intro kept peerId isAllowed
    refine Agrees.relays _ fun detail => ?_
    have own := (kept (.peerCancelled peerId (String.ofList detail)) [] (fun _ _ same => by cases same; exact isAllowed)
      nofun).2
    rwa [List.foldl_nil, display_peerCancelled, String.toList_ofList, isFailure, String.toList_ofList] at own
  · intro relays reason peers
    induction peers generalizing reason with
    | nil => exact fun own _ => ⟨rfl, describesFailure_display reason fun _ _ same => relays _ (own _ _ same)⟩
    | cons peer peers ih =>
      intro own each
      rw [← describesFailure_display reason fun _ _ same => relays _ (own _ _ same)]
      refine ih (reason.forwardedBy peer) (fun _ _ same => ?_) fun _ member => each _ (List.mem_cons_of_mem _ member)
      cases same
      exact each peer List.mem_cons_self

/-- Two peers forward a failure that is lost behind an id, and a stop that an id turns into a failure. -/
theorem forwarded_misread :
    (["a cancelled dataflow: b", "c"].foldl forwardedBy (.networkError "reset")).isFailure = false ∧
      (networkError "reset").isFailure = true ∧
      (["node down: a", "c"].foldl forwardedBy .runtimeShutdown).isFailure = true ∧
      runtimeShutdown.isFailure = false := by
  refine ⟨?_, rfl, ?_, rfl⟩
  · change describesFailure
      ("peer ".toList ++ "a cancelled dataflow: b cancelled dataflow: network error: reset".toList) = _
    rw [describesFailure_peer (by decide)]
    change describesFailure "b cancelled dataflow: network error: reset".toList = _
    rw [describesFailure]
    rfl
  · exact describesFailure_true (show "peer node down: ".toList ∈ failurePrefixes by decide) _

end CancellationReason

end Instancy
