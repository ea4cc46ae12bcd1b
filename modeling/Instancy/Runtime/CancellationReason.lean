import Mathlib.Data.List.Basic

namespace Instancy

inductive CancellationReason where
  | userRequested
  | runtimeShutdown
  | networkError (detail : String)
  | workerFailed (detail : String)
  | handleDropped
  | operatorError (detail : String)
  | peerCancelled (peerId detail : String)
  | peerDown (nodeId : String)
  | internalError (detail : String)
  deriving DecidableEq, Repr

/-- The text behind the first occurrence of a separator. -/
def splitOnce (separator : List Char) : List Char → Option (List Char)
  | [] => if separator.isEmpty then some [] else none
  | first :: rest =>
    if separator.isPrefixOf (first :: rest) then some ((first :: rest).drop separator.length)
    else splitOnce separator rest

theorem splitOnce_length {separator : List Char} {text behind : List Char}
    (found : splitOnce separator text = some behind) : behind.length + separator.length ≤ text.length := by
  induction text with
  | nil =>
    rw [splitOnce] at found
    split at found
    · rename_i empty
      cases found
      rw [List.isEmpty_iff.mp empty]
      exact Nat.le_refl _
    · cases found
  | cons first rest shorter =>
    rw [splitOnce] at found
    split at found
    · rename_i here
      have fits := (List.isPrefixOf_iff_prefix.mp here).length_le
      cases found
      rw [List.length_drop]
      omega
    · exact Nat.le_succ_of_le (shorter found)

namespace CancellationReason

def failurePrefixes : List (List Char) :=
  ["network error: ".toList, "worker failed: ".toList, "operator error: ".toList, "peer node down: ".toList,
    "internal error: ".toList]

def forwards : List Char := " cancelled dataflow: ".toList

/-- Whether the text of a reason tells of a failure, also one that several peers forwarded. -/
def describesFailure (detail : List Char) : Bool :=
  if failurePrefixes.any fun start => start.isPrefixOf detail then true
  else if "peer ".toList.isPrefixOf detail then
    match _ : splitOnce forwards (detail.drop "peer ".toList.length) with
    | some forwarded => describesFailure forwarded
    | none => false
  else false
termination_by detail.length
decreasing_by
  have shorter := splitOnce_length ‹_›
  have separator : forwards.length = 21 := rfl
  rw [List.length_drop] at shorter
  omega

def isFailure : CancellationReason → Bool
  | .networkError _ | .workerFailed _ | .operatorError _ | .peerDown _ | .internalError _ => true
  | .peerCancelled _ detail => describesFailure detail.toList
  | .userRequested | .runtimeShutdown | .handleDropped => false

end CancellationReason

end Instancy
