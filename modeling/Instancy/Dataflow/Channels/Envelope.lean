import Mathlib.Data.List.Basic

namespace Instancy

/-- An envelope of a channel: a batch of records, an advisory watermark or a fatal error. -/
inductive Envelope (I D : Type) where
  | data (time : I) (records : List D)
  | watermark (time : I)
  | error (sourceOperator message : String)
  deriving DecidableEq, Repr

namespace Envelope

variable {I D : Type}

/-- The envelope is a batch with at least one record. -/
def carriesRecords : Envelope I D → Bool
  | .data _ records => !records.isEmpty
  | .watermark _ => false
  | .error _ _ => false

def isControl : Envelope I D → Bool
  | .data _ _ => false
  | .watermark _ => true
  | .error _ _ => true

end Envelope

end Instancy
