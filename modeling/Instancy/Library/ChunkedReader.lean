import Mathlib.Data.List.Basic

namespace Instancy.Library

/-- What the stream does at one call: it hands over a chunk of some size, or it fails. -/
inductive ReadAnswer (E : Type) where
  | chunk (size : Nat)
  | fail (error : E)

/-- The bytes that are still to come, with the answers of the stream to all calls. -/
structure ChunkedReader (E : Type) where
  bytes : List UInt8
  answers : Nat → ReadAnswer E
  calls : Nat

/-- A buffer is not filled: the stream ended after some bytes of it, or a call failed. -/
inductive FillError (E : Type) where
  | ended (got : Nat)
  | failed (error : E)

namespace ChunkedReader

variable {E : Type}

/-- One call reads at least one byte, except at the end of the stream, and never more than fits. -/
def read (capacity : Nat) (reader : ChunkedReader E) : Except E (List UInt8) × ChunkedReader E :=
  match reader.answers reader.calls with
  | .fail error => (.error error, { reader with calls := reader.calls + 1 })
  | .chunk size =>
    let count := min (max 1 size) (min capacity reader.bytes.length)
    (.ok (reader.bytes.take count), { reader with bytes := reader.bytes.drop count, calls := reader.calls + 1 })

/-- The loop reads into the rest of the buffer until it is full. -/
def fillFrom (size : Nat) : Nat → List UInt8 → ChunkedReader E →
    Except (FillError E) (List UInt8) × ChunkedReader E
  | 0, got, reader => (.ok got, reader)
  | fuel + 1, got, reader =>
    if got.length < size then
      match reader.read (size - got.length) with
      | (.error error, next) => (.error (.failed error), next)
      | (.ok [], next) => (.error (.ended got.length), next)
      | (.ok piece, next) => fillFrom size fuel (got ++ piece) next
    else (.ok got, reader)

/-- This fills a buffer; every call but the last brings a byte, so the size bounds the number of calls. -/
def fill (size : Nat) (reader : ChunkedReader E) : Except (FillError E) (List UInt8) × ChunkedReader E :=
  fillFrom size size [] reader

/-- No call of the stream fails. -/
def Quiet (reader : ChunkedReader E) : Prop := ∀ call error, reader.answers call ≠ .fail error

/-- The stream after some bytes were consumed. -/
structure Consumed (reader : ChunkedReader E) (count : Nat) (next : ChunkedReader E) : Prop where
  bytes : next.bytes = reader.bytes.drop count
  answers : next.answers = reader.answers

theorem Consumed.quiet {reader next : ChunkedReader E} {count : Nat} (consumed : reader.Consumed count next)
    (quiet : reader.Quiet) : next.Quiet := by
  intro call error
  rw [consumed.answers]
  exact quiet call error

variable {reader : ChunkedReader E}

theorem Consumed.trans {middle next : ChunkedReader E} {first second : Nat}
    (before : reader.Consumed first middle) (after : middle.Consumed second next) :
    reader.Consumed (first + second) next :=
  ⟨by rw [after.bytes, before.bytes, List.drop_drop], after.answers.trans before.answers⟩

/-- What one call can do. -/
inductive Called (reader : ChunkedReader E) (capacity : Nat) :
    Except E (List UInt8) × ChunkedReader E → Prop where
  | chunk {next : ChunkedReader E} (count : Nat) (positive : 0 < count) (room : count ≤ capacity)
      (inside : count ≤ reader.bytes.length) (consumed : reader.Consumed count next) :
      Called reader capacity (.ok (reader.bytes.take count), next)
  | ended {next : ChunkedReader E} (empty : reader.bytes = []) (consumed : reader.Consumed 0 next) :
      Called reader capacity (.ok [], next)
  | failed {next : ChunkedReader E} {error : E} {call : Nat} (answer : reader.answers call = .fail error)
      (consumed : reader.Consumed 0 next) : Called reader capacity (.error error, next)

theorem read_called {capacity : Nat} (reader : ChunkedReader E) (positive : 0 < capacity) :
    Called reader capacity (reader.read capacity) := by
  unfold read
  split
  · rename_i error answer
    exact .failed answer ⟨rfl, rfl⟩
  · rename_i size _
    by_cases empty : reader.bytes = []
    · have none : min (max 1 size) (min capacity reader.bytes.length) = 0 := by
        rw [empty, List.length_nil, Nat.min_zero, Nat.min_zero]
      simp only [none, List.take_zero]
      exact .ended empty ⟨rfl, rfl⟩
    · have some := List.length_pos_of_ne_nil empty
      exact .chunk _ (by omega) (by omega) (by omega) ⟨rfl, rfl⟩

/-- What the loop can do: it fills the buffer, it meets the end of the stream, or a call fails. -/
inductive Filled (reader : ChunkedReader E) (size : Nat) (got : List UInt8) :
    Except (FillError E) (List UInt8) × ChunkedReader E → Prop where
  | full {next : ChunkedReader E} (count : Nat) (all : got.length + count = size)
      (inside : count ≤ reader.bytes.length) (consumed : reader.Consumed count next) :
      Filled reader size got (.ok (got ++ reader.bytes.take count), next)
  | ended {next : ChunkedReader E} (short : got.length + reader.bytes.length < size)
      (consumed : reader.Consumed reader.bytes.length next) :
      Filled reader size got (.error (.ended (got.length + reader.bytes.length)), next)
  | failed {next : ChunkedReader E} {error : E} {call : Nat} (count : Nat) (some : got.length + count ≤ size)
      (answer : reader.answers call = .fail error) (consumed : reader.Consumed count next) :
      Filled reader size got (.error (.failed error), next)

variable {size : Nat}

/-- A chunk in front of the loop is a part of what the loop consumes. -/
theorem Filled.after {next : ChunkedReader E} {count : Nat} {got : List UInt8}
    {outcome : Except (FillError E) (List UInt8) × ChunkedReader E} (inside : count ≤ reader.bytes.length)
    (consumed : reader.Consumed count next) (filled : Filled next size (got ++ reader.bytes.take count) outcome) : Filled reader size got outcome := by
  have piece : (reader.bytes.take count).length = count := List.length_take_of_le inside
  have left : next.bytes.length = reader.bytes.length - count := by rw [consumed.bytes, List.length_drop]
  cases filled with
  | full more all within later =>
    rw [List.length_append, piece] at all
    rw [List.append_assoc, consumed.bytes, ← List.take_add]
    exact .full (count + more) (by omega) (by omega) (consumed.trans later)
  | ended short later =>
    have whole : count + next.bytes.length = reader.bytes.length := by omega
    rw [List.length_append, piece, Nat.add_assoc, whole] at short ⊢
    exact .ended short (whole ▸ consumed.trans later)
  | failed more some answer later =>
    rw [List.length_append, piece] at some
    exact .failed (count + more) (by omega) (consumed.answers ▸ answer) (consumed.trans later)

theorem Filled.done {got : List UInt8} (all : got.length = size) :
    Filled reader size got (.ok got, reader) := by
  have nothing : got ++ reader.bytes.take 0 = got := by rw [List.take_zero, List.append_nil]
  have full : Filled reader size got (.ok (got ++ reader.bytes.take 0), reader) :=
    .full 0 all (Nat.zero_le _) ⟨rfl, rfl⟩
  rwa [nothing] at full

theorem fillFrom_filled (size fuel : Nat) (got : List UInt8) (reader : ChunkedReader E) (room : got.length ≤ size)
    (enough : size ≤ got.length + fuel) : Filled reader size got (fillFrom size fuel got reader) := by
  induction fuel generalizing got reader with
  | zero => exact .done (by omega)
  | succ fuel ih =>
    unfold fillFrom
    by_cases more : got.length < size
    · rw [if_pos more]
      have called : Called reader (size - got.length) (reader.read _) := read_called reader (by omega)
      generalize reader.read (size - got.length) = outcome at called
      cases called with
      | failed answer consumed => exact .failed 0 (by omega) answer consumed
      | ended empty consumed =>
        have nothing : got.length + reader.bytes.length = got.length := by rw [empty, List.length_nil, Nat.add_zero]
        have ended : Filled reader size got (.error (.ended (got.length + reader.bytes.length)), _) :=
          .ended (by omega) (by rw [empty]; exact consumed)
        rwa [nothing] at ended
      | @chunk next count positive fits inside consumed =>
        have piece : (reader.bytes.take count).length = count := List.length_take_of_le inside
        obtain ⟨byte, rest, shape⟩ : ∃ byte rest, reader.bytes.take count = byte :: rest :=
          List.exists_cons_of_length_pos (by omega)
        have later := ih (got ++ reader.bytes.take count) next (by rw [List.length_append]; omega)
          (by rw [List.length_append]; omega)
        refine .after inside consumed ?_
        rw [shape] at later ⊢
        exact later
    · rw [if_neg more]
      exact .done (by omega)

theorem fill_filled (size : Nat) (reader : ChunkedReader E) : Filled reader size [] (reader.fill size) :=
  fillFrom_filled size size [] reader (Nat.zero_le _) (Nat.le_of_eq (Nat.zero_add _).symm)

/-- A quiet stream fills the buffer if it has enough bytes. -/
theorem fill_of_le (quiet : reader.Quiet) (enough : size ≤ reader.bytes.length) :
    ∃ next, reader.Consumed size next ∧ reader.fill size = (.ok (reader.bytes.take size), next) := by
  have filled := fill_filled size reader
  generalize reader.fill size = outcome at filled
  cases filled with
  | full count all inside consumed =>
    rw [List.length_nil, Nat.zero_add] at all
    rw [← all, List.nil_append]
    exact ⟨_, consumed, rfl⟩
  | ended short _ =>
    omega
  | failed count some answer _ => exact absurd answer (quiet _ _)

theorem fill_of_lt (quiet : reader.Quiet) (short : reader.bytes.length < size) : ∃ next, reader.fill size =
    (.error (.ended reader.bytes.length), next) := by
  have filled := fill_filled size reader
  generalize reader.fill size = outcome at filled
  cases filled with
  | full count all inside consumed =>
    rw [List.length_nil] at all
    omega
  | ended _ _ => exact ⟨_, by rw [List.length_nil, Nat.zero_add]⟩
  | failed count some answer _ => exact absurd answer (quiet _ _)

end ChunkedReader

end Instancy.Library
