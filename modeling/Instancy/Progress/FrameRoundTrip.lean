import Instancy.Progress.NetworkProgress

namespace Instancy

open Library ScopedChange

variable {Time : Nat → Type}

namespace ProgressCodecs

/-- The codec of a scope id, with the root scope at zero. -/
def find (codecs : ProgressCodecs Time) : (scope : Nat) → Option (Codec (Time scope))
  | 0 => some codecs.root
  | scope + 1 => codecs.scopes (scope + 1)

/-- Every codec is lawful. -/
def Lawful (codecs : ProgressCodecs Time) : Prop :=
  ∀ scope codec, codecs.find scope = some codec → codec.Lawful

theorem lawful_of_loop {codecs : ProgressCodecs Time} (root : codecs.root.Lawful) {codec : Codec (Time 1)}
    (only : codecs.scopes 1 = some codec ∧ ∀ scope, codecs.scopes (scope + 2) = none) (loop : codec.Lawful) :
    codecs.Lawful := by
  rintro (_ | _ | scope) other found
  · cases found
    exact root
  · cases only.1.symm.trans found
    exact loop
  · cases (only.2 scope).symm.trans found

/-- The bytes of a change with its scope id in front. -/
def encodeScoped (codecs : ProgressCodecs Time) (change : ScopedChange Time) : Except CodecError (List UInt8) :=
  match codecs.find change.1 with
  | none => .error (.invalidData "")
  | some codec => (encodeChange codec change.2).map (leBytes 4 change.1 ++ ·)

end ProgressCodecs

/-- The change has a codec that encodes it, and its fields fit the frame. -/
structure ScopedChange.Encoded (codecs : ProgressCodecs Time) (change : ScopedChange Time) (bytes : List UInt8) :
    Prop where
  scope : change.1 < 2 ^ 32
  fits : change.2.Fits
  bytes : codecs.encodeScoped change = .ok bytes

namespace ProgressBatch

/-- The batch that has one more change. -/
def push (batch : ProgressBatch Time) : ScopedChange Time → ProgressBatch Time
  | ⟨0, change⟩ => { batch with root := batch.root ++ [change] }
  | ⟨scope + 1, change⟩ => { batch with scopes := pushSection (scope + 1) change batch.scopes }

/-- The sections are of distinct loop scopes. -/
structure Grouped (batch : ProgressBatch Time) : Prop where
  distinct : (batch.scopes.map Sigma.fst).Nodup
  loops : ∀ part ∈ batch.scopes, part.1 ≠ 0

variable (parts : List ((scope : Nat) × List (ProgressChange (Time scope))))

theorem pushSection_ids (scope : Nat) (change : ProgressChange (Time scope)) :
    (pushSection scope change parts).map Sigma.fst =
      if scope ∈ parts.map Sigma.fst then parts.map Sigma.fst else parts.map Sigma.fst ++ [scope] := by
  induction parts with
  | nil => rfl
  | cons part rest ih =>
    obtain ⟨other, changes⟩ := part
    unfold pushSection
    by_cases same : scope = other
    · simp [same]
    · rw [dif_neg same, List.map_cons, List.map_cons, ih]
      by_cases later : scope ∈ rest.map Sigma.fst
      · rw [if_pos later, if_pos (List.mem_cons_of_mem other later)]
      · rw [if_neg later, if_neg]
        · rfl
        · intro member
          rcases List.mem_cons.mp member with isFirst | inRest
          · exact same isFirst
          · exact later inRest

variable {batch : ProgressBatch Time}

theorem Grouped.push (grouped : batch.Grouped) (change : ScopedChange Time) :
    (batch.push change).Grouped := by
  obtain ⟨scope, change⟩ := change
  cases scope with
  | zero => exact ⟨grouped.distinct, grouped.loops⟩
  | succ scope =>
    have ids := pushSection_ids batch.scopes (scope + 1) change
    constructor
    · change ((pushSection (scope + 1) change batch.scopes).map Sigma.fst).Nodup
      rw [ids]
      split
      · exact grouped.distinct
      · rename_i fresh
        exact List.nodup_append.mpr ⟨grouped.distinct, List.nodup_singleton _, fun first left second right same =>
          fresh (List.mem_singleton.mp right ▸ same ▸ left)⟩
    · intro part member zero
      have inIds : (0 : Nat) ∈ (pushSection (scope + 1) change batch.scopes).map Sigma.fst :=
        List.mem_map.mpr ⟨part, member, zero⟩
      rw [ids] at inIds
      have old : ∀ id ∈ batch.scopes.map Sigma.fst, id ≠ 0 := by
        intro id found
        obtain ⟨other, isPart, same⟩ := List.mem_map.mp found
        exact same ▸ grouped.loops other isPart
      split at inIds
      · exact old 0 inIds rfl
      · rcases List.mem_append.mp inIds with before | last
        · exact old 0 before rfl
        · exact absurd (List.mem_singleton.mp last) (by omega)

/-- The changes of a section are picked by its own scope only. -/
theorem flatMap_pick_section (scope other : Nat) (changes : List (ProgressChange (Time other))) :
    (changes.map fun change => (⟨other, change⟩ : ScopedChange Time)).flatMap (pick scope) =
      if same : other = scope then same ▸ changes else [] := by
  by_cases same : other = scope
  · subst same
    rw [dif_pos rfl, List.flatMap_map]
    simp
  · rw [dif_neg same, List.flatMap_map]
    simp [pick_mk_of_ne _ same]

/-- The changes of one scope in a list of sections. -/
def sectionsOf (scope : Nat) (parts : List ((scope : Nat) × List (ProgressChange (Time scope)))) :
    List (ProgressChange (Time scope)) :=
  (parts.flatMap fun part => part.2.map fun change => (⟨part.1, change⟩ : ScopedChange Time)).flatMap (pick scope)

theorem sectionsOf_cons (scope : Nat) (part : (scope : Nat) × List (ProgressChange (Time scope))) :
    sectionsOf scope (part :: parts) =
      (if same : part.1 = scope then same ▸ part.2 else []) ++ sectionsOf scope parts := by
  unfold sectionsOf
  rw [List.flatMap_cons, List.flatMap_append, flatMap_pick_section]

theorem sectionsOf_eq_nil {scope : Nat} (absent : scope ∉ parts.map Sigma.fst) : sectionsOf scope parts = [] := by
  induction parts with
  | nil => rfl
  | cons part rest ih =>
    rw [List.map_cons, List.mem_cons, not_or] at absent
    rw [sectionsOf_cons, dif_neg fun same => absent.1 same.symm, ih absent.2]
    rfl

theorem sectionsOf_pushSection (query scope : Nat) (change : ProgressChange (Time scope))
    (distinct : (parts.map Sigma.fst).Nodup) :
    sectionsOf query (pushSection scope change parts) =
      sectionsOf query parts ++ pick query (⟨scope, change⟩ : ScopedChange Time) := by
  induction parts with
  | nil =>
    rw [pushSection, sectionsOf_cons]
    by_cases same : scope = query
    · subst same
      simp [sectionsOf]
    · simp [sectionsOf, pick_mk_of_ne change same, same]
  | cons part rest ih =>
    obtain ⟨other, changes⟩ := part
    obtain ⟨fresh, tail⟩ := List.nodup_cons.mp distinct
    unfold pushSection
    by_cases here : scope = other
    · subst here
      rw [dif_pos rfl, sectionsOf_cons, sectionsOf_cons]
      by_cases same : scope = query
      · subst same
        have none : sectionsOf scope rest = [] := sectionsOf_eq_nil rest fresh
        simp [none]
      · simp [pick_mk_of_ne change same, same]
    · rw [dif_neg here, sectionsOf_cons, sectionsOf_cons, ih tail, List.append_assoc]

theorem changesOf_eq (batch : ProgressBatch Time) (scope : Nat) :
    batch.changesOf scope =
      (batch.root.map fun change => (⟨0, change⟩ : ScopedChange Time)).flatMap (pick scope) ++
        sectionsOf scope batch.scopes := by
  unfold changesOf changes sectionsOf
  rw [List.flatMap_append]

/-- A pushed change is the last one of its scope. -/
theorem changesOf_push (grouped : batch.Grouped) (change : ScopedChange Time)
    (scope : Nat) : (batch.push change).changesOf scope = batch.changesOf scope ++ pick scope change := by
  obtain ⟨other, change⟩ := change
  cases other with
  | zero =>
    rw [changesOf_eq, changesOf_eq]
    simp only [push, List.map_append, List.map_cons, List.map_nil, List.flatMap_append, List.flatMap_cons,
      List.flatMap_nil, List.append_nil, List.append_assoc]
    by_cases root : scope = 0
    · subst root
      have none : sectionsOf 0 batch.scopes = [] := by
        apply sectionsOf_eq_nil
        intro member
        obtain ⟨part, isPart, zero⟩ := List.mem_map.mp member
        exact grouped.loops part isPart zero
      rw [none, List.append_nil, List.nil_append]
    · have apart : ¬ 0 = scope := fun same => root same.symm
      rw [pick_mk_of_ne change apart, List.nil_append,
        List.append_nil]
  | succ other =>
    rw [changesOf_eq, changesOf_eq, List.append_assoc]
    congr 1
    exact sectionsOf_pushSection batch.scopes scope (other + 1) change grouped.distinct

/-- Pushing a list of changes keeps their order in every scope. -/
theorem changesOf_foldl_push (grouped : batch.Grouped) (changes : List (ScopedChange Time)) (scope : Nat) :
    (changes.foldl push batch).changesOf scope = batch.changesOf scope ++ changes.flatMap (pick scope) := by
  induction changes generalizing batch with
  | nil => rw [List.foldl_nil, List.flatMap_nil, List.append_nil]
  | cons change rest ih =>
    rw [List.foldl_cons, ih (grouped.push change), changesOf_push grouped, List.flatMap_cons, List.append_assoc]

theorem empty_grouped : (⟨[], []⟩ : ProgressBatch Time).Grouped :=
  ⟨List.nodup_nil, nofun⟩

end ProgressBatch

variable {maxBatchSize : Nat} {count : Nat} {entries : List (List UInt8)}

section Decode

variable {codecs : ProgressCodecs Time}

variable {change : ScopedChange Time}

theorem ScopedChange.Encoded.bytes_eq {bytes : List UInt8}
    (encoded : change.Encoded codecs bytes) : ∃ codec body, codecs.find change.1 = some codec ∧
      encodeChange codec change.2 = .ok body ∧ bytes = leBytes 4 change.1 ++ body := by
  have result := encoded.bytes
  unfold ProgressCodecs.encodeScoped at result
  cases found : codecs.find change.1 with
  | none =>
    rw [found] at result
    cases result
  | some codec =>
    rw [found] at result
    cases encoding : encodeChange codec change.2 with
    | error failure =>
      simp only [encoding] at result
      cases result
    | ok body =>
      simp only [encoding] at result
      cases result
      exact ⟨codec, body, rfl, encoding, rfl⟩

/-- The loop reads one encoded change and pushes it. -/
theorem decodeEntries_cons (lawful : codecs.Lawful) {bytes : List UInt8}
    (encoded : change.Encoded codecs bytes) (first last : List UInt8) (count : Nat) (batch : ProgressBatch Time) :
    decodeEntries codecs (first ++ bytes ++ last) (count + 1) first.length batch =
      decodeEntries codecs (first ++ bytes ++ last) count (first ++ bytes).length (batch.push change) := by
  obtain ⟨codec, body, found, encodedBody, same⟩ := encoded.bytes_eq
  obtain ⟨scope, change⟩ := change
  subst same
  have bodyRead := decodeChange_encodeChange (lawful scope codec found) encoded.fits encodedBody last
  have rest : (first ++ (leBytes 4 scope ++ body) ++ last).drop (first.length + 4) = body ++ last := by
    simp
  have size : (first ++ (leBytes 4 scope ++ body)).length = first.length + 4 + body.length := by
    simp only [List.length_append, leBytes_length]
    omega
  have scopeRead : readLe 4 (first ++ (leBytes 4 scope ++ body) ++ last) first.length = .ok scope :=
    readLe_of_eq first (body ++ last) (by simp) rfl encoded.scope
  have enough : need (first ++ (leBytes 4 scope ++ body) ++ last) first.length 4 = .ok () := by
    apply need_of_le
    rw [List.length_append, size]
    omega
  rw [decodeEntries, enough, scopeRead, size]
  simp only [bind, Except.bind]
  cases scope with
  | zero =>
    cases found
    rw [if_pos rfl, rest, bodyRead]
    rfl
  | succ scope =>
    rw [if_neg (Nat.succ_ne_zero scope), rest]
    have same : codecs.scopes (scope + 1) = some codec := found
    rw [same]
    simp only
    rw [bodyRead]
    rfl

/-- The loop reads a list of encoded changes and pushes each of them. -/
theorem decodeEntries_encoded (lawful : codecs.Lawful) (encode : ScopedChange Time → List UInt8)
    (changes : List (ScopedChange Time)) (encoded : ∀ change ∈ changes, change.Encoded codecs (encode change))
    (first : List UInt8) (batch : ProgressBatch Time) :
    decodeEntries codecs (first ++ (changes.map encode).flatten) changes.length first.length batch =
      .ok ((first ++ (changes.map encode).flatten).length, changes.foldl ProgressBatch.push batch) := by
  induction changes generalizing first batch with
  | nil =>
    rw [List.map_nil, List.flatten_nil, List.append_nil]
    rfl
  | cons change rest ih =>
    have tail := ih (fun other member => encoded other (List.mem_cons_of_mem change member))
      (first ++ encode change) (batch.push change)
    rw [List.map_cons, List.flatten_cons, ← List.append_assoc, List.length_cons,
      decodeEntries_cons lawful (encoded change List.mem_cons_self), tail]
    rfl

variable (crc : Checksum)

theorem encodeFrame_take (entries : List (List UInt8)) :
    (encodeFrame crc entries).take 4 = leBytes 4 entries.length := by
  unfold encodeFrame
  rw [List.append_assoc, List.take_left']
  exact leBytes_length 4 _

/-- A marker has a reserved count. -/
theorem isMarker_encodeFrame (small : entries.length < progressAbandonCount) (low : progressAbandonCount ≤ count)
    (high : count ≤ progressEndOfStreamCount) :
    isMarker (encodeFrame crc entries) count = false := by
  unfold isMarker
  rw [decide_eq_false]
  intro marker
  rw [encodeFrame_take] at marker
  have bound : progressEndOfStreamCount < 256 ^ 4 := by decide
  have same := leBytes_injective (by omega) (by omega) marker.2
  omega

theorem markerOf_encodeFrame (small : entries.length < progressAbandonCount) :
    (markerOf (encodeFrame crc entries) : Option (ProgressFrame Time)) = none := by
  unfold markerOf
  rw [isMarker_encodeFrame crc small (by decide) (by decide), isMarker_encodeFrame crc small (by decide) (by decide),
    isMarker_encodeFrame crc small (by decide) (by decide), isMarker_encodeFrame crc small (by decide) (by decide)]
  rfl

/-- A frame of encoded changes decodes to the batch of these changes. -/
theorem decodeProgressCommit_encodeFrame (lawful : codecs.Lawful) (encode : ScopedChange Time → List UInt8)
    {changes : List (ScopedChange Time)} (encoded : ∀ change ∈ changes, change.Encoded codecs (encode change))
    (room : changes.length ≤ maxBatchSize) (small : changes.length < 256 ^ 4) :
    decodeProgressCommit crc (encodeFrame crc (changes.map encode)) codecs maxBatchSize =
      .ok (changes.foldl ProgressBatch.push ⟨[], []⟩) := by
  have loop := decodeEntries_encoded lawful encode changes encoded (leBytes 4 changes.length) ⟨[], []⟩
  rw [leBytes_length] at loop
  unfold decodeProgressCommit encodeFrame
  rw [List.length_map]
  generalize shape : leBytes 4 changes.length ++ (changes.map encode).flatten = payload
  rw [shape] at loop
  have size : 4 ≤ payload.length := by
    rw [← shape, List.length_append, leBytes_length]
    omega
  have cut : (payload ++ leBytes 4 (crc payload).toNat).length - 4 = payload.length := by
    rw [List.length_append, leBytes_length]
    omega
  have countRead : readLe 4 payload 0 = .ok changes.length :=
    readLe_of_eq [] (changes.map encode).flatten (by rw [← shape]; rfl) rfl small
  have crcRead : readLe 4 (leBytes 4 (crc payload).toNat) 0 = .ok (crc payload).toNat :=
    readLe_of_eq [] [] (by simp) rfl (crc payload).toNat_lt
  rw [cut, List.take_left, List.drop_left, crcRead, need_of_le (by rw [List.length_append, leBytes_length]; omega)]
  simp only [bind, Except.bind, pure, Except.pure, checkCrc, ne_eq, not_true_eq_false, if_false]
  rw [countRead]
  simp only
  rw [if_neg (by omega), loop]
  simp

/-- The whole batch can be encoded: every section has a codec and every time is encoded. -/
structure ProgressBatch.Encodable (codecs : ProgressCodecs Time) (batch : ProgressBatch Time) : Prop where
  sections : ∀ part ∈ batch.scopes, ∃ codec, codecs.scopes part.1 = some codec
  scopes : ∀ part ∈ batch.scopes, part.1 < 2 ^ 32
  fits : ∀ change ∈ batch.changes, change.2.Fits
  times : ∀ change ∈ batch.changes, ∀ codec, codecs.find change.1 = some codec →
    ∃ bytes, codec.encode change.2.time = .ok bytes

end Decode

section Commit

variable {codecs : ProgressCodecs Time} {batch : ProgressBatch Time}

variable {part : (scope : Nat) × List (ProgressChange (Time scope))}

/-- A commit with one section needs the codec of that section and what each change needs. -/
theorem ProgressBatch.Encodable.of_section
    {codec : Codec (Time part.1)} (single : batch.scopes = [part]) (found : codecs.scopes part.1 = some codec)
    (small : part.1 < 2 ^ 32) (all : ∀ change ∈ batch.changes, change.2.Fits ∧
      ∀ codec, codecs.find change.1 = some codec → ∃ bytes, codec.encode change.2.time = .ok bytes) :
    batch.Encodable codecs where
  sections other member := by
    rw [single, List.mem_singleton] at member
    exact member ▸ ⟨codec, found⟩
  scopes other member := by
    rw [single, List.mem_singleton] at member
    exact member ▸ small
  fits change member := (all change member).1
  times change member := (all change member).2

/-- The bytes of a change that can be encoded. -/
def encodedBytes (codecs : ProgressCodecs Time) (change : ScopedChange Time) : List UInt8 :=
  match codecs.encodeScoped change with
  | .ok bytes => bytes
  | .error _ => []

theorem mapM_eq_ok {A B E : Type} {step : A → Except E B} {result : A → B} {items : List A}
    (each : ∀ item ∈ items, step item = .ok (result item)) : items.mapM step = .ok (items.map result) :=
  mapM_eq_ok_iff.mpr (List.forall₂_map_right_iff.mpr (List.forall₂_same.mpr each))

theorem encodeEntry_eq {scope : Nat} {codec : Codec (Time scope)} (found : codecs.find scope = some codec)
    {change : ProgressChange (Time scope)} {time : List UInt8} (timed : codec.encode change.time = .ok time) :
    encodeEntry scope codec change = .ok (change.diff, encodedBytes codecs ⟨scope, change⟩) ∧
      codecs.encodeScoped ⟨scope, change⟩ = .ok (encodedBytes codecs ⟨scope, change⟩) := by
  have body : ∃ bytes, encodeChange codec change = .ok bytes := by
    unfold encodeChange
    rw [timed]
    exact ⟨_, rfl⟩
  obtain ⟨bytes, encoded⟩ := body
  have whole : codecs.encodeScoped ⟨scope, change⟩ = .ok (leBytes 4 scope ++ bytes) := by
    unfold ProgressCodecs.encodeScoped
    rw [found]
    simp only [encoded]
    rfl
  unfold encodedBytes encodeEntry
  rw [whole, encoded]
  exact ⟨rfl, rfl⟩

theorem mem_changes_section
    (isPart : part ∈ batch.scopes) {change : ProgressChange (Time part.1)} (member : change ∈ part.2) :
    (⟨part.1, change⟩ : ScopedChange Time) ∈ batch.changes := by
  exact List.mem_append_right _ (List.mem_flatMap.mpr ⟨part, isPart, List.mem_map.mpr ⟨change, member, rfl⟩⟩)

section

variable (encodable : batch.Encodable codecs)

include encodable

theorem ProgressBatch.Encodable.find_eq (isPart : part ∈ batch.scopes) :
    ∃ codec, codecs.scopes part.1 = some codec ∧ codecs.find part.1 = some codec := by
  obtain ⟨codec, found⟩ := encodable.sections part isPart
  refine ⟨codec, found, ?_⟩
  obtain ⟨scope, changes⟩ := part
  cases scope with
  | zero =>
    rw [codecs.loopIds] at found
    cases found
  | succ scope => exact found

/-- The entries are the encoded changes of the batch, in its order. -/
theorem encodeEntries_eq :
    encodeEntries codecs batch =
      .ok (batch.changes.map fun change => (change.2.diff, encodedBytes codecs change)) := by
  have root : batch.root.mapM (encodeEntry 0 codecs.root) = .ok (batch.root.map fun change =>
      (change.diff, encodedBytes codecs ⟨0, change⟩)) := by
    apply mapM_eq_ok
    intro change member
    have inBatch : (⟨0, change⟩ : ScopedChange Time) ∈ batch.changes :=
      List.mem_append_left _ (List.mem_map.mpr ⟨change, member, rfl⟩)
    obtain ⟨time, timed⟩ := encodable.times ⟨0, change⟩ inBatch codecs.root rfl
    exact (encodeEntry_eq rfl timed).1
  have sections : batch.scopes.mapM (encodeSection codecs) = .ok (batch.scopes.map fun part =>
      part.2.map fun change => (change.diff, encodedBytes codecs ⟨part.1, change⟩)) := by
    apply mapM_eq_ok
    intro part isPart
    obtain ⟨codec, found, finds⟩ := encodable.find_eq isPart
    unfold encodeSection
    rw [found]
    apply mapM_eq_ok
    intro change member
    obtain ⟨time, timed⟩ := encodable.times ⟨part.1, change⟩ (mem_changes_section isPart member) codec finds
    exact (encodeEntry_eq finds timed).1
  unfold encodeEntries
  rw [root, sections]
  simp only [bind, Except.bind, pure, Except.pure]
  unfold ProgressBatch.changes
  simp only [List.map_append, List.map_map, List.map_flatten, List.flatMap_def, Function.comp_def]

theorem ProgressBatch.Encodable.encoded {change : ScopedChange Time}
    (member : change ∈ batch.changes) : change.Encoded codecs (encodedBytes codecs change) := by
  have fits := encodable.fits change member
  have times := encodable.times change member
  rcases List.mem_append.mp member with inRoot | inSections
  · obtain ⟨rootChange, _, same⟩ := List.mem_map.mp inRoot
    subst same
    obtain ⟨time, timed⟩ := times codecs.root rfl
    exact ⟨show 0 < 2 ^ 32 by decide, fits, (encodeEntry_eq rfl timed).2⟩
  · obtain ⟨part, isPart, inPart⟩ := List.mem_flatMap.mp inSections
    obtain ⟨partChange, _, same⟩ := List.mem_map.mp inPart
    subst same
    obtain ⟨codec, _, finds⟩ := encodable.find_eq isPart
    obtain ⟨time, timed⟩ := times codec finds
    exact ⟨encodable.scopes part isPart, fits, (encodeEntry_eq finds timed).2⟩

end

section Split

variable {A B : Type}

theorem effectiveMax_pos (maxBatchSize : Nat) : 1 ≤ effectiveMax maxBatchSize := Nat.le_max_right _ _

theorem effectiveMax_le (positive : 1 ≤ maxBatchSize) :
    effectiveMax maxBatchSize ≤ maxBatchSize ∧ effectiveMax maxBatchSize < progressAbandonCount := by
  unfold effectiveMax
  have reserved : 2 ≤ progressAbandonCount := by decide
  omega

theorem splitCommit_map (f : A → B) (diff : B → Int) (maxBatchSize : Nat) (items : List A) :
    splitCommit diff maxBatchSize (items.map f) =
      (splitCommit (fun item => diff (f item)) maxBatchSize items).map (List.map f) := by
  have ordered : orderCommit diff (items.map f) = (orderCommit (fun item => diff (f item)) items).map f := by
    unfold orderCommit
    rw [List.filter_map, List.filter_map, List.map_append]
    rfl
  unfold splitCommit
  rw [List.length_map]
  split
  · rfl
  · rw [ordered, List.length_map, map_chunksOf]

/-- The chunks together are the commit, ordered if it was split. -/
theorem splitCommit_flatten (diff : A → Int) (maxBatchSize : Nat) (items : List A) :
    (splitCommit diff maxBatchSize items).flatten = items ∨
      (splitCommit diff maxBatchSize items).flatten = orderCommit diff items := by
  unfold splitCommit
  split
  · exact Or.inl (List.append_nil items)
  · exact Or.inr (chunksOf_flatten (effectiveMax_pos maxBatchSize) _ _ le_rfl)

theorem splitCommit_length (diff : A → Int) (maxBatchSize : Nat) (items : List A) :
    ∀ chunk ∈ splitCommit diff maxBatchSize items, chunk.length ≤ effectiveMax maxBatchSize := by
  unfold splitCommit
  split
  · rename_i small
    intro chunk member
    rw [List.mem_singleton.mp member]
    exact small
  · exact chunksOf_length _ _

theorem mem_splitCommit {diff : A → Int} {items chunk : List A} {item : A}
    (isChunk : chunk ∈ splitCommit diff maxBatchSize items) (member : item ∈ chunk) : item ∈ items := by
  have inAll : item ∈ (splitCommit diff maxBatchSize items).flatten := List.mem_flatten.mpr ⟨chunk, isChunk, member⟩
  rcases splitCommit_flatten diff maxBatchSize items with same | same
  · rwa [same] at inAll
  · rw [same] at inAll
    rcases List.mem_append.mp inAll with early | late
    · exact List.mem_of_mem_filter early
    · exact List.mem_of_mem_filter late

theorem filter_orderCommit (diff : A → Int) (items : List A) :
    (orderCommit diff items).filter (fun item => decide (diff item > 0)) =
        items.filter (fun item => decide (diff item > 0)) ∧
      (orderCommit diff items).filter (fun item => decide (diff item ≤ 0)) =
        items.filter fun item => decide (diff item ≤ 0) := by
  unfold orderCommit
  rw [List.filter_append, List.filter_append, List.filter_filter, List.filter_filter, List.filter_filter,
    List.filter_filter]
  simp

end Split

theorem decode_marker (crc : Checksum) {frame : ProgressFrame Time}
    (marks : markerOf (encodeProgressMarker crc count) = some frame) :
    decodeProgressFrameWith crc (encodeProgressMarker crc count) codecs maxBatchSize = .ok frame := by
  have crcRead : readLe 4 (encodeProgressMarker crc count) 4 = .ok (crc (leBytes 4 count)).toNat :=
    readLe_of_eq (leBytes 4 count) [] (by simp [encodeProgressMarker]) (leBytes_length 4 count)
      (crc (leBytes 4 count)).toNat_lt
  have cut : (encodeProgressMarker crc count).take 4 = leBytes 4 count := List.take_left' (leBytes_length 4 count)
  unfold decodeProgressFrameWith
  rw [marks]
  simp only
  rw [crcRead, cut]
  simp [bind, Except.bind, pure, Except.pure, checkCrc]

theorem isMarker_encodeProgressMarker (crc : Checksum) {other : Nat} (left : count < 256 ^ 4)
    (right : other < 256 ^ 4) : isMarker (encodeProgressMarker crc count) other = decide (count = other) := by
  unfold isMarker encodeProgressMarker
  apply decide_eq_decide.mpr
  constructor
  · intro marker
    exact leBytes_injective left right marker.2
  · intro same
    exact ⟨rfl, congrArg (leBytes 4) same⟩

theorem markerOf_marker (crc : Checksum) (fits : count < 256 ^ 4) :
    (markerOf (encodeProgressMarker crc count) : Option (ProgressFrame Time)) =
      if count = progressEndOfStreamCount then some .endOfStream
      else if count = progressAckCount then some .ack
      else if count = progressSealCount then some .sealed
      else if count = progressAbandonCount then some .abandon
      else none := by
  unfold markerOf
  rw [isMarker_encodeProgressMarker crc fits (by decide), isMarker_encodeProgressMarker crc fits (by decide),
    isMarker_encodeProgressMarker crc fits (by decide), isMarker_encodeProgressMarker crc fits (by decide)]
  simp only [decide_eq_true_eq]

/-- Every frame of a commit decodes to the batch of its changes. -/
theorem encodeProgressCommit_eq (crc : Checksum) (lawful : codecs.Lawful) (encodable : batch.Encodable codecs)
    (positive : 1 ≤ maxBatchSize) :
    ∃ frames, encodeProgressCommit crc batch codecs maxBatchSize = .ok frames ∧
      frames.map (fun frame => decodeProgressFrameWith crc frame codecs maxBatchSize) =
        (splitCommit (fun change => change.2.diff) maxBatchSize batch.changes).map fun chunk =>
          .ok (.batch (chunk.foldl ProgressBatch.push ⟨[], []⟩)) := by
  refine ⟨(splitCommit (fun change => change.2.diff) maxBatchSize batch.changes).map fun chunk =>
    encodeFrame crc (chunk.map (encodedBytes codecs)), ?_, ?_⟩
  · unfold encodeProgressCommit
    rw [encodeEntries_eq encodable]
    simp only [bind, Except.bind, pure, Except.pure]
    rw [splitCommit_map (fun change => (change.2.diff, encodedBytes codecs change)), List.map_map]
    simp only [Function.comp_def, List.map_map]
  · rw [List.map_map]
    apply List.map_congr_left
    intro chunk isChunk
    obtain ⟨room, reserved⟩ := effectiveMax_le positive
    have size := splitCommit_length _ _ _ chunk isChunk
    have bound : progressAbandonCount < 256 ^ 4 := by decide
    have decoded := decodeProgressCommit_encodeFrame crc lawful (encodedBytes codecs)
      (fun change member => encodable.encoded (mem_splitCommit isChunk member))
      (Nat.le_trans size room) (by omega)
    have noMarker : (markerOf (encodeFrame crc (chunk.map (encodedBytes codecs))) : Option (ProgressFrame Time)) =
        none := markerOf_encodeFrame crc (by rw [List.length_map]; omega)
    simp only [Function.comp_def, decodeProgressFrameWith, noMarker, decoded]
    rfl

theorem filter_changesOf {first second : List (ScopedChange Time)} (keep : Int → Bool) (scope : Nat)
    (same : (first.filter fun change => keep change.2.diff) = second.filter fun change => keep change.2.diff) :
    (first.flatMap (pick scope)).filter (fun change => keep change.diff) =
      (second.flatMap (pick scope)).filter fun change => keep change.diff := by
  rw [filter_flatMap_pick, filter_flatMap_pick, same]

/-- Two lists with the same positive and the same other changes, in order, are permutations. -/
theorem perm_of_filter_eq {T : Type} {first second : List (ProgressChange T)}
    (positives : (first.filter fun change => decide (change.diff > 0)) =
      second.filter fun change => decide (change.diff > 0))
    (others : (first.filter fun change => decide (change.diff ≤ 0)) =
      second.filter fun change => decide (change.diff ≤ 0)) : first.Perm second := by
  have turn : ∀ changes : List (ProgressChange T), changes.filter (fun change => !decide (change.diff > 0)) =
      changes.filter fun change => decide (change.diff ≤ 0) := by
    intro changes
    apply List.filter_congr
    intro change _
    rw [← decide_not]
    exact decide_eq_decide.mpr (by omega)
  have left := List.filter_append_perm (fun change : ProgressChange T => decide (change.diff > 0)) first
  have right := List.filter_append_perm (fun change : ProgressChange T => decide (change.diff > 0)) second
  rw [turn, positives, others] at left
  rw [turn] at right
  exact left.symm.trans right

/-- The frames of a commit are batches whose changes are, in every scope, those of the commit; markers stay markers. -/
theorem encodeProgressCommit_roundTrip (crc : Checksum) (lawful : codecs.Lawful)
    (encodable : batch.Encodable codecs) {maxBatchSize : Nat} (positive : 1 ≤ maxBatchSize) :
    (∃ (frames : List (List UInt8)) (decoded : List (ProgressBatch Time)),
      encodeProgressCommit crc batch codecs maxBatchSize = .ok frames ∧
      frames.map (fun frame => decodeProgressFrameWith crc frame codecs maxBatchSize) =
        decoded.map (fun part => .ok (.batch part)) ∧
      ∀ scope, (decoded.flatMap fun part => part.changesOf scope).Perm (batch.changesOf scope) ∧
        (decoded.flatMap fun part => part.changesOf scope).filter (fun change => decide (change.diff > 0)) =
          (batch.changesOf scope).filter (fun change => decide (change.diff > 0)) ∧
        (decoded.flatMap fun part => part.changesOf scope).filter (fun change => decide (change.diff ≤ 0)) =
          (batch.changesOf scope).filter (fun change => decide (change.diff ≤ 0))) ∧
    decodeProgressFrameWith crc (encodeProgressSeal crc) codecs maxBatchSize = .ok .sealed ∧
    decodeProgressFrameWith crc (encodeProgressAbandon crc) codecs maxBatchSize = .ok .abandon ∧
    decodeProgressFrameWith crc (encodeProgressEndOfStream crc) codecs maxBatchSize = .ok .endOfStream ∧
    decodeProgressFrameWith crc (encodeProgressAck crc) codecs maxBatchSize = .ok .ack := by
  refine ⟨?_, decode_marker crc ((markerOf_marker crc (by decide)).trans rfl),
    decode_marker crc ((markerOf_marker crc (by decide)).trans rfl),
    decode_marker crc ((markerOf_marker crc (by decide)).trans rfl),
    decode_marker crc ((markerOf_marker crc (by decide)).trans rfl)⟩
  obtain ⟨frames, encoded, decoded⟩ := encodeProgressCommit_eq crc lawful encodable positive
  refine ⟨frames, (splitCommit (fun change => change.2.diff) maxBatchSize batch.changes).map
    (fun chunk => chunk.foldl ProgressBatch.push ⟨[], []⟩), encoded, ?_, fun scope => ?_⟩
  · rw [decoded, List.map_map]
    rfl
  · have together : (((splitCommit (fun change => change.2.diff) maxBatchSize batch.changes).map
        fun chunk => chunk.foldl ProgressBatch.push ⟨[], []⟩).flatMap fun part => part.changesOf scope) =
        (splitCommit (fun change => change.2.diff) maxBatchSize batch.changes).flatten.flatMap (pick scope) := by
      rw [List.flatMap_map, List.flatten_eq_flatMap, List.flatMap_assoc]
      congr 1
      funext chunk
      rw [ProgressBatch.changesOf_foldl_push ProgressBatch.empty_grouped]
      rfl
    have filters : ∀ keep, (keep = (fun diff : Int => decide (diff > 0)) ∨ keep = fun diff : Int => decide (diff ≤ 0)) →
        ((splitCommit (fun change : ScopedChange Time => change.2.diff) maxBatchSize batch.changes).flatten.filter
          fun change => keep change.2.diff) = batch.changes.filter fun change => keep change.2.diff := by
      intro keep either
      rcases splitCommit_flatten (fun change : ScopedChange Time => change.2.diff) maxBatchSize batch.changes with same | same
      · rw [same]
      · rw [same]
        rcases either with isPositive | isOther
        · rw [isPositive]
          exact (filter_orderCommit _ _).1
        · rw [isOther]
          exact (filter_orderCommit _ _).2
    have positives := filter_changesOf _ scope (filters _ (Or.inl rfl))
    have others := filter_changesOf _ scope (filters _ (Or.inr rfl))
    rw [together]
    exact ⟨perm_of_filter_eq positives others, positives, others⟩

end Commit

section Sample

/-- The root scope has plain times, and every loop scope counts its iterations. -/
def LoopTime : Nat → Type
  | 0 => Unsigned 64
  | _ + 1 => Product (Unsigned 64) (Unsigned 64)

/-- The codecs of a dataflow with one loop. -/
def loopCodecs : ProgressCodecs LoopTime where
  root := fixedSizeCodec 8
  scopes
    | 1 => some (productTimeCodec (fixedSizeCodec 8) (fixedSizeCodec 8))
    | _ => none
  loopIds := rfl

theorem loopCodecs_lawful : loopCodecs.Lawful :=
  ProgressCodecs.lawful_of_loop (fixedSizeCodec_lawful 8) ⟨rfl, fun _ => rfl⟩
    (productTimeCodec_lawful (fixedSizeCodec_lawful 8) (fixedSizeCodec_lawful 8))

/-- A commit that moves a capability in the root scope and consumes records in the loop. -/
def loopCommit : ProgressBatch LoopTime where
  root := [⟨.source, 1, 0, (5 : Unsigned 64), -1⟩, ⟨.source, 1, 0, (6 : Unsigned 64), 1⟩]
  scopes := [⟨1, [⟨.target, 2, 0, (⟨5, 3⟩ : Product (Unsigned 64) (Unsigned 64)), -7⟩]⟩]

theorem loopCommit_encodable : loopCommit.Encodable loopCodecs := by
  have all : ∀ change ∈ loopCommit.changes, change.2.Fits ∧ ∀ codec, loopCodecs.find change.1 = some codec →
      ∃ bytes, codec.encode change.2.time = .ok bytes := by
    intro change member
    simp only [ProgressBatch.changes, loopCommit, List.map_cons, List.map_nil, List.flatMap_cons, List.flatMap_nil,
      List.append_nil, List.cons_append, List.nil_append, List.mem_cons, List.not_mem_nil, or_false] at member
    rcases member with same | same | same <;> subst same
    all_goals exact ⟨⟨by decide, by decide, by decide, by decide⟩, fun codec found => by cases found; exact ⟨_, rfl⟩⟩
  exact .of_section rfl rfl (by decide) all

theorem loopCommit_roundTrip :
    (∃ (frames : List (List UInt8)) (decoded : List (ProgressBatch LoopTime)),
      encodeProgressCommit (fun _ => 0) loopCommit loopCodecs 1 = .ok frames ∧
      frames.map (fun frame => decodeProgressFrameWith (fun _ => 0) frame loopCodecs 1) =
        decoded.map (fun part => .ok (.batch part)) ∧
      ∀ scope, (decoded.flatMap fun part => part.changesOf scope).Perm (loopCommit.changesOf scope) ∧
        (decoded.flatMap fun part => part.changesOf scope).filter (fun change => decide (change.diff > 0)) =
          (loopCommit.changesOf scope).filter (fun change => decide (change.diff > 0)) ∧
        (decoded.flatMap fun part => part.changesOf scope).filter (fun change => decide (change.diff ≤ 0)) =
          (loopCommit.changesOf scope).filter (fun change => decide (change.diff ≤ 0))) ∧
    decodeProgressFrameWith (fun _ => 0) (encodeProgressSeal fun _ => 0) loopCodecs 1 = .ok .sealed ∧
    decodeProgressFrameWith (fun _ => 0) (encodeProgressAbandon fun _ => 0) loopCodecs 1 = .ok .abandon ∧
    decodeProgressFrameWith (fun _ => 0) (encodeProgressEndOfStream fun _ => 0) loopCodecs 1 = .ok .endOfStream ∧
    decodeProgressFrameWith (fun _ => 0) (encodeProgressAck fun _ => 0) loopCodecs 1 = .ok .ack :=
  encodeProgressCommit_roundTrip (fun _ => 0) loopCodecs_lawful loopCommit_encodable (by decide)

end Sample

end Instancy
