import PublicCloudCore.MetricsBus.ThreadWorker

/-!
# Frames and the arrays of the metrics bus

What `process_metric_definition` and `process_metric_batch_observation` touch in their arrays, and
how much of the stream they take. A header of more than eight bytes is read with shifts by 64 bits
and more, which may give any length.
-/

namespace PublicCloudCore.MetricsBus

/-- An access to the first bytes of `header_buffer` or of `buffer`. -/
inductive Access
  | header (size : Nat)
  | body (size : Nat)

def messageLength (env : Surroundings) (headerLength : Nat) (header : Text) : Nat :=
  if headerLength ≤ 8 then littleEndian header else env.longHeader header headerLength

def definitionAccesses (stream : Text) : List Access :=
  .header (min 2 stream.length) ::
    match read 2 stream with
    | none => []
    | some (header, rest) =>
        [.header 2, .body (min (min (littleEndian header) 1024) rest.length)]

def batchAccesses (env : Surroundings) (stream : Text) : List Access :=
  .header (min 1 stream.length) ::
    match read 1 stream with
    | none => []
    | some (one, rest) =>
        let headerLength := (one.headD 0).toNat
        .header (min (min headerLength 16) rest.length) ::
          match read (min headerLength 16) rest with
          | none => []
          | some (header, rest) =>
              if headerLength = 0 then []
              else
                -- the loop goes on to the declared length of the header
                [.header headerLength,
                  .body (min (min (messageLength env headerLength header) 1024) rest.length)]

def accesses (env : Surroundings) : MessageKind → Text → List Access
  | .definition => definitionAccesses
  | .batch => batchAccesses env

def headerSize : MessageKind → Nat
  | .definition => 2
  | .batch => 16

def Access.Inside (kind : MessageKind) : Access → Prop
  | .header size => size ≤ headerSize kind
  | .body size => size ≤ 1024

/-- The bytes behind the marker that the header declares, the header's own included. -/
def declaredLength : MessageKind → Text → Nat
  | .definition, stream => 2 + littleEndian (stream.take 2)
  | .batch, [] => 1
  | .batch, b :: t => 1 + b.toNat + littleEndian (t.take b.toNat)

def declaredHeader : MessageKind → Text → Nat
  | .definition, _ => 2
  | .batch, [] => 1
  | .batch, b :: _ => 1 + b.toNat

def declaredMessage (kind : MessageKind) (stream : Text) : Option (Text × Text) :=
  if declaredLength kind stream ≤ stream.length then
    some ((stream.take (declaredLength kind stream)).drop (declaredHeader kind stream),
      stream.drop (declaredLength kind stream))
  else none

/-- The accesses stay in the arrays, and a frame that is read to its end has the declared length. -/
structure FrameKept (env : Surroundings) (kind : MessageKind) (stream : Text) : Prop where
  inside : ∀ a ∈ accesses env kind stream, a.Inside kind
  consumed : ∀ message rest, readMessage env kind stream = some (message, rest) →
    declaredLength kind stream + rest.length = stream.length

/-- The header has at most eight bytes and declares at most 1024, or the stream ends before this
matters. -/
def WithinBounds : MessageKind → Text → Prop
  | .definition, stream => littleEndian (stream.take 2) ≤ 1024 ∨ stream.length < 2 + 1024
  | .batch, [] => True
  | .batch, b :: t =>
      t.length < min b.toNat 16 ∨
        b.toNat ≤ 8 ∧ (littleEndian (t.take b.toNat) ≤ 1024 ∨ t.length < b.toNat + 1024) ∨
          -- nothing is declared, and nothing is left to be read
          b.toNat ≤ 16 ∧ t.length = b.toNat ∧ littleEndian t = 0

variable {check : Text → Bool} {env : Surroundings} {kind : MessageKind}
  {stream rest message : Text} {b : UInt8} {t : Text}

theorem read_of_le {n : Nat} (h : n ≤ stream.length) :
    read n stream = some (stream.take n, stream.drop n) := if_pos h

theorem read_of_lt {n : Nat} (h : stream.length < n) : read n stream = none :=
  if_neg (Nat.not_le.mpr h)

theorem readBatch_cons (env : Surroundings) (b : UInt8) (t : Text) : readBatch env (b :: t) =
    if t.length < min b.toNat 16 then none
    else read (min (messageLength env b.toNat (t.take (min b.toNat 16))) 1024)
      (t.drop (min b.toNat 16)) := by
  have hone : read 1 (b :: t) = some ([b], t) := read_of_le (by simp)
  by_cases hshort : t.length < min b.toNat 16
  · rw [if_pos hshort, readBatch, hone]
    simp only [Option.bind_eq_bind, Option.bind_some, List.headD_cons, read_of_lt hshort,
      Option.bind_none]
  · rw [if_neg hshort, readBatch, hone]
    simp only [Option.bind_eq_bind, Option.bind_some, List.headD_cons,
      read_of_le (Nat.not_lt.mp hshort)]
    by_cases hzero : b.toNat = 0
    · simp [hzero, messageLength, littleEndian, read]
    · exact if_neg hzero

theorem readDefinition_eq (stream : Text) : readDefinition stream =
    if stream.length < 2 then none
    else read (min (littleEndian (stream.take 2)) 1024) (stream.drop 2) := by
  rw [readDefinition]
  by_cases hshort : stream.length < 2
  · rw [if_pos hshort, read_of_lt hshort]
    rfl
  · rw [if_neg hshort, read_of_le (Nat.not_lt.mp hshort)]
    rfl

theorem definition_inside (stream : Text) :
    ∀ a ∈ definitionAccesses stream, a.Inside .definition := by
  intro a ha
  rw [definitionAccesses, List.mem_cons] at ha
  rcases ha with rfl | ha
  · exact Nat.min_le_left 2 stream.length
  · split at ha
    · cases ha
    · simp only [List.mem_cons, List.not_mem_nil, or_false] at ha
      rcases ha with rfl | rfl
      · exact Nat.le_refl 2
      · exact Nat.le_trans (Nat.min_le_left _ _) (Nat.min_le_right _ _)

/-- The loop over the header is the one access that can leave its array. -/
theorem batch_inside_iff (env : Surroundings) (b : UInt8) (t : Text) :
    (∀ a ∈ batchAccesses env (b :: t), a.Inside .batch) ↔ t.length < 16 ∨ b.toNat ≤ 16 := by
  have hone : read 1 (b :: t) = some ([b], t) := read_of_le (by simp)
  have hfirst : (Access.header (min 1 (b :: t).length)).Inside .batch := by
    show min 1 (t.length + 1) ≤ 16
    omega
  have hheader : (Access.header (min (min b.toNat 16) t.length)).Inside .batch := by
    show min (min b.toNat 16) t.length ≤ 16
    omega
  rw [batchAccesses, List.forall_mem_cons, and_iff_right hfirst, hone]
  simp only [List.headD_cons]
  rw [List.forall_mem_cons, and_iff_right hheader]
  by_cases hshort : t.length < min b.toNat 16
  · rw [read_of_lt hshort]
    exact iff_of_true nofun (Or.inl (by omega))
  · rw [read_of_le (Nat.not_lt.mp hshort)]
    simp only
    by_cases hzero : b.toNat = 0
    · simp [hzero]
    · simp only [hzero, if_false, List.forall_mem_cons, List.not_mem_nil, false_imp_iff,
        implies_true, and_true]
      have hbody : ∀ n m, (Access.body (min (min n 1024) m)).Inside .batch := by
        intro n m
        show min (min n 1024) m ≤ 1024
        omega
      rw [and_iff_left (hbody _ _)]
      show b.toNat ≤ 16 ↔ _
      omega

theorem consumed_read_iff {k n : Nat} (hk : k ≤ stream.length) (declared : Nat) :
    (∀ message rest, read n (stream.drop k) = some (message, rest) →
      k + declared + rest.length = stream.length) ↔ stream.length < k + n ∨ declared = n := by
  by_cases hle : n ≤ (stream.drop k).length
  · rw [read_of_le hle]
    rw [List.length_drop] at hle
    constructor
    · intro h
      have hrest := h _ _ rfl
      rw [List.length_drop, List.length_drop] at hrest
      omega
    · rintro h message rest heq
      cases heq
      rw [List.length_drop, List.length_drop]
      omega
  · rw [read_of_lt (Nat.not_le.mp hle)]
    rw [List.length_drop] at hle
    exact iff_of_true nofun (Or.inl (by omega))

theorem frameKept_definition_iff (env : Surroundings) (stream : Text) :
    FrameKept env .definition stream ↔ WithinBounds .definition stream := by
  have hconsumed : (∀ message rest, readMessage env .definition stream = some (message, rest) →
      declaredLength .definition stream + rest.length = stream.length) ↔
        WithinBounds .definition stream := by
    rw [readMessage, readDefinition_eq, WithinBounds, declaredLength]
    by_cases hshort : stream.length < 2
    · rw [if_pos hshort]
      refine iff_of_true (fun message rest hread => ?_) (Or.inr (by omega))
      cases hread
    · rw [if_neg hshort, consumed_read_iff (Nat.not_lt.mp hshort)]
      omega
  constructor
  · intro h
    exact hconsumed.mp h.consumed
  · intro h
    exact ⟨definition_inside stream, hconsumed.mpr h⟩

theorem consumed_batch_iff (env : Surroundings) (hheader : b.toNat ≤ t.length)
    (hb : b.toNat ≤ 16) :
    (∀ message rest, readMessage env .batch (b :: t) = some (message, rest) →
      declaredLength .batch (b :: t) + rest.length = (b :: t).length) ↔
        t.length < b.toNat + min (messageLength env b.toNat (t.take b.toNat)) 1024 ∨
          littleEndian (t.take b.toNat) =
            min (messageLength env b.toNat (t.take b.toNat)) 1024 := by
  have hmin : min b.toNat 16 = b.toNat := Nat.min_eq_left hb
  have hdrop : t.drop b.toNat = (b :: t).drop (1 + b.toNat) := by
    rw [Nat.add_comm, List.drop_succ_cons]
  have hlen : 1 + b.toNat ≤ (b :: t).length := by
    rw [List.length_cons]
    omega
  rw [readMessage, readBatch_cons, hmin, if_neg (Nat.not_lt.mpr hheader), hdrop, declaredLength,
    consumed_read_iff hlen, List.length_cons]
  omega

theorem frameKept_batch_of_bounds (env : Surroundings) (h : WithinBounds .batch stream) :
    FrameKept env .batch stream := by
  cases stream with
  | nil =>
      constructor
      · intro a ha
        rw [accesses, batchAccesses, read_of_lt (by decide)] at ha
        rw [List.mem_singleton.mp ha]
        exact Nat.zero_le _
      · intro message rest hread
        cases hread
  | cons b t =>
      by_cases hshort : t.length < min b.toNat 16
      · refine ⟨(batch_inside_iff env b t).mpr (Or.inl (by omega)), ?_⟩
        rw [readMessage, readBatch_cons, if_pos hshort]
        intro message rest hread
        cases hread
      · have hbounds := h.resolve_left hshort
        have hb : b.toNat ≤ 16 := by
          rcases hbounds with hb | hb
          · omega
          · exact hb.1
        have hheader : b.toNat ≤ t.length := by omega
        refine ⟨(batch_inside_iff env b t).mpr (Or.inr hb), ?_⟩
        rw [consumed_batch_iff env hheader hb]
        rcases hbounds with ⟨hsmall, hlength⟩ | ⟨-, hend, hzero⟩
        · rw [messageLength, if_pos hsmall]
          omega
        · rw [← hend, List.take_length, hzero]
          omega

/-- The frame is kept whatever the shifts of a long header give. -/
theorem frameKept_batch_iff (check : Text → Bool) (stream : Text) :
    (∀ longHeader, FrameKept ⟨check, longHeader⟩ .batch stream) ↔ WithinBounds .batch stream := by
  constructor
  · intro h
    cases stream with
    | nil => trivial
    | cons b t =>
        refine or_iff_not_imp_left.mpr fun hshort => ?_
        have hb : b.toNat ≤ 16 := by
          have hinside := (batch_inside_iff _ b t).mp (h fun _ _ => 0).inside
          omega
        have hheader : b.toNat ≤ t.length := by omega
        have hconsumed := fun longHeader =>
          (consumed_batch_iff ⟨check, longHeader⟩ hheader hb).mp (h longHeader).consumed
        by_cases hsmall : b.toNat ≤ 8
        · have hlength := hconsumed fun _ _ => 0
          rw [messageLength, if_pos hsmall] at hlength
          exact Or.inl ⟨hsmall, by omega⟩
        · have hzero := hconsumed fun _ _ => 0
          have hone := hconsumed fun _ _ => 1
          simp only [messageLength, if_neg hsmall] at hzero hone
          have hend : t.length = b.toNat := by omega
          refine Or.inr ⟨hb, hend, ?_⟩
          rw [← hend, List.take_length] at hzero
          omega
  · intro h longHeader
    exact frameKept_batch_of_bounds _ h

theorem frameKept_iff (check : Text → Bool) (kind : MessageKind) (stream : Text) :
    (∀ longHeader, FrameKept ⟨check, longHeader⟩ kind stream) ↔ WithinBounds kind stream := by
  cases kind with
  | definition =>
      constructor
      · intro h
        exact (frameKept_definition_iff _ stream).mp (h fun _ _ => 0)
      · intro h longHeader
        exact (frameKept_definition_iff _ stream).mpr h
  | batch => exact frameKept_batch_iff check stream

/-- The frames that the thread starts on a stream, by their marker and the bytes behind it, where
`next` takes a frame off the stream. An exception ends them. -/
inductive Starts (env : Surroundings) (next : MessageKind → Text → Option (Text × Text)) :
    Text → Bus → MessageKind → Text → Prop
  | here {stream rest : Text} {bus : Bus} {kind : MessageKind} :
      findMarker stream = some (kind, rest) → Starts env next stream bus kind rest
  | later {stream rest message rest' stream' : Text} {bus bus' : Bus} {kind kind' : MessageKind} :
      findMarker stream = some (kind, rest) → next kind rest = some (message, rest') →
      processMessage env kind message bus = (bus', none) →
      Starts env next rest' bus' kind' stream' → Starts env next stream bus kind' stream'

/-- Whatever the shifts of a long header give, every frame that the thread starts is kept. -/
def FramesKept (check : Text → Bool) (metrics : Metrics) (stream : Text) : Prop :=
  ∀ longHeader kind rest, Starts ⟨check, longHeader⟩ (readMessage ⟨check, longHeader⟩) stream
    ⟨metrics, []⟩ kind rest → FrameKept ⟨check, longHeader⟩ kind rest

/-- Every frame of the declared lengths is within bounds. -/
def FramesWithinBounds (check : Text → Bool) (metrics : Metrics) (stream : Text) : Prop :=
  ∀ kind rest, Starts ⟨check, fun _ _ => 0⟩ declaredMessage stream ⟨metrics, []⟩ kind rest →
    WithinBounds kind rest

theorem declaredMessage_of_lt (h : stream.length < declaredLength kind stream) :
    declaredMessage kind stream = none :=
  if_neg (Nat.not_le.mpr h)

theorem read_eq_declaredMessage {k n : Nat} (hlength : declaredLength kind stream = k + n)
    (hheader : declaredHeader kind stream = k) (h : n ≤ 1024 ∨ stream.length < k + 1024)
    (hk : k ≤ stream.length) :
    read (min n 1024) (stream.drop k) = declaredMessage kind stream := by
  by_cases hle : k + n ≤ stream.length
  · have hmin : min n 1024 = n := by omega
    have hread : n ≤ (stream.drop k).length := by
      rw [List.length_drop]
      omega
    rw [hmin, declaredMessage, if_pos (hlength ▸ hle), read_of_le hread, hlength, hheader,
      List.drop_drop, List.drop_take, Nat.add_sub_cancel_left]
  · have hread : (stream.drop k).length < min n 1024 := by
      rw [List.length_drop]
      omega
    rw [declaredMessage_of_lt (by omega), read_of_lt hread]

theorem readMessage_iff_declared (env : Surroundings) (h : WithinBounds kind stream)
    (hrest : rest ≠ []) : readMessage env kind stream = some (message, rest) ↔
      declaredMessage kind stream = some (message, rest) := by
  cases kind with
  | definition =>
      rw [readMessage, readDefinition_eq]
      by_cases hshort : stream.length < 2
      · rw [if_pos hshort, declaredMessage_of_lt (by rw [declaredLength]; omega)]
      · have hk : 2 ≤ stream.length := Nat.not_lt.mp hshort
        have hlength : declaredLength .definition stream = 2 + littleEndian (stream.take 2) := rfl
        rw [if_neg hshort, read_eq_declaredMessage hlength rfl h hk]
  | batch =>
      cases stream with
      | nil =>
          refine iff_of_false (fun hread => ?_) fun hdeclared => ?_
          · cases hread
          · cases hdeclared
      | cons b t =>
          rw [readMessage, readBatch_cons]
          by_cases hshort : t.length < min b.toNat 16
          · rw [if_pos hshort, declaredMessage_of_lt]
            rw [declaredLength, List.length_cons]
            omega
          · rw [if_neg hshort]
            rcases h.resolve_left hshort with ⟨hsmall, hlength⟩ | ⟨hb, hend, hzero⟩
            · have hmin : min b.toNat 16 = b.toNat := by omega
              have hdrop : t.drop b.toNat = (b :: t).drop (1 + b.toNat) := by
                rw [Nat.add_comm, List.drop_succ_cons]
              have hdeclared : declaredLength .batch (b :: t) =
                  1 + b.toNat + littleEndian (t.take b.toNat) := rfl
              have hfits : littleEndian (t.take b.toNat) ≤ 1024 ∨
                  (b :: t).length < 1 + b.toNat + 1024 := by
                rw [List.length_cons]
                omega
              have hk : 1 + b.toNat ≤ (b :: t).length := by
                rw [List.length_cons]
                omega
              rw [hmin, messageLength, if_pos hsmall, hdrop,
                read_eq_declaredMessage hdeclared rfl hfits hk]
            · have hmin : min b.toNat 16 = b.toNat := Nat.min_eq_left hb
              constructor
              · intro hread
                rw [hmin, ← hend, List.drop_length] at hread
                have hlen := read_length hread
                exact absurd (List.length_eq_zero_iff.mp (Nat.le_zero.mp hlen)) hrest
              · intro hdeclared
                rw [declaredMessage, declaredLength, ← hend, List.take_length, hzero] at hdeclared
                split at hdeclared
                · cases hdeclared
                  refine absurd (List.drop_eq_nil_of_le ?_) hrest
                  rw [List.length_cons]
                  omega
                · cases hdeclared

theorem not_starts_nil {env : Surroundings} {next : MessageKind → Text → Option (Text × Text)}
    {bus : Bus} : ¬ Starts env next [] bus kind rest := by
  intro h
  cases h with
  | here hmarker => cases hmarker
  | later hmarker _ _ _ => cases hmarker

theorem starts_ne_nil {env : Surroundings} {next : MessageKind → Text → Option (Text × Text)}
    {bus : Bus} (h : Starts env next stream bus kind rest) : stream ≠ [] := by
  rintro rfl
  exact not_starts_nil h

theorem processMessage_check (check : Text → Bool) (long long' : Text → Nat → Nat)
    (kind : MessageKind) :
    processMessage ⟨check, long⟩ kind = processMessage ⟨check, long'⟩ kind := by
  cases kind <;> rfl

theorem keptFrom_iff (check : Text → Bool) (stream : Text) (bus : Bus) :
    (∀ longHeader kind rest, Starts ⟨check, longHeader⟩ (readMessage ⟨check, longHeader⟩) stream
      bus kind rest → FrameKept ⟨check, longHeader⟩ kind rest) ↔
    ∀ kind rest, Starts ⟨check, fun _ _ => 0⟩ declaredMessage stream bus kind rest →
      WithinBounds kind rest := by
  constructor
  · intro hkept kind rest hstart
    induction hstart with
    | @here stream rest bus kind hmarker =>
        rw [← frameKept_iff check]
        intro longHeader
        exact hkept longHeader kind rest (.here hmarker)
    | @later stream rest message rest' _ bus bus' kind _ hmarker hnext hprocess hlater ih =>
        have hbounds : WithinBounds kind rest := by
          rw [← frameKept_iff check]
          intro longHeader
          exact hkept longHeader kind rest (.here hmarker)
        apply ih
        intro longHeader kind' rest'' hstart
        have hread := (readMessage_iff_declared ⟨check, longHeader⟩ hbounds
          (starts_ne_nil hlater)).mpr hnext
        rw [processMessage_check check _ longHeader] at hprocess
        exact hkept longHeader kind' rest'' (.later hmarker hread hprocess hstart)
  · intro hbounds longHeader kind rest hstart
    induction hstart with
    | @here stream rest bus kind hmarker =>
        exact (frameKept_iff check kind rest).mpr (hbounds kind rest (.here hmarker)) longHeader
    | @later stream rest message rest' _ bus bus' kind _ hmarker hnext hprocess hlater ih =>
        apply ih
        intro kind' rest'' hstart
        have hdeclared := (readMessage_iff_declared ⟨check, longHeader⟩
          (hbounds kind rest (.here hmarker)) (starts_ne_nil hlater)).mp hnext
        rw [processMessage_check check _ fun _ _ => 0] at hprocess
        exact hbounds kind' rest'' (.later hmarker hdeclared hprocess hstart)

/-- Every frame that the thread starts on a stream is kept exactly when every frame of the declared
lengths is within bounds. -/
theorem streamKept_iff (check : Text → Bool) (metrics : Metrics) (stream : Text) :
    FramesKept check metrics stream ↔ FramesWithinBounds check metrics stream :=
  keptFrom_iff check stream ⟨metrics, []⟩

def longHeaderFrame : Text := [0x99, 0x99, 17] ++ List.replicate 17 0

theorem not_streamKept_longHeader :
    ¬ ∀ check metrics stream, FramesKept check metrics stream := by
  intro h
  have hmarker : findMarker longHeaderFrame = some (.batch, 17 :: List.replicate 17 0) := rfl
  have hkept := h (fun _ => true) [] longHeaderFrame (fun _ _ => 0) _ _ (.here hmarker)
  have hinside := (batch_inside_iff _ 17 (List.replicate 17 0)).mp hkept.inside
  revert hinside
  decide

end PublicCloudCore.MetricsBus
