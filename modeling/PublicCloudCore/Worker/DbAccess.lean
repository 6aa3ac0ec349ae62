import PublicCloudCore.Libck.Encode

/-!
# The worker's database requests

`db_accesses.c`. `db_access` allocates a zeroed buffer of `db_buffer_input_size` bytes, lets
`form_db_request` fill it with the encoder of the client library, and sends as many bytes as it
has allocated. The size formula leaves out the terminator.
-/

namespace PublicCloudCore.Worker

open Framework CorekubeDb Libck

def dbBufferInputSize (numPush numPull : Nat) : Nat := 18 + 17 * numPush + numPull

def dbBufferOutputSize (numPull : Nat) : Nat := 17 * numPull

/-- The identities that `add_identifier` has a case for. -/
def identifiers : List ItemType := [.imsi, .msin, .tmsi, .mmeUeS1apId]

theorem imsi_identifies : .imsi ∈ identifiers := by decide

theorem tmsi_identifies : .tmsi ∈ identifiers := by decide

theorem mmeUeS1apId_identifies : .mmeUeS1apId ∈ identifiers := by decide

/-- A type that `push_item` has a case for, and the pointer to its value. -/
structure PushItem where
  type : ItemType
  item : Mem UInt8
  accepted : (pushItemLen type).isSome

/-- The arguments of a call of `db_access`. -/
structure DbCall where
  dbKey : ItemType
  dbKeyValue : Mem UInt8
  key_accepted : dbKey ∈ identifiers
  pushes : List PushItem
  pulls : List ItemType

/-- `form_db_request` up to its last statements: the identity and both loops. -/
def formItems (c : DbCall) (buffer : Mem UInt8) : Mem UInt8 × Nat :=
  let s := addIdentifier buffer 0 c.dbKey c.dbKeyValue
  let s := c.pushes.foldl (fun s x => Libck.pushItem s.1 s.2 x.type x.item) s
  c.pulls.foldl (fun s t => Libck.pullItem s.1 s.2 t) (s.1.write s.2 [0], s.2 + 1)

/-- The buffer and the pointer when `form_db_request` returns. -/
def formDbRequest (c : DbCall) (buffer : Mem UInt8) : Mem UInt8 × Nat :=
  let s := formItems c buffer
  (s.1.write s.2 [ItemType.eom.code], s.2 + 1)

namespace DbCall

def inputSize (c : DbCall) : Nat := dbBufferInputSize c.pushes.length c.pulls.length

/-- The block that `ogs_calloc` returns, in front of the rest of the heap. -/
def calloc (c : DbCall) (heap : Mem UInt8) : Mem UInt8 :=
  heap.write 0 (List.replicate c.inputSize 0)

/-- All the bytes that `form_db_request` forms. -/
def formed (c : DbCall) (heap : Mem UInt8) : List UInt8 :=
  (formDbRequest c (c.calloc heap)).1.read 0 (formDbRequest c (c.calloc heap)).2

/-- `send_request(db_sock, inputBuffer, bufferInputSize)`. -/
def sent (c : DbCall) (heap : Mem UInt8) : List UInt8 :=
  (formDbRequest c (c.calloc heap)).1.read 0 c.inputSize

@[simp] theorem sent_length (c : DbCall) (heap : Mem UInt8) : (c.sent heap).length = c.inputSize := by
  simp [sent]

private theorem addIdentifier_snd {id : ItemType} (h : id ∈ identifiers) (buffer value : Mem UInt8)
    (p : Nat) : (addIdentifier buffer p id value).2 = p + 17 := by
  cases id <;> first | rfl | exact absurd h (by decide)

private theorem foldl_pushItem_snd (items : List PushItem) (s : Mem UInt8 × Nat) :
    (items.foldl (fun s x => Libck.pushItem s.1 s.2 x.type x.item) s).2 =
      s.2 + 17 * items.length := by
  induction items generalizing s with
  | nil => rfl
  | cons x xs ih =>
      have hstep : (Libck.pushItem s.1 s.2 x.type x.item).2 = s.2 + 17 := by
        obtain ⟨n, hn⟩ := Option.isSome_iff_exists.mp x.accepted
        simp only [Libck.pushItem, hn]
      rw [List.foldl_cons, ih, hstep, List.length_cons]
      omega

private theorem foldl_pullItem_snd (items : List ItemType) (s : Mem UInt8 × Nat) :
    (items.foldl (fun s t => Libck.pullItem s.1 s.2 t) s).2 = s.2 + items.length := by
  induction items generalizing s with
  | nil => rfl
  | cons t ts ih =>
      rw [List.foldl_cons, ih, List.length_cons]
      simp only [Libck.pullItem]
      omega

theorem formItems_snd (c : DbCall) (buffer : Mem UInt8) : (formItems c buffer).2 = c.inputSize := by
  simp only [formItems]
  rw [foldl_pullItem_snd, foldl_pushItem_snd, addIdentifier_snd c.key_accepted, inputSize,
    dbBufferInputSize]
  omega

/-- The terminator lies one byte behind what is allocated. -/
theorem formDbRequest_eq (c : DbCall) (buffer : Mem UInt8) :
    formDbRequest c buffer =
      ((formItems c buffer).1.write c.inputSize [ItemType.eom.code], c.inputSize + 1) := by
  simp only [formDbRequest, formItems_snd]

theorem formed_length (c : DbCall) (heap : Mem UInt8) : (c.formed heap).length = c.inputSize + 1 := by
  simp [formed, formDbRequest_eq]

theorem sent_append_eom (c : DbCall) (heap : Mem UInt8) :
    c.sent heap ++ [ItemType.eom.code] = c.formed heap := by
  have hlast : ((formItems c (c.calloc heap)).1.write c.inputSize [ItemType.eom.code]).read
      (0 + c.inputSize) 1 = [ItemType.eom.code] := by
    rw [Nat.zero_add]
    exact Mem.read_write_same _ c.inputSize [ItemType.eom.code]
  rw [sent, formed, formDbRequest_eq, Mem.read_add, hlast]

theorem not_writesBelow (c : DbCall) :
    ¬ Mem.WritesBelow c.inputSize fun buffer => (formDbRequest c buffer).1 := by
  intro h
  have hcell := h (fun _ => 0) c.inputSize (Nat.le_refl _)
  simp only [formDbRequest_eq] at hcell
  have heom := (formItems c fun _ => 0).1.write_inside c.inputSize [ItemType.eom.code] 0 (by decide)
  rw [Nat.add_zero, hcell] at heom
  exact absurd heom (by decide)

/-- What a call promises: it stays inside its buffer, it sends the request with its terminator,
and a server that answers has consumed what was sent. -/
structure SendsComplete (c : DbCall) : Prop where
  inside : Mem.WritesBelow c.inputSize fun buffer => (formDbRequest c buffer).1
  complete : ∀ heap, c.sent heap = c.formed heap
  consumed : ∀ heap db response a,
    analyzeRequest db (c.sent heap) (c.sent heap).length response = .ok a →
      a.consumed = (c.sent heap).length

/-- No call keeps the promise, and none keeps either of its first two parts. -/
theorem not_sendsComplete (c : DbCall) :
    ¬ c.SendsComplete ∧ (¬ Mem.WritesBelow c.inputSize fun buffer => (formDbRequest c buffer).1) ∧
      ∀ heap, c.sent heap ≠ c.formed heap := by
  refine ⟨fun h => c.not_writesBelow h.inside, c.not_writesBelow, fun heap h => ?_⟩
  have hlen := congrArg List.length h
  rw [sent_length, formed_length] at hlen
  omega

/-- A request for the key of the user with a temporary identity: 19 bytes allocated and sent, 20
bytes written, and the server believes that it has handled 20. -/
def keyOfTmsi : DbCall := ⟨.tmsi, fun _ => 0, tmsi_identifies, [], [.key]⟩

theorem not_sendsComplete_keyOfTmsi :
    keyOfTmsi.inputSize = 19 ∧ (formDbRequest keyOfTmsi fun _ => 0).1 19 = 1 ∧
      (keyOfTmsi.sent fun _ => 0).length = 19 ∧ (keyOfTmsi.formed fun _ => 0).length = 20 ∧
      (analyzeRequest (.init (some subscriber) fun _ => 0) (keyOfTmsi.sent fun _ => 0) 19
        fun _ => 0).map Answer.consumed = .ok 20 ∧ ¬ keyOfTmsi.SendsComplete := by
  have hcell : (formDbRequest keyOfTmsi fun _ => 0).1 19 = 1 := by decide +kernel
  refine ⟨rfl, hcell, rfl, by simp [formed_length]; rfl, by decide +kernel, fun h => ?_⟩
  have hkept : (formDbRequest keyOfTmsi fun _ => 0).1 19 = 0 :=
    h.inside (fun _ => 0) 19 (Nat.le_refl _)
  rw [hcell] at hkept
  exact absurd hkept (by decide)

def toCall (c : DbCall) : Call where
  id := c.dbKey
  idValue := c.dbKeyValue
  id_accepted := by
    obtain ⟨dbKey, value, hkey, _, _⟩ := c
    cases dbKey <;> first | rfl | exact absurd hkey (by decide)
  pushes := c.pushes.map fun x => ⟨x.type, x.item, fun _ => 0⟩
  pulls := c.pulls.map fun t => ⟨t, fun _ => 0⟩

theorem formDbRequest_eq_build {c : DbCall} (h : .getEnb ∉ c.pulls) (buffer : Mem UInt8) :
    formDbRequest c buffer = c.toCall.build buffer := by
  have hid : c.toCall.id ≠ .newEnb := by
    intro hnew
    have := c.key_accepted
    rw [show c.dbKey = .newEnb from hnew] at this
    exact absurd this (by decide)
  have hpush : ∀ (s : Mem UInt8 × Nat) (x : PushItem),
      pushArg s.1 s.2 ⟨x.type, x.item, fun _ => 0⟩ = Libck.pushItem s.1 s.2 x.type x.item := by
    intro s x
    refine if_neg fun hnew => ?_
    have := x.accepted
    rw [show x.type = .newEnb from hnew] at this
    exact absurd this (by decide)
  have hpull : ∀ (items : List ItemType) (s : Mem UInt8 × Nat), .getEnb ∉ items →
      items.foldl (fun s t => pullArg s.1 s.2 ⟨t, fun _ => 0⟩) s =
        items.foldl (fun s t => Libck.pullItem s.1 s.2 t) s := by
    intro items
    induction items with
    | nil => intro s _; rfl
    | cons t ts ih =>
        intro s hts
        have ht : t ≠ .getEnb := fun ht => hts (by simp [ht])
        have hstep : pullArg s.1 s.2 ⟨t, fun _ => 0⟩ = Libck.pullItem s.1 s.2 t := by
          simp [pullArg, ht]
        rw [List.foldl_cons, List.foldl_cons, hstep]
        exact ih _ fun hmem => hts (by simp [hmem])
  simp only [formDbRequest, formItems, Call.build, pushItems, if_neg hid, pullItems]
  simp only [toCall, List.foldl_map, hpush]
  rw [hpull _ _ h]
  rfl

/-- The request without its terminator is what travels. -/
theorem sent_eq_body {c : DbCall} (h : .getEnb ∉ c.pulls) (heap : Mem UInt8) :
    c.sent heap = (c.toCall.request (c.calloc heap)).body := by
  have hformed : c.formed heap = (c.toCall.request (c.calloc heap)).encode := by
    rw [formed, formDbRequest_eq_build h, ← Call.bytes_eq]
    rfl
  rw [← sent_append_eom] at hformed
  exact (List.append_inj' hformed rfl).1

end DbCall

end PublicCloudCore.Worker
