import PublicCloudCore.CorekubeDb.Wire

/-!
# The client library's request encoder

`libck.c`. A buffer is the memory behind its pointer and every function returns the buffer with
the pointer it has moved to; a value is the memory behind the pointer that the caller passes. All
that the encoder does is write consecutive blocks, so the bytes it builds are those of a request
whose slots keep old buffer content behind their values.
-/

namespace PublicCloudCore.Libck

open Framework CorekubeDb

/-- `buffer[0] = item; memcpy(buffer+1, value, n)`. -/
def tagged (buffer : Mem UInt8) (p : Nat) (item : ItemType) (value : Mem UInt8) (n : Nat) :
    Mem UInt8 :=
  (buffer.write p [item.code]).write (p + 1) (value.read 0 n)

def addIdentifier (buffer : Mem UInt8) (p : Nat) (id : ItemType) (value : Mem UInt8) :
    Mem UInt8 × Nat :=
  match id with
  | .imsi => ((tagged buffer p .imsi value imsiLen).write (p + 16) [0], p + 17)
  | .msin => (tagged buffer p .msin value msinLen, p + 17)
  | .tmsi => (tagged buffer p .tmsi value tmsiLen, p + 17)
  | .mmeUeS1apId => (tagged buffer p .mmeUeS1apId value mmeUeS1apIdLen, p + 17)
  | _ => (buffer, p)

/-- How many bytes the case of `push_item` copies; `none` is its default branch. -/
def pushItemLen : ItemType → Option Nat
  | .mmeUeS1apId => some mmeUeS1apIdLen
  | .enbUeS1apId => some enbUeS1apIdLen
  | .targetEnbUeS1apId => some enbUeS1apIdLen
  | .ueTeid => some teidLen
  | .spgwIp => some ipLen
  | .enbIp => some ipLen
  | .pdnIp => some ipLen
  -- `buffer[1] = *value`
  | .epcNasSequenceNumber => some 1
  | .ueNasSequenceNumber => some 1
  | .nextHopChainingCount => some 1
  | .authRes => some authResLen
  | .encKey => some keyLen
  | .intKey => some keyLen
  | .kasme1 => some keyLen
  | .kasme2 => some keyLen
  | .knh1 => some keyLen
  | .knh2 => some keyLen
  | .enbSourceSocket => some 4
  | .enbTargetSocket => some 4
  | _ => none

def pushItem (buffer : Mem UInt8) (p : Nat) (item : ItemType) (value : Mem UInt8) :
    Mem UInt8 × Nat :=
  match pushItemLen item with
  | some n => (tagged buffer p item value n, p + 17)
  | none => (buffer, p)

/-- The arguments of one PUSH item. Only `NEW_ENB` takes the second pointer. -/
structure PushArg where
  type : ItemType
  value : Mem UInt8
  sockNum : Mem UInt8

def pushArg (buffer : Mem UInt8) (p : Nat) (a : PushArg) : Mem UInt8 × Nat :=
  if a.type = .newEnb then
    ((tagged buffer p .newEnb a.value 4).write (p + 5) (a.sockNum.read 0 4), p + 17)
  else pushItem buffer p a.type a.value

def pushItems (buffer : Mem UInt8) (id : ItemType) (idValue : Mem UInt8) (items : List PushArg) :
    Mem UInt8 × Nat :=
  let start :=
    if id = .newEnb then (buffer.write 0 [ItemType.newEnb.code], 17)
    else addIdentifier buffer 0 id idValue
  items.foldl (fun s a => pushArg s.1 s.2 a) start

def pullItem (buffer : Mem UInt8) (p : Nat) (item : ItemType) : Mem UInt8 × Nat :=
  (buffer.write p [item.code], p + 1)

/-- The arguments of one PULL item. Only `GET_ENB` takes the pointer. -/
structure PullArg where
  type : ItemType
  enb : Mem UInt8

def pullArg (buffer : Mem UInt8) (p : Nat) (a : PullArg) : Mem UInt8 × Nat :=
  let (buffer, p) := pullItem buffer p a.type
  if a.type = .getEnb then (buffer.write p (a.enb.read 0 4), p + 4) else (buffer, p)

def pullItems (buffer : Mem UInt8) (pushLen : Nat) (items : List PullArg) : Mem UInt8 × Nat :=
  let s := items.foldl (fun s a => pullArg s.1 s.2 a) (buffer.write pushLen [0], pushLen + 1)
  pullItem s.1 s.2 .eom

structure SlotValue where
  item : ItemType
  value : List UInt8
  value_length : value.length ≤ 16

def SlotValue.block (s : SlotValue) : Mem.Block UInt8 := (s.item.code :: s.value, 17)

def SlotValue.push (s : SlotValue) (buffer : Mem UInt8) (p : Nat) : Push where
  tag := s.item.code
  payload := s.value ++ buffer.read (p + (s.value.length + 1)) (16 - s.value.length)
  payload_length := by have := s.value_length; simp; omega
  tag_ne_zero := ItemType.code_ne_zero _

@[simp] theorem SlotValue.push_tag (s : SlotValue) (buffer : Mem UInt8) (p : Nat) :
    (s.push buffer p).tag = s.item.code := rfl

theorem SlotValue.push_payload_take (s : SlotValue) (buffer : Mem UInt8) (p : Nat) {n : Nat}
    (h : n ≤ s.value.length) : (s.push buffer p).payload.take n = s.value.take n :=
  List.take_append_of_le_length h

def identityValue (id : ItemType) (value : Mem UInt8) : Option SlotValue :=
  match id with
  | .imsi => some ⟨.imsi, value.read 0 15 ++ [0], by simp⟩
  | .msin => some ⟨.msin, value.read 0 msinLen, by simp [msinLen]⟩
  | .tmsi => some ⟨.tmsi, value.read 0 tmsiLen, by simp [tmsiLen]⟩
  | .mmeUeS1apId => some ⟨.mmeUeS1apId, value.read 0 mmeUeS1apIdLen, by simp [mmeUeS1apIdLen]⟩
  | .newEnb => some ⟨.newEnb, [], by simp⟩
  | _ => none

theorem pushItemLen_le {item : ItemType} {n : Nat} (h : pushItemLen item = some n) : n ≤ 16 := by
  cases item <;> simp only [pushItemLen, Option.some.injEq, reduceCtorEq] at h <;> subst h <;>
    decide

def PushArg.slotValue? (a : PushArg) : Option SlotValue :=
  if a.type = .newEnb then
    some ⟨.newEnb, a.value.read 0 4 ++ a.sockNum.read 0 4, by simp⟩
  else
    match h : pushItemLen a.type with
    | some n => some ⟨a.type, a.value.read 0 n, by have := pushItemLen_le h; simp [this]⟩
    | none => none

def PullArg.pull (a : PullArg) : Pull where
  tag := a.type.code
  args := if a.type = .getEnb then a.enb.read 0 4 else []
  args_length := by
    by_cases h : a.type = .getEnb
    · simp [h, argLen]
    · have : a.type.code ≠ ItemType.getEnb.code := fun hc => h (ItemType.code_injective hc)
      simp [h, argLen, this]

@[simp] theorem PullArg.pull_tag (a : PullArg) : a.pull.tag = a.type.code := rfl

def PullArg.block (a : PullArg) : Mem.Block UInt8 := (a.pull.bytes, a.pull.bytes.length)

def pushValues (items : List PushArg) : List SlotValue := items.filterMap PushArg.slotValue?

theorem PushArg.slotValue?_item {a : PushArg} {s : SlotValue} (h : a.slotValue? = some s) :
    s.item = a.type := by
  unfold slotValue? at h
  split at h
  · next hnew => cases h; exact hnew.symm
  · split at h
    · cases h; rfl
    · cases h

theorem PushArg.slotValue?_of_len {a : PushArg} {n : Nat} (h : pushItemLen a.type = some n) :
    ∃ s, a.slotValue? = some s ∧ s.item = a.type ∧ s.value = a.value.read 0 n := by
  have hnew : a.type ≠ .newEnb := by
    intro hnew
    rw [hnew] at h
    cases h
  unfold slotValue?
  rw [if_neg hnew]
  split
  · next m hm =>
    obtain rfl : m = n := Option.some.inj (hm.symm.trans h)
    exact ⟨_, rfl, rfl, rfl⟩
  · next hm =>
    rw [h] at hm
    cases hm

theorem mem_pushValues {items : List PushArg} {s : SlotValue} (h : s ∈ pushValues items) :
    ∃ a ∈ items, s.item = a.type := by
  obtain ⟨a, ha, hs⟩ := List.mem_filterMap.mp h
  exact ⟨a, ha, PushArg.slotValue?_item hs⟩

private theorem tagged_eq (buffer : Mem UInt8) (p : Nat) (item : ItemType) (value : Mem UInt8)
    (n : Nat) : tagged buffer p item value n = buffer.write p (item.code :: value.read 0 n) :=
  Mem.write_write_adjacent buffer p [item.code] (value.read 0 n)

theorem pushArg_eq (buffer : Mem UInt8) (p : Nat) (a : PushArg) :
    pushArg buffer p a =
      (buffer.writeBlocks p (a.slotValue?.toList.map SlotValue.block),
        p + Mem.blocksLen (a.slotValue?.toList.map SlotValue.block)) := by
  by_cases hnew : a.type = .newEnb
  · have hwrite := Mem.write_write_adjacent buffer p
      (ItemType.newEnb.code :: a.value.read 0 4) (a.sockNum.read 0 4)
    simp only [List.length_cons, Mem.read_length] at hwrite
    simp only [pushArg, PushArg.slotValue?, hnew, if_true, tagged_eq, hwrite]
    rfl
  · simp only [pushArg, PushArg.slotValue?, if_neg hnew, pushItem]
    split
    · next n hn =>
      split
      · next m hm =>
        obtain rfl : n = m := Option.some.inj (hn.symm.trans hm)
        rw [tagged_eq]
        rfl
      · next hm => rw [hn] at hm; cases hm
    · next hn =>
      split
      · next m hm => rw [hn] at hm; cases hm
      · rfl

theorem foldl_pushArg (items : List PushArg) (buffer : Mem UInt8) (p : Nat) :
    items.foldl (fun s a => pushArg s.1 s.2 a) (buffer, p) =
      (buffer.writeBlocks p ((pushValues items).map SlotValue.block),
        p + 17 * (pushValues items).length) := by
  induction items generalizing buffer p with
  | nil => rfl
  | cons a as ih =>
      rw [List.foldl_cons, pushArg_eq, ih]
      rcases ha : a.slotValue? with _ | s
      · simp [pushValues, ha, Mem.writeBlocks]
      · simp only [pushValues, List.filterMap_cons_some ha, Option.toList_some, List.map_cons,
          List.map_nil, List.length_cons, Mem.writeBlocks, Mem.blocksLen_cons, Mem.blocksLen_nil,
          SlotValue.block, Prod.mk.injEq, Nat.add_zero, true_and]
        omega

theorem pullArg_eq (buffer : Mem UInt8) (p : Nat) (a : PullArg) :
    pullArg buffer p a = (buffer.writeBlocks p [a.block], p + a.pull.bytes.length) := by
  by_cases h : a.type = .getEnb
  · have hwrite := Mem.write_write_adjacent buffer p [ItemType.getEnb.code] (a.enb.read 0 4)
    simp only [List.length_singleton, List.singleton_append] at hwrite
    simp [pullArg, pullItem, h, hwrite, Mem.writeBlocks, PullArg.block, PullArg.pull, Pull.bytes]
  · simp [pullArg, pullItem, h, Mem.writeBlocks, PullArg.block, PullArg.pull, Pull.bytes]

theorem foldl_pullArg (items : List PullArg) (buffer : Mem UInt8) (p : Nat) :
    items.foldl (fun s a => pullArg s.1 s.2 a) (buffer, p) =
      (buffer.writeBlocks p (items.map PullArg.block),
        p + (pullBytes (items.map PullArg.pull)).length) := by
  induction items generalizing buffer p with
  | nil => rfl
  | cons a as ih =>
      rw [List.foldl_cons, pullArg_eq, ih]
      simp only [List.map_cons, pullBytes, List.flatMap_cons, List.length_append, Nat.add_assoc]
      rfl

/-- A call of `push_items` and `pull_items` whose identity starts a request. -/
structure Call where
  id : ItemType
  idValue : Mem UInt8
  id_accepted : (identityValue id idValue).isSome
  pushes : List PushArg
  pulls : List PullArg

namespace Call

def byImsi (imsi : Mem UInt8) (pushes : List PushArg) (pulls : List PullArg) : Call :=
  ⟨.imsi, imsi, rfl, pushes, pulls⟩

/-- The caller's two steps: `pull_items(buffer, push_items(buffer, ...), ...)`. -/
def build (c : Call) (buffer : Mem UInt8) : Mem UInt8 × Nat :=
  let (buffer, n) := pushItems buffer c.id c.idValue c.pushes
  pullItems buffer n c.pulls

/-- The bytes that the caller then sends. -/
def bytes (c : Call) (buffer : Mem UInt8) : List UInt8 :=
  (c.build buffer).1.read 0 (c.build buffer).2

def identity (c : Call) : SlotValue := (identityValue c.id c.idValue).get c.id_accepted

def blocks (c : Call) : List (Mem.Block UInt8) :=
  c.identity.block :: ((pushValues c.pushes).map SlotValue.block ++
    (([0], 1) :: (c.pulls.map PullArg.block ++ [([ItemType.eom.code], 1)])))

/-- The PUSH slots from offset `p` on. -/
def pushSlots (buffer : Mem UInt8) (p : Nat) : List SlotValue → List Push
  | [] => []
  | s :: ss => s.push buffer p :: pushSlots buffer (p + 17) ss

/-- The request that the bytes are. -/
def request (c : Call) (buffer : Mem UInt8) : Request where
  identity := (c.identity.push buffer 0).toSlot
  pushes := pushSlots buffer 17 (pushValues c.pushes)
  pulls := c.pulls.map PullArg.pull

@[simp] theorem pushSlots_length (buffer : Mem UInt8) (p : Nat) (ss : List SlotValue) :
    (pushSlots buffer p ss).length = ss.length := by
  induction ss generalizing p with
  | nil => rfl
  | cons s ss ih => simp [pushSlots, ih]

theorem mem_pushSlots {buffer : Mem UInt8} {p : Nat} {ss : List SlotValue} {q : Push}
    (h : q ∈ pushSlots buffer p ss) : ∃ s ∈ ss, q.tag = s.item.code := by
  induction ss generalizing p with
  | nil => simp [pushSlots] at h
  | cons s ss ih =>
      rcases List.mem_cons.mp h with rfl | h
      · exact ⟨s, by simp, rfl⟩
      · obtain ⟨t, ht, htag⟩ := ih h
        exact ⟨t, by simp [ht], htag⟩

theorem start_eq (c : Call) (buffer : Mem UInt8) :
    (if c.id = .newEnb then (buffer.write 0 [ItemType.newEnb.code], 17)
      else addIdentifier buffer 0 c.id c.idValue) =
    (buffer.write 0 c.identity.block.1, 17) := by
  obtain ⟨id, idValue, hid, pushes, pulls⟩ := c
  cases id <;> simp only [identityValue, Option.isSome_none, Bool.false_eq_true] at hid
  case imsi =>
    have hread : idValue.read 0 imsiLen = idValue.read 0 15 ++ [idValue 15] :=
      Mem.read_add idValue 0 15 1
    have hlast := Mem.write_write_adjacent buffer 0 (ItemType.imsi.code :: idValue.read 0 15)
    simp only [List.length_cons, Mem.read_length, List.cons_append, Nat.zero_add] at hlast
    have hzero : (tagged buffer 0 .imsi idValue imsiLen).write 16 [0] =
        buffer.write 0 (ItemType.imsi.code :: (idValue.read 0 15 ++ [0])) := by
      rw [tagged_eq, hread, ← hlast, ← hlast]
      exact Mem.write_write_same _ _ (Nat.le_refl _)
    simpa [addIdentifier, identity, identityValue, SlotValue.block] using hzero
  all_goals
    simp [addIdentifier, tagged_eq, identity, identityValue, SlotValue.block]

private theorem blocks_fit (c : Call) : Mem.BlocksFit c.blocks := by
  have hslot : ∀ s : SlotValue, s.block.1.length ≤ s.block.2 := fun s =>
    Nat.succ_le_succ s.value_length
  intro b hb
  simp only [blocks, List.mem_cons, List.mem_append, List.mem_map, List.not_mem_nil, or_false] at hb
  rcases hb with rfl | ⟨s, _, rfl⟩ | rfl | ⟨a, _, rfl⟩ | rfl
  · exact hslot _
  · exact hslot _
  · exact Nat.le_refl _
  · exact Nat.le_refl _
  · exact Nat.le_refl _

private theorem slots_pushes (buffer : Mem UInt8) (p : Nat) (ss : List SlotValue) :
    buffer.slots p (ss.map SlotValue.block) = pushBytes (pushSlots buffer p ss) := by
  induction ss generalizing p with
  | nil => rfl
  | cons s ss ih =>
      simp only [List.map_cons, Mem.slots, ih, pushSlots, pushBytes, List.flatMap_cons]
      simp [SlotValue.block, SlotValue.push, Slot.bytes]

private theorem slots_pulls (buffer : Mem UInt8) (p : Nat) (items : List PullArg) :
    buffer.slots p (items.map PullArg.block) = pullBytes (items.map PullArg.pull) := by
  induction items generalizing p with
  | nil => rfl
  | cons a as ih =>
      simp only [List.map_cons, Mem.slots, ih, pullBytes, List.flatMap_cons]
      simp [PullArg.block]

private theorem blocksLen_pushes (ss : List SlotValue) :
    Mem.blocksLen (ss.map SlotValue.block) = 17 * ss.length := by
  induction ss with
  | nil => rfl
  | cons s ss ih =>
      simp only [List.map_cons, Mem.blocksLen_cons, ih, SlotValue.block, List.length_cons]
      omega

private theorem slots_blocks (c : Call) (buffer : Mem UInt8) :
    buffer.slots 0 c.blocks = (c.request buffer).encode := by
  simp only [blocks, Mem.slots, Mem.slots_append, slots_pushes, slots_pulls]
  simp [Request.encode, Request.body, request, SlotValue.block, SlotValue.push, Slot.bytes]

theorem build_eq (c : Call) (buffer : Mem UInt8) :
    c.build buffer = (buffer.writeBlocks 0 c.blocks, (c.request buffer).encode.length) := by
  have hlen : (c.request buffer).encode.length =
      17 + 17 * (pushValues c.pushes).length + 1 +
        (pullBytes (c.pulls.map PullArg.pull)).length + 1 := by
    rw [Request.encode_length, Request.body_length]
    simp only [request, pushSlots_length]
    omega
  have hblocks : buffer.writeBlocks 0 c.blocks =
      ((((buffer.write 0 c.identity.block.1).writeBlocks 17
        ((pushValues c.pushes).map SlotValue.block)).write
          (17 + 17 * (pushValues c.pushes).length) [0]).writeBlocks
            (17 + 17 * (pushValues c.pushes).length + 1) (c.pulls.map PullArg.block)).write
              (17 + 17 * (pushValues c.pushes).length + 1 +
                (pullBytes (c.pulls.map PullArg.pull)).length) [ItemType.eom.code] := by
    have hpulls : Mem.blocksLen (c.pulls.map PullArg.block) =
        (pullBytes (c.pulls.map PullArg.pull)).length := by
      rw [← slots_pulls buffer 0, Mem.slots_length]
      intro b hb
      obtain ⟨a, _, rfl⟩ := List.mem_map.mp hb
      exact Nat.le_refl _
    simp only [blocks, Mem.writeBlocks, Mem.writeBlocks_append, blocksLen_pushes, hpulls,
      SlotValue.block, Nat.zero_add]
  simp only [build, pushItems, start_eq, foldl_pushArg, pullItems, foldl_pullArg, pullItem]
  rw [hblocks, hlen]

/-- What the library builds is a request on the wire. -/
theorem bytes_eq (c : Call) (buffer : Mem UInt8) :
    c.bytes buffer = (c.request buffer).encode := by
  have hread := Mem.read_writeBlocks buffer 0 c.blocks_fit
  have hlen : Mem.blocksLen c.blocks = (c.request buffer).encode.length := by
    rw [← slots_blocks, Mem.slots_length _ _ c.blocks_fit]
  rw [bytes, build_eq, ← hlen, hread, slots_blocks]

/-! The user that a call addresses. -/

theorem target_imsi {c : Call} (hid : c.id = .imsi) {key : UInt32}
    (hkey : hashImsi (c.idValue.read 0 15 ++ [0]) = some key) (buffer : Mem UInt8) :
    (c.request buffer).target = .user key := by
  obtain ⟨id, idValue, hacc, pushes, pulls⟩ := c
  subst hid
  have hslot : identify (ItemType.imsi.code :: (idValue.read 0 15 ++ [0])) =
      .ok (.user key) := by
    simp only [identify, ItemType.ofCode_code]
    rw [hkey]
  exact Request.target_of_slot (identify_append hslot (buffer.read 17 0))

theorem target_mmeUeS1apId {c : Call} (hid : c.id = .mmeUeS1apId) (buffer : Mem UInt8) :
    (c.request buffer).target =
      .user (hashMmeUeS1apId (c.idValue.read 0 mmeUeS1apIdLen)) := by
  obtain ⟨id, idValue, hacc, pushes, pulls⟩ := c
  subst hid
  have hslot : identify (ItemType.mmeUeS1apId.code :: idValue.read 0 mmeUeS1apIdLen) =
      .ok (.user (hashMmeUeS1apId (idValue.read 0 mmeUeS1apIdLen))) := by
    simp only [identify, ItemType.ofCode_code, Mem.read_length]
    rfl
  exact Request.target_of_slot (identify_append hslot (buffer.read 5 12))

end Call

end PublicCloudCore.Libck
