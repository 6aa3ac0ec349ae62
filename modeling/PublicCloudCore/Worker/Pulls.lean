import PublicCloudCore.Framework.Program
import PublicCloudCore.CorekubeDb.Serve
import PublicCloudCore.Worker.DbAccess

/-!
# What the worker pulls

A worker's handlers are programs that ask two things of their surroundings: a call of `db_access`
is one exchange with the database, and `ogs_pkbuf_alloc` returns a block that nobody has cleared.
`extract_db_values` sets a pointer for each item it finds in the response; the other members of
`corekube_db_pulls_t` keep what the stack held.
-/

namespace PublicCloudCore.Worker

open Framework CorekubeDb Libck

inductive Ptr
  | null
  -- points to no memory of the process
  | wild
  | to (mem : Mem UInt8)

/-- The memory behind a pointer, where there is one. -/
def Ptr.deref : Ptr → Option (Mem UInt8)
  | .to mem => some mem
  | _ => none

/-- `corekube_db_pulls_t`: a pointer for each item. -/
abbrev DbPulls := ItemType → Ptr

def pullsMember : ItemType → Option ItemType
  | .eom | .ueNasSequenceNumberNoInc | .newEnb => none
  | .randUpdate => some .rand
  | t => some t

/-- One turn of the loop of `extract_db_values`. -/
def extractDbValue (buffer : Mem UInt8) (dbPulls : DbPulls) (i : Nat) : DbPulls :=
  match (ItemType.ofCode (buffer i)).bind pullsMember with
  | some member => Function.update dbPulls member (.to (buffer.shift (i + 1)))
  | none => dbPulls

def extractDbValues (buffer : Mem UInt8) (n : Nat) (dbPulls : DbPulls) : DbPulls :=
  ((List.range ((n + 16) / 17)).map (17 * ·)).foldl (extractDbValue buffer) dbPulls

inductive Query
  | dbAccess (c : DbCall)
  | pkbufAlloc (content : List UInt8)

/-- What a call of `db_access` finds: the bytes received, what the structure on the stack held
before, and the heap from `outputBuffer` on. -/
structure Reply where
  received : List UInt8
  stack : DbPulls
  heap : Mem UInt8

abbrev Answer : Query → Type
  | .dbAccess _ => Reply
  | .pkbufAlloc _ => Mem UInt8

/-- A downlink message that `nas_5gs_security_encode` passes to `ogs_nas_mac_calculate`; `owner`
names the UE whose keys these are. -/
structure Protection where
  owner : UInt32
  knasInt : List UInt8
  dlCount : UInt32
  message : List UInt8

abbrev Handler (α : Type) := Prog Query Answer Protection α

/-- What `extract_db_values` makes of the structure on the stack. -/
def Reply.pulls (reply : Reply) : DbPulls :=
  extractDbValues (reply.heap.write 0 reply.received) reply.received.length reply.stack

def dbAccess (c : DbCall) : Handler DbPulls := do
  let reply : Reply ← Prog.call (Query.dbAccess c)
  if 0 < c.pulls.length then
    Prog.assert (reply.received.length = 17 * c.pulls.length)
    return reply.pulls
  else return reply.stack

/-- The use of a pointer: the process ends where it leads nowhere. -/
def deref (p : Ptr) : Handler (Mem UInt8) := Prog.require p.deref

/-- What nobody has initialised. -/
structure Env where
  stack : DbCall → DbPulls
  heap : DbCall → Mem UInt8
  pool : List UInt8 → Mem UInt8

/-- The database and the response array of the thread that serves the worker. -/
structure World where
  db : Db
  response : Mem UInt8

/-- The server answers each request with the bytes it makes of it; the worker receives no more
than it expects. -/
def World.serve (env : Env) (w : World) : (q : Query) → Answer q × World
  | .dbAccess c =>
      match analyzeRequest w.db (c.sent fun _ => 0) c.inputSize w.response with
      | .error _ => (⟨[], env.stack c, env.heap c⟩, w)
      | .ok a =>
          (⟨(a.response.read 0 a.responseLen).take (dbBufferOutputSize c.pulls.length),
            env.stack c, env.heap c⟩, ⟨a.db, a.response⟩)
  | .pkbufAlloc content => (env.pool content, w)

def workerItems : List ItemType :=
  [.tmsi, .spgwIp, .pdnIp, .ueNasSequenceNumber, .epcNasSequenceNumber, .key, .opc, .rand,
    .mmeUeS1apId, .epcTeid, .kasme1, .kasme2, .knh1]

namespace DbCall

/-- The request that the sent bytes are. -/
def request (c : DbCall) : Request := c.toCall.request (c.calloc fun _ => 0)

/-- A call as the worker makes them: it pulls some of its items, none of them twice. -/
structure Plain (c : DbCall) : Prop where
  pulls_subset : c.pulls ⊆ workerItems
  pulls_nodup : c.pulls.Nodup

variable {c : DbCall}

theorem Plain.pulls_length (h : c.Plain) : c.pulls.length ≤ 13 :=
  (h.pulls_nodup.subperm h.pulls_subset).length_le

theorem Plain.sent_eq (h : c.Plain) : (c.sent fun _ => 0) = c.request.body := by
  have hget : .getEnb ∉ c.pulls := fun hmem => absurd (h.pulls_subset hmem) (by decide)
  exact sent_eq_body hget _

theorem Plain.pullsNoEom (h : c.Plain) : c.request.PullsNoEom := by
  intro p hp
  simp only [request, Call.request, toCall, List.map_map, List.mem_map] at hp
  obtain ⟨t, ht, rfl⟩ := hp
  intro hcode
  have hmem := h.pulls_subset ht
  rw [show t = .eom from ItemType.code_injective hcode] at hmem
  exact absurd hmem (by decide)

theorem request_pulls (c : DbCall) :
    c.request.pulls = c.pulls.map fun t => (⟨t, fun _ => 0⟩ : PullArg).pull := by
  simp [request, Call.request, toCall, Function.comp_def]

def PushedAs (x : PushItem) (p : Push) : Prop :=
  p.tag = x.type.code ∧
    ∀ n, pushItemLen x.type = some n → p.payload.take n = x.item.read 0 n

private theorem pushedAs_pushSlots (buffer : Mem UInt8) (items : List PushItem) (p : Nat) :
    List.Forall₂ PushedAs items (Call.pushSlots buffer p
      (pushValues (items.map fun x => ⟨x.type, x.item, fun _ => 0⟩))) := by
  induction items generalizing p with
  | nil => exact .nil
  | cons x xs ih =>
      obtain ⟨n, hn⟩ := Option.isSome_iff_exists.mp x.accepted
      obtain ⟨s, hs, hitem, hvalue⟩ :=
        PushArg.slotValue?_of_len (a := ⟨x.type, x.item, fun _ => 0⟩) hn
      simp only [List.map_cons, pushValues, List.filterMap_cons_some hs]
      refine .cons ⟨by rw [SlotValue.push_tag, hitem], fun m hm => ?_⟩ (ih _)
      obtain rfl : n = m := Option.some.inj (hn.symm.trans hm)
      rw [s.push_payload_take _ _ (by simp [hvalue]), hvalue]
      exact List.take_of_length_le (by simp)

theorem request_pushes (c : DbCall) : List.Forall₂ PushedAs c.pushes c.request.pushes :=
  pushedAs_pushSlots _ c.pushes 17

theorem target_mmeUeS1apId (hid : c.dbKey = .mmeUeS1apId) :
    c.request.target = .user (hashMmeUeS1apId (c.dbKeyValue.read 0 mmeUeS1apIdLen)) :=
  Call.target_mmeUeS1apId (c := c.toCall) hid _

theorem target_user (c : DbCall) : ∃ key, c.request.target = .user key := by
  have hid := c.request.identify_body []
  have hbody : c.request.body = c.dbKey.code :: c.request.body.tail := by
    obtain ⟨dbKey, value, hkey, pushes, pulls⟩ := c
    cases dbKey <;> first | rfl | exact absurd hkey (by decide)
  rw [List.append_nil, hbody] at hid
  have hmem := c.key_accepted
  generalize c.request.target = i at hid ⊢
  generalize c.dbKey = id at hid hmem
  simp only [identify, ItemType.ofCode_code] at hid
  simp only [identifiers, List.mem_cons, List.not_mem_nil, or_false] at hmem
  rcases hmem with rfl | rfl | rfl | rfl <;> simp only at hid <;> split at hid <;> cases hid <;>
    exact ⟨_, rfl⟩

end DbCall

private theorem workerItems_member {t : ItemType} (h : t ∈ workerItems) :
    pullsMember t = some t := by
  have key : ∀ t ∈ workerItems, pullsMember t = some t := by decide
  exact key t h

theorem pullSwitch_workerItem {t : ItemType} (ht : t ∈ workerItems) (u : UserInfo)
    (eNBs : HashMap hashEnbInfo) (rand : RandStream) (args : List UInt8) :
    ∃ x, pullSwitch (some u) eNBs rand t.code args = .ok (some x) ∧ x.tag = t := by
  simp only [workerItems, List.mem_cons, List.not_mem_nil, or_false] at ht
  rcases ht with rfl | rfl | rfl | rfl | rfl | rfl | rfl | rfl | rfl | rfl | rfl | rfl | rfl <;>
    exact ⟨_, rfl, rfl⟩

private theorem foldl_extractDbValue {buffer : Mem UInt8} {ts : List ItemType} {p : Nat}
    (hsub : ts ⊆ workerItems) (hnodup : ts.Nodup)
    (htags : ∀ i (hi : i < ts.length), buffer (17 * (p + i)) = ts[i].code) (dbPulls : DbPulls) :
    let dbPulls' := ((List.range' p ts.length).map (17 * ·)).foldl (extractDbValue buffer) dbPulls
    (∀ i (hi : i < ts.length), dbPulls' ts[i] = .to (buffer.shift (17 * (p + i) + 1))) ∧
      ∀ t, t ∉ ts → dbPulls' t = dbPulls t := by
  induction ts generalizing p dbPulls with
  | nil => exact ⟨fun i hi => absurd hi (Nat.not_lt_zero i), fun _ _ => rfl⟩
  | cons t ts ih =>
      intro dbPulls'
      have ht : t ∈ workerItems := hsub (by simp)
      have hstep : extractDbValue buffer dbPulls (17 * p) =
          Function.update dbPulls t (.to (buffer.shift (17 * p + 1))) := by
        have htag : buffer (17 * p) = t.code := htags 0 (by simp)
        simp [extractDbValue, htag, workerItems_member ht]
      have hrest := ih (p := p + 1) (fun s hs => hsub (by simp [hs])) hnodup.of_cons
        (fun i hi => by
          have := htags (i + 1) (by simpa using hi)
          rwa [List.getElem_cons_succ, show p + (i + 1) = p + 1 + i by omega] at this)
        (Function.update dbPulls t (.to (buffer.shift (17 * p + 1))))
      have hfold : dbPulls' = ((List.range' (p + 1) ts.length).map (17 * ·)).foldl
          (extractDbValue buffer) (Function.update dbPulls t (.to (buffer.shift (17 * p + 1)))) := by
        show ((List.range' p (ts.length + 1)).map (17 * ·)).foldl _ dbPulls = _
        rw [List.range'_succ, List.map_cons, List.foldl_cons, hstep]
      rw [hfold]
      constructor
      · intro i hi
        cases i with
        | zero =>
            have hfresh : t ∉ ts := (List.nodup_cons.mp hnodup).1
            rw [List.getElem_cons_zero, hrest.2 t hfresh, Function.update_self]
            rfl
        | succ i =>
            have := hrest.1 i (by simpa using hi)
            rwa [List.getElem_cons_succ, show p + (i + 1) = p + 1 + i by omega]
      · intro s hs
        have hne : s ≠ t := fun h => hs (by simp [h])
        rw [hrest.2 s fun hmem => hs (by simp [hmem]), Function.update_of_ne hne]

/-- A response with one slot for each of the items gives each of them its own pointer, and leaves
the other members alone. -/
theorem extractDbValues_slots {buffer : Mem UInt8} {ts : List ItemType} (hsub : ts ⊆ workerItems)
    (hnodup : ts.Nodup) (htags : ∀ i (hi : i < ts.length), buffer (17 * i) = ts[i].code)
    (dbPulls : DbPulls) :
    (∀ i (hi : i < ts.length), extractDbValues buffer (17 * ts.length) dbPulls ts[i] =
        .to (buffer.shift (17 * i + 1))) ∧
      ∀ t, t ∉ ts → extractDbValues buffer (17 * ts.length) dbPulls t = dbPulls t := by
  have hcount : (17 * ts.length + 16) / 17 = ts.length := by omega
  have h := foldl_extractDbValue (p := 0) hsub hnodup (by simpa using htags) dbPulls
  simp only [extractDbValues, hcount, List.range_eq_range']
  simpa using h

theorem World.serve_unknown {w : World} {c : DbCall} (hc : c.Plain) {key : UInt32}
    (hkey : c.request.target = .user key) (hu : w.db.user? key = none) (hpos : 0 < c.pulls.length)
    (env : Env) :
    w.serve env (.dbAccess c) =
      (⟨[0], env.stack c, env.heap c⟩, ⟨w.db, w.response.write 0 [0]⟩) := by
  have hlen : 1 ≤ dbBufferOutputSize c.pulls.length := by
    simp only [dbBufferOutputSize]
    omega
  have hanalyze := @analyzeRequest_refused w.db c.request c.inputSize [] (Or.inr ⟨key, hkey, hu⟩)
    w.response
  rw [List.append_nil] at hanalyze
  simp only [serve, hc.sent_eq, hanalyze, refuse]
  rw [List.take_of_length_le (by simpa using hlen)]
  rfl

theorem World.serve_known {w : World} {c : DbCall} (hc : c.Plain) {key : UInt32} {u : UserInfo}
    (hkey : c.request.target = .user key) (hu : w.db.user? key = some u) (env : Env) :
    ∃ work, c.request.run (.start w.db (some u) w.response) = .ok work ∧
      w.serve env (.dbAccess c) =
        (⟨work.response.read 0 (17 * c.pulls.length), env.stack c, env.heap c⟩,
          ⟨work.commit w.db key, work.response⟩) := by
  have hcount : c.request.pulls.length = c.pulls.length := by simp [DbCall.request_pulls]
  have hfew := hc.pulls_length
  obtain ⟨work, hrun⟩ := (c.request.run_ok_iff (.start w.db (some u) w.response)).mpr
    ⟨fun hnone => by simp [Work.start] at hnone,
      fits_of_length _ _ _ (by simp only [Work.start, bufferLen]; omega)⟩
  have hoff : work.resOffset = 17 * c.pulls.length := by
    have hpulls := hrun
    rw [c.request.run_user rfl] at hpulls
    obtain ⟨_, hoff, _⟩ := foldlM_pullSlot_frame hpulls
    have hzero : ((Work.start w.db (some u) w.response).pushed c.request u).resOffset = 0 := rfl
    rw [hoff, hzero, hcount, Nat.zero_add]
  have hlen : c.request.body.length = c.inputSize := by
    rw [← hc.sent_eq]
    exact c.sent_length _
  have hanalyze := @analyzeRequest_user w.db c.request key u [] c.inputSize hkey hu hc.pullsNoEom
    (Or.inl hlen.symm) w.response
  rw [List.append_nil, hrun] at hanalyze
  refine ⟨work, hrun, ?_⟩
  simp only [serve, hc.sent_eq, hanalyze, Except.map, hoff]
  rw [List.take_of_length_le (by simp [dbBufferOutputSize])]

private theorem run_slot {db : Db} {c : DbCall} (hc : c.Plain) {u : UserInfo} {response : Mem UInt8}
    {work : Work} (hrun : c.request.run (.start db (some u) response) = .ok work)
    {before after : List ItemType} {t : ItemType} (hsplit : c.pulls = before ++ t :: after) :
    ∃ u₁ eNBs rand x, pullSwitch (some u₁) eNBs rand t.code [] = .ok (some x) ∧ x.tag = t ∧
      x.bytes.length ≤ 16 ∧
      (∀ f, (∀ s ∈ before, pullTouches s ≠ some f) →
        u₁.get f = (applyPushes c.request.pushes u).get f) ∧
      ∀ j (hj : j < (t.code :: x.bytes).length),
        work.response (17 * before.length + j) = (t.code :: x.bytes)[j] := by
  have ht : t ∈ workerItems := hc.pulls_subset (by rw [hsplit]; simp)
  have hget : ∀ s ∈ c.pulls, s ≠ .getEnb := by
    intro s hs heq
    exact absurd (hc.pulls_subset (heq ▸ hs)) (by decide)
  have hargs : (⟨t, fun _ => 0⟩ : PullArg).pull.args = [] :=
    if_neg (hget t (by rw [hsplit]; simp))
  rw [Request.run_user _ rfl, DbCall.request_pulls, hsplit, List.map_append, List.map_cons] at hrun
  obtain ⟨w₁, u₁, a, hbefore, hu₁, _, hswitch, hcells⟩ := foldlM_pullSlot_slot hrun rfl
  obtain ⟨u₁', hu₁', hframe, _⟩ := foldlM_pullSlot_user hbefore rfl
  obtain rfl : u₁ = u₁' := Option.some.inj (hu₁.symm.trans hu₁')
  have hlen := pullSwitch_length hswitch
  rw [hargs] at hswitch
  obtain ⟨x, hx, htag⟩ := pullSwitch_workerItem ht u₁
    ((Work.start db (some u) response).pushed c.request u).eNBs w₁.rand []
  obtain rfl : some x = a := Except.ok.inj (hx.symm.trans hswitch)
  have hshort : x.bytes.length ≤ 16 := answerLen_le hlen.symm
  refine ⟨u₁, _, w₁.rand, x, hx, htag, hshort, fun f hf => hframe f ?_, fun j hj => ?_⟩
  · intro p hp
    obtain ⟨s, hs, rfl⟩ := List.mem_map.mp hp
    show (ItemType.ofCode s.code).bind pullTouches ≠ some f
    rw [ItemType.ofCode_code]
    exact hf s hs
  · have hcell := hcells j (by rw [List.length_cons] at hj; omega)
    have hzero : ((Work.start db (some u) response).pushed c.request u).resOffset = 0 := rfl
    rw [hzero, Nat.zero_add, List.length_map] at hcell
    rw [hcell, show PullAnswer.block (some x) = t.code :: x.bytes by rw [← htag]; rfl]
    exact List.getD_eq_getElem _ _ hj

structure Known (w : World) (c : DbCall) (key : UInt32) (u : UserInfo) : Prop where
  plain : c.Plain
  pulls_pos : 0 < c.pulls.length
  target : c.request.target = .user key
  user : w.db.user? key = some u

namespace Known

variable {w : World} {c : DbCall} {key : UInt32} {u : UserInfo} {env : Env}

theorem received_length (h : Known w c key u) :
    (w.serve env (.dbAccess c)).1.received.length = 17 * c.pulls.length := by
  obtain ⟨work, _, hserve⟩ := World.serve_known h.plain h.target h.user env
  rw [hserve]
  exact Mem.read_length _ _ _

private theorem buffer (h : Known w c key u) (env : Env) :
    ∃ work buffer, c.request.run (.start w.db (some u) w.response) = .ok work ∧
      (w.serve env (.dbAccess c)).1.pulls =
        extractDbValues buffer (17 * c.pulls.length) (env.stack c) ∧
      (∀ i < 17 * c.pulls.length, buffer i = work.response i) ∧
      ∀ i (hi : i < c.pulls.length), buffer (17 * i) = c.pulls[i].code := by
  obtain ⟨work, hrun, hserve⟩ := World.serve_known h.plain h.target h.user env
  have hbuffer : ∀ i < 17 * c.pulls.length,
      (env.heap c).write 0 (work.response.read 0 (17 * c.pulls.length)) i = work.response i := by
    intro i hi
    have := (env.heap c).write_inside 0 (work.response.read 0 (17 * c.pulls.length)) i
      (by simpa using hi)
    simpa using this
  refine ⟨work, _, hrun, ?_, hbuffer, fun i hi => ?_⟩
  · rw [hserve]
    simp only [Reply.pulls, Mem.read_length]
  · have hcut : c.pulls = c.pulls.take i ++ c.pulls[i] :: c.pulls.drop (i + 1) := by simp
    obtain ⟨_, _, _, x, _, _, _, _, hcells⟩ := run_slot h.plain hrun hcut
    have hcell := hcells 0 (by simp)
    rw [List.length_take, Nat.min_eq_left (Nat.le_of_lt hi), Nat.add_zero] at hcell
    rw [hbuffer _ (by omega), hcell, List.getElem_cons_zero]

theorem pulls_slot (h : Known w c key u) (env : Env) {before after : List ItemType} {t : ItemType}
    (hsplit : c.pulls = before ++ t :: after) :
    ∃ u₁ eNBs rand x mem, pullSwitch (some u₁) eNBs rand t.code [] = .ok (some x) ∧
      (∀ f, (∀ s ∈ before, pullTouches s ≠ some f) →
        u₁.get f = (applyPushes c.request.pushes u).get f) ∧
      (w.serve env (.dbAccess c)).1.pulls t = .to mem ∧
      ∀ j (hj : j < x.bytes.length), mem j = x.bytes[j] := by
  obtain ⟨work, buffer, hrun, hpulls, hbuffer, htags⟩ := h.buffer env
  obtain ⟨u₁, eNBs, rand, x, hx, _, hshort, hframe, hcells⟩ := run_slot h.plain hrun hsplit
  have hcount : c.pulls.length = before.length + (after.length + 1) := by rw [hsplit]; simp
  have hpointer := (extractDbValues_slots h.plain.pulls_subset h.plain.pulls_nodup htags
    (env.stack c)).1 before.length (by omega)
  rw [List.getElem_of_eq hsplit, List.getElem_append_right (Nat.le_refl _)] at hpointer
  simp only [Nat.sub_self, List.getElem_cons_zero] at hpointer
  refine ⟨u₁, eNBs, rand, x, _, hx, hframe, by rw [hpulls, hpointer], fun j hj => ?_⟩
  have hcell := hcells (j + 1) (by simpa using hj)
  rw [List.getElem_cons_succ] at hcell
  rw [← hcell, Mem.shift, hbuffer _ (by omega)]
  congr 1
  omega

theorem pulls_other (h : Known w c key u) (env : Env) {t : ItemType} (ht : t ∉ c.pulls) :
    (w.serve env (.dbAccess c)).1.pulls t = env.stack c t := by
  obtain ⟨_, buffer, _, hpulls, _, htags⟩ := h.buffer env
  rw [hpulls]
  exact (extractDbValues_slots h.plain.pulls_subset h.plain.pulls_nodup htags (env.stack c)).2 t ht

/-- The pointer of an item that was pulled leads into the response, at its slot. -/
theorem pulls_eq (h : Known w c key u) (env : Env) {before after : List ItemType} {t : ItemType}
    (hsplit : c.pulls = before ++ t :: after) :
    (w.serve env (.dbAccess c)).1.pulls t =
      .to (((env.heap c).write 0 (w.serve env (.dbAccess c)).1.received).shift
        (17 * before.length + 1)) := by
  obtain ⟨work, hrun, hserve⟩ := World.serve_known h.plain h.target h.user env
  have hcount : c.pulls.length = before.length + (after.length + 1) := by rw [hsplit]; simp
  have htags : ∀ i (hi : i < c.pulls.length), (env.heap c).write 0
      (work.response.read 0 (17 * c.pulls.length)) (17 * i) = c.pulls[i].code := by
    intro i hi
    have hcut : c.pulls = c.pulls.take i ++ c.pulls[i] :: c.pulls.drop (i + 1) := by simp
    obtain ⟨_, _, _, x, _, _, _, _, hcells⟩ := run_slot h.plain hrun hcut
    have hcell := hcells 0 (by simp)
    rw [List.length_take, Nat.min_eq_left (Nat.le_of_lt hi), Nat.add_zero,
      List.getElem_cons_zero] at hcell
    have hinside := (env.heap c).write_inside 0 (work.response.read 0 (17 * c.pulls.length))
      (17 * i) (by rw [Mem.read_length]; omega)
    rw [Nat.zero_add, Mem.getElem_read, Nat.zero_add] at hinside
    exact hinside.trans hcell
  have hpointer := (extractDbValues_slots h.plain.pulls_subset h.plain.pulls_nodup htags
    (env.stack c)).1 before.length (by omega)
  rw [List.getElem_of_eq hsplit, List.getElem_append_right (Nat.le_refl _)] at hpointer
  simp only [Nat.sub_self, List.getElem_cons_zero] at hpointer
  rw [hserve]
  simp only [Reply.pulls, Mem.read_length]
  exact hpointer

theorem next (h : Known w c key u) (env : Env) :
    ∃ u', (∀ key', (w.serve env (.dbAccess c)).2.db.user? key' =
        if key' = key then some u' else w.db.user? key') ∧
      ∀ f, (∀ t ∈ c.pulls, pullTouches t ≠ some f) →
        u'.get f = (applyPushes c.request.pushes u).get f := by
  obtain ⟨work, hrun, hserve⟩ := World.serve_known h.plain h.target h.user env
  obtain ⟨u', hu', hhash, _⟩ := Request.run_user_frame rfl hrun
  rw [Request.run_user _ rfl] at hrun
  obtain ⟨u'', hu'', hframe, _⟩ := foldlM_pullSlot_user hrun rfl
  obtain rfl : u' = u'' := Option.some.inj (hu'.symm.trans hu'')
  refine ⟨u', fun key' => ?_, fun f hf => hframe f ?_⟩
  · rw [hserve]
    exact Work.commit_user? h.user hu' (hhash.trans (Db.hash_of_user? h.user)) key'
  · intro p hp
    rw [DbCall.request_pulls] at hp
    obtain ⟨t, ht, rfl⟩ := List.mem_map.mp hp
    show (ItemType.ofCode t.code).bind pullTouches ≠ some f
    rw [ItemType.ofCode_code]
    exact hf t ht

/-! `db_access` in these surroundings. -/

theorem wp_dbAccess (h : Known w c key u) (aborts : Prop) (allowed : Query → Prop)
    (post : DbPulls → World → Prop) :
    (dbAccess c).wp (Prog.servedReading (World.serve env) aborts allowed) w post ↔
      allowed (.dbAccess c) ∧
        post (w.serve env (.dbAccess c)).1.pulls (w.serve env (.dbAccess c)).2 := by
  simp only [dbAccess, if_pos h.pulls_pos, Prog.wp_bind, Prog.wp_call, Prog.wp_pure,
    Prog.wp_assert]
  simp only [Prog.servedReading, h.received_length, if_true]

end Known

end PublicCloudCore.Worker
