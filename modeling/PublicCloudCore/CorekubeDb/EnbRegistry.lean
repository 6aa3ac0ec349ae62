import PublicCloudCore.CorekubeDb.Server
import PublicCloudCore.Framework.Transition

/-!
# The registry of eNBs

`NEW_ENB` adds an entry to the map of eNBs and `GET_ENB` looks one up. The map refuses a key that
it has, and the handler goes on without a word, so the entry that a lookup finds is the first one
that was registered under its identifier.
-/

namespace PublicCloudCore.CorekubeDb

open Framework

theorem Push.sockNum_le (p : Push) : 4 ≤ (p.payload.drop 4).length := by
  rw [List.length_drop, p.payload_length]
  decide

def Push.enb? (p : Push) : Option ENBInfo :=
  if p.tag = ItemType.newEnb.code then
    some (createEnb p.payload (p.payload.drop 4) p.sockNum_le)
  else none

def Request.registrations (r : Request) : List ENBInfo := r.pushes.filterMap Push.enb?

/-- The first entry under an identifier. -/
def firstEnb (registered : List ENBInfo) (i : UInt32) : Option ENBInfo :=
  registered.find? fun enb => enb.enbId == i

/-- The most recent entry under an identifier. -/
def lastEnb (registered : List ENBInfo) (i : UInt32) : Option ENBInfo :=
  registered.findRev? fun enb => enb.enbId == i

theorem firstEnb_append (old new : List ENBInfo) (i : UInt32) :
    firstEnb (old ++ new) i = (firstEnb old i).or (firstEnb new i) :=
  List.find?_append

theorem Push.applyEnbs_get (p : Push) (eNBs : HashMap hashEnbInfo) (i : UInt32) :
    hashmapGet (p.applyEnbs eNBs) i = (hashmapGet eNBs i).or (firstEnb p.enb?.toList i) := by
  unfold Push.applyEnbs Push.enb?
  split
  · rw [hashmapGet_add]
    congr 1
    rw [Option.toList_some, firstEnb, List.find?_singleton]
    split <;> split <;> simp_all [hashEnbInfo]
  · rw [Option.toList_none, firstEnb, List.find?_nil, Option.or_none]

theorem applyEnbPushes_get (pushes : List Push) (eNBs : HashMap hashEnbInfo) (i : UInt32) :
    hashmapGet (applyEnbPushes pushes eNBs) i =
      (hashmapGet eNBs i).or (firstEnb (pushes.filterMap Push.enb?) i) := by
  induction pushes generalizing eNBs with
  | nil => exact (Option.or_none).symm
  | cons p ps ih =>
      have hcons : (p :: ps).filterMap Push.enb? =
          p.enb?.toList ++ ps.filterMap Push.enb? := by
        rw [List.filterMap_cons]
        rcases p.enb? with _ | enb <;> rfl
      rw [hcons, firstEnb_append, ← Option.or_assoc, ← p.applyEnbs_get]
      exact ih _

/-- The server and all that has been registered, in order. -/
structure Registry where
  db : Db
  registered : List ENBInfo

namespace Registry

/-- A refused request registers nothing. -/
def registers (s : Registry) (m : Received) : List ENBInfo :=
  if m.Served s.db then m.request.registrations else []

def step (s : Registry) (m : Received) : Option Registry :=
  match m.handle s.db with
  | .ok a => some ⟨a.db, s.registered ++ s.registers m⟩
  | .error _ => none

/-- A server whose map of eNBs `init_db` has just made. -/
def start (imsiMap : HashMap hashImsiUserInfo) (rand : RandStream) (size : Nat)
    (initval : UInt32) : Registry where
  db := { imsiMap, eNBs := .init size initval, rand }
  registered := []

def FirstWins (s : Registry) : Prop :=
  ∀ i, hashmapGet s.db.eNBs i = firstEnb s.registered i

theorem firstWins_start (imsiMap : HashMap hashImsiUserInfo) (rand : RandStream) (size : Nat)
    (initval : UInt32) : (start imsiMap rand size initval).FirstWins := by
  intro i
  have hempty : (HashMap.init size initval : HashMap hashEnbInfo).bucket i = [] := by
    have hlt := (HashMap.init size initval : HashMap hashEnbInfo).index_lt i
    simp only [HashMap.init, List.length_replicate] at hlt
    simp [HashMap.bucket, HashMap.init, List.getD_eq_getElem?_getD, hlt]
  rw [start, hashmapGet, hempty]
  rfl

theorem FirstWins.step {s s' : Registry} {m : Received} (h : s.FirstWins)
    (hstep : s.step m = some s') : s'.FirstWins := by
  unfold Registry.step at hstep
  split at hstep
  · next a ha =>
    cases hstep
    intro i
    show hashmapGet a.db.eNBs i = firstEnb (s.registered ++ s.registers m) i
    rcases Received.handle_ok ha with ⟨hserved, w, hrun, _, _, henbs, _⟩ | ⟨hno, hdb, _⟩
    · rw [henbs, Request.run_eNBs hrun, applyEnbPushes_get, registers, if_pos hserved,
        firstEnb_append]
      exact congrArg (Option.or · _) (h i)
    · rw [hdb, registers, if_neg hno, List.append_nil]
      exact h i
  · cases hstep

/-- The slot of a `GET_ENB` item shows the socket number of the entry that the lookup finds. -/
theorem getEnb_slot {m : Received} {db : Db} {a : Answer} (h : m.handle db = .ok a)
    (hserved : m.Served db) {before after : List Pull} {p : Pull}
    (hpulls : m.request.pulls = before ++ p :: after) (hp : p.tag = ItemType.getEnb.code)
    {enb : ENBInfo}
    (henb : hashmapGet (applyEnbPushes m.request.pushes db.eNBs) (arrayToUint32 p.args) =
      some enb) :
    a.response.read (17 * before.length) 5 = ItemType.getEnb.code :: enb.sockNum ∧
      17 * before.length + 17 ≤ a.responseLen := by
  rcases Received.handle_ok h with ⟨_, w, hrun, hresp, hlen, _⟩ | ⟨hno, _⟩
  · rw [m.request.run_eq] at hrun
    split at hrun
    · cases hrun
    rw [hpulls] at hrun
    obtain ⟨w₁, x, _, _, hx, hslot⟩ := foldlM_pullSlot_at hrun
    obtain ⟨_, hoff, _⟩ := foldlM_pullSlot_frame hrun
    have hargs : p.args.length = 4 := by rw [p.args_length, argLen, if_pos hp]
    have htake : p.args.take 4 = p.args := List.take_of_length_le (Nat.le_of_eq hargs)
    have hshort : ¬ p.args.length < 4 := by omega
    simp only [Work.start] at hx hslot hoff
    rw [hp] at hx
    simp only [pullSwitch, ItemType.ofCode_code, if_neg hshort, htake, henb] at hx
    cases hx
    constructor
    · apply List.ext_getElem
      · simp [enb.sockNum_length]
      intro j hj hj'
      rw [Mem.read_length] at hj
      rw [Mem.getElem_read, hresp]
      have := hslot j (by omega)
      simp only [Nat.zero_add] at this
      rw [this, PullAnswer.block, List.getD_eq_getElem?_getD, List.getElem?_eq_getElem hj']
      rfl
    · rw [hlen, hoff, List.length_append, List.length_cons]
      omega
  · exact absurd hserved hno

theorem firstWins_of_run {imsiMap : HashMap hashImsiUserInfo} {rand : RandStream} {size : Nat}
    {initval : UInt32} {s : Registry}
    (h : Run step Unguarded (start imsiMap rand size initval) s) : s.FirstWins :=
  h.invariant (I := fun s => s.FirstWins) (fun _ _ _ hs _ he => hs.step he)
    (firstWins_start imsiMap rand size initval)

/-- A lookup shows the most recent registration exactly if that one repeats the first. -/
theorem getEnb_mostRecent_iff {imsiMap : HashMap hashImsiUserInfo} {rand : RandStream}
    {size : Nat} {initval : UInt32} {s : Registry}
    (hrun : Run step Unguarded (start imsiMap rand size initval) s) {m : Received} {a : Answer}
    (h : m.handle s.db = .ok a) (hserved : m.Served s.db) {before after : List Pull} {p : Pull}
    (hpulls : m.request.pulls = before ++ p :: after) (hp : p.tag = ItemType.getEnb.code)
    {recent : ENBInfo}
    (hrecent : lastEnb (s.registered ++ s.registers m) (arrayToUint32 p.args) = some recent) :
    a.response.read (17 * before.length + 1) 4 = recent.sockNum ↔
      (firstEnb (s.registered ++ s.registers m) (arrayToUint32 p.args)).map ENBInfo.sockNum =
        some recent.sockNum := by
  have hmem : (firstEnb (s.registered ++ s.registers m) (arrayToUint32 p.args)).isSome := by
    rw [lastEnb, List.findRev?_eq_find?_reverse] at hrecent
    have hin := List.mem_reverse.mp (List.mem_of_find?_eq_some hrecent)
    have htest := @List.find?_some _ _ _ _ hrecent
    exact List.find?_isSome.mpr ⟨recent, hin, htest⟩
  obtain ⟨enb, hfirst⟩ := Option.isSome_iff_exists.mp hmem
  have hget : hashmapGet (applyEnbPushes m.request.pushes s.db.eNBs) (arrayToUint32 p.args) =
      some enb := by
    rw [applyEnbPushes_get, firstWins_of_run hrun, ← firstEnb_append]
    rw [registers, if_pos hserved] at hfirst
    exact hfirst
  have hslot := (getEnb_slot h hserved hpulls hp hget).1
  have hread : a.response.read (17 * before.length + 1) 4 = enb.sockNum := by
    have hsplit : a.response.read (17 * before.length) 5 =
        a.response (17 * before.length) :: a.response.read (17 * before.length + 1) 4 := by
      rfl
    rw [hsplit] at hslot
    exact (List.cons.inj hslot).2
  rw [hread, hfirst]
  simp

end Registry

def registerEnb (enb : ENBInfo) : Request where
  identity := .blank ItemType.newEnb.code
  pushes := [{
    tag := ItemType.newEnb.code
    payload := uint32ToArray enb.enbId ++ enb.sockNum ++ List.replicate 8 0
    payload_length := by simp [enb.sockNum_length]
    tag_ne_zero := by decide }]
  pulls := []

def getEnbItem (i : UInt32) : Pull := ⟨ItemType.getEnb.code, uint32ToArray i, rfl⟩

def lookUpEnb (i : UInt32) : Request where
  identity := .blank ItemType.newEnb.code
  pushes := []
  pulls := [getEnbItem i]

def registration (enb : ENBInfo) : Received := .ofRequest (registerEnb enb) fun _ hp => by cases hp

def lookUp (i : UInt32) : Received :=
  .ofRequest (lookUpEnb i) fun p hp => by
    rw [List.mem_singleton.mp (show p ∈ [_] from hp)]
    exact ItemType.code_injective.ne (by decide : ItemType.getEnb ≠ .eom)

theorem registerEnb_registrations (enb : ENBInfo) : (registerEnb enb).registrations = [enb] := by
  have hsock : (enb.sockNum ++ List.replicate 8 (0 : UInt8)).take 4 = enb.sockNum := by
    rw [← enb.sockNum_length, List.take_left]
  have henb : createEnb (uint32ToArray enb.enbId ++ enb.sockNum ++ List.replicate 8 0)
      ((uint32ToArray enb.enbId ++ enb.sockNum ++ List.replicate 8 0).drop 4)
      (by simp [enb.sockNum_length]) = enb := by
    apply ENBInfo.ext
    · exact arrayToUint32_uint32ToArray enb.enbId
    · exact hsock
  exact congrArg (fun x => [x]) henb

theorem Registry.step_registration (s : Registry) (enb : ENBInfo) :
    ∃ db, s.step (registration enb) = some ⟨db, s.registered ++ [enb]⟩ := by
  obtain ⟨a, ha⟩ := Received.handle_newEnb (m := registration enb) rfl
    (fun p hp => by rw [List.mem_singleton.mp (show p ∈ [_] from hp)]; rfl)
    (fun p hp => by cases hp) (Nat.zero_le _) s.db
  have hserved : (registration enb).Served s.db := Or.inl rfl
  have hregisters : s.registers (registration enb) = [enb] := by
    rw [registers, if_pos hserved]
    exact registerEnb_registrations enb
  exact ⟨a.db, by simp only [step, ha, hregisters]⟩

theorem lookUp_handle (db : Db) (i : UInt32) : ∃ a, (lookUp i).handle db = .ok a := by
  refine Received.handle_newEnb (m := lookUp i) rfl (fun p hp => by cases hp) (fun p hp => ?_) ?_ db
  · rw [List.mem_singleton.mp (show p ∈ [_] from hp)]
    rfl
  · show 17 ≤ bufferLen
    decide

theorem exists_lookUp_after (first second : ENBInfo) :
    ∃ s a, Run Registry.step Unguarded (.start (.init 0 0) (fun _ => 0) 0 0) s ∧
      s.registered = [first, second] ∧ (lookUp second.enbId).handle s.db = .ok a := by
  obtain ⟨db₁, h₁⟩ := Registry.step_registration (.start (.init 0 0) (fun _ => 0) 0 0) first
  obtain ⟨db₂, h₂⟩ := Registry.step_registration ⟨db₁, [first]⟩ second
  obtain ⟨a, ha⟩ := lookUp_handle db₂ second.enbId
  exact ⟨_, a, ((Run.refl _).tail trivial h₁).tail trivial h₂, rfl, ha⟩

theorem lookUp_pulls (i : UInt32) : (lookUp i).request.pulls = [] ++ getEnbItem i :: [] := rfl

theorem getEnbItem_id (i : UInt32) : arrayToUint32 (getEnbItem i).args = i :=
  arrayToUint32_uint32ToArray i

theorem lookUp_served (db : Db) (i : UInt32) : (lookUp i).Served db := Or.inl rfl

theorem lookUp_registers (s : Registry) (i : UInt32) : s.registers (lookUp i) = [] := by
  rw [Registry.registers, if_pos (lookUp_served s.db i)]
  rfl

/-- One eNB with two socket numbers. -/
def firstSocket : ENBInfo := ⟨1, [0, 0, 0, 7], rfl⟩

def secondSocket : ENBInfo := ⟨1, [0, 0, 0, 9], rfl⟩

namespace Registry

/-- The eNB registers twice with one socket number and is looked up. -/
theorem getEnb_registeredAgain : ∃ s a, (lookUp 1).handle (db s) = .ok a ∧
    a.response.read 1 4 = firstSocket.sockNum := by
  obtain ⟨s, a, hrun, hregistered, ha⟩ := exists_lookUp_after firstSocket firstSocket
  have ha : (lookUp 1).handle s.db = .ok a := ha
  have hall : s.registered ++ s.registers (lookUp 1) = [firstSocket, firstSocket] := by
    rw [lookUp_registers, hregistered]
    rfl
  have hrecent : lastEnb (s.registered ++ s.registers (lookUp 1))
      (arrayToUint32 (getEnbItem 1).args) = some firstSocket := by
    rw [hall, getEnbItem_id]
    rfl
  have hiff := getEnb_mostRecent_iff hrun ha (lookUp_served _ _) (lookUp_pulls 1) rfl hrecent
  refine ⟨s, a, ha, hiff.mpr ?_⟩
  rw [hall, getEnbItem_id]
  rfl

/-- After a registration with another socket number the lookup still shows the first one. -/
theorem not_getEnb_mostRecent :
    ¬ ∀ (imsiMap : HashMap hashImsiUserInfo) (rand : RandStream) (size : Nat) (initval : UInt32)
      (s : Registry) (m : Received) (a : Answer) (before after : List Pull) (p : Pull)
      (recent : ENBInfo),
      Run step Unguarded (start imsiMap rand size initval) s → m.handle s.db = .ok a →
      m.Served s.db → m.request.pulls = before ++ p :: after → p.tag = ItemType.getEnb.code →
      lastEnb (s.registered ++ s.registers m) (arrayToUint32 p.args) = some recent →
      a.response.read (17 * before.length + 1) 4 = recent.sockNum := by
  intro h
  obtain ⟨s, a, hrun, hregistered, ha⟩ := exists_lookUp_after firstSocket secondSocket
  have hrecent : lastEnb (s.registered ++ s.registers (lookUp 1))
      (arrayToUint32 (getEnbItem 1).args) = some secondSocket := by
    rw [lookUp_registers, hregistered, getEnbItem_id]
    rfl
  have hlast := h _ _ _ _ s _ a _ _ _ _ hrun ha (lookUp_served _ _) (lookUp_pulls 1) rfl hrecent
  have hget : hashmapGet (applyEnbPushes (lookUp 1).request.pushes s.db.eNBs)
      (arrayToUint32 (getEnbItem 1).args) = some firstSocket := by
    show hashmapGet s.db.eNBs _ = _
    rw [firstWins_of_run hrun, hregistered, getEnbItem_id]
    rfl
  have hslot := (getEnb_slot ha (lookUp_served _ _) (lookUp_pulls 1) rfl hget).1
  have hsplit : a.response.read (17 * ([] : List Pull).length) 5 =
      a.response 0 :: a.response.read (17 * ([] : List Pull).length + 1) 4 := rfl
  rw [hsplit, hlast] at hslot
  have hsame := (List.cons.inj hslot).2
  revert hsame
  decide

end Registry

end PublicCloudCore.CorekubeDb
