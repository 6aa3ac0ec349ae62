import PublicCloudCore.CorekubeDb.AttendRequest

/-!
# The server over a sequence of requests

What the stores hold after requests that any connections sent, one after the other. A request
lies in the array of its connection, with whatever bytes behind it, and is answered into the
response array of that connection.
-/

namespace PublicCloudCore.CorekubeDb

open Framework

/-- A request as `analyze_request` gets it. -/
structure Received where
  request : Request
  tail : List UInt8
  len : Nat
  response : Mem UInt8
  pullsNoEom : request.PullsNoEom
  ends : request.Ends tail len

namespace Received

def handle (m : Received) (db : Db) : Except Fault Answer :=
  analyzeRequest db (m.request.body ++ m.tail) m.len m.response

/-- A request that is sent alone and answered into a cleared array. -/
def ofRequest (r : Request) (h : r.PullsNoEom) : Received where
  request := r
  tail := [ItemType.eom.code]
  len := r.encode.length
  response := fun _ => 0
  pullsNoEom := h
  ends := r.ends_encode [] (Nat.le_refl _)

/-- The user that the handler works on, or `none` where it works on no user. -/
def user? (m : Received) (db : Db) : Option UserInfo :=
  match m.request.target with
  | .user key => db.user? key
  | .newEnb | .invalid => none

/-- The lookup has not refused the request. -/
def Served (m : Received) (db : Db) : Prop :=
  m.request.target = .newEnb ∨ (m.user? db).isSome

instance (m : Received) (db : Db) : Decidable (m.Served db) := inferInstanceAs (Decidable (_ ∨ _))

end Received

def Db.serve (db : Db) (m : Received) : Option Db :=
  match m.handle db with
  | .ok a => some a.db
  | .error _ => none

/-- A served request runs over its slots; a refused one leaves the stores alone. -/
theorem Received.handle_ok {m : Received} {db : Db} {a : Answer} (h : m.handle db = .ok a) :
    (m.Served db ∧ ∃ w, m.request.run (.start db (m.user? db) m.response) = .ok w ∧
        a.response = w.response ∧ a.responseLen = w.resOffset ∧ a.db.eNBs = w.eNBs ∧
        a.db.rand = w.rand ∧
        (∀ key, m.request.target = .user key → a.db = w.commit db key) ∧
        (m.request.target = .newEnb → a.db.imsiMap = db.imsiMap)) ∨
      ¬ m.Served db ∧ a.db = db ∧ a.responseLen = 1 ∧ a.response 0 = 0 := by
  unfold Received.handle at h
  have hrefused : (m.request.target = .invalid ∨
      ∃ key, m.request.target = .user key ∧ db.user? key = none) →
      a.db = db ∧ a.responseLen = 1 ∧ a.response 0 = 0 := by
    intro hno
    rw [analyzeRequest_refused hno m.response] at h
    cases h
    exact ⟨rfl, rfl, Mem.write_inside m.response 0 [0] 0 (by decide)⟩
  rcases htarget : m.request.target with key | _ | _
  · rcases hu : db.user? key with _ | u
    · refine Or.inr ⟨?_, hrefused (Or.inr ⟨key, htarget, hu⟩)⟩
      simp [Received.Served, Received.user?, htarget, hu]
    · have huser : m.user? db = some u := by simp [Received.user?, htarget, hu]
      rw [analyzeRequest_user htarget hu m.pullsNoEom m.ends] at h
      rcases hrun : m.request.run (.start db (some u) m.response) with e | w
      · rw [hrun] at h
        cases h
      rw [hrun] at h
      cases h
      refine Or.inl ⟨Or.inr (by simp [huser]), w, by rw [huser, hrun], rfl, rfl, rfl, rfl, ?_, ?_⟩
      · intro key' hkey
        cases hkey
        rfl
      · intro hnew
        cases hnew
  · have huser : m.user? db = none := by simp [Received.user?, htarget]
    rw [analyzeRequest_newEnb htarget m.pullsNoEom m.ends] at h
    rcases hrun : m.request.run (.start db none m.response) with e | w
    · rw [hrun] at h
      cases h
    rw [hrun] at h
    cases h
    refine Or.inl ⟨Or.inl htarget, w, by rw [huser, hrun], rfl, rfl, rfl, rfl, ?_, fun _ => rfl⟩
    intro key hkey
    cases hkey
  · refine Or.inr ⟨?_, hrefused (Or.inl htarget)⟩
    simp [Received.Served, Received.user?, htarget]

theorem Received.handle_newEnb {m : Received} (htarget : m.request.target = .newEnb)
    (hpushes : ∀ p ∈ m.request.pushes, p.target? = none)
    (hpulls : ∀ p ∈ m.request.pulls, p.copyLen? = none)
    (hlen : 17 * m.request.pulls.length ≤ bufferLen) (db : Db) : ∃ a, m.handle db = .ok a := by
  unfold Received.handle
  rw [analyzeRequest_newEnb htarget m.pullsNoEom m.ends]
  obtain ⟨w, hw⟩ := (m.request.run_ok_iff (.start db none m.response)).mpr
    ⟨fun _ => ⟨hpushes, hpulls⟩, fits_of_length _ _ _ (by simpa [Work.start] using hlen)⟩
  rw [hw]
  exact ⟨_, rfl⟩

theorem Received.handle_user {m : Received} {db : Db} {key : UInt32} {u : UserInfo}
    (htarget : m.request.target = .user key) (hu : db.user? key = some u)
    (hlen : 17 * m.request.pulls.length ≤ bufferLen) : ∃ a, m.handle db = .ok a := by
  unfold Received.handle
  rw [analyzeRequest_user htarget hu m.pullsNoEom m.ends]
  obtain ⟨w, hw⟩ := (m.request.run_ok_iff (.start db (some u) m.response)).mpr
    ⟨fun hno => (by cases hno), fits_of_length _ _ _ (by simpa [Work.start] using hlen)⟩
  rw [hw]
  exact ⟨_, rfl⟩

theorem Request.run_eNBs {r : Request} {w w' : Work} (h : r.run w = .ok w') :
    w'.eNBs = applyEnbPushes r.pushes w.eNBs := by
  rw [r.run_eq] at h
  split at h
  · cases h
  · exact (foldlM_pullSlot_frame h).1

end PublicCloudCore.CorekubeDb
