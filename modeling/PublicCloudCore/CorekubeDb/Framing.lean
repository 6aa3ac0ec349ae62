import PublicCloudCore.CorekubeDb.AttendRequest
import PublicCloudCore.Libck.Encode

/-!
# Requests stay in frame

Handling a request reads nothing behind it, so a row of requests in one `recv` is handled like
the same requests one after the other, as long as each call returns the length of its request.
That is decided by the request and the store in front of it.
-/

namespace PublicCloudCore.CorekubeDb

open Framework

private theorem Request.encode_split (r : Request) (tail : List UInt8) {len : Nat}
    (hlen : r.encode.length ≤ len) :
    ∃ rest, r.encode ++ tail = r.truncate.body ++ rest ∧ r.truncate.Ends rest len := by
  obtain ⟨more, hmore, _⟩ := r.encode_truncate
  refine ⟨ItemType.eom.code :: (more ++ tail), ?_, ?_⟩
  · rw [hmore]
    simp [encode]
  · apply r.truncate.ends_encode
    rw [hmore, List.length_append] at hlen
    omega

private theorem analyze_user {db : Db} {r : Request} {key : UInt32} {u : UserInfo}
    (hkey : r.target = .user key) (hu : db.user? key = some u) (tail : List UInt8) {len : Nat}
    (hlen : r.encode.length ≤ len) (response : Mem UInt8) :
    analyzeRequest db (r.encode ++ tail) len response =
      (r.truncate.run (.start db (some u) response)).map fun w =>
        { consumed := r.truncate.encode.length, response := w.response,
          responseLen := w.resOffset, db := w.commit db key } := by
  obtain ⟨rest, hsplit, hends⟩ := r.encode_split tail hlen
  rw [hsplit, analyzeRequest_user (r.target_truncate.trans hkey) hu r.truncate_pullsNoEom hends,
    r.truncate.encode_length]

private theorem analyze_newEnb {db : Db} {r : Request} (hkey : r.target = .newEnb)
    (tail : List UInt8) {len : Nat} (hlen : r.encode.length ≤ len) (response : Mem UInt8) :
    analyzeRequest db (r.encode ++ tail) len response =
      (r.truncate.run (.start db none response)).map fun w =>
        { consumed := r.truncate.encode.length, response := w.response,
          responseLen := w.resOffset, db := { db with eNBs := w.eNBs, rand := w.rand } } := by
  obtain ⟨rest, hsplit, hends⟩ := r.encode_split tail hlen
  rw [hsplit, analyzeRequest_newEnb (r.target_truncate.trans hkey) r.truncate_pullsNoEom hends,
    r.truncate.encode_length]

def Request.Refused (r : Request) (db : Db) : Prop :=
  r.target = .invalid ∨ ∃ key, r.target = .user key ∧ db.user? key = none

private theorem analyze_refused {db : Db} {r : Request} (h : r.Refused db) (tail : List UInt8)
    {len : Nat} (hlen : r.encode.length ≤ len) (response : Mem UInt8) :
    analyzeRequest db (r.encode ++ tail) len response =
      .ok (refuse db r.encode r.encode.length response) := by
  have hscan := (scanEom_encode r tail hlen).1
  have hassoc : r.encode ++ tail = r.body ++ ([ItemType.eom.code] ++ tail) :=
    List.append_assoc _ _ _
  rw [hassoc, analyzeRequest_refused h, ← hassoc]
  simp only [refuse, hscan]

theorem handle_user {db : Db} {r : Request} {key : UInt32} {u : UserInfo}
    (hkey : r.target = .user key) (hu : db.user? key = some u) (response : Mem UInt8) :
    handle db response r = (r.truncate.run (.start db (some u) response)).map fun w =>
      { consumed := r.truncate.encode.length, response := w.response,
        responseLen := w.resOffset, db := w.commit db key } := by
  simpa [handle] using analyze_user hkey hu [] (Nat.le_refl _) response

theorem handle_newEnb {db : Db} {r : Request} (hkey : r.target = .newEnb)
    (response : Mem UInt8) :
    handle db response r = (r.truncate.run (.start db none response)).map fun w =>
      { consumed := r.truncate.encode.length, response := w.response,
        responseLen := w.resOffset, db := { db with eNBs := w.eNBs, rand := w.rand } } := by
  simpa [handle] using analyze_newEnb hkey [] (Nat.le_refl _) response

theorem handle_refused {db : Db} {r : Request} (h : r.Refused db) (response : Mem UInt8) :
    handle db response r = .ok (refuse db r.encode r.encode.length response) := by
  simpa [handle] using analyze_refused h [] (Nat.le_refl _) response

/-- What a served request leaves: its user's record, under the same key. -/
theorem handle_user_ok {db : Db} {r : Request} {key : UInt32} {u : UserInfo}
    {response : Mem UInt8} {a : Answer} (hkey : r.target = .user key)
    (hu : db.user? key = some u) (h : handle db response r = .ok a) :
    ∃ w u', r.truncate.run (.start db (some u) response) = .ok w ∧ w.user = some u' ∧
      a = { consumed := r.truncate.encode.length, response := w.response,
            responseLen := w.resOffset, db := w.commit db key } ∧
      ∀ key', a.db.user? key' = if key' = key then some u' else db.user? key' := by
  rw [handle_user hkey hu] at h
  rcases hrun : r.truncate.run (.start db (some u) response) with e | w
  · rw [hrun] at h
    cases h
  rw [hrun] at h
  cases h
  obtain ⟨u', hu', hhash, _⟩ := Request.run_user_frame (u := u) rfl hrun
  exact ⟨w, u', rfl, hu', rfl, Work.commit_user? hu hu' (hhash.trans (Db.hash_of_user? hu))⟩

theorem Request.target_cases (r : Request) (db : Db) :
    (∃ key u, r.target = .user key ∧ db.user? key = some u) ∨ r.target = .newEnb ∨
      r.Refused db := by
  rcases htarget : r.target with key | _ | _
  · rcases hu : db.user? key with _ | u
    · exact Or.inr (Or.inr (Or.inr ⟨key, htarget, hu⟩))
    · exact Or.inl ⟨key, u, rfl, hu⟩
  · exact Or.inr (Or.inl rfl)
  · exact Or.inr (Or.inr (Or.inl htarget))

/-- What follows a request has no part in its handling. -/
theorem analyzeRequest_encode (db : Db) (r : Request) (tail : List UInt8) {len : Nat}
    (hlen : r.encode.length ≤ len) (response : Mem UInt8) :
    analyzeRequest db (r.encode ++ tail) len response = handle db response r := by
  rcases r.target_cases db with ⟨key, u, hkey, hu⟩ | hkey | h
  · rw [analyze_user hkey hu tail hlen, handle_user hkey hu]
  · rw [analyze_newEnb hkey tail hlen, handle_newEnb hkey]
  · rw [analyze_refused h tail hlen, handle_refused h]

/-- The request and the store in front of it keep the handler in frame: a request that is served
pulls no `EOM`, needs no user that it has not got and has its answer fit the response array; a
refused one holds no byte `EOM` between its first and its last. -/
def StaysInFrame (db : Db) (r : Request) : Prop :=
  (r.Refused db → ItemType.eom.code ∉ r.body.drop 1) ∧
    (¬ r.Refused db → r.PullsNoEom ∧ fits (applyEnbPushes r.pushes db.eNBs) 0 r.pulls) ∧
    (r.target = .newEnb →
      (∀ p ∈ r.pushes, p.target? = none) ∧ ∀ p ∈ r.pulls, p.copyLen? = none)

private theorem map_consumed_iff {r : Request} (w : Work) (f : Work → Answer)
    (hf : ∀ w', (f w').consumed = r.truncate.encode.length) :
    (∃ a, (r.truncate.run w).map f = .ok a ∧ a.consumed = r.encode.length) ↔
      r.PullsNoEom ∧ ∃ w', r.run w = .ok w' := by
  obtain ⟨more, hmore, hnil⟩ := r.encode_truncate
  constructor
  · rintro ⟨a, ha, hlen⟩
    rcases hrun : r.truncate.run w with e | w'
    · rw [hrun] at ha
      cases ha
    rw [hrun] at ha
    obtain rfl : f w' = a := Except.ok.inj ha
    have hzero : more = [] := by
      rw [hf, hmore, List.length_append] at hlen
      exact List.length_eq_zero_iff.mp (by omega)
    have heom := hnil.mp hzero
    rw [Request.truncate_of_pullsNoEom heom] at hrun
    exact ⟨heom, w', hrun⟩
  · rintro ⟨heom, w', hrun⟩
    refine ⟨f w', ?_, ?_⟩
    · rw [Request.truncate_of_pullsNoEom heom, hrun]
      rfl
    · rw [hf, Request.truncate_of_pullsNoEom heom]

theorem handle_consumed_iff (db : Db) (response : Mem UInt8) (r : Request) :
    (∃ a, handle db response r = .ok a ∧ a.consumed = r.encode.length) ↔ StaysInFrame db r := by
  rcases r.target_cases db with ⟨key, u, hkey, hu⟩ | hkey | h
  · have hfound : ¬ r.Refused db := by
      rintro (hinv | ⟨key', hkey', hnone⟩)
      · rw [hkey] at hinv
        cases hinv
      · rw [hkey, Identity.user.injEq] at hkey'
        rw [← hkey', hu] at hnone
        cases hnone
    rw [handle_user hkey hu, map_consumed_iff _ _ fun _ => rfl, r.run_ok_iff]
    simp [StaysInFrame, hfound, hkey, Work.start]
  · have hfound : ¬ r.Refused db := by
      rintro (hinv | ⟨key', hkey', _⟩)
      · rw [hkey] at hinv
        cases hinv
      · rw [hkey] at hkey'
        cases hkey'
    rw [handle_newEnb hkey, map_consumed_iff _ _ fun _ => rfl, r.run_ok_iff]
    simp only [StaysInFrame, hfound, hkey, Work.start, not_false_eq_true, true_implies,
      false_implies, true_and]
    tauto
  · obtain ⟨_, _, hscan⟩ := scanEom_encode r [] (Nat.le_refl _)
    have hne : r.target ≠ .newEnb := by
      rcases h with h | ⟨key, h, _⟩ <;> rw [h] <;> simp
    rw [handle_refused h]
    simp only [StaysInFrame, h, hne, not_true_eq_false, true_implies, false_implies, and_true,
      ← hscan, Except.ok.injEq, exists_eq_left', refuse, r.encode_length]
    omega

/-- Every request stays in frame in the store that the requests before it leave. -/
def InFrame (db : Db) (response : Mem UInt8) : List Request → Prop
  | [] => True
  | r :: rs => StaysInFrame db r ∧
      ∀ a, handle db response r = .ok a → InFrame a.db a.response rs

/-- The calls of the thread on requests of these lengths, each returning one of them. -/
def framesFrom (pos : Nat) : List Nat → List (Nat × Nat)
  | [] => []
  | n :: ns => (pos, n) :: framesFrom (pos + n) ns

def Attended.frames (a : Attended) : List (Nat × Nat) :=
  a.calls.map fun c => (c.start, c.consumed)

theorem attendLoop_frames_iff (db : Db) (response : Mem UInt8) (pre rest : List UInt8)
    (rs : List Request) :
    (∃ a, attendLoop db (pre ++ (encodeAll rs ++ rest)) (pre.length + (encodeAll rs).length)
        pre.length response = .ok a ∧
      a.frames = framesFrom pre.length (rs.map fun r => r.encode.length)) ↔
    InFrame db response rs := by
  induction rs generalizing db response pre with
  | nil =>
      rw [attendLoop, if_neg (by simp [encodeAll])]
      simp [Attended.frames, framesFrom, InFrame]
  | cons r rs ih =>
      have hall : encodeAll (r :: rs) = r.encode ++ encodeAll rs := by simp [encodeAll]
      have hlen : (encodeAll (r :: rs)).length = r.encode.length + (encodeAll rs).length := by
        rw [hall, List.length_append]
      have hpos : 0 < r.encode.length := by rw [r.encode_length]; omega
      have hcall : analyzeRequest db ((pre ++ (encodeAll (r :: rs) ++ rest)).drop pre.length)
          (pre.length + (encodeAll (r :: rs)).length - pre.length) response =
          handle db response r := by
        rw [List.drop_left, hall, List.append_assoc]
        exact analyzeRequest_encode db r _ (by rw [List.length_append]; omega) response
      have hsplit : pre ++ (encodeAll (r :: rs) ++ rest) =
          (pre ++ r.encode) ++ (encodeAll rs ++ rest) := by simp [hall]
      have hpre : (pre ++ r.encode).length = pre.length + r.encode.length := by simp
      have hstay := handle_consumed_iff db response r
      rw [attendLoop, if_pos (by omega)]
      split
      · next e he =>
        rw [hcall] at he
        rw [he] at hstay
        constructor
        · rintro ⟨a, ha, _⟩
          cases ha
        · rintro ⟨hs, _⟩
          obtain ⟨a, ha, _⟩ := hstay.mpr hs
          cases ha
      · next a ha =>
        rw [hcall] at ha
        simp only [ha, Except.ok.injEq, exists_eq_left'] at hstay
        have hnext := ih a.db a.response (pre ++ r.encode)
        rw [← hsplit, hpre, Nat.add_assoc, ← hlen] at hnext
        constructor
        · rintro ⟨out, hout, hframes⟩
          split at hout
          · cases hout
          next restOut hrest =>
          cases hout
          simp only [Attended.frames, List.map_cons, framesFrom, List.cons.injEq, Prod.mk.injEq,
            true_and] at hframes
          obtain ⟨hcons, htail⟩ := hframes
          refine ⟨hstay.mp hcons, fun a' ha' => ?_⟩
          obtain rfl : a = a' := Except.ok.inj (ha.symm.trans ha')
          rw [hcons] at hrest
          exact hnext.mp ⟨restOut, hrest, htail⟩
        · rintro ⟨hs, hrun⟩
          have hcons := hstay.mpr hs
          obtain ⟨restOut, hrest, htail⟩ := hnext.mpr (hrun a ha)
          simp only [hcons, hrest, Except.ok.injEq, exists_eq_left']
          simp only [Attended.frames, List.map_cons, framesFrom] at htail ⊢
          rw [htail]

/-- The thread's calls on what the library built, in one buffer: each one starts at the first
byte of its request and returns its length. -/
def FramesKept (db : Db) (response : Mem UInt8) (built : List (Libck.Call × Mem UInt8))
    (rest : List UInt8) : Prop :=
  ∃ a, attendLoop db (built.flatMap (fun c => c.1.bytes c.2) ++ rest)
      (built.flatMap fun c => c.1.bytes c.2).length 0 response = .ok a ∧
    a.frames = framesFrom 0 (built.map fun c => (c.1.bytes c.2).length)

/-- Pipelined requests stay in frame exactly if each of them does. -/
theorem framesKept_iff (db : Db) (response : Mem UInt8) (built : List (Libck.Call × Mem UInt8))
    (rest : List UInt8) :
    FramesKept db response built rest ↔
      InFrame db response (built.map fun c => c.1.request c.2) := by
  have hbytes : built.flatMap (fun c => c.1.bytes c.2) =
      encodeAll (built.map fun c => c.1.request c.2) := by
    simp [encodeAll, List.flatMap_map, Libck.Call.bytes_eq]
  have hlens : built.map (fun c => (c.1.bytes c.2).length) =
      (built.map fun c => c.1.request c.2).map fun r => r.encode.length := by
    simp [Libck.Call.bytes_eq]
  have hloop := attendLoop_frames_iff db response [] rest (built.map fun c => c.1.request c.2)
  rw [FramesKept, hbytes, hlens]
  simpa using hloop

/-- A request for a temporary identity that the store does not hold. -/
def unknownTmsi : Libck.Call where
  id := .tmsi
  idValue := Mem.ofList [0, 0, 0, 1] 0
  id_accepted := rfl
  pushes := []
  pulls := [⟨.key, fun _ => 0⟩]

/-- The scan for `EOM` takes the identity's own last byte for it. -/
theorem not_framesKept_unknownTmsi :
    ¬ FramesKept (.init none fun _ => 0) (fun _ => 0) [(unknownTmsi, fun _ => 0)] [] := by
  rintro ⟨a, ha, hframes⟩
  have hrun : (attendLoop (.init none fun _ => 0) (unknownTmsi.bytes fun _ => 0) 20 0
      fun _ => 0).map Attended.frames = .ok [(0, 5), (5, 15)] := by decide +kernel
  have hlen : (unknownTmsi.bytes fun _ => 0).length = 20 := by decide +kernel
  simp only [List.flatMap_cons, List.flatMap_nil, List.append_nil, hlen, List.map_cons,
    List.map_nil] at ha hframes
  rw [ha] at hrun
  rw [Except.map, hframes] at hrun
  cases hrun

end PublicCloudCore.CorekubeDb
