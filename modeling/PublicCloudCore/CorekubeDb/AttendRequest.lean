import PublicCloudCore.CorekubeDb.Serve

/-!
# `attend_request`

The loop of a connection's thread: whatever one `recv` returns is handled as a sequence of whole
requests, the request and the response array keep their content from one `recv` to the next, and
each response is sent at once. `send` reads `response_len` bytes from the response array, or the
memory behind it where that is more than the array holds.
-/

namespace PublicCloudCore.CorekubeDb

open Framework

theorem analyzeRequest_consumed_pos {db : Db} {request : List UInt8} {requestLen : Nat}
    {response : Mem UInt8} {a : Answer}
    (h : analyzeRequest db request requestLen response = .ok a) : 0 < a.consumed := by
  have hserve : ∀ {w : Work} {x : Work × Nat}, serve w request requestLen = .ok x → 0 < x.2 := by
    intro w x hx
    simp only [serve, bind, Except.bind] at hx
    rcases hpush : pushLoop request w 17 with e | ⟨w₁, offset⟩ <;> simp only [hpush] at hx
    · cases hx
    rcases hpull : pullLoop request requestLen w₁ (offset + 1) with e | ⟨w₂, offset'⟩ <;>
      simp only [hpull] at hx
    · cases hx
    cases hx
    exact Nat.succ_pos _
  simp only [analyzeRequest, bind, Except.bind] at h
  rcases hid : identify request with e | i <;> simp only [hid] at h
  · cases h
  cases i with
  | invalid => cases h; exact Nat.succ_pos _
  | newEnb =>
      rcases hs : serve (.start db none response) request requestLen with e | ⟨w, n⟩ <;>
        simp only [hs] at h
      · cases h
      cases h
      exact hserve hs
  | user key =>
      rcases hu : db.user? key with _ | u <;> simp only [hu] at h
      · cases h; exact Nat.succ_pos _
      rcases hs : serve (.start db (some u) response) request requestLen with e | ⟨w, n⟩ <;>
        simp only [hs] at h
      · cases h
      cases h
      exact hserve hs

/-- One call of `analyze_request`: where it started, what it returned and what was sent. -/
structure Handled where
  start : Nat
  consumed : Nat
  sent : List UInt8
  deriving DecidableEq

structure Attended where
  db : Db
  response : Mem UInt8
  calls : List Handled

/-- The bytes that the calls sent, in order. -/
def Attended.sent (a : Attended) : List UInt8 := a.calls.flatMap Handled.sent

/-- `while(multi_pkt < request_len)`. -/
def attendLoop (db : Db) (request : List UInt8) (requestLen multiPkt : Nat)
    (response : Mem UInt8) : Except Fault Attended :=
  if multiPkt < requestLen then
    match _h : analyzeRequest db (request.drop multiPkt) (requestLen - multiPkt) response with
    | .error e => .error e
    | .ok a =>
        match attendLoop a.db request requestLen (multiPkt + a.consumed) a.response with
        | .error e => .error e
        | .ok rest =>
            .ok { rest with
              calls := ⟨multiPkt, a.consumed, a.response.read 0 a.responseLen⟩ :: rest.calls }
  else .ok { db, response, calls := [] }
termination_by requestLen - multiPkt
decreasing_by
  have := analyzeRequest_consumed_pos _h
  omega

/-- What a connection's thread keeps from one `recv` to the next. -/
structure Connection where
  request : List UInt8
  response : Mem UInt8

/-- The request array after a `recv` that returned `chunk`. -/
def Connection.received (c : Connection) (chunk : List UInt8) : List UInt8 :=
  chunk ++ c.request.drop chunk.length

/-- The thread over the chunks that its calls of `recv` return; the result holds what it sent. -/
def attendRequest (db : Db) (c : Connection) : List (List UInt8) →
    Except Fault (Db × Connection × List UInt8)
  | [] => .ok (db, c, [])
  | chunk :: chunks =>
      match attendLoop db (c.received chunk) chunk.length 0 c.response with
      | .error e => .error e
      | .ok a =>
          match attendRequest a.db ⟨c.received chunk, a.response⟩ chunks with
          | .error e => .error e
          | .ok (db', c', sent) => .ok (db', c', a.sent ++ sent)

/-- A request handled by itself. -/
def handle (db : Db) (response : Mem UInt8) (r : Request) : Except Fault Answer :=
  analyzeRequest db r.encode r.encode.length response

def encodeAll (rs : List Request) : List UInt8 := rs.flatMap Request.encode

/-- The part of a request that the handler reads as one: a PULL item `EOM` cuts it short. -/
def Request.truncate (r : Request) : Request :=
  { r with pulls := r.pulls.takeWhile fun p => p.tag != ItemType.eom.code }

theorem Request.truncate_pullsNoEom (r : Request) : r.truncate.PullsNoEom := by
  intro p hp
  simpa using List.mem_takeWhile_imp hp

theorem Request.truncate_of_pullsNoEom {r : Request} (h : r.PullsNoEom) : r.truncate = r := by
  have : r.pulls.takeWhile (fun p => p.tag != ItemType.eom.code) = r.pulls :=
    List.takeWhile_eq_self_iff.mpr fun p hp => by simpa using h p hp
  rw [truncate, this]

/-- A request with an `EOM` among its items continues behind what the handler reads. -/
theorem Request.encode_truncate (r : Request) :
    ∃ more, r.encode = r.truncate.encode ++ more ∧ (more = [] ↔ r.PullsNoEom) := by
  by_cases h : r.PullsNoEom
  · exact ⟨[], by rw [truncate_of_pullsNoEom h, List.append_nil], by simp [h]⟩
  have hsplit : ∀ pulls : List Pull, (¬ ∀ p ∈ pulls, p.tag ≠ ItemType.eom.code) →
      ∃ rest, pullBytes pulls =
        pullBytes (pulls.takeWhile fun p => p.tag != ItemType.eom.code) ++
          ItemType.eom.code :: rest := by
    intro pulls
    induction pulls with
    | nil => intro h; exact absurd (by simp) h
    | cons p ps ih =>
        intro h
        by_cases hp : p.tag = ItemType.eom.code
        · exact ⟨p.args ++ pullBytes ps, by simp [pullBytes, Pull.bytes, hp]⟩
        · have hps : ¬ ∀ q ∈ ps, q.tag ≠ ItemType.eom.code := fun hps =>
            h fun q hq => (List.mem_cons.mp hq).elim (fun e => e ▸ hp) (hps q)
          obtain ⟨rest, hrest⟩ := ih hps
          refine ⟨rest, ?_⟩
          simp only [pullBytes, List.flatMap_cons] at hrest ⊢
          simp [hp, hrest]
  obtain ⟨rest, hrest⟩ := hsplit r.pulls h
  refine ⟨rest ++ [ItemType.eom.code], ?_, by simp [h]⟩
  simp only [encode, body, truncate, hrest]
  simp

theorem Request.target_truncate (r : Request) : r.truncate.target = r.target := by
  obtain ⟨more, hmore, _⟩ := r.encode_truncate
  have hbody : identify r.encode = .ok r.target := r.identify_body _
  have htrunc : identify r.encode = .ok r.truncate.target := by
    rw [hmore, encode, List.append_assoc]
    exact r.truncate.identify_body _
  exact Except.ok.inj (htrunc.symm.trans hbody)

theorem scanEom_eq {request : List UInt8} {len i k : Nat} (hik : i ≤ k) (hk : k < len)
    (hat : request[k]? = some ItemType.eom.code)
    (hfirst : ∀ j, i ≤ j → j < k → request[j]? ≠ some ItemType.eom.code) :
    scanEom request len i = k := by
  obtain ⟨d, rfl⟩ := Nat.exists_eq_add_of_le hik
  induction d generalizing i with
  | zero =>
      rw [Nat.add_zero] at hk hat ⊢
      rw [scanEom, if_pos hk, if_pos hat]
  | succ d ih =>
      rw [scanEom, if_pos (by omega), if_neg (hfirst i (by omega) (by omega))]
      have harith : i + 1 + d = i + (d + 1) := by omega
      have := ih (i := i + 1) (by omega) (by omega) (by rw [harith]; exact hat)
        fun j hj hlt => hfirst j (by omega) (by omega)
      rw [this, harith]

theorem exists_first_eom {request : List UInt8} {i k : Nat} (hik : i ≤ k)
    (hat : request[k]? = some ItemType.eom.code) :
    ∃ m, i ≤ m ∧ m ≤ k ∧ request[m]? = some ItemType.eom.code ∧
      ∀ j, i ≤ j → j < m → request[j]? ≠ some ItemType.eom.code := by
  obtain ⟨d, rfl⟩ := Nat.exists_eq_add_of_le hik
  induction d generalizing i with
  | zero => exact ⟨i, by omega, by omega, by simpa using hat, fun j _ _ => by omega⟩
  | succ d ih =>
      by_cases hi : request[i]? = some ItemType.eom.code
      · exact ⟨i, by omega, by omega, hi, fun j _ _ => by omega⟩
      · have harith : i + 1 + d = i + (d + 1) := by omega
        obtain ⟨m, him, hmk, hm, hfirst⟩ := ih (i := i + 1) (by omega) (by rw [harith]; exact hat)
        refine ⟨m, by omega, by omega, hm, fun j hj hlt => ?_⟩
        rcases Nat.eq_or_lt_of_le hj with rfl | hj
        · exact hi
        · exact hfirst j hj hlt

theorem Request.body_length_pos (r : Request) : 1 ≤ r.body.length := by
  rw [body_length]; omega

private theorem Request.encode_getElem_last (r : Request) :
    r.encode[r.body.length]? = some ItemType.eom.code := by
  simp [encode]

theorem scanEom_encode (r : Request) (tail : List UInt8) {len : Nat}
    (hlen : r.encode.length ≤ len) :
    scanEom (r.encode ++ tail) len 1 = scanEom r.encode r.encode.length 1 ∧
      scanEom r.encode r.encode.length 1 ≤ r.body.length ∧
      (scanEom r.encode r.encode.length 1 = r.body.length ↔
        ItemType.eom.code ∉ r.body.drop 1) := by
  obtain ⟨m, h1, hm, hat, hfirst⟩ := exists_first_eom r.body_length_pos r.encode_getElem_last
  have hlt : m < r.encode.length := by rw [r.encode_length]; omega
  have happ : ∀ j, j < r.encode.length → (r.encode ++ tail)[j]? = r.encode[j]? := fun j hj =>
    List.getElem?_append_left hj
  have hself := scanEom_eq h1 hlt hat hfirst
  have hlong : scanEom (r.encode ++ tail) len 1 = m :=
    scanEom_eq h1 (by omega) ((happ m hlt).trans hat) fun j hj hjm => by
      rw [happ j (by omega)]; exact hfirst j hj hjm
  rw [hlong, hself]
  refine ⟨rfl, hm, ?_⟩
  have hbody : ∀ j, j < r.body.length → r.encode[j]? = r.body[j]? := fun j hj =>
    List.getElem?_append_left hj
  constructor
  · rintro rfl hmem
    obtain ⟨j, hj⟩ := List.mem_iff_getElem?.mp hmem
    rw [List.getElem?_drop] at hj
    have hjlt : 1 + j < r.body.length := by
      by_contra hge
      rw [List.getElem?_eq_none (by omega)] at hj
      cases hj
    exact hfirst (1 + j) (by omega) hjlt ((hbody _ hjlt).trans hj)
  · intro hno
    rcases Nat.eq_or_lt_of_le hm with heq | hlt'
    · exact heq
    · refine absurd (List.mem_iff_getElem?.mpr ⟨m - 1, ?_⟩) hno
      rw [List.getElem?_drop, Nat.add_sub_cancel' h1, ← hbody m hlt']
      exact hat

end PublicCloudCore.CorekubeDb
