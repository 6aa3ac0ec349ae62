import PublicCloudCore.CorekubeDb.AnalyzeRequest

/-!
# Requests on the wire

A request is an identity slot, PUSH slots, a zero byte and PULL items; `EOM` or the end of the
received bytes closes it. On the bytes of such a request the handler's two loops are one run over
its slots, whatever lies behind the request.
-/

namespace PublicCloudCore.CorekubeDb

open Framework

structure Slot where
  tag : UInt8
  payload : List UInt8
  payload_length : payload.length = 16

def Slot.bytes (s : Slot) : List UInt8 := s.tag :: s.payload

@[simp] theorem Slot.bytes_length (s : Slot) : s.bytes.length = 17 := by
  simp [bytes, s.payload_length]

def Slot.blank (tag : UInt8) : Slot where
  tag
  payload := List.replicate 16 0
  payload_length := List.length_replicate

structure Push extends Slot where
  tag_ne_zero : tag ≠ 0

structure Pull where
  tag : UInt8
  args : List UInt8
  args_length : args.length = argLen tag

def Pull.bytes (p : Pull) : List UInt8 := p.tag :: p.args

@[simp] theorem Pull.bytes_length (p : Pull) : p.bytes.length = argLen p.tag + 1 := by
  simp [bytes, p.args_length]

structure Request where
  identity : Slot
  pushes : List Push
  pulls : List Pull

def pushBytes (pushes : List Push) : List UInt8 := pushes.flatMap fun p => p.bytes

def pullBytes (pulls : List Pull) : List UInt8 := pulls.flatMap Pull.bytes

@[simp] theorem pushBytes_length (pushes : List Push) :
    (pushBytes pushes).length = 17 * pushes.length := by
  induction pushes with
  | nil => rfl
  | cons p ps ih =>
      simp only [pushBytes, List.flatMap_cons, List.length_append, Slot.bytes_length,
        List.length_cons] at ih ⊢
      omega

namespace Request

def body (r : Request) : List UInt8 :=
  r.identity.bytes ++ pushBytes r.pushes ++ 0 :: pullBytes r.pulls

def encode (r : Request) : List UInt8 := r.body ++ [ItemType.eom.code]

/-- No PULL item is the end-of-message marker. -/
def PullsNoEom (r : Request) : Prop := ∀ p ∈ r.pulls, p.tag ≠ ItemType.eom.code

/-- `tail` follows the body, `len` bytes are received: they end with the body, or `EOM` is next. -/
def Ends (r : Request) (tail : List UInt8) (len : Nat) : Prop :=
  len = r.body.length ∨ r.body.length < len ∧ tail.head? = some ItemType.eom.code

theorem body_length (r : Request) :
    r.body.length = 18 + 17 * r.pushes.length + (pullBytes r.pulls).length := by
  simp [body]
  omega

theorem encode_length (r : Request) : r.encode.length = r.body.length + 1 := by
  simp [encode]

theorem ends_encode (r : Request) (tail : List UInt8) {len : Nat} (h : r.encode.length ≤ len) :
    r.Ends (ItemType.eom.code :: tail) len :=
  Or.inr ⟨by rw [encode_length] at h; omega, rfl⟩

end Request

def pushSlot (w : Work) (p : Push) : Except Fault Work := pushItem w p.tag p.payload

def pullSlot (w : Work) (p : Pull) : Except Fault Work := pullItem w p.tag p.args

def Request.run (r : Request) (w : Work) : Except Fault Work := do
  let w ← r.pushes.foldlM pushSlot w
  r.pulls.foldlM pullSlot w

theorem pushTarget_fits {t : ItemType} {target : PushTarget} (h : pushTarget t = some target) :
    target.skip + target.len ≤ 16 ∧ target.len = target.field.size := by
  cases t <;> simp only [pushTarget, Option.some.injEq, reduceCtorEq] at h <;> subst h <;> decide

private theorem memcpyToUser_append (w : Work) (target : PushTarget) {value : List UInt8}
    (h : target.skip + target.len ≤ value.length) (rest : List UInt8) :
    memcpyToUser w target (value ++ rest) = memcpyToUser w target value := by
  have hskip : target.skip ≤ value.length := by omega
  have htake : target.len ≤ (value.drop target.skip).length := by rw [List.length_drop]; omega
  have hlong : ¬ (value ++ rest).length < target.skip + target.len := by simp; omega
  simp only [memcpyToUser, List.drop_append_of_le_length hskip,
    List.take_append_of_le_length htake, if_neg hlong, if_neg (Nat.not_lt.mpr h)]

private theorem pushEnb_append (w : Work) {value : List UInt8} (h : 8 ≤ value.length)
    (rest : List UInt8) : pushEnb w (value ++ rest) = pushEnb w value := by
  have hlen : ¬ (value ++ rest).length < 8 := by simp; omega
  have hid : arrayToUint32 (value ++ rest) = arrayToUint32 value := by
    simp only [arrayToUint32, List.getD_eq_getElem?_getD]
    rw [List.getElem?_append_left (by omega), List.getElem?_append_left (by omega),
      List.getElem?_append_left (by omega), List.getElem?_append_left (by omega)]
  have hsock : ((value ++ rest).drop 4).take 4 = (value.drop 4).take 4 := by
    rw [List.drop_append_of_le_length (by omega),
      List.take_append_of_le_length (by rw [List.length_drop]; omega)]
  simp only [pushEnb, dif_neg hlen, dif_neg (Nat.not_lt.mpr h), createEnb, hid, hsock]

theorem pushItem_append (w : Work) (tag : UInt8) {value : List UInt8} (h : value.length = 16)
    (rest : List UInt8) : pushItem w tag (value ++ rest) = pushItem w tag value := by
  unfold pushItem
  split
  · exact pushEnb_append w (by omega) rest
  · split
    · next target ht =>
      exact memcpyToUser_append w target (by have := (pushTarget_fits ht).1; omega) rest
    · rfl
  · rfl

theorem pullItem_append (w : Work) (tag : UInt8) {args : List UInt8}
    (h : args.length = argLen tag) (rest : List UInt8) :
    pullItem w tag (args ++ rest) = pullItem w tag args := by
  have hswitch : pullSwitch w.user w.eNBs w.rand tag (args ++ rest) =
      pullSwitch w.user w.eNBs w.rand tag args := by
    by_cases ht : tag = ItemType.getEnb.code
    · have hlen : args.length = 4 := by rw [h, argLen, if_pos ht]
      have htake : (args ++ rest).take 4 = args.take 4 :=
        List.take_append_of_le_length (by omega)
      simp only [pullSwitch, ht, ItemType.ofCode_code, htake, List.length_append]
      rw [if_neg (by omega), if_neg (by omega)]
    · unfold pullSwitch
      split <;> first | rfl | (next ho => exact absurd (ItemType.code_of_ofCode ho).symm ht)
  simp only [pullItem, hswitch]

theorem pushLoop_slots (pre rest : List UInt8) (pushes : List Push) (w : Work) :
    pushLoop (pre ++ (pushBytes pushes ++ 0 :: rest)) w pre.length =
      (pushes.foldlM pushSlot w).map fun w' => (w', pre.length + 17 * pushes.length) := by
  induction pushes generalizing pre w with
  | nil =>
      rw [pushLoop]
      split
      · next h => simp [pushBytes] at h
      · next tag value h =>
        simp only [pushBytes, List.flatMap_nil, List.nil_append, List.drop_left,
          List.cons.injEq] at h
        rw [if_pos h.1.symm]
        rfl
  | cons p ps ih =>
      have hdrop : (pre ++ (pushBytes (p :: ps) ++ 0 :: rest)).drop pre.length =
          p.tag :: (p.payload ++ (pushBytes ps ++ 0 :: rest)) := by
        simp [pushBytes, Slot.bytes]
      have hsplit : pre ++ (pushBytes (p :: ps) ++ 0 :: rest) =
          (pre ++ p.bytes) ++ (pushBytes ps ++ 0 :: rest) := by
        simp [pushBytes]
      have hpre : (pre ++ p.bytes).length = pre.length + 17 := by simp
      rw [pushLoop]
      split
      · next h => rw [hdrop] at h; cases h
      · next tag value h =>
        rw [hdrop, List.cons.injEq] at h
        obtain ⟨rfl, rfl⟩ := h
        rw [if_neg p.tag_ne_zero, pushItem_append w p.tag p.payload_length, List.foldlM_cons,
          pushSlot]
        rcases pushItem w p.tag p.payload with e | w'
        · rfl
        · have := ih (pre ++ p.bytes) w'
          rw [← hsplit, hpre] at this
          simp only [this, List.length_cons]
          have harith : pre.length + 17 + 17 * ps.length = pre.length + 17 * (ps.length + 1) := by
            omega
          rw [harith]
          rfl

theorem pullLoop_items (pre tail : List UInt8) (pulls : List Pull) (w : Work) {len : Nat}
    (heom : ∀ p ∈ pulls, p.tag ≠ ItemType.eom.code)
    (hlen : len = pre.length + (pullBytes pulls).length ∨
      pre.length + (pullBytes pulls).length < len ∧ tail.head? = some ItemType.eom.code) :
    pullLoop (pre ++ (pullBytes pulls ++ tail)) len w pre.length =
      (pulls.foldlM pullSlot w).map fun w' => (w', pre.length + (pullBytes pulls).length) := by
  induction pulls generalizing pre w with
  | nil =>
      rw [pullLoop]
      rcases hlen with hlen | ⟨hlt, hhead⟩
      · rw [if_neg (by rw [hlen]; simp [pullBytes])]
        rfl
      · obtain ⟨rest, rfl⟩ : ∃ rest, tail = ItemType.eom.code :: rest := by
          cases tail with
          | nil => simp at hhead
          | cons b bs => exact ⟨bs, by simpa using hhead⟩
        rw [if_pos (by omega)]
        simp only [pullBytes, List.flatMap_nil, List.nil_append, List.drop_left, if_pos]
        rfl
  | cons p ps ih =>
      have hdrop : (pre ++ (pullBytes (p :: ps) ++ tail)).drop pre.length =
          p.tag :: (p.args ++ (pullBytes ps ++ tail)) := by
        simp [pullBytes, Pull.bytes]
      have hsplit : pre ++ (pullBytes (p :: ps) ++ tail) =
          (pre ++ p.bytes) ++ (pullBytes ps ++ tail) := by
        simp [pullBytes]
      have hpre : (pre ++ p.bytes).length = pre.length + argLen p.tag + 1 := by simp; omega
      have hbytes : (pullBytes (p :: ps)).length = argLen p.tag + 1 + (pullBytes ps).length := by
        simp [pullBytes]
      have hlt : pre.length < len := by rcases hlen with hlen | ⟨hlen, _⟩ <;> omega
      have hlen' : len = (pre ++ p.bytes).length + (pullBytes ps).length ∨
          (pre ++ p.bytes).length + (pullBytes ps).length < len ∧
            tail.head? = some ItemType.eom.code := by
        rw [hpre]
        exact hlen.imp (by omega) (And.imp_left (by omega))
      rw [pullLoop, if_pos hlt]
      simp only [hdrop, if_neg (heom p (by simp)), pullItem_append w p.tag p.args_length,
        List.foldlM_cons, pullSlot]
      rcases pullItem w p.tag p.args with e | w'
      · rfl
      · have := ih (pre ++ p.bytes) w' (fun q hq => heom q (by simp [hq])) hlen'
        rw [← hsplit, hpre] at this
        simp only [this, hbytes]
        have harith : pre.length + argLen p.tag + 1 + (pullBytes ps).length =
            pre.length + (argLen p.tag + 1 + (pullBytes ps).length) := by omega
        rw [harith]
        rfl

/-- On a request's bytes the handler runs over its slots and stops behind its terminator. -/
theorem serve_request (r : Request) (w : Work) {tail : List UInt8} {len : Nat}
    (heom : r.PullsNoEom) (h : r.Ends tail len) :
    serve w (r.body ++ tail) len = (r.run w).map fun w' => (w', r.body.length + 1) := by
  have hpush := pushLoop_slots r.identity.bytes (pullBytes r.pulls ++ tail) r.pushes w
  have hsplit : r.body ++ tail =
      r.identity.bytes ++ (pushBytes r.pushes ++ 0 :: (pullBytes r.pulls ++ tail)) := by
    simp [Request.body]
  rw [← hsplit, Slot.bytes_length] at hpush
  simp only [serve, hpush, Request.run]
  rcases hw : r.pushes.foldlM pushSlot w with e | w'
  · rfl
  · have hpre : (r.identity.bytes ++ pushBytes r.pushes ++ [0]).length =
        17 + 17 * r.pushes.length + 1 := by simp; omega
    have hbody := r.body_length
    have hlen : len = (r.identity.bytes ++ pushBytes r.pushes ++ [0]).length +
          (pullBytes r.pulls).length ∨
        (r.identity.bytes ++ pushBytes r.pushes ++ [0]).length + (pullBytes r.pulls).length < len ∧
          tail.head? = some ItemType.eom.code := by
      rw [hpre]
      exact h.imp (by omega) (And.imp_left (by omega))
    have hpull := pullLoop_items (r.identity.bytes ++ pushBytes r.pushes ++ [0]) tail r.pulls w'
      heom hlen
    have hsplit' : r.body ++ tail =
        (r.identity.bytes ++ pushBytes r.pushes ++ [0]) ++ (pullBytes r.pulls ++ tail) := by
      simp [Request.body]
    rw [← hsplit', hpre] at hpull
    have harith : 17 + 17 * r.pushes.length + 1 + (pullBytes r.pulls).length = r.body.length := by
      omega
    rw [harith] at hpull
    simp only [Except.map, bind, Except.bind, hpull]
    rcases r.pulls.foldlM pullSlot w' with e | w'' <;> rfl

theorem identify_append {request : List UInt8} {i : Identity} (h : identify request = .ok i)
    (tail : List UInt8) : identify (request ++ tail) = .ok i := by
  cases request with
  | nil => simp [identify] at h
  | cons tag value =>
      have hatoi : ∀ {k v}, atoi (value.drop k) = some v → atoi ((value ++ tail).drop k) = some v := by
        intro k v hv
        by_cases hk : k ≤ value.length
        · rw [List.drop_append_of_le_length hk]
          exact atoi_append hv tail
        · rw [List.drop_of_length_le (by omega)] at hv
          simp [atoi] at hv
      have hword : ∀ n (hash : List UInt8 → UInt32),
          (if value.length < n then Except.error Fault.requestOverrun
            else .ok (Identity.user (hash (value.take n)))) = .ok i →
          (if (value ++ tail).length < n then Except.error Fault.requestOverrun
            else .ok (Identity.user (hash ((value ++ tail).take n)))) = .ok i := by
        intro n hash hi
        split at hi
        · cases hi
        · next hlen =>
          rw [if_neg (by simp; omega), List.take_append_of_le_length (by omega)]
          exact hi
      rcases ho : ItemType.ofCode tag with _ | t
      · simpa [identify, ho] using h
      cases t
      case imsi =>
        simp only [List.cons_append, identify, ho, hashImsi] at h ⊢
        split at h
        · next key hkey => rw [hatoi hkey]; exact h
        · cases h
      case msin =>
        simp only [List.cons_append, identify, ho, hashMsin] at h ⊢
        split at h
        · next key hkey => rw [hatoi hkey]; exact h
        · cases h
      case tmsi =>
        simp only [List.cons_append, identify, ho] at h ⊢
        exact hword _ _ h
      case mmeUeS1apId =>
        simp only [List.cons_append, identify, ho] at h ⊢
        exact hword _ _ h
      all_goals simpa [identify, ho] using h

namespace Request

private theorem identify_body_isOk (r : Request) : ∃ i, identify r.body = .ok i := by
  have hbody : r.body = r.identity.tag ::
      (r.identity.payload ++ (pushBytes r.pushes ++ 0 :: pullBytes r.pulls)) := by
    simp [body, Slot.bytes]
  have hnul : ∀ k, k ≤ 16 → (0 : UInt8) ∈
      (r.identity.payload ++ (pushBytes r.pushes ++ 0 :: pullBytes r.pulls)).drop k := by
    intro k hk
    rw [List.drop_append_of_le_length (by rw [r.identity.payload_length]; exact hk)]
    simp
  have hlong : 16 ≤
      (r.identity.payload ++ (pushBytes r.pushes ++ 0 :: pullBytes r.pulls)).length := by
    rw [List.length_append, r.identity.payload_length]
    omega
  simp only [hbody, identify]
  split
  · obtain ⟨v, hv⟩ := Option.isSome_iff_exists.mp (atoi_isSome (hnul 6 (by decide)))
    exact ⟨.user v, by simp only [hashImsi, hv]⟩
  · obtain ⟨v, hv⟩ := Option.isSome_iff_exists.mp (atoi_isSome (hnul 1 (by decide)))
    exact ⟨.user v, by simp only [hashMsin, hv]⟩
  · exact ⟨_, if_neg (by simp only [tmsiLen]; omega)⟩
  · exact ⟨_, if_neg (by simp only [mmeUeS1apIdLen]; omega)⟩
  · exact ⟨_, rfl⟩
  · exact ⟨_, rfl⟩

/-- Whom the request addresses: a string that a slot starts ends at the separator at the latest. -/
def target (r : Request) : Identity :=
  match identify r.body with
  | .ok i => i
  | .error _ => .invalid

theorem identify_body (r : Request) (tail : List UInt8) :
    identify (r.body ++ tail) = .ok r.target := by
  obtain ⟨i, hi⟩ := r.identify_body_isOk
  rw [identify_append hi, target, hi]

/-- The identity slot alone decides, where its string ends in it. -/
theorem target_of_slot {r : Request} {i : Identity} (h : identify r.identity.bytes = .ok i) :
    r.target = i := by
  have hbody : r.body = r.identity.bytes ++ (pushBytes r.pushes ++ 0 :: pullBytes r.pulls) := by
    simp [body]
  have := identify_append h (pushBytes r.pushes ++ 0 :: pullBytes r.pulls)
  rw [target, hbody, this]

end Request

theorem analyzeRequest_user {db : Db} {r : Request} {key : UInt32} {u : UserInfo}
    {tail : List UInt8} {len : Nat} (hkey : r.target = .user key) (hu : db.user? key = some u)
    (heom : r.PullsNoEom) (hend : r.Ends tail len) (response : Mem UInt8) :
    analyzeRequest db (r.body ++ tail) len response =
      (r.run (.start db (some u) response)).map fun w =>
        { consumed := r.body.length + 1, response := w.response, responseLen := w.resOffset,
          db := w.commit db key } := by
  simp only [analyzeRequest, r.identify_body, hkey, hu, serve_request r _ heom hend, bind,
    Except.bind]
  rcases r.run (.start db (some u) response) with e | w <;> rfl

theorem analyzeRequest_newEnb {db : Db} {r : Request} {tail : List UInt8} {len : Nat}
    (hkey : r.target = .newEnb) (heom : r.PullsNoEom) (hend : r.Ends tail len)
    (response : Mem UInt8) :
    analyzeRequest db (r.body ++ tail) len response =
      (r.run (.start db none response)).map fun w =>
        { consumed := r.body.length + 1, response := w.response, responseLen := w.resOffset,
          db := { db with eNBs := w.eNBs, rand := w.rand } } := by
  simp only [analyzeRequest, r.identify_body, hkey, serve_request r _ heom hend, bind, Except.bind]
  rcases r.run (.start db none response) with e | w <;> rfl

theorem analyzeRequest_refused {db : Db} {r : Request} {len : Nat} {tail : List UInt8}
    (h : r.target = .invalid ∨ ∃ key, r.target = .user key ∧ db.user? key = none)
    (response : Mem UInt8) :
    analyzeRequest db (r.body ++ tail) len response =
      .ok (refuse db (r.body ++ tail) len response) := by
  rcases h with h | ⟨key, h, hu⟩
  · simp only [analyzeRequest, r.identify_body, h, bind, Except.bind]
  · simp only [analyzeRequest, r.identify_body, h, hu, bind, Except.bind]

end PublicCloudCore.CorekubeDb
