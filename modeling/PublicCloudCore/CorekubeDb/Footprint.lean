import PublicCloudCore.CorekubeDb.Serve

/-!
# What `analyze_request` touches

The same switches and loops as in `analyzeRequest`, with the accesses that they make in the place of
their effects: reads of the request, stores to the response array and uses of the `user` pointer. A
call goes on behind an access that it should not make; memory behind the request's ends the two
loops. `analyzeRequest` has a fault exactly where one of these accesses is not allowed.
-/

namespace PublicCloudCore.CorekubeDb

open Framework

inductive Touch
  | request (start len : Nat)
  | response (start len : Nat)
  | user
  deriving DecidableEq, Repr

/-- `found`: the `user` pointer is the result of a lookup; `memLen` bytes of memory start at the
request. -/
def Touch.fault? (found : Bool) (memLen : Nat) : Touch → Option Fault
  | .request start len => if start + len ≤ memLen then none else some .requestOverrun
  | .response start len => if start + len ≤ bufferLen then none else some .responseOverflow
  | .user => if found then none else some .noUser

/-- The bytes that `digitsValue` looks at. -/
def digitsRead : List UInt8 → Nat
  | [] => 1
  | b :: bs => if isDigit b then digitsRead bs + 1 else 1

/-- The bytes that `atoi` looks at. -/
def atoiRead : List UInt8 → Nat
  | [] => 1
  | b :: bs =>
      if isSpace b then atoiRead bs + 1
      else if b = 0x2D ∨ b = 0x2B then digitsRead bs + 1
      else digitsRead (b :: bs)

/-- The switch over `request[0]`. -/
def identityTouches (request : List UInt8) : List Touch :=
  .request 0 1 ::
    match (request.head?).bind ItemType.ofCode with
    | some .imsi => [.request 7 (atoiRead (request.drop 7))]
    | some .msin => [.request 2 (atoiRead (request.drop 2))]
    | some .tmsi => [.request 1 tmsiLen]
    | some .mmeUeS1apId => [.request 1 mmeUeS1apIdLen]
    | _ => []

def pushItemTouches (tag : UInt8) (offset : Nat) : List Touch :=
  match ItemType.ofCode tag with
  | some .newEnb => [.request (offset + 1) 8]
  | some item =>
      match pushTarget item with
      | some target => [.user, .request (offset + 1 + target.skip) target.len]
      | none => []
  | none => []

/-- The map of eNBs behind a PUSH item whose bytes lie in memory. -/
def pushedEnbs (eNBs : HashMap hashEnbInfo) (tag : UInt8) (value : List UInt8) :
    HashMap hashEnbInfo :=
  if h : ItemType.ofCode tag = some .newEnb ∧ 8 ≤ value.length then
    (hashmapAdd eNBs (createEnb value (value.drop 4) (by rw [List.length_drop]; omega))).getD eNBs
  else eNBs

structure PushWalk where
  touches : List Touch
  eNBs : HashMap hashEnbInfo
  /-- The position of the zero byte. -/
  stop : Nat

def pushWalk (request : List UInt8) (eNBs : HashMap hashEnbInfo) (offset : Nat) : PushWalk :=
  match _h : request.drop offset with
  | [] => ⟨[.request offset 1], eNBs, offset⟩
  | tag :: value =>
      if tag = 0 then ⟨[.request offset 1], eNBs, offset⟩
      else
        let rest := pushWalk request (pushedEnbs eNBs tag value) (offset + 17)
        { rest with touches := .request offset 1 :: (pushItemTouches tag offset ++ rest.touches) }
termination_by request.length - offset
decreasing_by
  have := congrArg List.length _h
  simp only [List.length_drop, List.length_cons] at this
  omega

/-- The PULL switch; `args` is `request+offset+1`. -/
def pullItemTouches (eNBs : HashMap hashEnbInfo) (tag : UInt8) (args : List UInt8)
    (offset resOffset : Nat) : List Touch :=
  match ItemType.ofCode tag with
  | some .getEnb =>
      [.response resOffset 1, .request (offset + 1) 4,
        .response (resOffset + 1)
          (if (hashmapGet eNBs (arrayToUint32 (args.take 4))).isSome then 4 else 0)]
  | some item =>
      match copyLen item with
      | some n => [.response resOffset 1, .user, .response (resOffset + 1) n]
      | none => []
  | none => []

structure PullWalk where
  touches : List Touch
  stop : Nat
  resOffset : Nat

def pullWalk (request : List UInt8) (requestLen : Nat) (eNBs : HashMap hashEnbInfo)
    (offset resOffset : Nat) : PullWalk :=
  if offset < requestLen then
    match request.drop offset with
    | [] => ⟨[.request offset 1], offset, resOffset⟩
    | tag :: args =>
        if tag = ItemType.eom.code then ⟨[.request offset 1], offset, resOffset⟩
        else
          let rest := pullWalk request requestLen eNBs (offset + argLen tag + 1) (resOffset + 17)
          { rest with
            touches := .request offset 1 ::
              (pullItemTouches eNBs tag args offset resOffset ++ rest.touches) }
  else ⟨[], offset, resOffset⟩
termination_by requestLen - offset

/-- A call: its accesses, its result and `*response_len`. -/
structure Footprint where
  touches : List Touch
  consumed : Nat
  responseLen : Nat

def serveFootprint (eNBs : HashMap hashEnbInfo) (request : List UInt8) (requestLen : Nat) :
    Footprint :=
  let push := pushWalk request eNBs 17
  let pull := pullWalk request requestLen push.eNBs (push.stop + 1) 0
  { touches := push.touches ++ pull.touches
    consumed := pull.stop + 1
    responseLen := pull.resOffset }

/-- The scan for `EOM` looks at the byte it stops at, unless that is the end. -/
def refuseFootprint (request : List UInt8) (requestLen : Nat) : Footprint where
  touches := [.request 1 (min (scanEom request requestLen 1 + 1) requestLen - 1), .response 0 1]
  consumed := scanEom request requestLen 1 + 1
  responseLen := 1

def Db.finds (db : Db) : Except Fault Identity → Bool
  | .ok (.user key) => (db.user? key).isSome
  | _ => false

/-- A call whose identity leaves the memory ends there. -/
def footprint (db : Db) (request : List UInt8) (requestLen : Nat) : Footprint :=
  let rest : Footprint :=
    match identify request with
    | .error _ => ⟨[], 0, 0⟩
    | .ok .invalid => refuseFootprint request requestLen
    | .ok .newEnb => serveFootprint db.eNBs request requestLen
    | .ok (.user key) =>
        if (db.user? key).isSome then serveFootprint db.eNBs request requestLen
        else refuseFootprint request requestLen
  { rest with touches := identityTouches request ++ rest.touches }

private theorem digitsRead_le_iff {bs : List UInt8} (n : Nat) :
    digitsRead bs ≤ bs.length ↔ (digitsValue bs n).isSome := by
  induction bs generalizing n with
  | nil => simp [digitsRead, digitsValue]
  | cons b bs ih =>
      by_cases hb : isDigit b
      · simpa [digitsRead, digitsValue, hb] using ih _
      · simp [digitsRead, digitsValue, hb]

private theorem digitsRead_pos (bs : List UInt8) : 0 < digitsRead bs := by
  cases bs with
  | nil => simp [digitsRead]
  | cons b bs => by_cases hb : isDigit b <;> simp [digitsRead, hb]

theorem atoiRead_pos (bs : List UInt8) : 0 < atoiRead bs := by
  cases bs with
  | nil => simp [atoiRead]
  | cons b bs =>
      by_cases hspace : isSpace b
      · simp [atoiRead, hspace]
      by_cases hsign : b = 0x2D ∨ b = 0x2B
      · simp [atoiRead, hspace, hsign]
      · simp [atoiRead, hspace, hsign, digitsRead_pos]

theorem atoiRead_le_iff {bs : List UInt8} : atoiRead bs ≤ bs.length ↔ (atoi bs).isSome := by
  induction bs with
  | nil => simp [atoiRead, atoi]
  | cons b bs ih =>
      by_cases hspace : isSpace b
      · simp [atoiRead, atoi, hspace, ih]
      by_cases hminus : b = 0x2D
      · simp [atoiRead, atoi, hminus, digitsRead_le_iff 0, isSpace]
      by_cases hplus : b = 0x2B
      · simp [atoiRead, atoi, hplus, digitsRead_le_iff 0, isSpace]
      · simp only [atoiRead, atoi, hspace, hminus, hplus, Bool.false_eq_true, if_false, or_self]
        rw [digitsRead_le_iff 0]
        simp

/-- A computation succeeds, with a good result, where all accesses are allowed, and has the fault of
one of them otherwise. -/
def Agrees {α : Type} (found : Bool) (memLen : Nat) (touches : List Touch) (good : α → Prop) :
    Except Fault α → Prop
  | .ok a => (∀ t ∈ touches, t.fault? found memLen = none) ∧ good a
  | .error e => ∃ t ∈ touches, t.fault? found memLen = some e

section Agrees

variable {α β : Type} {found : Bool} {memLen : Nat} {touches touches' : List Touch}
  {good : α → Prop} {good' : β → Prop} {x : Except Fault α} {f : α → Except Fault β}

theorem Agrees.bind (h : Agrees found memLen touches good x)
    (hf : ∀ a, good a → Agrees found memLen touches' good' (f a)) :
    Agrees found memLen (touches ++ touches') good' (x >>= f) := by
  cases x with
  | error e =>
      obtain ⟨t, ht, hfault⟩ := h
      exact ⟨t, by simp [ht], hfault⟩
  | ok a =>
      simp only [Agrees] at h
      have hrest := hf a h.2
      change Agrees found memLen (touches ++ touches') good' (f a)
      cases hb : f a with
      | error e =>
          rw [hb] at hrest
          obtain ⟨t, ht, hfault⟩ := hrest
          exact ⟨t, by simp [ht], hfault⟩
      | ok b =>
          rw [hb] at hrest
          refine ⟨fun t ht => ?_, hrest.2⟩
          rcases List.mem_append.mp ht with ht | ht
          · exact h.1 t ht
          · exact hrest.1 t ht

theorem Agrees.map (h : Agrees found memLen touches good x) (g : α → β)
    (hg : ∀ a, good a → good' (g a)) :
    Agrees found memLen touches good' (x >>= fun a => .ok (g a)) := by
  cases x with
  | error e => exact h
  | ok a => exact ⟨h.1, hg a h.2⟩

theorem agrees_ok {a : α} (htouches : ∀ t ∈ touches, t.fault? found memLen = none) (h : good a) :
    Agrees found memLen touches good (.ok a) :=
  ⟨htouches, h⟩

theorem agrees_error {e : Fault} {t : Touch} (ht : t ∈ touches)
    (hfault : t.fault? found memLen = some e) : Agrees found memLen touches good (.error e) :=
  ⟨t, ht, hfault⟩

theorem Agrees.cons {t : Touch} (ht : t.fault? found memLen = none)
    (h : Agrees found memLen touches good x) : Agrees found memLen (t :: touches) good x := by
  cases x with
  | error e =>
      obtain ⟨s, hs, hfault⟩ := h
      exact ⟨s, List.mem_cons_of_mem _ hs, hfault⟩
  | ok a =>
      refine ⟨fun s hs => ?_, h.2⟩
      rcases List.mem_cons.mp hs with rfl | hs
      · exact ht
      · exact h.1 s hs

end Agrees

theorem identityTouches_agree (request : List UInt8) (found : Bool) :
    Agrees found request.length (identityTouches request) (fun _ => True) (identify request) := by
  cases request with
  | nil =>
      exact agrees_error (List.mem_cons_self) (by simp [Touch.fault?])
  | cons tag value =>
      have hhead : (Touch.request 0 1).fault? found (tag :: value).length = none := by
        simp [Touch.fault?]
      have hstring : ∀ (k : Nat) (x : Except Fault Identity), k ≤ 6 →
          (∀ key, atoi (value.drop k) = some key → x = .ok (.user key)) →
          (atoi (value.drop k) = none → x = .error .requestOverrun) →
          Agrees found (tag :: value).length [.request (k + 1) (atoiRead (value.drop k))]
            (fun _ : Identity => True) x := by
        intro k x hk hsome hnone
        have hread := @atoiRead_le_iff (value.drop k)
        cases hatoi : atoi (value.drop k) with
        | some key =>
            rw [hsome key hatoi]
            have hle := hread.mpr (by simp [hatoi])
            have hpos := atoiRead_pos (value.drop k)
            simp only [List.length_drop] at hle
            refine agrees_ok ?_ trivial
            simp only [List.mem_singleton, forall_eq, Touch.fault?, List.length_cons]
            rw [if_pos (by omega)]
        | none =>
            rw [hnone hatoi]
            have hgt : ¬ atoiRead (value.drop k) ≤ (value.drop k).length := by
              rw [hread, hatoi]
              simp
            simp only [List.length_drop] at hgt
            refine agrees_error List.mem_cons_self ?_
            simp only [Touch.fault?, List.length_cons]
            rw [if_neg (by omega)]
      have hword : ∀ (n : Nat) (i : Identity),
          Agrees found (tag :: value).length [.request 1 n] (fun _ : Identity => True)
            (if value.length < n then .error .requestOverrun else .ok i) := by
        intro n i
        by_cases hn : value.length < n
        · rw [if_pos hn]
          refine agrees_error List.mem_cons_self ?_
          simp only [Touch.fault?, List.length_cons]
          rw [if_neg (by omega)]
        · rw [if_neg hn]
          refine agrees_ok ?_ trivial
          simp only [List.mem_singleton, forall_eq, Touch.fault?, List.length_cons]
          rw [if_pos (by omega)]
      apply Agrees.cons hhead
      simp only [List.head?_cons, Option.bind_some, identify]
      rcases ItemType.ofCode tag with _ | t
      · exact agrees_ok (by simp) trivial
      cases t
      case imsi =>
        exact hstring 6 _ (by decide) (fun key h => by simp only [hashImsi, h])
          (fun h => by simp only [hashImsi, h])
      case msin =>
        exact hstring 1 _ (by decide) (fun key h => by simp only [hashMsin, h])
          (fun h => by simp only [hashMsin, h])
      case tmsi => exact hword _ _
      case mmeUeS1apId => exact hword _ _
      all_goals exact agrees_ok (by simp) trivial

structure Follows (found : Bool) (eNBs : HashMap hashEnbInfo) (resOffset : Nat) (w : Work) :
    Prop where
  user : w.user.isSome = found
  eNBs : w.eNBs = eNBs
  resOffset : w.resOffset = resOffset

theorem pushItemTouches_agree {found : Bool} {eNBs : HashMap hashEnbInfo} {resOffset : Nat}
    {w : Work} (h : Follows found eNBs resOffset w) (tag : UInt8) (value : List UInt8)
    (offset : Nat) :
    Agrees found (offset + 1 + value.length) (pushItemTouches tag offset)
      (Follows found (pushedEnbs eNBs tag value) resOffset) (pushItem w tag value) := by
  have hkept : ∀ item, ItemType.ofCode tag = some item → item ≠ .newEnb →
      pushedEnbs eNBs tag value = eNBs := by
    intro item ho hne
    simp [pushedEnbs, ho, hne]
  rcases ho : ItemType.ofCode tag with _ | item
  · simp only [pushItem, pushItemTouches, ho]
    refine agrees_ok (by simp) ?_
    simpa [pushedEnbs, ho] using h
  by_cases hnew : item = .newEnb
  · subst hnew
    simp only [pushItem, pushItemTouches, ho, pushEnb]
    by_cases hlen : value.length < 8
    · rw [dif_pos hlen]
      refine agrees_error List.mem_cons_self ?_
      simp only [Touch.fault?]
      rw [if_neg (by omega)]
    · rw [dif_neg hlen]
      refine agrees_ok ?_ ⟨h.user, ?_, h.resOffset⟩
      · simp only [List.mem_singleton, forall_eq, Touch.fault?]
        rw [if_pos (by omega)]
      · simp only [pushedEnbs, ho, h.eNBs]
        rw [dif_pos ⟨trivial, by omega⟩]
  · cases htarget : pushTarget item with
    | none =>
        have hitem : pushItem w tag value = .ok w := by simp [pushItem, ho, htarget]
        have htouches : pushItemTouches tag offset = [] := by simp [pushItemTouches, ho, htarget]
        rw [hitem, htouches, hkept item ho hnew]
        exact agrees_ok (by simp) h
    | some target =>
        have hitem : pushItem w tag value = memcpyToUser w target value := by
          simp [pushItem, ho, htarget]
        have htouches : pushItemTouches tag offset =
            [.user, .request (offset + 1 + target.skip) target.len] := by
          simp [pushItemTouches, ho, htarget]
        rw [hitem, htouches, hkept item ho hnew]
        simp only [memcpyToUser]
        cases hu : w.user with
        | none =>
            have hfound : found = false := by simpa [hu] using h.user.symm
            exact agrees_error List.mem_cons_self (by simp [Touch.fault?, hfound])
        | some u =>
            have hfound : found = true := by simpa [hu] using h.user.symm
            change Agrees _ _ _ _ (if value.length < target.skip + target.len then _ else _)
            by_cases hlen : value.length < target.skip + target.len
            · rw [if_pos hlen]
              refine agrees_error (List.mem_cons_of_mem _ List.mem_cons_self) ?_
              simp only [Touch.fault?]
              rw [if_neg (by omega)]
            · rw [if_neg hlen]
              refine agrees_ok ?_ ⟨hfound.symm, h.eNBs, h.resOffset⟩
              intro t ht
              simp only [List.mem_cons, List.not_mem_nil, or_false] at ht
              rcases ht with rfl | rfl
              · simp [Touch.fault?, hfound]
              · simp only [Touch.fault?]
                rw [if_pos (by omega)]

theorem pushWalk_agree {found : Bool} {eNBs : HashMap hashEnbInfo} {resOffset : Nat} {w : Work}
    (h : Follows found eNBs resOffset w) (request : List UInt8) (offset : Nat) :
    Agrees found request.length (pushWalk request eNBs offset).touches
      (fun x => Follows found (pushWalk request eNBs offset).eNBs resOffset x.1 ∧
        x.2 = (pushWalk request eNBs offset).stop)
      (pushLoop request w offset) := by
  fun_induction pushWalk request eNBs offset generalizing w with
  | case1 eNBs offset hdrop =>
      have hlen : request.length ≤ offset := List.drop_eq_nil_iff.mp hdrop
      rw [pushLoop]
      split
      · refine agrees_error List.mem_cons_self ?_
        simp only [Touch.fault?]
        rw [if_neg (by omega)]
      · next hcons => simp [hdrop] at hcons
  | case2 eNBs offset value hdrop =>
      have hlen := congrArg List.length hdrop
      simp only [List.length_drop, List.length_cons] at hlen
      rw [pushLoop]
      split
      · next hnil => simp [hdrop] at hnil
      · next tag' value' hcons =>
        obtain ⟨rfl, rfl⟩ := List.cons.inj (hdrop.symm.trans hcons)
        rw [if_pos rfl]
        refine agrees_ok ?_ ⟨h, rfl⟩
        simp only [List.mem_singleton, forall_eq, Touch.fault?]
        rw [if_pos (by omega)]
  | case3 eNBs offset tag value hdrop hzero =>
      rename_i ih
      have hlen := congrArg List.length hdrop
      simp only [List.length_drop, List.length_cons] at hlen
      rw [pushLoop]
      split
      · next hnil => simp [hdrop] at hnil
      · next tag' value' hcons =>
        obtain ⟨rfl, rfl⟩ := List.cons.inj (hdrop.symm.trans hcons)
        rw [if_neg hzero]
        have hitem := pushItemTouches_agree h tag value offset
        rw [show offset + 1 + value.length = request.length by omega] at hitem
        apply Agrees.cons
        · simp only [Touch.fault?]
          rw [if_pos (by omega)]
        have hbind := hitem.bind fun w' hw' => ih hw'
        cases hw : pushItem w tag value with
        | error e =>
            rw [hw] at hbind
            exact hbind
        | ok w' =>
            rw [hw] at hbind
            exact hbind

private theorem pullSwitch_copies {tag : UInt8} {item : ItemType} {n : Nat}
    (ho : ItemType.ofCode tag = some item) (hn : copyLen item = some n) (args : List UInt8)
    (eNBs : HashMap hashEnbInfo) (rand : RandStream) :
    pullSwitch none eNBs rand tag args = .error .noUser ∧
      ∀ u, ∃ a, pullSwitch (some u) eNBs rand tag args = .ok (some a) ∧ a.bytes.length = n ∧
        a.user.isSome := by
  cases item <;> simp only [copyLen, Option.some.injEq, reduceCtorEq] at hn <;> subst hn
  all_goals
    simp only [pullSwitch, ho, answerField, theUser, bind, Except.bind]
    exact ⟨trivial, fun u => ⟨_, rfl, by
      simp [UserInfo.copy, getUserMsin, zeroFilled, imsiLen, msinLen, ItemType.code], rfl⟩⟩

private theorem answer_agree {found : Bool} {eNBs : HashMap hashEnbInfo} {resOffset : Nat} {w : Work}
    (h : Follows found eNBs resOffset w) {a : PullAnswer} (ha : a.user.isSome = found)
    {memLen : Nat} {touches : List Touch}
    (htouches : ∀ t ∈ touches, t.fault? found memLen = none ∨
      t = .response resOffset 1 ∨ t = .response (resOffset + 1) a.bytes.length)
    (hmem : .response (resOffset + 1) a.bytes.length ∈ touches) :
    Agrees found memLen touches (Follows found eNBs (resOffset + 17))
      (if bufferLen < w.resOffset + 1 + a.bytes.length then .error .responseOverflow
        else .ok { w with
          user := a.user
          rand := a.rand
          response := w.response.write w.resOffset (a.tag.code :: a.bytes)
          resOffset := w.resOffset + 17 }) := by
  rw [h.resOffset]
  by_cases hfit : bufferLen < resOffset + 1 + a.bytes.length
  · rw [if_pos hfit]
    refine agrees_error hmem ?_
    simp only [Touch.fault?]
    rw [if_neg (by omega)]
  · rw [if_neg hfit]
    refine agrees_ok (fun t ht => ?_) ⟨ha, h.eNBs, rfl⟩
    rcases htouches t ht with hnone | rfl | rfl
    · exact hnone
    · simp only [Touch.fault?]
      rw [if_pos (by omega)]
    · simp only [Touch.fault?]
      rw [if_pos (by omega)]

theorem pullItemTouches_agree {found : Bool} {eNBs : HashMap hashEnbInfo} {resOffset : Nat}
    {w : Work} (h : Follows found eNBs resOffset w) (tag : UInt8) (args : List UInt8)
    (offset : Nat) :
    Agrees found (offset + 1 + args.length) (pullItemTouches eNBs tag args offset resOffset)
      (Follows found eNBs (resOffset + 17)) (pullItem w tag args) := by
  have hskip : Agrees found (offset + 1 + args.length) [] (Follows found eNBs (resOffset + 17))
      (.ok { w with resOffset := w.resOffset + 17 }) := by
    refine agrees_ok (by simp) ⟨h.user, h.eNBs, ?_⟩
    simp [h.resOffset]
  rcases ho : ItemType.ofCode tag with _ | item
  · simp only [pullItem, pullSwitch, pullItemTouches, ho]
    exact hskip
  by_cases hget : item = .getEnb
  · subst hget
    obtain rfl := h.eNBs
    simp only [pullItem, pullSwitch, pullItemTouches, ho]
    by_cases hlen : args.length < 4
    · rw [if_pos hlen]
      refine agrees_error (List.mem_cons_of_mem _ List.mem_cons_self) ?_
      simp only [Touch.fault?]
      rw [if_neg (by omega)]
    · have hargs : (Touch.request (offset + 1) 4).fault? found (offset + 1 + args.length) = none := by
        simp only [Touch.fault?]
        rw [if_pos (by omega)]
      rw [if_neg hlen]
      cases henb : hashmapGet w.eNBs (arrayToUint32 (args.take 4)) with
      | none =>
          change Agrees _ _ [.response resOffset 1, .request (offset + 1) 4,
            .response (resOffset + 1) 0] _ _
          refine answer_agree h (a := ⟨.getEnb, [], w.user, w.rand⟩) h.user ?_ ?_
          swap
          · simp
          intro t ht
          simp only [List.mem_cons, List.not_mem_nil, or_false] at ht
          rcases ht with rfl | rfl | rfl
          · simp
          · exact Or.inl hargs
          · simp
      | some enb =>
          change Agrees _ _ [.response resOffset 1, .request (offset + 1) 4,
            .response (resOffset + 1) 4] _ _
          refine answer_agree h (a := ⟨.getEnb, enb.sockNum, w.user, w.rand⟩) h.user ?_ ?_
          swap
          · simp [enb.sockNum_length]
          intro t ht
          simp only [List.mem_cons, List.not_mem_nil, or_false] at ht
          rcases ht with rfl | rfl | rfl
          · simp
          · exact Or.inl hargs
          · simp [enb.sockNum_length]
  have htouches : pullItemTouches eNBs tag args offset resOffset = match copyLen item with
      | some n => [.response resOffset 1, .user, .response (resOffset + 1) n]
      | none => [] := by
    simp only [pullItemTouches, ho]
  rw [htouches]
  cases hn : copyLen item with
  | none =>
      have hswitch : pullSwitch w.user w.eNBs w.rand tag args = .ok none := by
        cases item <;> simp only [copyLen, reduceCtorEq, not_true_eq_false] at hn hget <;>
          simp only [pullSwitch, ho]
      simp only [pullItem, hswitch]
      exact hskip
  | some n =>
      obtain ⟨hnone, hsome⟩ := pullSwitch_copies ho hn args w.eNBs w.rand
      cases hu : w.user with
      | none =>
          have hfound : found = false := by simpa [hu] using h.user.symm
          simp only [pullItem, hu, hnone]
          exact agrees_error (t := .user) (by simp) (by simp [Touch.fault?, hfound])
      | some u =>
          have hfound : found = true := by simpa [hu] using h.user.symm
          obtain ⟨a, ha, hlen, hauser⟩ := hsome u
          simp only [pullItem, hu, ha]
          refine answer_agree h (hauser.trans hfound.symm) ?_ (by simp [hlen])
          intro t ht
          simp only [List.mem_cons, List.not_mem_nil, or_false] at ht
          rcases ht with rfl | rfl | rfl
          · simp
          · simp [Touch.fault?, hfound]
          · simp [hlen]

theorem pullWalk_agree {found : Bool} {eNBs : HashMap hashEnbInfo} {w : Work} {resOffset : Nat}
    (h : Follows found eNBs resOffset w) (request : List UInt8) (requestLen offset : Nat) :
    Agrees found request.length (pullWalk request requestLen eNBs offset resOffset).touches
      (fun x =>
        x.1.resOffset = (pullWalk request requestLen eNBs offset resOffset).resOffset ∧
        x.2 = (pullWalk request requestLen eNBs offset resOffset).stop)
      (pullLoop request requestLen w offset) := by
  fun_induction pullWalk request requestLen eNBs offset resOffset generalizing w with
  | case1 offset resOffset hlt hdrop =>
      have hlen : request.length ≤ offset := List.drop_eq_nil_iff.mp hdrop
      rw [pullLoop, if_pos hlt, hdrop]
      refine agrees_error List.mem_cons_self ?_
      simp only [Touch.fault?]
      rw [if_neg (by omega)]
  | case2 offset resOffset hlt args hdrop =>
      have hlen := congrArg List.length hdrop
      simp only [List.length_drop, List.length_cons] at hlen
      rw [pullLoop, if_pos hlt, hdrop]
      dsimp only
      rw [if_pos rfl]
      refine agrees_ok ?_ ⟨h.resOffset, rfl⟩
      simp only [List.mem_singleton, forall_eq, Touch.fault?]
      rw [if_pos (by omega)]
  | case3 offset resOffset hlt tag args hdrop htag =>
      rename_i ih
      have hlen := congrArg List.length hdrop
      simp only [List.length_drop, List.length_cons] at hlen
      rw [pullLoop, if_pos hlt, hdrop]
      dsimp only
      rw [if_neg htag]
      have hitem := pullItemTouches_agree h tag args offset
      rw [show offset + 1 + args.length = request.length by omega] at hitem
      apply Agrees.cons
      · simp only [Touch.fault?]
        rw [if_pos (by omega)]
      have hbind := hitem.bind fun w' hw' => ih hw'
      cases hw : pullItem w tag args with
      | error e =>
          rw [hw] at hbind
          exact hbind
      | ok w' =>
          rw [hw] at hbind
          exact hbind
  | case4 offset resOffset hlt =>
      rw [pullLoop, if_neg hlt]
      exact agrees_ok (by simp) ⟨h.resOffset, rfl⟩

theorem serveFootprint_agree {found : Bool} {eNBs : HashMap hashEnbInfo} {w : Work}
    (h : Follows found eNBs 0 w) (request : List UInt8) (requestLen : Nat) :
    Agrees found request.length (serveFootprint eNBs request requestLen).touches
      (fun x => x.1.resOffset = (serveFootprint eNBs request requestLen).responseLen ∧
        x.2 = (serveFootprint eNBs request requestLen).consumed)
      (serve w request requestLen) := by
  refine (pushWalk_agree h request 17).bind fun x hx => ?_
  obtain ⟨w', offset⟩ := x
  obtain ⟨hw', rfl⟩ := hx
  exact (pullWalk_agree hw' request requestLen ((pushWalk request eNBs 17).stop + 1)).map
    (fun y => (y.1, y.2 + 1)) fun y hy => ⟨hy.1, congrArg (· + 1) hy.2⟩

private theorem refuseFootprint_agree (db : Db) (found : Bool) {request : List UInt8}
    {requestLen : Nat} (hpos : 0 < request.length) (hlen : requestLen ≤ request.length)
    (response : Mem UInt8) :
    Agrees found request.length (refuseFootprint request requestLen).touches
      (fun a => a.consumed = (refuseFootprint request requestLen).consumed ∧
        a.responseLen = (refuseFootprint request requestLen).responseLen)
      (.ok (refuse db request requestLen response)) := by
  refine agrees_ok (fun t ht => ?_) ⟨rfl, rfl⟩
  simp only [refuseFootprint, List.mem_cons, List.not_mem_nil, or_false] at ht
  rcases ht with rfl | rfl
  · simp only [Touch.fault?]
    rw [if_pos (by omega)]
  · simp [Touch.fault?, bufferLen]

/-- `analyze_request` returns what the walk says where every access is allowed, and has the fault of
an access of the walk otherwise. -/
theorem analyzeRequest_footprint (db : Db) {request : List UInt8} {requestLen : Nat}
    (hlen : requestLen ≤ request.length) (response : Mem UInt8) :
    Agrees (db.finds (identify request)) request.length (footprint db request requestLen).touches
      (fun a => a.consumed = (footprint db request requestLen).consumed ∧
        a.responseLen = (footprint db request requestLen).responseLen)
      (analyzeRequest db request requestLen response) := by
  have hserve : ∀ (found : Bool) (w : Work) (f : Work → Nat → Answer),
      Follows found db.eNBs 0 w →
      (∀ w' consumed, (f w' consumed).consumed = consumed ∧
        (f w' consumed).responseLen = w'.resOffset) →
      Agrees found request.length (serveFootprint db.eNBs request requestLen).touches
        (fun a => a.consumed = (serveFootprint db.eNBs request requestLen).consumed ∧
          a.responseLen = (serveFootprint db.eNBs request requestLen).responseLen)
        (serve w request requestLen >>= fun x => .ok (f x.1 x.2)) := by
    intro found w f hw hf
    exact (serveFootprint_agree hw request requestLen).map (fun x => f x.1 x.2) fun x hx =>
      ⟨(hf x.1 x.2).1.trans hx.2, (hf x.1 x.2).2.trans hx.1⟩
  have hid := identityTouches_agree request (db.finds (identify request))
  have hfront : ∀ {touches : List Touch} {good : Answer → Prop} {x : Except Fault Answer} {i},
      identify request = .ok i → Agrees (db.finds (.ok i)) request.length touches good x →
      Agrees (db.finds (.ok i)) request.length (identityTouches request ++ touches) good x := by
    intro touches good x i hi hx
    rw [hi] at hid
    exact hid.bind fun _ _ => hx
  have hpos : ∀ {i}, identify request = .ok i → 0 < request.length := by
    intro i hi
    apply List.length_pos_iff.mpr
    rintro rfl
    cases hi
  unfold analyzeRequest footprint
  cases hi : identify request with
  | error e =>
      rw [hi] at hid
      obtain ⟨t, ht, hfault⟩ := hid
      exact agrees_error (t := t) (by simp [ht]) hfault
  | ok i =>
      cases i with
      | invalid => exact hfront hi (refuseFootprint_agree db _ (hpos hi) hlen response)
      | newEnb =>
          exact hfront hi (hserve _ (.start db none response)
            (fun w consumed =>
              ⟨consumed, w.response, w.resOffset, { db with eNBs := w.eNBs, rand := w.rand }⟩)
            ⟨rfl, rfl, rfl⟩ fun _ _ => ⟨rfl, rfl⟩)
      | user key =>
          cases hu : db.user? key with
          | none =>
              have hrest := hfront hi (refuseFootprint_agree db _ (hpos hi) hlen response)
              simpa [hu, bind, Except.bind] using hrest
          | some u =>
              have hrest := hfront hi (hserve (db.finds (.ok (.user key)))
                (.start db (some u) response)
                (fun w consumed => ⟨consumed, w.response, w.resOffset, w.commit db key⟩)
                ⟨by simp [Db.finds, hu, Work.start], rfl, rfl⟩ fun _ _ => ⟨rfl, rfl⟩)
              simpa [hu, bind, Except.bind] using hrest

end PublicCloudCore.CorekubeDb
