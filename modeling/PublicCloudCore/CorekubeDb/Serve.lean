import PublicCloudCore.CorekubeDb.Wire

/-!
# What serving a request does

One lemma for a PUSH slot, one inversion lemma for a PULL item, and from them the run of a whole
request: when it succeeds, which members of the user it leaves alone, and which bytes it puts
into each slot of the response.
-/

namespace PublicCloudCore.CorekubeDb

open Framework

def Push.target? (p : Push) : Option PushTarget := (ItemType.ofCode p.tag).bind pushTarget

def Push.apply (p : Push) (u : UserInfo) : UserInfo :=
  match p.target? with
  | some target =>
      u.set target.field target.field_ne_imsi ((p.payload.drop target.skip).take target.len)
  | none => u

def Push.applyEnbs (p : Push) (eNBs : HashMap hashEnbInfo) : HashMap hashEnbInfo :=
  if p.tag = ItemType.newEnb.code then
    (hashmapAdd eNBs (createEnb p.payload (p.payload.drop 4)
      (by rw [List.length_drop, p.payload_length]; decide))).getD eNBs
  else eNBs

def applyPushes (pushes : List Push) (u : UserInfo) : UserInfo :=
  pushes.foldl (fun u p => p.apply u) u

def applyEnbPushes (pushes : List Push) (eNBs : HashMap hashEnbInfo) : HashMap hashEnbInfo :=
  pushes.foldl (fun eNBs p => p.applyEnbs eNBs) eNBs

theorem pushSlot_eq (w : Work) (p : Push) :
    pushSlot w p =
      if w.user = none ∧ p.target? ≠ none then .error .noUser
      else .ok { w with user := w.user.map p.apply, eNBs := p.applyEnbs w.eNBs } := by
  have hlen : ¬ p.payload.length < 8 := by rw [p.payload_length]; decide
  rcases ho : ItemType.ofCode p.tag with _ | t
  · have htag : p.tag ≠ ItemType.newEnb.code := by rintro h; simp [h] at ho
    have hid : p.apply = id := by funext u; simp [Push.apply, Push.target?, ho]
    simp [pushSlot, pushItem, ho, Push.target?, hid, Push.applyEnbs, htag]
  have htag : p.tag = t.code := ItemType.ofCode_eq_some_iff.mp ho
  by_cases hnew : t = .newEnb
  · subst hnew
    have hid : p.apply = id := by funext u; simp [Push.apply, Push.target?, ho, pushTarget]
    simp [pushSlot, pushItem, Push.target?, pushTarget, hid, Push.applyEnbs, htag, pushEnb, hlen]
  have hne : p.tag ≠ ItemType.newEnb.code := fun h =>
    hnew (ItemType.code_injective (htag.symm.trans h))
  have hitem : pushItem w p.tag p.payload = match pushTarget t with
      | some target => memcpyToUser w target p.payload
      | none => .ok w := by
    unfold pushItem
    rw [ho]
    split
    · next h => exact absurd (Option.some.inj h) hnew
    · next h => cases h; rfl
    · next h => cases h
  rw [pushSlot, hitem]
  rcases ht : pushTarget t with _ | target
  · have hid : p.apply = id := by funext u; simp [Push.apply, Push.target?, ho, ht]
    simp [Push.target?, ho, ht, hid, Push.applyEnbs, hne]
  · have hfits := (pushTarget_fits ht).1
    have hlong : ¬ p.payload.length < target.skip + target.len := by rw [p.payload_length]; omega
    rcases hu : w.user with _ | u
    · simp [memcpyToUser, hu, theUser, Push.target?, ho, ht, bind, Except.bind]
    · simp only [memcpyToUser, hu, theUser, bind, Except.bind, if_neg hlong]
      simp [Push.target?, ho, ht, Push.applyEnbs, hne, Push.apply]

theorem foldlM_pushSlot (pushes : List Push) (w : Work) :
    pushes.foldlM pushSlot w =
      if w.user = none ∧ ∃ p ∈ pushes, p.target? ≠ none then .error .noUser
      else .ok { w with
        user := w.user.map (applyPushes pushes), eNBs := applyEnbPushes pushes w.eNBs } := by
  induction pushes generalizing w with
  | nil =>
      have hid : applyPushes [] = id := rfl
      simp [hid, applyEnbPushes, pure, Except.pure]
  | cons p ps ih =>
      rw [List.foldlM_cons, pushSlot_eq]
      by_cases hp : w.user = none ∧ p.target? ≠ none
      · rw [if_pos hp, if_pos ⟨hp.1, p, by simp, hp.2⟩]
        rfl
      · rw [if_neg hp]
        change ps.foldlM pushSlot _ = _
        rw [ih]
        by_cases hps : w.user = none ∧ ∃ q ∈ ps, q.target? ≠ none
        · obtain ⟨hnone, q, hq, hqt⟩ := hps
          rw [if_pos ⟨by simp [hnone], q, hq, hqt⟩, if_pos ⟨hnone, q, by simp [hq], hqt⟩]
        · have hrest : ¬ (w.user = none ∧ ∃ q ∈ p :: ps, q.target? ≠ none) := by
            rintro ⟨hnone, q, hq, hqt⟩
            rcases List.mem_cons.mp hq with rfl | hq
            · exact hp ⟨hnone, hqt⟩
            · exact hps ⟨hnone, q, hq, hqt⟩
          rw [if_neg (by simpa using hps), if_neg hrest]
          simp only [Option.map_map]
          rfl

private theorem Push.stored_length {p : Push} {target : PushTarget}
    (h : p.target? = some target) :
    ((p.payload.drop target.skip).take target.len).length = target.field.size := by
  obtain ⟨t, _, ht⟩ := Option.bind_eq_some_iff.mp h
  have hfits := pushTarget_fits ht
  rw [List.length_take, List.length_drop, p.payload_length]
  omega

theorem Push.apply_get_other {p : Push} {f : Field} (u : UserInfo)
    (h : ∀ target, p.target? = some target → f ≠ target.field) : (p.apply u).get f = u.get f := by
  unfold Push.apply
  split
  · next target ht =>
    exact u.get_set_other target.field_ne_imsi (h target ht) (Nat.le_of_eq (stored_length ht))
  · rfl

theorem Push.apply_get_target {p : Push} {target : PushTarget} (u : UserInfo)
    (h : p.target? = some target) :
    (p.apply u).get target.field = (p.payload.drop target.skip).take target.len := by
  simp only [Push.apply, h]
  exact u.get_set_same target.field_ne_imsi (stored_length h)

theorem applyPushes_get_other {pushes : List Push} {f : Field} (u : UserInfo)
    (h : ∀ p ∈ pushes, ∀ target, p.target? = some target → f ≠ target.field) :
    (applyPushes pushes u).get f = u.get f := by
  induction pushes generalizing u with
  | nil => rfl
  | cons p ps ih =>
      change (applyPushes ps (p.apply u)).get f = u.get f
      rw [ih (p.apply u) fun q hq => h q (by simp [hq])]
      exact p.apply_get_other u (h p (by simp))

theorem applyPushes_get_last {before after : List Push} {p : Push} {target : PushTarget}
    (u : UserInfo) (hp : p.target? = some target)
    (hafter : ∀ q ∈ after, ∀ t, q.target? = some t → target.field ≠ t.field) :
    (applyPushes (before ++ p :: after) u).get target.field =
      (p.payload.drop target.skip).take target.len := by
  have hsplit : applyPushes (before ++ p :: after) u =
      applyPushes after (p.apply (applyPushes before u)) := by
    simp [applyPushes, List.foldl_append]
  rw [hsplit, applyPushes_get_other _ hafter]
  exact p.apply_get_target _ hp

theorem hashImsiUserInfo_of_imsi_eq {u u' : UserInfo} (h : u'.get .imsi = u.get .imsi) :
    hashImsiUserInfo u' = hashImsiUserInfo u := by
  unfold hashImsiUserInfo
  rw [h]

/-- How many value bytes the case of an item copies out of the user. -/
def copyLen : ItemType → Option Nat
  | .imsi => some imsiLen
  | .msin => some msinLen
  | .tmsi => some tmsiLen
  | .enbUeS1apId | .targetEnbUeS1apId => some enbUeS1apIdLen
  | .mmeUeS1apId => some mmeUeS1apIdLen
  | .ueTeid | .epcTeid => some teidLen
  | .spgwIp => some 7
  | .enbIp => some 8
  | .pdnIp => some 9
  | .epcNasSequenceNumber | .ueNasSequenceNumber | .ueNasSequenceNumberNoInc
  | .nextHopChainingCount => some 16
  | .key | .opc | .encKey | .intKey | .kasme1 | .kasme2 | .knh1 | .knh2 => some keyLen
  | .rand | .randUpdate => some randLen
  | .authRes => some authResLen
  | .enbSourceSocket | .enbTargetSocket => some keyLen
  | .eom | .newEnb | .getEnb => none

def Pull.copyLen? (p : Pull) : Option Nat := (ItemType.ofCode p.tag).bind copyLen

/-- How many value bytes a PULL item writes behind its tag; `none` if it writes nothing. -/
def answerLen (eNBs : HashMap hashEnbInfo) (p : Pull) : Option Nat :=
  if p.tag = ItemType.getEnb.code then
    some (if (hashmapGet eNBs (arrayToUint32 (p.args.take 4))).isSome then 4 else 0)
  else p.copyLen?

theorem answerLen_le {eNBs : HashMap hashEnbInfo} {p : Pull} {n : Nat}
    (h : answerLen eNBs p = some n) : n ≤ 16 := by
  unfold answerLen at h
  split at h
  · split at h <;> (injection h; omega)
  · obtain ⟨t, _, ht⟩ := Option.bind_eq_some_iff.mp h
    cases t <;> simp only [copyLen, Option.some.injEq, reduceCtorEq] at ht <;> subst ht <;> decide

def pullTouches : ItemType → Option Field
  | .epcNasSequenceNumber => some .epcNasSequenceNumber
  | .ueNasSequenceNumber => some .ueNasSequenceNumber
  | .nextHopChainingCount => some .nextHopChainingCount
  | .randUpdate => some .rand
  | _ => none

def Pull.touches? (p : Pull) : Option Field := (ItemType.ofCode p.tag).bind pullTouches

private theorem Pull.args_length_getEnb {p : Pull} (h : ItemType.ofCode p.tag = some .getEnb) :
    p.args.length = 4 := by
  rw [p.args_length, argLen, if_pos (ItemType.ofCode_eq_some_iff.mp h)]

theorem pullSwitch_noUser (eNBs : HashMap hashEnbInfo) (rand : RandStream) (p : Pull) :
    pullSwitch none eNBs rand p.tag p.args = .error .noUser ∧ p.copyLen? ≠ none ∨
      p.copyLen? = none ∧ ∃ a, pullSwitch none eNBs rand p.tag p.args = .ok a := by
  rcases ho : ItemType.ofCode p.tag with _ | t
  · exact Or.inr ⟨by simp [Pull.copyLen?, ho], none, by simp [pullSwitch, ho]⟩
  cases t
  case getEnb =>
    refine Or.inr ⟨by simp [Pull.copyLen?, ho, copyLen], ?_⟩
    simp only [pullSwitch, ho, Pull.args_length_getEnb ho]
    rw [if_neg (by decide)]
    split <;> exact ⟨_, rfl⟩
  case eom => exact Or.inr ⟨by simp [Pull.copyLen?, ho, copyLen], none, by simp [pullSwitch, ho]⟩
  case newEnb => exact Or.inr ⟨by simp [Pull.copyLen?, ho, copyLen], none, by simp [pullSwitch, ho]⟩
  all_goals
    refine Or.inl ⟨?_, by simp [Pull.copyLen?, ho, copyLen]⟩
    simp only [pullSwitch, ho, answerField, theUser]
    rfl

theorem pullSwitch_someUser (u : UserInfo) (eNBs : HashMap hashEnbInfo) (rand : RandStream)
    (p : Pull) : ∃ a, pullSwitch (some u) eNBs rand p.tag p.args = .ok a := by
  rcases ho : ItemType.ofCode p.tag with _ | t
  · exact ⟨none, by simp [pullSwitch, ho]⟩
  cases t
  case getEnb =>
    simp only [pullSwitch, ho, Pull.args_length_getEnb ho]
    rw [if_neg (by decide)]
    split <;> exact ⟨_, rfl⟩
  all_goals
    simp only [pullSwitch, ho, answerField, theUser, bind, Except.bind]
    exact ⟨_, rfl⟩

theorem pullSwitch_length {user : Option UserInfo} {eNBs : HashMap hashEnbInfo}
    {rand : RandStream} {p : Pull} {a : Option PullAnswer}
    (h : pullSwitch user eNBs rand p.tag p.args = .ok a) :
    a.map (fun x => x.bytes.length) = answerLen eNBs p := by
  rcases ho : ItemType.ofCode p.tag with _ | t
  · have htag : p.tag ≠ ItemType.getEnb.code := by rintro h; simp [h] at ho
    simp only [pullSwitch, ho, Except.ok.injEq] at h
    simp [← h, answerLen, htag, Pull.copyLen?, ho]
  have htag := ItemType.ofCode_eq_some_iff.mp ho
  by_cases hget : t = .getEnb
  · subst hget
    simp only [pullSwitch, ho, Pull.args_length_getEnb ho] at h
    rw [if_neg (by decide)] at h
    split at h
    · next hnone => cases h; simp [answerLen, htag, hnone]
    · next enb hsome => cases h; simp [answerLen, htag, hsome, enb.sockNum_length]
  have hne : p.tag ≠ ItemType.getEnb.code := fun h =>
    hget (ItemType.code_injective (htag.symm.trans h))
  simp only [answerLen, if_neg hne, Pull.copyLen?, ho, Option.bind_some]
  rcases user with _ | u
  all_goals
    cases t <;>
      simp only [pullSwitch, ho, answerField, theUser, bind, Except.bind, reduceCtorEq,
        Except.ok.injEq, not_true_eq_false] at h hget <;>
      cases h <;>
      simp [copyLen, UserInfo.copy, getUserMsin, zeroFilled, imsiLen, msinLen, ItemType.code]

/-- A PULL item leaves every member alone but the one it counts up or draws anew, and all that
lies behind the structure. -/
theorem pullSwitch_user {u : UserInfo} {eNBs : HashMap hashEnbInfo} {rand : RandStream}
    {tag : UInt8} {args : List UInt8} {x : PullAnswer}
    (h : pullSwitch (some u) eNBs rand tag args = .ok (some x)) :
    ∃ u', x.user = some u' ∧
      (∀ f, (ItemType.ofCode tag).bind pullTouches ≠ some f → u'.get f = u.get f) ∧
      ∀ i, userInfoSize ≤ i → u'.mem i = u.mem i := by
  have hset : ∀ (f : Field) (hf : f ≠ .imsi) (bs : List UInt8), bs.length = f.size →
      (∀ g, some f ≠ some g → (u.set f hf bs).get g = u.get g) ∧
        ∀ i, userInfoSize ≤ i → (u.set f hf bs).mem i = u.mem i := by
    intro f hf bs hlen
    refine ⟨fun g hg => ?_, fun i hi => u.set_behind hf (Nat.le_of_eq hlen) hi⟩
    exact u.get_set_other hf (fun h => hg (congrArg some h.symm)) (Nat.le_of_eq hlen)
  rcases ho : ItemType.ofCode tag with _ | t
  · simp [pullSwitch, ho] at h
  simp only [Option.bind_some]
  cases t
  case getEnb =>
    simp only [pullSwitch, ho] at h
    split at h
    · cases h
    split at h <;> (cases h; exact ⟨u, rfl, fun _ _ => rfl, fun _ _ => rfl⟩)
  case eom => simp [pullSwitch, ho] at h
  case newEnb => simp [pullSwitch, ho] at h
  all_goals
    simp only [pullSwitch, ho, answerField, theUser, bind, Except.bind, Except.ok.injEq,
      Option.some.injEq] at h
    subst h
    first
      | exact ⟨u, rfl, fun _ _ => rfl, fun _ _ => rfl⟩
      | exact ⟨_, rfl, hset _ (by decide) _ rfl⟩

/-- The inversion lemma of a PULL item. -/
theorem pullSlot_ok {w w' : Work} {p : Pull} (h : pullSlot w p = .ok w') :
    ∃ a, pullSwitch w.user w.eNBs w.rand p.tag p.args = .ok a ∧
      w'.eNBs = w.eNBs ∧ w'.resOffset = w.resOffset + 17 ∧
      (a = none ∧ w'.user = w.user ∧ w'.rand = w.rand ∧ w'.response = w.response ∨
        ∃ x, a = some x ∧ w.resOffset + 1 + x.bytes.length ≤ bufferLen ∧ w'.user = x.user ∧
          w'.rand = x.rand ∧
          w'.response = w.response.write w.resOffset (x.tag.code :: x.bytes)) := by
  simp only [pullSlot, pullItem] at h
  rcases ha : pullSwitch w.user w.eNBs w.rand p.tag p.args with e | a
  · rw [ha] at h
    cases h
  rw [ha] at h
  refine ⟨a, rfl, ?_⟩
  rcases a with _ | x
  · cases h
    exact ⟨rfl, rfl, Or.inl ⟨rfl, rfl, rfl, rfl⟩⟩
  · by_cases hfit : bufferLen < w.resOffset + 1 + x.bytes.length
    · simp [bind, Except.bind, hfit] at h
    · simp only [bind, Except.bind, if_neg hfit, Except.ok.injEq] at h
      subst h
      exact ⟨rfl, rfl, Or.inr ⟨x, rfl, by omega, rfl, rfl, rfl⟩⟩

theorem pullSlot_user {w w' : Work} {p : Pull} (h : pullSlot w p = .ok w') {u : UserInfo}
    (hu : w.user = some u) :
    ∃ u', w'.user = some u' ∧ (∀ f, p.touches? ≠ some f → u'.get f = u.get f) ∧
      ∀ i, userInfoSize ≤ i → u'.mem i = u.mem i := by
  obtain ⟨a, ha, _, _, hcase⟩ := pullSlot_ok h
  rcases hcase with ⟨_, huser, _, _⟩ | ⟨x, rfl, _, huser, _, _⟩
  · exact ⟨u, huser.trans hu, fun _ _ => rfl, fun _ _ => rfl⟩
  · rw [hu] at ha
    obtain ⟨u', hx, hframe⟩ := pullSwitch_user ha
    exact ⟨u', huser.trans hx, hframe⟩

theorem pullSlot_noUser {w w' : Work} {p : Pull} (h : pullSlot w p = .ok w')
    (hu : w.user = none) : w'.user = none := by
  obtain ⟨a, ha, _, _, hcase⟩ := pullSlot_ok h
  rcases hcase with ⟨_, huser, _, _⟩ | ⟨x, rfl, _, huser, _, _⟩
  · exact huser.trans hu
  rw [huser]
  rw [hu] at ha
  have hlen := pullSwitch_length ha
  rcases ho : ItemType.ofCode p.tag with _ | t
  · simp [pullSwitch, ho] at ha
  cases t
  case getEnb =>
    simp only [pullSwitch, ho, Pull.args_length_getEnb ho] at ha
    rw [if_neg (by decide)] at ha
    split at ha <;> (cases ha; rfl)
  all_goals
    simp only [pullSwitch, ho, answerField, theUser, bind, Except.bind, reduceCtorEq,
      Except.ok.injEq] at ha

theorem pullSlot_ok_iff (w : Work) (p : Pull) :
    (∃ w', pullSlot w p = .ok w') ↔
      (w.user = none → p.copyLen? = none) ∧
        ∀ n, answerLen w.eNBs p = some n → w.resOffset + 1 + n ≤ bufferLen := by
  constructor
  · rintro ⟨w', h⟩
    obtain ⟨a, ha, _, _, hcase⟩ := pullSlot_ok h
    refine ⟨fun hu => ?_, fun n hn => ?_⟩
    · rw [hu] at ha
      rcases pullSwitch_noUser w.eNBs w.rand p with ⟨he, _⟩ | ⟨hnone, _⟩
      · rw [ha] at he
        cases he
      · exact hnone
    · rw [← pullSwitch_length ha] at hn
      rcases hcase with ⟨rfl, _⟩ | ⟨x, rfl, hfit, _⟩
      · cases hn
      · cases hn
        exact hfit
  · rintro ⟨huser, hfit⟩
    have hok : ∃ a, pullSwitch w.user w.eNBs w.rand p.tag p.args = .ok a := by
      rcases hu : w.user with _ | u
      · rcases pullSwitch_noUser w.eNBs w.rand p with ⟨_, hne⟩ | ⟨_, hok⟩
        · exact absurd (huser hu) hne
        · exact hok
      · exact pullSwitch_someUser u w.eNBs w.rand p
    obtain ⟨a, ha⟩ := hok
    have hlen := pullSwitch_length ha
    simp only [pullSlot, pullItem, ha, bind, Except.bind]
    rcases a with _ | x
    · exact ⟨_, rfl⟩
    · have hroom : w.resOffset + 1 + x.bytes.length ≤ bufferLen := hfit _ hlen.symm
      exact ⟨_, if_neg (Nat.not_lt.mpr hroom)⟩

/-- The answers from offset `off` on stay inside the response array. -/
def fits (eNBs : HashMap hashEnbInfo) : Nat → List Pull → Prop
  | _, [] => True
  | off, p :: ps =>
      (∀ n, answerLen eNBs p = some n → off + 1 + n ≤ bufferLen) ∧ fits eNBs (off + 17) ps

theorem fits_of_length (eNBs : HashMap hashEnbInfo) (off : Nat) (pulls : List Pull)
    (h : off + 17 * pulls.length ≤ bufferLen) : fits eNBs off pulls := by
  induction pulls generalizing off with
  | nil => trivial
  | cons p ps ih =>
      simp only [List.length_cons] at h
      refine ⟨fun n hn => ?_, ih (off + 17) (by omega)⟩
      have := answerLen_le hn
      omega

theorem foldlM_pullSlot_ok_iff (pulls : List Pull) (w : Work) :
    (∃ w', pulls.foldlM pullSlot w = .ok w') ↔
      (w.user = none → ∀ p ∈ pulls, p.copyLen? = none) ∧ fits w.eNBs w.resOffset pulls := by
  induction pulls generalizing w with
  | nil => exact ⟨fun _ => ⟨by simp, trivial⟩, fun _ => ⟨w, rfl⟩⟩
  | cons p ps ih =>
      rw [List.foldlM_cons]
      have hstep := pullSlot_ok_iff w p
      rcases h : pullSlot w p with e | w'
      · have hno : ¬ ∃ w', pullSlot w p = .ok w' := by simp [h]
        constructor
        · rintro ⟨w', h'⟩
          cases h'
        · rintro ⟨huser, hfits⟩
          exact absurd (hstep.mpr ⟨fun hu => huser hu p (by simp), hfits.1⟩) hno
      · obtain ⟨_, _, henbs, hoff, _⟩ := pullSlot_ok h
        have hyes := hstep.mp ⟨w', h⟩
        have hnone : w'.user = none ↔ w.user = none := by
          rcases hu : w.user with _ | u
          · simp [pullSlot_noUser h hu]
          · obtain ⟨u', hu', _⟩ := pullSlot_user h hu
            simp [hu']
        change (∃ w'', ps.foldlM pullSlot w' = .ok w'') ↔ _
        rw [ih w', henbs, hoff, hnone]
        constructor
        · rintro ⟨huser, hfits⟩
          refine ⟨fun hu q hq => ?_, hyes.2, hfits⟩
          rcases List.mem_cons.mp hq with rfl | hq
          · exact hyes.1 hu
          · exact huser hu q hq
        · rintro ⟨huser, hfits⟩
          exact ⟨fun hu q hq => huser hu q (by simp [hq]), hfits.2⟩

theorem foldlM_pullSlot_frame {pulls : List Pull} {w w' : Work}
    (h : pulls.foldlM pullSlot w = .ok w') :
    w'.eNBs = w.eNBs ∧ w'.resOffset = w.resOffset + 17 * pulls.length ∧
      ∀ j, j < w.resOffset ∨ w.resOffset + 17 * pulls.length ≤ j →
        w'.response j = w.response j := by
  induction pulls generalizing w with
  | nil => cases h; exact ⟨rfl, rfl, fun _ _ => rfl⟩
  | cons p ps ih =>
      rw [List.foldlM_cons] at h
      rcases h₁ : pullSlot w p with e | w₁
      · rw [h₁] at h
        cases h
      rw [h₁] at h
      obtain ⟨henbs, hoff, hresp⟩ := ih h
      obtain ⟨a, ha, henbs₁, hoff₁, hcase⟩ := pullSlot_ok h₁
      refine ⟨henbs.trans henbs₁, by rw [hoff, hoff₁, List.length_cons]; omega, ?_⟩
      intro j hj
      rw [List.length_cons] at hj
      rw [hresp j (by omega)]
      rcases hcase with ⟨_, _, _, hsame⟩ | ⟨x, rfl, _, _, _, hwrite⟩
      · rw [hsame]
      · have hlen : x.bytes.length ≤ 16 := answerLen_le (pullSwitch_length ha).symm
        rw [hwrite]
        exact Mem.write_outside _ _ _ _ (by rw [List.length_cons]; omega)

theorem foldlM_pullSlot_user {pulls : List Pull} {w w' : Work} {u : UserInfo}
    (h : pulls.foldlM pullSlot w = .ok w') (hu : w.user = some u) :
    ∃ u', w'.user = some u' ∧
      (∀ f, (∀ p ∈ pulls, p.touches? ≠ some f) → u'.get f = u.get f) ∧
      ∀ i, userInfoSize ≤ i → u'.mem i = u.mem i := by
  induction pulls generalizing w u with
  | nil => cases h; exact ⟨u, hu, fun _ _ => rfl, fun _ _ => rfl⟩
  | cons p ps ih =>
      rw [List.foldlM_cons] at h
      rcases h₁ : pullSlot w p with e | w₁
      · rw [h₁] at h
        cases h
      rw [h₁] at h
      obtain ⟨u₁, hu₁, hframe₁, hbehind₁⟩ := pullSlot_user h₁ hu
      obtain ⟨u', hu', hframe, hbehind⟩ := ih h hu₁
      refine ⟨u', hu', fun f hf => ?_, fun i hi => (hbehind i hi).trans (hbehind₁ i hi)⟩
      rw [hframe f fun q hq => hf q (by simp [hq]), hframe₁ f (hf p (by simp))]

/-- The block that a PULL item writes into its slot. -/
def PullAnswer.block : Option PullAnswer → List UInt8
  | none => []
  | some x => x.tag.code :: x.bytes

theorem foldlM_pullSlot_at {before after : List Pull} {p : Pull} {w w' : Work}
    (h : (before ++ p :: after).foldlM pullSlot w = .ok w') :
    ∃ w₁ a, before.foldlM pullSlot w = .ok w₁ ∧ w₁.eNBs = w.eNBs ∧
      pullSwitch w₁.user w.eNBs w₁.rand p.tag p.args = .ok a ∧
      ∀ j < 17, w'.response (w.resOffset + 17 * before.length + j) =
        (PullAnswer.block a).getD j (w.response (w.resOffset + 17 * before.length + j)) := by
  rw [List.foldlM_append] at h
  rcases h₁ : before.foldlM pullSlot w with e | w₁
  · rw [h₁] at h
    cases h
  rw [h₁] at h
  change (p :: after).foldlM pullSlot w₁ = .ok w' at h
  rw [List.foldlM_cons] at h
  rcases h₂ : pullSlot w₁ p with e | w₂
  · rw [h₂] at h
    cases h
  rw [h₂] at h
  change after.foldlM pullSlot w₂ = .ok w' at h
  obtain ⟨henbs₁, hoff₁, hresp₁⟩ := foldlM_pullSlot_frame h₁
  obtain ⟨a, ha, _, hoff₂, hcase⟩ := pullSlot_ok h₂
  obtain ⟨_, _, hresp₂⟩ := foldlM_pullSlot_frame h
  rw [henbs₁] at ha
  refine ⟨w₁, a, rfl, henbs₁, ha, fun j hj => ?_⟩
  rw [hresp₂ _ (by omega), ← hresp₁ (w.resOffset + 17 * before.length + j) (by omega)]
  rcases hcase with ⟨rfl, _, _, hsame⟩ | ⟨x, rfl, _, _, _, hwrite⟩
  · rw [hsame]
    rfl
  · rw [hwrite, hoff₁, Mem.write, if_pos (by omega), Nat.add_sub_cancel_left]
    rfl

theorem foldlM_pullSlot_slot {before after : List Pull} {p : Pull} {w w' : Work} {u : UserInfo}
    (h : (before ++ p :: after).foldlM pullSlot w = .ok w') (hu : w.user = some u) :
    ∃ w₁ u₁ a, before.foldlM pullSlot w = .ok w₁ ∧ w₁.user = some u₁ ∧ w₁.eNBs = w.eNBs ∧
      pullSwitch (some u₁) w.eNBs w₁.rand p.tag p.args = .ok a ∧
      ∀ j < 17, w'.response (w.resOffset + 17 * before.length + j) =
        (PullAnswer.block a).getD j (w.response (w.resOffset + 17 * before.length + j)) := by
  obtain ⟨w₁, a, h₁, henbs, ha, hslot⟩ := foldlM_pullSlot_at h
  obtain ⟨u₁, hu₁, _⟩ := foldlM_pullSlot_user h₁ hu
  rw [hu₁] at ha
  exact ⟨w₁, u₁, a, h₁, hu₁, henbs, ha, hslot⟩

theorem Request.run_eq (r : Request) (w : Work) :
    r.run w =
      if w.user = none ∧ ∃ p ∈ r.pushes, p.target? ≠ none then .error .noUser
      else r.pulls.foldlM pullSlot { w with
        user := w.user.map (applyPushes r.pushes), eNBs := applyEnbPushes r.pushes w.eNBs } := by
  rw [Request.run, foldlM_pushSlot]
  split <;> rfl

/-- The work that the PULL loop of a request to a user starts with. -/
def Work.pushed (w : Work) (r : Request) (u : UserInfo) : Work :=
  { w with user := some (applyPushes r.pushes u), eNBs := applyEnbPushes r.pushes w.eNBs }

theorem Request.run_user (r : Request) {w : Work} {u : UserInfo} (hu : w.user = some u) :
    r.run w = r.pulls.foldlM pullSlot (w.pushed r u) := by
  rw [r.run_eq, if_neg (by simp [hu]), hu]
  rfl

theorem Request.run_ok_iff (r : Request) (w : Work) :
    (∃ w', r.run w = .ok w') ↔
      (w.user = none → (∀ p ∈ r.pushes, p.target? = none) ∧ ∀ p ∈ r.pulls, p.copyLen? = none) ∧
        fits (applyEnbPushes r.pushes w.eNBs) w.resOffset r.pulls := by
  rw [r.run_eq]
  split
  · next h =>
    obtain ⟨hnone, p, hp, ht⟩ := h
    constructor
    · rintro ⟨w', hw'⟩
      cases hw'
    · rintro ⟨huser, _⟩
      exact absurd ((huser hnone).1 p hp) ht
  · next h =>
    rw [foldlM_pullSlot_ok_iff]
    simp only [Option.map_eq_none_iff]
    refine and_congr_left fun _ => imp_congr_right fun hnone => ?_
    refine ⟨fun hpulls => ⟨fun p hp => ?_, hpulls⟩, And.right⟩
    by_contra ht
    exact h ⟨hnone, p, hp, ht⟩

/-- The user after a request to it: the key stays, and so does every member that no PUSH slot
stores to and no PULL item changes. -/
theorem Request.run_user_frame {r : Request} {w w' : Work} {u : UserInfo} (hu : w.user = some u)
    (h : r.run w = .ok w') :
    ∃ u', w'.user = some u' ∧ hashImsiUserInfo u' = hashImsiUserInfo u ∧
      ∀ f, (∀ p ∈ r.pushes, ∀ target, p.target? = some target → f ≠ target.field) →
        (∀ p ∈ r.pulls, p.touches? ≠ some f) → u'.get f = u.get f := by
  rw [r.run_user hu] at h
  obtain ⟨u', hu', hframe, _⟩ := foldlM_pullSlot_user h rfl
  have hget : ∀ f, (∀ p ∈ r.pushes, ∀ target, p.target? = some target → f ≠ target.field) →
      (∀ p ∈ r.pulls, p.touches? ≠ some f) → u'.get f = u.get f := by
    intro f hpush hpull
    rw [hframe f hpull, applyPushes_get_other u hpush]
  refine ⟨u', hu', hashImsiUserInfo_of_imsi_eq (hget .imsi ?_ ?_), hget⟩
  · exact fun _ _ target _ => target.field_ne_imsi.symm
  · intro p _ hp
    obtain ⟨t, _, ht⟩ := Option.bind_eq_some_iff.mp hp
    cases t <;> simp [pullTouches] at ht

theorem Work.commit_user? {w : Work} {db : Db} {key : UInt32} {u u' : UserInfo}
    (hold : db.user? key = some u) (hu : w.user = some u') (hkey : hashImsiUserInfo u' = key)
    (key' : UInt32) :
    (w.commit db key).user? key' = if key' = key then some u' else db.user? key' := by
  simp only [Db.user?, commit, hu]
  exact hashmapGet_store hold hkey key'

end PublicCloudCore.CorekubeDb
