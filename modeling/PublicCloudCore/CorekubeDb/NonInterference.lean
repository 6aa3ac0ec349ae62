import PublicCloudCore.CorekubeDb.RoundTrip

/-!
# What a response depends on

The response array is never cleared, so an item that does not fill its slot sends what earlier
requests left there, and the copies of the sockets run into the memory behind the record. The
items that fill their slot from the pulled member alone are exactly those whose answers are
determined by the request and the member.
-/

namespace PublicCloudCore.CorekubeDb

open Framework Libck

def pulledField : ItemType → Option Field
  | .imsi | .msin => some .imsi
  | .tmsi => some .tmsi
  | .enbUeS1apId => some .enbUeS1apId
  | .targetEnbUeS1apId => some .targetEnbUeS1apId
  | .mmeUeS1apId => some .mmeUeS1apId
  | .ueTeid => some .ueTeid
  | .epcTeid => some .epcTeid
  | .spgwIp => some .spgwIp
  | .enbIp => some .enbIp
  | .pdnIp => some .pdnIpv4
  | .epcNasSequenceNumber => some .epcNasSequenceNumber
  | .ueNasSequenceNumber | .ueNasSequenceNumberNoInc => some .ueNasSequenceNumber
  | .nextHopChainingCount => some .nextHopChainingCount
  | .key => some .key
  | .opc => some .opc
  | .rand | .randUpdate => some .rand
  | .authRes => some .authRes
  | .encKey => some .encKey
  | .intKey => some .intKey
  | .kasme1 => some .kasme1
  | .kasme2 => some .kasme2
  | .knh1 => some .knh1
  | .knh2 => some .knh2
  | .enbSourceSocket => some .enbSourceSocket
  | .enbTargetSocket => some .enbTargetSocket
  | .eom | .newEnb | .getEnb => none

def Pull.field? (p : Pull) : Option Field := (ItemType.ofCode p.tag).bind pulledField

/-- Two users agree on the members that the items read, each at its declared length. -/
def AgreeOnPulled (pulls : List Pull) (u₁ u₂ : UserInfo) : Prop :=
  ∀ p ∈ pulls, ∀ f, p.field? = some f → u₁.get f = u₂.get f

/-- The response to a request is the same, and there is one, in any two executions whose stores
agree on what it pulls of the user, whatever else they hold, whatever the connection's arrays
hold and whatever lies behind the request. -/
def NonInterfering (r : Request) (key : UInt32) : Prop :=
  ∀ (db₁ db₂ : Db) (u₁ u₂ : UserInfo) (response₁ response₂ : Mem UInt8)
    (tail₁ tail₂ : List UInt8) (len₁ len₂ : Nat),
    db₁.user? key = some u₁ → db₂.user? key = some u₂ → AgreeOnPulled r.pulls u₁ u₂ →
    r.Ends tail₁ len₁ → r.Ends tail₂ len₂ →
    ∃ a₁ a₂, analyzeRequest db₁ (r.body ++ tail₁) len₁ response₁ = .ok a₁ ∧
      analyzeRequest db₂ (r.body ++ tail₂) len₂ response₂ = .ok a₂ ∧
      a₁.response.read 0 a₁.responseLen = a₂.response.read 0 a₂.responseLen

def wholeItems : List ItemType :=
  [.imsi, .key, .opc, .rand, .randUpdate, .epcNasSequenceNumber, .ueNasSequenceNumber,
    .ueNasSequenceNumberNoInc, .nextHopChainingCount, .encKey, .intKey, .kasme1, .kasme2, .knh1,
    .knh2]

def Pull.IsWhole (p : Pull) : Prop := ∃ t ∈ wholeItems, p.tag = t.code

/-- No challenge is pulled behind an item that draws a new one. -/
def KeepsRand (pulls : List Pull) : Prop :=
  pulls.Pairwise fun p q => p.tag = ItemType.randUpdate.code → q.field? ≠ some .rand

private theorem getCounter_eq {u₁ u₂ : UserInfo} {f : Field} (hf : f.size = 1)
    (h : u₁.get f = u₂.get f) : getCounter u₁ f = getCounter u₂ f := by
  simp only [UserInfo.get, UserInfo.copy, hf] at h
  exact Mem.cell_eq_of_read_eq h (Nat.le_refl _) (Nat.lt_succ_self _)

theorem set_agree {u₁ u₂ : UserInfo} {f : Field} (hf : f ≠ .imsi) {bs : List UInt8}
    (hlen : bs.length = f.size) {g : Field} (h : u₁.get g = u₂.get g) :
    (u₁.set f hf bs).get g = (u₂.set f hf bs).get g := by
  by_cases hg : g = f
  · subst hg
    rw [u₁.get_set_same hf hlen, u₂.get_set_same hf hlen]
  · rw [u₁.get_set_other hf hg (Nat.le_of_eq hlen), u₂.get_set_other hf hg (Nat.le_of_eq hlen), h]

theorem pullSwitch_whole {u₁ u₂ : UserInfo} {eNBs₁ eNBs₂ : HashMap hashEnbInfo}
    {rand₁ rand₂ : RandStream} {t : ItemType} (ht : t ∈ wholeItems) {args₁ args₂ : List UInt8}
    (hagree : ∀ f, pulledField t = some f → u₁.get f = u₂.get f) :
    ∃ x₁ x₂ u₁' u₂', pullSwitch (some u₁) eNBs₁ rand₁ t.code args₁ = .ok (some x₁) ∧
      pullSwitch (some u₂) eNBs₂ rand₂ t.code args₂ = .ok (some x₂) ∧
      x₁.tag = x₂.tag ∧ x₁.bytes = x₂.bytes ∧ x₁.user = some u₁' ∧ x₂.user = some u₂' ∧
      ∀ g, (t = .randUpdate → g ≠ .rand) → u₁.get g = u₂.get g → u₁'.get g = u₂'.get g := by
  have hcounter : ∀ (f : Field) (hf : f ≠ .imsi), f.size = 1 → pulledField t = some f →
      getCounter u₁ f = getCounter u₂ f ∧
        ∀ g, u₁.get g = u₂.get g →
          (u₁.set f hf [getCounter u₁ f + 1]).get g =
            (u₂.set f hf [getCounter u₂ f + 1]).get g := by
    intro f hf hsize hread
    have heq := getCounter_eq hsize (hagree f hread)
    refine ⟨heq, fun g hg => ?_⟩
    rw [heq]
    exact set_agree hf (by simp [hsize]) hg
  cases t
  case imsi =>
    refine ⟨_, _, u₁, u₂, rfl, rfl, rfl, ?_, rfl, rfl, fun _ _ h => h⟩
    exact congrArg (List.set · 15 0) (hagree .imsi rfl)
  case randUpdate =>
    refine ⟨_, _, _, _, rfl, rfl, rfl, hagree .rand rfl, rfl, rfl, fun g hg h => ?_⟩
    have hne : g ≠ .rand := hg rfl
    rw [u₁.get_set_other _ hne (by rfl), u₂.get_set_other _ hne (by rfl), h]
  case epcNasSequenceNumber =>
    obtain ⟨heq, hset⟩ := hcounter .epcNasSequenceNumber (by decide) rfl rfl
    exact ⟨_, _, _, _, rfl, rfl, rfl, congrArg (zeroFilled 5) heq, rfl, rfl, fun g _ => hset g⟩
  case ueNasSequenceNumber =>
    obtain ⟨heq, hset⟩ := hcounter .ueNasSequenceNumber (by decide) rfl rfl
    exact ⟨_, _, _, _, rfl, rfl, rfl, congrArg (zeroFilled 0) heq, rfl, rfl, fun g _ => hset g⟩
  case ueNasSequenceNumberNoInc =>
    obtain ⟨heq, _⟩ := hcounter .ueNasSequenceNumber (by decide) rfl rfl
    exact ⟨_, _, u₁, u₂, rfl, rfl, rfl, congrArg (zeroFilled 0) heq, rfl, rfl, fun _ _ h => h⟩
  case nextHopChainingCount =>
    obtain ⟨heq, hset⟩ := hcounter .nextHopChainingCount (by decide) rfl rfl
    exact ⟨_, _, _, _, rfl, rfl, rfl, congrArg (zeroFilled 0) heq, rfl, rfl, fun g _ => hset g⟩
  -- the copies of sixteen bytes
  all_goals
    first
      | exact absurd ht (by decide)
      | exact ⟨_, _, u₁, u₂, rfl, rfl, rfl, hagree _ rfl, rfl, rfl, fun _ _ h => h⟩

theorem answerLen_whole {p : Pull} (h : p.IsWhole) (eNBs : HashMap hashEnbInfo) :
    answerLen eNBs p = some 16 := by
  obtain ⟨t, ht, htag⟩ := h
  have key : ∀ t ∈ wholeItems, t ≠ .getEnb ∧ copyLen t = some 16 := by decide
  obtain ⟨hne, hcopy⟩ := key t ht
  have hnot : p.tag ≠ ItemType.getEnb.code := by
    intro h
    exact hne (ItemType.code_injective (htag.symm.trans h))
  rw [answerLen, if_neg hnot, Pull.copyLen?, htag, ItemType.ofCode_code]
  exact hcopy

theorem whole_or_socket {p : Pull} {eNBs : HashMap hashEnbInfo} (h : answerLen eNBs p = some 16) :
    p.IsWhole ∨ p.tag = ItemType.enbSourceSocket.code ∨ p.tag = ItemType.enbTargetSocket.code := by
  unfold answerLen at h
  split at h
  · split at h <;> cases h
  · obtain ⟨t, ho, hcopy⟩ := Option.bind_eq_some_iff.mp h
    have htag := ItemType.ofCode_eq_some_iff.mp ho
    have key : ∀ t ∈ ItemType.all, copyLen t = some 16 →
        t ∈ wholeItems ∨ t = .enbSourceSocket ∨ t = .enbTargetSocket := by decide
    rcases key t (ItemType.mem_all t) hcopy with hwhole | rfl | rfl
    · exact Or.inl ⟨t, hwhole, htag⟩
    · exact Or.inr (Or.inl htag)
    · exact Or.inr (Or.inr htag)

/-- Two executions have sent the same bytes so far and agree on what is still to be pulled. -/
structure SameAnswers (pulls : List Pull) (w₁ w₂ : Work) : Prop where
  users : ∃ u₁ u₂, w₁.user = some u₁ ∧ w₂.user = some u₂ ∧ AgreeOnPulled pulls u₁ u₂
  resOffset : w₁.resOffset = w₂.resOffset
  response : ∀ j < w₁.resOffset, w₁.response j = w₂.response j

theorem SameAnswers.pullSlot {p : Pull} {ps : List Pull} {w₁ w₂ w₁' w₂' : Work}
    (h : SameAnswers (p :: ps) w₁ w₂) (hp : p.IsWhole) (hrand : KeepsRand (p :: ps))
    (h₁ : pullSlot w₁ p = .ok w₁') (h₂ : pullSlot w₂ p = .ok w₂') : SameAnswers ps w₁' w₂' := by
  have hfull := answerLen_whole hp
  obtain ⟨t, ht, htag⟩ := hp
  obtain ⟨u₁, u₂, hu₁, hu₂, hagree⟩ := h.users
  obtain ⟨a₁, ha₁, _, hoff₁, hcase₁⟩ := pullSlot_ok h₁
  obtain ⟨a₂, ha₂, _, hoff₂, hcase₂⟩ := pullSlot_ok h₂
  have hread : ∀ f, pulledField t = some f → u₁.get f = u₂.get f := by
    intro f hf
    exact hagree p (by simp) f (by rw [Pull.field?, htag, ItemType.ofCode_code]; exact hf)
  obtain ⟨x₁, x₂, u₁', u₂', hx₁, hx₂, heqtag, heqbytes, hxu₁, hxu₂, hset⟩ :=
    @pullSwitch_whole u₁ u₂ w₁.eNBs w₂.eNBs w₁.rand w₂.rand t ht p.args p.args hread
  rw [← htag] at hx₁ hx₂
  rw [hu₁, hx₁] at ha₁
  rw [hu₂, hx₂] at ha₂
  cases ha₁
  cases ha₂
  rcases hcase₁ with ⟨hnone, _⟩ | ⟨y₁, hy₁, _, huser₁, _, hwrite₁⟩
  · cases hnone
  rcases hcase₂ with ⟨hnone, _⟩ | ⟨y₂, hy₂, _, huser₂, _, hwrite₂⟩
  · cases hnone
  cases hy₁
  cases hy₂
  refine ⟨⟨u₁', u₂', huser₁.trans hxu₁, huser₂.trans hxu₂, ?_⟩, ?_, ?_⟩
  · intro q hq f hf
    refine hset f ?_ (hagree q (by simp [hq]) f hf)
    intro hup hrandf
    have hlater := (List.pairwise_cons.mp hrand).1 q hq (by rw [htag, hup])
    exact hlater (by rw [hf, hrandf])
  · rw [hoff₁, hoff₂, h.resOffset]
  · intro j hj
    rw [hwrite₁, hwrite₂, heqtag, heqbytes, ← h.resOffset]
    have hlen : x₂.bytes.length = 16 :=
      Option.some.inj ((pullSwitch_length hx₂).trans (hfull w₂.eNBs))
    by_cases hlo : j < w₁.resOffset
    · rw [Mem.write_outside _ _ _ _ (Or.inl hlo), Mem.write_outside _ _ _ _ (Or.inl hlo)]
      exact h.response j hlo
    · obtain ⟨i, rfl⟩ := Nat.exists_eq_add_of_le (Nat.le_of_not_lt hlo)
      rw [Mem.write_inside _ _ _ _ (by rw [List.length_cons]; omega),
        Mem.write_inside _ _ _ _ (by rw [List.length_cons]; omega)]

theorem SameAnswers.foldlM_pullSlot {pulls : List Pull} {w₁ w₂ w₁' w₂' : Work}
    (h : SameAnswers pulls w₁ w₂) (hwhole : ∀ p ∈ pulls, p.IsWhole) (hrand : KeepsRand pulls)
    (h₁ : pulls.foldlM CorekubeDb.pullSlot w₁ = .ok w₁')
    (h₂ : pulls.foldlM CorekubeDb.pullSlot w₂ = .ok w₂') : SameAnswers [] w₁' w₂' := by
  induction pulls generalizing w₁ w₂ with
  | nil =>
      cases h₁
      cases h₂
      exact h
  | cons p ps ih =>
      rw [List.foldlM_cons] at h₁ h₂
      rcases hs₁ : CorekubeDb.pullSlot w₁ p with e | v₁
      · rw [hs₁] at h₁
        cases h₁
      rcases hs₂ : CorekubeDb.pullSlot w₂ p with e | v₂
      · rw [hs₂] at h₂
        cases h₂
      rw [hs₁] at h₁
      rw [hs₂] at h₂
      have hstep := h.pullSlot (hwhole p (by simp)) hrand hs₁ hs₂
      exact ih hstep (fun q hq => hwhole q (by simp [hq])) (List.pairwise_cons.mp hrand).2 h₁ h₂

theorem applyPushes_agree (pushes : List Push) {u₁ u₂ : UserInfo} {f : Field}
    (h : u₁.get f = u₂.get f) :
    (applyPushes pushes u₁).get f = (applyPushes pushes u₂).get f := by
  induction pushes generalizing u₁ u₂ with
  | nil => exact h
  | cons p ps ih =>
      apply ih
      by_cases ht : ∃ target, p.target? = some target ∧ f = target.field
      · obtain ⟨target, ht, rfl⟩ := ht
        rw [p.apply_get_target u₁ ht, p.apply_get_target u₂ ht]
      · have hother : ∀ target, p.target? = some target → f ≠ target.field :=
          fun target hp hf => ht ⟨target, hp, hf⟩
        rw [p.apply_get_other u₁ hother, p.apply_get_other u₂ hother, h]

/-- Whole items, the challenge before it changes and a response that fits: the answer is a
function of the request and the members it pulls. -/
theorem nonInterfering_of_whole {r : Request} {key : UInt32} (heom : r.PullsNoEom)
    (hkey : r.target = .user key) (hwhole : ∀ p ∈ r.pulls, p.IsWhole)
    (hrand : KeepsRand r.pulls) (hlen : r.pulls.length ≤ 60) : NonInterfering r key := by
  intro db₁ db₂ u₁ u₂ response₁ response₂ tail₁ tail₂ len₁ len₂ hu₁ hu₂ hagree hend₁ hend₂
  have hruns : ∀ (db : Db) (u : UserInfo) (response : Mem UInt8),
      ∃ w, r.run (.start db (some u) response) = .ok w := by
    intro db u response
    refine (r.run_ok_iff _).mpr ⟨fun h => by simp [Work.start] at h, ?_⟩
    exact fits_of_length _ _ _ (by simp only [Work.start, bufferLen]; omega)
  obtain ⟨w₁, hw₁⟩ := hruns db₁ u₁ response₁
  obtain ⟨w₂, hw₂⟩ := hruns db₂ u₂ response₂
  refine ⟨_, _, by rw [analyzeRequest_user hkey hu₁ heom hend₁, hw₁]; rfl,
    by rw [analyzeRequest_user hkey hu₂ heom hend₂, hw₂]; rfl, ?_⟩
  rw [r.run_user rfl] at hw₁ hw₂
  have hstart : SameAnswers r.pulls ((Work.start db₁ (some u₁) response₁).pushed r u₁)
      ((Work.start db₂ (some u₂) response₂).pushed r u₂) := by
    refine ⟨⟨_, _, rfl, rfl, fun p hp f hf => ?_⟩, rfl, fun j hj => ?_⟩
    · exact applyPushes_agree r.pushes (hagree p hp f hf)
    · exact absurd hj (Nat.not_lt_zero j)
  have hend := hstart.foldlM_pullSlot hwhole hrand hw₁ hw₂
  show w₁.response.read 0 w₁.resOffset = w₂.response.read 0 w₂.resOffset
  rw [← hend.resOffset]
  exact Mem.read_congr fun i _ hi => hend.response i (by omega)

structure RunTo (r : Request) (db : Db) (u : UserInfo) (response : Mem UInt8) (before : List Pull)
    (p : Pull) where
  work : Work
  user : UserInfo
  answer : Option PullAnswer
  runs : before.foldlM CorekubeDb.pullSlot ((Work.start db (some u) response).pushed r u) = .ok work
  work_user : work.user = some user
  answers : pullSwitch (some user) (applyEnbPushes r.pushes db.eNBs) work.rand p.tag p.args =
    .ok answer

theorem NonInterfering.slot {r : Request} {key : UInt32} (h : NonInterfering r key)
    (heom : r.PullsNoEom) (hkey : r.target = .user key) {db₁ db₂ : Db} {u₁ u₂ : UserInfo}
    (hu₁ : db₁.user? key = some u₁) (hu₂ : db₂.user? key = some u₂)
    (hagree : AgreeOnPulled r.pulls u₁ u₂) (response₁ response₂ : Mem UInt8)
    {before after : List Pull} {p : Pull} (hpulls : r.pulls = before ++ p :: after) :
    ∃ (x₁ : RunTo r db₁ u₁ response₁ before p) (x₂ : RunTo r db₂ u₂ response₂ before p),
      ∀ j < 17, (PullAnswer.block x₁.answer).getD j (response₁ (17 * before.length + j)) =
        (PullAnswer.block x₂.answer).getD j (response₂ (17 * before.length + j)) := by
  obtain ⟨a₁, a₂, ha₁, ha₂, hsame⟩ := h db₁ db₂ u₁ u₂ response₁ response₂ [] [] r.body.length
    r.body.length hu₁ hu₂ hagree (Or.inl rfl) (Or.inl rfl)
  rw [analyzeRequest_user hkey hu₁ heom (Or.inl rfl)] at ha₁
  rw [analyzeRequest_user hkey hu₂ heom (Or.inl rfl)] at ha₂
  rcases hw₁ : r.run (.start db₁ (some u₁) response₁) with e | w₁
  · rw [hw₁] at ha₁
    cases ha₁
  rcases hw₂ : r.run (.start db₂ (some u₂) response₂) with e | w₂
  · rw [hw₂] at ha₂
    cases ha₂
  rw [hw₁] at ha₁
  rw [hw₂] at ha₂
  cases ha₁
  cases ha₂
  rw [r.run_user rfl, hpulls] at hw₁ hw₂
  obtain ⟨v₁, y₁, x₁, hv₁, hy₁, _, hx₁, hcells₁⟩ := foldlM_pullSlot_slot hw₁ rfl
  obtain ⟨v₂, y₂, x₂, hv₂, hy₂, _, hx₂, hcells₂⟩ := foldlM_pullSlot_slot hw₂ rfl
  obtain ⟨_, hoff₁, _⟩ := foldlM_pullSlot_frame hw₁
  obtain ⟨_, hoff₂, _⟩ := foldlM_pullSlot_frame hw₂
  refine ⟨⟨v₁, y₁, x₁, hv₁, hy₁, hx₁⟩, ⟨v₂, y₂, x₂, hv₂, hy₂, hx₂⟩, fun j hj => ?_⟩
  have hzero₁ : ((Work.start db₁ (some u₁) response₁).pushed r u₁).resOffset = 0 := rfl
  have hzero₂ : ((Work.start db₂ (some u₂) response₂).pushed r u₂).resOffset = 0 := rfl
  have h₁ := hcells₁ j hj
  have h₂ := hcells₂ j hj
  rw [hzero₁, Nat.zero_add] at h₁
  rw [hzero₂, Nat.zero_add] at h₂
  rw [hzero₁, List.length_append, List.length_cons] at hoff₁
  rw [hzero₂, List.length_append, List.length_cons, ← hoff₁] at hoff₂
  show (PullAnswer.block x₁).getD j (response₁ _) = (PullAnswer.block x₂).getD j (response₂ _)
  refine h₁.symm.trans (Eq.trans ?_ h₂)
  replace hsame : w₁.response.read 0 w₁.resOffset = w₂.response.read 0 w₂.resOffset := hsame
  rw [hoff₂] at hsame
  exact Mem.cell_eq_of_read_eq hsame (Nat.zero_le _) (by omega)

/-- A slot that is not filled shows what the response array held before. -/
theorem NonInterfering.fills {r : Request} {key : UInt32} (h : NonInterfering r key)
    (heom : r.PullsNoEom) (hkey : r.target = .user key) {db : Db} {u : UserInfo}
    (hu : db.user? key = some u) {p : Pull} (hp : p ∈ r.pulls) :
    answerLen (applyEnbPushes r.pushes db.eNBs) p = some 16 := by
  obtain ⟨before, after, hpulls⟩ := List.append_of_mem hp
  obtain ⟨x₁, x₂, hcell⟩ := h.slot heom hkey hu hu (fun _ _ _ _ => rfl) (fun _ => 0) (fun _ => 1)
    hpulls
  have hlast := hcell 16 (by decide)
  have hlen₁ := pullSwitch_length x₁.answers
  have hlen₂ := pullSwitch_length x₂.answers
  by_contra hne
  have hshort : ∀ a : Option PullAnswer,
      a.map (fun x => x.bytes.length) = answerLen (applyEnbPushes r.pushes db.eNBs) p →
      (PullAnswer.block a).length ≤ 16 := by
    intro a ha
    rcases a with _ | x
    · simp [PullAnswer.block]
    · have hle : x.bytes.length ≤ 16 := answerLen_le ha.symm
      have : x.bytes.length ≠ 16 := fun h16 => hne (by rw [← ha, ← h16]; rfl)
      simp only [PullAnswer.block, List.length_cons]
      omega
  rw [List.getD_eq_default _ _ (hshort _ hlen₁), List.getD_eq_default _ _ (hshort _ hlen₂)] at hlast
  exact absurd hlast (by decide)

def UserInfo.inFrontOf (u : UserInfo) (b : UInt8) : UserInfo where
  mem := fun i => if userInfoSize ≤ i then b else u.mem i
  imsi_terminated := by
    rw [if_neg (by decide)]
    exact u.imsi_terminated

theorem UserInfo.get_inFrontOf (u : UserInfo) (b : UInt8) (f : Field) :
    (u.inFrontOf b).get f = u.get f := by
  apply Mem.read_congr
  intro i _ hi
  have := f.end_le
  exact if_neg (by omega)

theorem applyPushes_behind (pushes : List Push) (u : UserInfo) {i : Nat} (hi : userInfoSize ≤ i) :
    (applyPushes pushes u).mem i = u.mem i := by
  induction pushes generalizing u with
  | nil => rfl
  | cons p ps ih =>
      refine (ih (p.apply u)).trans ?_
      rcases ht : p.target? with _ | target
      · simp only [Push.apply, ht]
      · simp only [Push.apply, ht]
        obtain ⟨t, _, htarget⟩ := Option.bind_eq_some_iff.mp ht
        have hfits := (pushTarget_fits htarget).2
        exact u.set_behind _ (by rw [List.length_take]; omega) hi

/-- A socket's slot shows memory behind the record. -/
theorem NonInterfering.no_socket {r : Request} {key : UInt32} (h : NonInterfering r key)
    (heom : r.PullsNoEom) (hkey : r.target = .user key) {db : Db} {u : UserInfo}
    (hu : db.user? key = some u) {p : Pull} (hp : p ∈ r.pulls) :
    p.tag ≠ ItemType.enbSourceSocket.code ∧ p.tag ≠ ItemType.enbTargetSocket.code := by
  obtain ⟨before, after, hpulls⟩ := List.append_of_mem hp
  have hstored : ∀ b, Db.user? { db with imsiMap := hashmapStore db.imsiMap key (u.inFrontOf b) }
      key = some (u.inFrontOf b) := by
    intro b
    have hhash : hashImsiUserInfo (u.inFrontOf b) = key :=
      (hashImsiUserInfo_of_imsi_eq (u.get_inFrontOf b .imsi)).trans (Db.hash_of_user? hu)
    have := hashmapGet_store hu hhash key
    rwa [if_pos rfl] at this
  obtain ⟨x₁, x₂, hcell⟩ := h.slot heom hkey (hstored 0) (hstored 1)
    (fun _ _ f _ => by rw [u.get_inFrontOf, u.get_inFrontOf]) (fun _ => 0) (fun _ => 0) hpulls
  have hlast := hcell 16 (by decide)
  -- the last byte of the copy is not the record's
  have hbyte : ∀ (b : UInt8)
      (x : RunTo r { db with imsiMap := hashmapStore db.imsiMap key (u.inFrontOf b) }
        (u.inFrontOf b) (fun _ => 0) before p) (t : ItemType) (f : Field),
      p.tag = t.code → (∀ user eNBs rand args, pullSwitch user eNBs rand t.code args =
        answerField user rand t f 16) → userInfoSize ≤ f.offset + 15 →
      (PullAnswer.block x.answer).getD 16 0 = b := by
    intro b x t f htag hcase hbehind
    have hanswer := x.answers
    rw [htag, hcase] at hanswer
    obtain ⟨u', hu', _, hkept⟩ := foldlM_pullSlot_user x.runs rfl
    obtain rfl : x.user = u' := Option.some.inj (x.work_user.symm.trans hu')
    have hmem : x.user.mem (f.offset + 15) = b := by
      rw [hkept _ hbehind, applyPushes_behind _ _ hbehind]
      exact if_pos hbehind
    rw [← Except.ok.inj hanswer]
    exact hmem
  constructor
  · intro htag
    rw [hbyte 0 x₁ .enbSourceSocket .enbSourceSocket htag (fun _ _ _ _ => rfl) (by decide),
      hbyte 1 x₂ .enbSourceSocket .enbSourceSocket htag (fun _ _ _ _ => rfl) (by decide)] at hlast
    exact absurd hlast (by decide)
  · intro htag
    rw [hbyte 0 x₁ .enbTargetSocket .enbTargetSocket htag (fun _ _ _ _ => rfl) (by decide),
      hbyte 1 x₂ .enbTargetSocket .enbTargetSocket htag (fun _ _ _ _ => rfl) (by decide)] at hlast
    exact absurd hlast (by decide)

/-- The challenge that four equal random numbers make. -/
def challenge (c : UInt32) : List UInt8 :=
  uint32ToArray c ++ uint32ToArray c ++ uint32ToArray c ++ uint32ToArray c

/-- Every random number to come is `c`, and so was every one in the user's challenge. -/
def Drawn (c : UInt32) (w : Work) : Prop :=
  (∀ n, w.rand n = c) ∧ ∃ u, w.user = some u ∧ u.get .rand = challenge c

theorem pullSwitch_rand {u : UserInfo} {eNBs : HashMap hashEnbInfo} {rand : RandStream}
    {tag : UInt8} {args : List UInt8} {x : PullAnswer}
    (h : pullSwitch (some u) eNBs rand tag args = .ok (some x)) :
    tag = ItemType.randUpdate.code ∧ x.user = some (generateRand u rand).1 ∧
        x.rand = (generateRand u rand).2 ∨
      x.rand = rand ∧ (ItemType.ofCode tag).bind pullTouches ≠ some .rand := by
  rcases ho : ItemType.ofCode tag with _ | t
  · simp [pullSwitch, ho] at h
  simp only [Option.bind_some]
  cases t
  case randUpdate =>
    simp only [pullSwitch, ho, theUser, bind, Except.bind, Except.ok.injEq, Option.some.injEq] at h
    subst h
    exact Or.inl ⟨ItemType.ofCode_eq_some_iff.mp ho, rfl, rfl⟩
  case getEnb =>
    simp only [pullSwitch, ho] at h
    split at h
    · cases h
    split at h <;> (cases h; exact Or.inr ⟨rfl, by decide⟩)
  case eom => simp [pullSwitch, ho] at h
  case newEnb => simp [pullSwitch, ho] at h
  all_goals
    simp only [pullSwitch, ho, answerField, theUser, bind, Except.bind, Except.ok.injEq,
      Option.some.injEq] at h
    subst h
    exact Or.inr ⟨rfl, by decide⟩

theorem generateRand_get (u : UserInfo) {rand : RandStream} {c : UInt32} (h : ∀ n, rand n = c) :
    (generateRand u rand).1.get .rand = challenge c := by
  have hlen : (uint32ToArray (rand 0) ++ uint32ToArray (rand 1) ++ uint32ToArray (rand 2) ++
      uint32ToArray (rand 3)).length = Field.rand.size := rfl
  refine (u.get_set_same Field.rand_ne_imsi hlen).trans ?_
  simp only [h, challenge]

theorem pullSlot_drawn {c : UInt32} {w w' : Work} {p : Pull} (h : pullSlot w p = .ok w')
    {u : UserInfo} (hu : w.user = some u) (hrand : ∀ n, w.rand n = c) :
    (∀ n, w'.rand n = c) ∧ (Drawn c w ∨ p.tag = ItemType.randUpdate.code → Drawn c w') := by
  obtain ⟨a, ha, _, _, hcase⟩ := pullSlot_ok h
  rcases hcase with ⟨rfl, huser, hrand', _⟩ | ⟨x, rfl, _, huser, hrand', _⟩
  · have hkept : ∀ n, w'.rand n = c := by rw [hrand']; exact hrand
    refine ⟨hkept, fun hd => ⟨hkept, ?_⟩⟩
    rcases hd with ⟨_, hget⟩ | htag
    · rw [huser]
      exact hget
    · rw [hu, htag] at ha
      cases ha
  · rw [hu] at ha
    rcases pullSwitch_rand ha with ⟨_, hx, hxrand⟩ | ⟨hxrand, htouch⟩
    · have hkept : ∀ n, w'.rand n = c := by
        rw [hrand', hxrand]
        exact fun n => hrand (n + 4)
      exact ⟨hkept, fun _ => ⟨hkept, _, huser.trans hx, generateRand_get u hrand⟩⟩
    · have hkept : ∀ n, w'.rand n = c := by
        rw [hrand', hxrand]
        exact hrand
      obtain ⟨u', hu', hframe, _⟩ := pullSwitch_user ha
      refine ⟨hkept, fun hd => ⟨hkept, u', huser.trans hu', ?_⟩⟩
      rcases hd with ⟨_, v, hv, hget⟩ | htag
      · obtain rfl : u = v := Option.some.inj (hu.symm.trans hv)
        rw [hframe .rand htouch, hget]
      · rw [htag] at htouch
        exact absurd rfl htouch

theorem foldlM_pullSlot_drawn {c : UInt32} {pulls : List Pull} {w w' : Work}
    (h : pulls.foldlM pullSlot w = .ok w') {u : UserInfo} (hu : w.user = some u)
    (hrand : ∀ n, w.rand n = c) :
    (∀ n, w'.rand n = c) ∧
      (Drawn c w ∨ (∃ p ∈ pulls, p.tag = ItemType.randUpdate.code) → Drawn c w') := by
  induction pulls generalizing w u with
  | nil =>
      cases h
      exact ⟨hrand, fun hd => hd.resolve_right (by simp)⟩
  | cons p ps ih =>
      rw [List.foldlM_cons] at h
      rcases hs : pullSlot w p with e | v
      · rw [hs] at h
        cases h
      rw [hs] at h
      obtain ⟨hrandv, hdrawn⟩ := pullSlot_drawn hs hu hrand
      obtain ⟨uv, huv, _⟩ := pullSlot_user hs hu
      obtain ⟨hrand', hdrawn'⟩ := ih h huv hrandv
      refine ⟨hrand', fun hd => hdrawn' ?_⟩
      rcases hd with hd | ⟨q, hq, htag⟩
      · exact Or.inl (hdrawn (Or.inl hd))
      rcases List.mem_cons.mp hq with rfl | hq
      · exact Or.inl (hdrawn (Or.inr htag))
      · exact Or.inr ⟨q, hq, htag⟩

/-- A challenge pulled after a draw shows the random numbers of the server. -/
theorem NonInterfering.keepsRand {r : Request} {key : UInt32} (h : NonInterfering r key)
    (heom : r.PullsNoEom) (hkey : r.target = .user key) {db : Db} {u : UserInfo}
    (hu : db.user? key = some u) : KeepsRand r.pulls := by
  unfold KeepsRand
  rw [List.pairwise_iff_getElem]
  intro i j hi hj hij htag hread
  have hpulls : r.pulls = r.pulls.take j ++ r.pulls[j] :: r.pulls.drop (j + 1) := by
    rw [List.cons_getElem_drop_succ, List.take_append_drop]
  have hbefore : ∃ p ∈ r.pulls.take j, p.tag = ItemType.randUpdate.code :=
    ⟨r.pulls[i], List.mem_take_iff_getElem.mpr ⟨i, by omega, rfl⟩, htag⟩
  have hsame : ∀ c, Db.user? { db with rand := fun _ => c } key = some u := fun _ => hu
  obtain ⟨x₁, x₂, hcell⟩ := h.slot heom hkey (hsame 0) (hsame 0xFFFFFFFF) (fun _ _ _ _ => rfl)
    (fun _ => 0) (fun _ => 0) hpulls
  have hbyte : ∀ (c : UInt32) (x : RunTo r { db with rand := fun _ => c } u (fun _ => 0)
      (r.pulls.take j) r.pulls[j]), (PullAnswer.block x.answer).getD 1 0 = (challenge c).getD 0 0 := by
    intro c x
    obtain ⟨_, hdrawn⟩ := foldlM_pullSlot_drawn x.runs rfl (fun _ => rfl)
    obtain ⟨_, v, hv, hget⟩ := hdrawn (Or.inr hbefore)
    obtain rfl : x.user = v := Option.some.inj (x.work_user.symm.trans hv)
    have hanswer := x.answers
    obtain ⟨t, ho, hfield⟩ := Option.bind_eq_some_iff.mp hread
    rw [ItemType.ofCode_eq_some_iff.mp ho] at hanswer
    have hblock : ∃ tag, PullAnswer.block x.answer = tag :: x.user.get .rand := by
      cases t <;> simp only [pulledField, Option.some.injEq, reduceCtorEq] at hfield <;>
        exact ⟨_, by rw [← Except.ok.inj hanswer]; rfl⟩
    obtain ⟨tag, hblock⟩ := hblock
    rw [hblock, hget]
    rfl
  have hfirst := hcell 1 (by decide)
  rw [hbyte 0 x₁, hbyte 0xFFFFFFFF x₂] at hfirst
  exact absurd hfirst (by decide)

private theorem length_of_fits {eNBs : HashMap hashEnbInfo} {off : Nat} {pulls : List Pull}
    (h : fits eNBs off pulls) (hfull : ∀ p ∈ pulls, answerLen eNBs p = some 16) :
    pulls = [] ∨ off + 17 * pulls.length ≤ bufferLen := by
  induction pulls generalizing off with
  | nil => exact Or.inl rfl
  | cons p ps ih =>
      refine Or.inr ?_
      have hp := h.1 16 (hfull p (by simp))
      rcases ih h.2 fun q hq => hfull q (by simp [hq]) with rfl | hps
      · simp only [List.length_cons, List.length_nil]
        omega
      · rw [List.length_cons]
        omega

theorem NonInterfering.length_le {r : Request} {key : UInt32} (h : NonInterfering r key)
    (heom : r.PullsNoEom) (hkey : r.target = .user key) {db : Db} {u : UserInfo}
    (hu : db.user? key = some u) : r.pulls.length ≤ 60 := by
  obtain ⟨a, _, ha, _⟩ := h db db u u (fun _ => 0) (fun _ => 0) [] [] r.body.length r.body.length
    hu hu (fun _ _ _ _ => rfl) (Or.inl rfl) (Or.inl rfl)
  rw [analyzeRequest_user hkey hu heom (Or.inl rfl)] at ha
  rcases hw : r.run (.start db (some u) fun _ => 0) with e | w
  · rw [hw] at ha
    cases ha
  have hfits := ((r.run_ok_iff _).mp ⟨w, hw⟩).2
  rcases length_of_fits hfits fun p hp => h.fills heom hkey hu hp with hnil | hlen
  · simp [hnil]
  · simp only [Work.start, bufferLen] at hlen
    omega

/-- Which requests to a user have an answer that depends on what they pull alone. -/
theorem nonInterfering_iff {r : Request} (heom : r.PullsNoEom) {key : UInt32}
    (hkey : r.target = .user key) (hexists : ∃ db u, Db.user? db key = some u) :
    NonInterfering r key ↔
      (∀ p ∈ r.pulls, p.IsWhole) ∧ KeepsRand r.pulls ∧ r.pulls.length ≤ 60 := by
  constructor
  · intro h
    obtain ⟨db, u, hu⟩ := hexists
    refine ⟨fun p hp => ?_, h.keepsRand heom hkey hu, h.length_le heom hkey hu⟩
    have hsocket := h.no_socket heom hkey hu hp
    rcases whole_or_socket (h.fills heom hkey hu hp) with hwhole | hsource | htarget
    · exact hwhole
    · exact absurd hsource hsocket.1
    · exact absurd htarget hsocket.2
  · rintro ⟨hwhole, hrand, hlen⟩
    exact nonInterfering_of_whole heom hkey hwhole hrand hlen

theorem nonInterfering_fetchKey : NonInterfering ((fetchValue .key).request fun _ => 0) 1 := by
  have honly : ∀ p ∈ ((fetchValue .key).request fun _ => 0).pulls, p.tag = ItemType.key.code := by
    intro p hp
    rw [List.mem_singleton.mp (show p ∈ [(⟨.key, fun _ => 0⟩ : PullArg).pull] from hp)]
    rfl
  have heom : ((fetchValue .key).request fun _ => 0).PullsNoEom := by
    intro p hp
    rw [honly p hp]
    decide
  refine (nonInterfering_iff heom (Call.target_imsi rfl rfl _)
    ⟨.init (some subscriber) fun _ => 0, subscriber, rfl⟩).mpr ⟨?_, ?_, by decide⟩
  · exact fun p hp => ⟨.key, by decide, honly p hp⟩
  · exact List.pairwise_singleton _ _

def keyLeftOver : Mem UInt8 := Mem.ofList (ItemType.key.code :: List.replicate 16 0x4B) 0

/-- A pull of the temporary identity sends twelve bytes of the key that was pulled before it. -/
theorem not_nonInterfering_fetchTmsi :
    ¬ NonInterfering ((fetchValue .tmsi).request fun _ => 0) 1 := by
  intro h
  obtain ⟨a₁, a₂, ha₁, ha₂, hsame⟩ := h (.init (some subscriber) fun _ => 0)
    (.init (some subscriber) fun _ => 0) subscriber subscriber (fun _ => 0) keyLeftOver [] [] 19 19
    rfl rfl (fun _ _ _ _ => rfl) (Or.inl (by decide +kernel)) (Or.inl (by decide +kernel))
  have hsent : ∀ (response : Mem UInt8) (a : Answer),
      analyzeRequest (.init (some subscriber) fun _ => 0)
        (((fetchValue .tmsi).request fun _ => 0).body ++ []) 19 response = .ok a →
      (analyzeRequest (.init (some subscriber) fun _ => 0)
        (((fetchValue .tmsi).request fun _ => 0).body ++ []) 19 response).map
          (fun a => a.response.read 0 a.responseLen) = .ok (a.response.read 0 a.responseLen) := by
    intro response a ha
    rw [ha]
    rfl
  have h₁ := hsent _ _ ha₁
  have h₂ := hsent _ _ ha₂
  rw [← hsame, ← h₁] at h₂
  revert h₂
  decide +kernel

end PublicCloudCore.CorekubeDb
