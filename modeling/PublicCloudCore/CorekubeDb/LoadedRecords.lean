import PublicCloudCore.CorekubeDb.NonInterference
import PublicCloudCore.CorekubeDb.UserLine

/-!
# What a load determines

A record is filled by `set_user_imsi`, the columns and `complete_user_info`; every other byte is
what `malloc` has left. Two loads of one file are two stores that agree on the members that are
filled, and a PULL item answers alike in both exactly if it reads no other byte.
-/

namespace PublicCloudCore.CorekubeDb

open Framework Libck

def loadedFields : List Field :=
  [.rand, .pdnIpv4, .epcTeid, .tmsi, .mmeUeS1apId, .nextHopChainingCount, .epcNasSequenceNumber,
    .opc, .key, .imsi]

def AlikeOn (fs : List Field) (u₁ u₂ : UserInfo) : Prop := ∀ f ∈ fs, u₁.get f = u₂.get f

theorem AlikeOn.set {fs : List Field} {u₁ u₂ : UserInfo} (h : AlikeOn fs u₁ u₂) {f : Field}
    (hf : f ≠ .imsi) {bs : List UInt8} (hlen : bs.length = f.size) :
    AlikeOn (f :: fs) (u₁.set f hf bs) (u₂.set f hf bs) := by
  intro g hg
  rcases List.mem_cons.mp hg with rfl | hg
  · rw [u₁.get_set_same hf hlen, u₂.get_set_same hf hlen]
  · exact set_agree hf hlen (h g hg)

theorem AlikeOn.hash {fs : List Field} {u₁ u₂ : UserInfo} (h : AlikeOn fs u₁ u₂)
    (himsi : Field.imsi ∈ fs) : hashImsiUserInfo u₁ = hashImsiUserInfo u₂ :=
  hashImsiUserInfo_of_imsi_eq (h .imsi himsi)

/-- No member that is filled holds the byte. -/
def Fresh (i : Nat) : Prop := ∀ f ∈ loadedFields, i < f.offset ∨ f.offset + f.size ≤ i

instance (i : Nat) : Decidable (Fresh i) :=
  inferInstanceAs (Decidable (∀ f ∈ loadedFields, i < f.offset ∨ f.offset + f.size ≤ i))

theorem set_fresh (u : UserInfo) {f : Field} (hf : f ≠ .imsi) {bs : List UInt8}
    (hlen : bs.length = f.size) (hloaded : f ∈ loadedFields) {i : Nat} (hi : Fresh i) :
    (u.set f hf bs).mem i = u.mem i := by
  apply u.set_outside
  rw [hlen]
  exact hi f hloaded

theorem completeUserInfo_alike {u₁ u₂ : UserInfo} (h : AlikeOn [.opc, .key, .imsi] u₁ u₂)
    (rand : RandStream) :
    AlikeOn loadedFields (completeUserInfo u₁ rand).1 (completeUserInfo u₂ rand).1 := by
  have hcounters : AlikeOn [.nextHopChainingCount, .epcNasSequenceNumber, .opc, .key, .imsi]
      (setUserNextHopChainingCount (setUserEpcNasSequenceNumber u₁ 0) 1)
      (setUserNextHopChainingCount (setUserEpcNasSequenceNumber u₂ 0) 1) :=
    (h.set _ rfl).set _ rfl
  have hhash := hcounters.hash (by decide)
  simp only [completeUserInfo, generateRand, hhash]
  exact ((((hcounters.set _ rfl).set _ rfl).set _ rfl).set _ rfl).set _ rfl

theorem completeUserInfo_fresh (u : UserInfo) (rand : RandStream) {i : Nat} (hi : Fresh i) :
    (completeUserInfo u rand).1.mem i = u.mem i := by
  simp only [completeUserInfo, generateRand, setUserEpcNasSequenceNumber,
    setUserNextHopChainingCount]
  rw [set_fresh _ _ rfl (by decide) hi, set_fresh _ _ rfl (by decide) hi,
    set_fresh _ _ rfl (by decide) hi, set_fresh _ _ rfl (by decide) hi,
    set_fresh _ _ rfl (by decide) hi, set_fresh _ _ rfl (by decide) hi,
    set_fresh _ _ rfl (by decide) hi]

theorem storedUser_alike {u₁ u₂ : UserInfo} (h : AlikeOn [.opc, .key, .imsi] u₁ u₂)
    (rand : RandStream) (node₁ node₂ : Mem UInt8) :
    AlikeOn loadedFields (storedUser u₁ rand node₁) (storedUser u₂ rand node₂) := by
  intro f hf
  rw [storedUser, storedUser, UserInfo.get_copyTo, UserInfo.get_copyTo]
  exact completeUserInfo_alike h rand f hf

theorem UserLine.newUser_alike (x : UserLine) (generateOpc : GenerateOpc)
    (user₁ user₂ : Mem UInt8) {str₁ str₂ : Mem UInt8} (h : str₁.read 0 15 = str₂.read 0 15) :
    AlikeOn [.opc, .key, .imsi] (x.newUser generateOpc user₁ str₁)
      (x.newUser generateOpc user₂ str₂) := by
  have himsi : AlikeOn [.imsi] (setUserImsi user₁ (str₁.read 0 imsiLen))
      (setUserImsi user₂ (str₂.read 0 imsiLen)) := by
    intro f hf
    rw [List.mem_singleton.mp hf, UserInfo.get_imsi_eq, UserInfo.get_imsi_eq, setUserImsi_imsi,
      setUserImsi_imsi, h]
  exact (himsi.set _ x.key.bytes_length).set _ (x.opc_length generateOpc)

theorem UserLine.newUser_fresh (x : UserLine) (generateOpc : GenerateOpc) (user str : Mem UInt8)
    {i : Nat} (hi : Fresh i) : (x.newUser generateOpc user str).mem i = user i := by
  have hbehind : 16 ≤ i := by
    rcases hi .imsi (by decide) with h | h
    · exact absurd h (Nat.not_lt_zero i)
    · exact h
  rw [UserLine.newUser, set_fresh _ _ (x.opc_length generateOpc) (by decide) hi,
    set_fresh _ _ x.key.bytes_length (by decide) hi, setUserImsi]
  simp only
  rw [Mem.write_outside _ _ _ _ (Or.inr (by simpa using hbehind)), Mem.write_outside]
  right
  simp [imsiLen]
  exact hbehind

/-- A byte that no member holds is the one that `malloc` has left, in the structure or, behind it,
in the node. -/
theorem storedUser_fresh (u : UserInfo) (rand : RandStream) (node : Mem UInt8) {i : Nat}
    (hi : Fresh i) : (storedUser u rand node).mem i = if i < userInfoSize then u.mem i else node i := by
  rw [storedUser, UserInfo.copyTo]
  simp only
  by_cases hin : i < userInfoSize
  · have hcell := Mem.write_inside node 0 ((completeUserInfo u rand).1.mem.read 0 userInfoSize) i
      (by simpa using hin)
    rw [Nat.zero_add] at hcell
    rw [hcell, Mem.getElem_read, Nat.zero_add, completeUserInfo_fresh _ _ hi, if_pos hin]
  · rw [Mem.write_outside _ _ _ _ (Or.inr (by simpa using hin)), if_neg hin]

/-- The same text in front of any memory, read into any memory. -/
def SameText (a b : FileLine) : Prop := a.line.bytes = b.line.bytes

def IsUserFile (file : List FileLine) : Prop :=
  ∀ a ∈ file, a.line.Ignored ∨ ∃ x, a.line.Spells x

theorem SameText.len_eq {a b : FileLine} (h : SameText a b) : a.line.len = b.line.len := by
  simpa [Line.bytes] using congrArg List.length h

theorem SameText.ignored {a b : FileLine} (h : SameText a b) (hi : a.line.Ignored) :
    b.line.Ignored := by
  have hlen := h.len_eq
  rcases hi with hcomment | hshort
  · cases hn : a.line.len with
    | zero => exact Or.inr (by omega)
    | succ n =>
        have hbytes : a.line.mem.read 0 (n + 1) = b.line.mem.read 0 (n + 1) := by
          have hb : b.line.len = n + 1 := by omega
          rw [← hn]
          nth_rewrite 2 [hn]
          rw [← hb]
          exact h
        rw [Mem.read_succ, Mem.read_succ] at hbytes
        exact Or.inl ((List.cons.inj hbytes).1 ▸ hcomment)
  · exact Or.inr (by omega)

theorem SameText.spells {a b : FileLine} (h : SameText a b) {x : UserLine}
    (hx : a.line.Spells x) : b.line.Spells x := by
  obtain ⟨ending, hending, hbytes⟩ := hx
  exact ⟨ending, hending, h.symm.trans hbytes⟩

/-- Every lookup finds two records of an IMSI that agree, or none in both stores. -/
structure AlikeDbs (db₁ db₂ : Db) : Prop where
  users : ∀ key, Option.Rel (AlikeOn loadedFields) (db₁.user? key) (db₂.user? key)
  isImsi : ∀ key u, db₁.user? key = some u → IsImsi u.imsi
  eNBs : db₁.eNBs = db₂.eNBs
  rand : db₁.rand = db₂.rand

theorem user?_add (db : Db) (u : UserInfo) (rand : RandStream) (key : UInt32) :
    ({ db with imsiMap := (hashmapAdd db.imsiMap u).getD db.imsiMap, rand } : Db).user? key =
      (db.user? key).or (if hashImsiUserInfo u = key then some u else none) :=
  hashmapGet_add db.imsiMap u key

theorem AlikeDbs.processLine {db₁ db₂ db₁' db₂' : Db} (h : AlikeDbs db₁ db₂)
    {generateOpc : GenerateOpc} {a b : FileLine} (htext : SameText a b)
    (ha : a.line.Ignored ∨ ∃ x, a.line.Spells x)
    (h₁ : CorekubeDb.processLine generateOpc db₁ a.line a.scratch = .ok db₁')
    (h₂ : CorekubeDb.processLine generateOpc db₂ b.line b.scratch = .ok db₂') :
    AlikeDbs db₁' db₂' := by
  rcases ha with hignored | ⟨x, hx⟩
  · rw [processLine_ignored hignored] at h₁
    rw [processLine_ignored (htext.ignored hignored)] at h₂
    cases h₁
    cases h₂
    exact h
  · obtain ⟨str₁, himsi₁, hrun₁⟩ := hx.processLine_newUser generateOpc db₁ a.scratch
    obtain ⟨str₂, himsi₂, hrun₂⟩ := (htext.spells hx).processLine_newUser generateOpc db₂ b.scratch
    rw [hrun₁] at h₁
    rw [hrun₂] at h₂
    cases h₁
    cases h₂
    have halike := storedUser_alike (x.newUser_alike generateOpc a.scratch.user b.scratch.user
      (himsi₁.trans himsi₂.symm)) db₁.rand a.scratch.node b.scratch.node
    have hhash := halike.hash (by decide)
    refine ⟨fun key => ?_, fun key u hu => ?_, h.eNBs, by simp only [h.rand]⟩
    · rw [user?_add, user?_add, ← h.rand, hhash]
      have hold := h.users key
      revert hold
      generalize db₁.user? key = v₁
      generalize db₂.user? key = v₂
      intro hold
      cases hold with
      | some hv => exact .some hv
      | none =>
          simp only [Option.none_or]
          split
          · exact .some halike
          · exact .none
    · rw [user?_add] at hu
      rcases Option.or_eq_some_iff.mp hu with hu | ⟨_, hu⟩
      · exact h.isImsi key u hu
      · split at hu
        · cases hu
          rw [storedUser_imsi, x.newUser_imsi, himsi₁]
          exact x.isImsi
        · cases hu

theorem AlikeDbs.lines {generateOpc : GenerateOpc} {file₁ file₂ : List FileLine}
    (htext : List.Forall₂ SameText file₁ file₂) (hfile : IsUserFile file₁) {db₁ db₂ : Db}
    (h : AlikeDbs db₁ db₂) {db₁' db₂' : Db}
    (h₁ : file₁.foldlM (fun db x => CorekubeDb.processLine generateOpc db x.line x.scratch) db₁ =
      .ok db₁')
    (h₂ : file₂.foldlM (fun db x => CorekubeDb.processLine generateOpc db x.line x.scratch) db₂ =
      .ok db₂') : AlikeDbs db₁' db₂' := by
  induction htext generalizing db₁ db₂ with
  | nil =>
      cases h₁
      cases h₂
      exact h
  | @cons a b as bs hab _ ih =>
      rw [List.foldlM_cons] at h₁ h₂
      cases hs₁ : CorekubeDb.processLine generateOpc db₁ a.line a.scratch with
      | error e =>
          rw [hs₁] at h₁
          cases h₁
      | ok v₁ =>
          cases hs₂ : CorekubeDb.processLine generateOpc db₂ b.line b.scratch with
          | error e =>
              rw [hs₂] at h₂
              cases h₂
          | ok v₂ =>
              rw [hs₁] at h₁
              rw [hs₂] at h₂
              have hstep := h.processLine hab (hfile a (by simp)) hs₁ hs₂
              exact ih (fun c hc => hfile c (by simp [hc])) hstep h₁ h₂

theorem initDb_alike {generateOpc : GenerateOpc} {tables : Tables} {rand : RandStream}
    {file₁ file₂ : List FileLine} {db₁ db₂ : Db} (hfile : IsUserFile file₁)
    (htext : List.Forall₂ SameText file₁ file₂)
    (h₁ : initDb generateOpc tables rand file₁ = .ok db₁)
    (h₂ : initDb generateOpc tables rand file₂ = .ok db₂) : AlikeDbs db₁ db₂ := by
  refine AlikeDbs.lines htext hfile ⟨fun key => ?_, fun key u hu => ?_, rfl, rfl⟩ h₁ h₂
  · rw [Db.user?, hashmapGet_init]
    exact .none
  · rw [Db.user?, hashmapGet_init] at hu
    cases hu

theorem initDb_eNBs {generateOpc : GenerateOpc} {tables : Tables} {rand : RandStream}
    {file : List FileLine} {db : Db} (h : initDb generateOpc tables rand file = .ok db) :
    db.eNBs = .init tables.size tables.enbInitval := by
  refine initDb_induction (P := fun db => db.eNBs = .init tables.size tables.enbInitval) rfl ?_ h
  intro db db' l scratch hdb hline
  rcases processLine_cases hline with rfl | ⟨u, rfl⟩
  · exact hdb
  · exact hdb

def freshItems : List ItemType :=
  [.enbUeS1apId, .targetEnbUeS1apId, .ueTeid, .spgwIp, .enbIp, .pdnIp, .ueNasSequenceNumber,
    .ueNasSequenceNumberNoInc, .authRes, .encKey, .intKey, .kasme1, .kasme2, .knh1, .knh2,
    .enbSourceSocket, .enbTargetSocket]

def Pull.ReadsFresh (p : Pull) : Prop := ∃ t ∈ freshItems, p.tag = t.code

def pulledBytes (u : UserInfo) : ItemType → List UInt8
  | .imsi => (u.copy .imsi imsiLen).set 15 0
  | .msin => getUserMsin u
  | .epcNasSequenceNumber => zeroFilled 5 (getUserEpcNasSequenceNumber u)
  | .ueNasSequenceNumber | .ueNasSequenceNumberNoInc =>
      zeroFilled 0 (getUserUeNasSequenceNumber u)
  | .nextHopChainingCount => zeroFilled 0 (getUserNextHopChainingCount u)
  | t => ((pulledField t).map fun f => u.copy f ((copyLen t).getD 0)).getD []

def pulledUser (u : UserInfo) (rand : RandStream) : ItemType → UserInfo
  | .epcNasSequenceNumber => setUserEpcNasSequenceNumber u (getUserEpcNasSequenceNumber u + 1)
  | .ueNasSequenceNumber => setUserUeNasSequenceNumber u (getUserUeNasSequenceNumber u + 1)
  | .nextHopChainingCount => setUserNextHopChainingCount u (getUserNextHopChainingCount u + 1)
  | .randUpdate => (generateRand u rand).1
  | _ => u

def pulledRand (rand : RandStream) (t : ItemType) : RandStream :=
  if t = .randUpdate then fun n => rand (n + 4) else rand

/-- The answers of `UE_NAS_SEQUENCE_NUMBER_NO_INC` bear the tag of the counter. -/
def pulledTag (t : ItemType) : ItemType :=
  if t = .ueNasSequenceNumberNoInc then .ueNasSequenceNumber else t

theorem pullSwitch_eq (u : UserInfo) (eNBs : HashMap hashEnbInfo) (rand : RandStream)
    {t : ItemType} (ht : copyLen t ≠ none) (args : List UInt8) :
    pullSwitch (some u) eNBs rand t.code args =
      .ok (some ⟨pulledTag t, pulledBytes u t, some (pulledUser u rand t), pulledRand rand t⟩) := by
  cases t <;> first | exact absurd rfl ht | rfl

theorem getCounter_alike {fs : List Field} {u₁ u₂ : UserInfo} (h : AlikeOn fs u₁ u₂) {f : Field}
    (hf : f ∈ fs) (hsize : f.size = 1) : getCounter u₁ f = getCounter u₂ f := by
  have hget := h f hf
  simp only [UserInfo.get, UserInfo.copy, hsize] at hget
  exact Mem.cell_eq_of_read_eq hget (Nat.le_refl _) (Nat.lt_succ_self _)

theorem AlikeOn.pulledUser {u₁ u₂ : UserInfo} (h : AlikeOn loadedFields u₁ u₂) (rand : RandStream)
    (t : ItemType) :
    AlikeOn loadedFields (CorekubeDb.pulledUser u₁ rand t) (CorekubeDb.pulledUser u₂ rand t) := by
  have hset : ∀ {f : Field} (hf : f ≠ .imsi) {bs : List UInt8}, bs.length = f.size →
      AlikeOn loadedFields (u₁.set f hf bs) (u₂.set f hf bs) := fun hf _ hlen g hg =>
    set_agree hf hlen (h g hg)
  cases t
  case epcNasSequenceNumber =>
    have hcounter := getCounter_alike h (f := .epcNasSequenceNumber) (by decide) rfl
    simp only [CorekubeDb.pulledUser, setUserEpcNasSequenceNumber, getUserEpcNasSequenceNumber,
      hcounter]
    exact hset _ rfl
  case nextHopChainingCount =>
    have hcounter := getCounter_alike h (f := .nextHopChainingCount) (by decide) rfl
    simp only [CorekubeDb.pulledUser, setUserNextHopChainingCount, getUserNextHopChainingCount,
      hcounter]
    exact hset _ rfl
  case ueNasSequenceNumber =>
    intro g hg
    have hne : g ≠ .ueNasSequenceNumber := by
      rintro rfl
      revert hg
      decide
    simp only [CorekubeDb.pulledUser, setUserUeNasSequenceNumber]
    rw [u₁.get_set_other _ hne (by rfl), u₂.get_set_other _ hne (by rfl), h g hg]
  case randUpdate => exact hset Field.rand_ne_imsi rfl
  all_goals exact h

theorem getUserMsin_eq (u : UserInfo) : getUserMsin u = (u.get .imsi).drop 5 := by
  have hsplit : u.get .imsi = u.mem.read 0 5 ++ u.mem.read (0 + 5) 11 := Mem.read_add u.mem 0 5 11
  rw [hsplit, List.drop_left' (Mem.read_length _ _ _)]
  rfl

theorem AlikeOn.pulledBytes {u₁ u₂ : UserInfo} (h : AlikeOn loadedFields u₁ u₂) {t : ItemType}
    (ht : t ∉ freshItems) : CorekubeDb.pulledBytes u₁ t = CorekubeDb.pulledBytes u₂ t := by
  cases t
  case imsi => exact congrArg (List.set · 15 0) (h .imsi (by decide))
  case msin =>
    simp only [CorekubeDb.pulledBytes]
    rw [getUserMsin_eq, getUserMsin_eq, h .imsi (by decide)]
  case epcNasSequenceNumber =>
    exact congrArg (zeroFilled 5) (getCounter_alike h (by decide) rfl)
  case nextHopChainingCount =>
    exact congrArg (zeroFilled 0) (getCounter_alike h (by decide) rfl)
  all_goals
    first
      | exact absurd (by decide) ht
      | exact h _ (by decide)
      | rfl

structure AlikeWorks (w₁ w₂ : Work) : Prop where
  users : ∃ u₁ u₂, w₁.user = some u₁ ∧ w₂.user = some u₂ ∧ AlikeOn loadedFields u₁ u₂
  eNBs : w₁.eNBs = w₂.eNBs
  rand : w₁.rand = w₂.rand
  response : w₁.response = w₂.response
  resOffset : w₁.resOffset = w₂.resOffset

theorem pullSwitch_userless (u₁ u₂ : UserInfo) (eNBs : HashMap hashEnbInfo) (rand : RandStream)
    {p : Pull} (h : p.copyLen? = none) {a₁ a₂ : Option PullAnswer}
    (h₁ : pullSwitch (some u₁) eNBs rand p.tag p.args = .ok a₁)
    (h₂ : pullSwitch (some u₂) eNBs rand p.tag p.args = .ok a₂) :
    (a₁ = none ∧ a₂ = none) ∨ ∃ tag bytes, a₁ = some ⟨tag, bytes, some u₁, rand⟩ ∧
      a₂ = some ⟨tag, bytes, some u₂, rand⟩ := by
  cases ho : ItemType.ofCode p.tag with
  | none =>
      simp only [pullSwitch, ho, Except.ok.injEq] at h₁ h₂
      exact Or.inl ⟨h₁.symm, h₂.symm⟩
  | some t =>
      rw [Pull.copyLen?, ho, Option.bind_some] at h
      cases t
      case getEnb =>
        simp only [pullSwitch, ho] at h₁ h₂
        split at h₁
        · cases h₁
        · next hargs =>
          rw [if_neg hargs] at h₂
          split at h₁
          · next hget =>
            simp only [hget, Except.ok.injEq] at h₁ h₂
            exact Or.inr ⟨_, _, h₁.symm, h₂.symm⟩
          · next enb hget =>
            simp only [hget, Except.ok.injEq] at h₁ h₂
            exact Or.inr ⟨_, _, h₁.symm, h₂.symm⟩
      case eom =>
        simp only [pullSwitch, ho, Except.ok.injEq] at h₁ h₂
        exact Or.inl ⟨h₁.symm, h₂.symm⟩
      case newEnb =>
        simp only [pullSwitch, ho, Except.ok.injEq] at h₁ h₂
        exact Or.inl ⟨h₁.symm, h₂.symm⟩
      all_goals cases h

theorem Pull.exists_of_copyLen {p : Pull} (h : p.copyLen? ≠ none) :
    ∃ t : ItemType, copyLen t ≠ none ∧ p.tag = t.code := by
  cases ho : ItemType.ofCode p.tag with
  | none => simp [Pull.copyLen?, ho] at h
  | some t => exact ⟨t, by simpa [Pull.copyLen?, ho] using h, ItemType.ofCode_eq_some_iff.mp ho⟩

theorem AlikeWorks.pullSlot {w₁ w₂ w₁' w₂' : Work} (h : AlikeWorks w₁ w₂) {p : Pull}
    (hp : ¬ p.ReadsFresh) (h₁ : CorekubeDb.pullSlot w₁ p = .ok w₁')
    (h₂ : CorekubeDb.pullSlot w₂ p = .ok w₂') : AlikeWorks w₁' w₂' := by
  obtain ⟨u₁, u₂, hu₁, hu₂, halike⟩ := h.users
  obtain ⟨a₁, ha₁, henbs₁, hoff₁, hcase₁⟩ := pullSlot_ok h₁
  obtain ⟨a₂, ha₂, henbs₂, hoff₂, hcase₂⟩ := pullSlot_ok h₂
  rw [hu₁] at ha₁
  rw [hu₂, ← h.eNBs, ← h.rand] at ha₂
  have henbs : w₁'.eNBs = w₂'.eNBs := by rw [henbs₁, henbs₂, h.eNBs]
  have hoff : w₁'.resOffset = w₂'.resOffset := by rw [hoff₁, hoff₂, h.resOffset]
  have hanswers : (a₁ = none ∧ a₂ = none) ∨ ∃ tag bytes rand v₁ v₂,
      a₁ = some ⟨tag, bytes, some v₁, rand⟩ ∧ a₂ = some ⟨tag, bytes, some v₂, rand⟩ ∧
        AlikeOn loadedFields v₁ v₂ := by
    by_cases hcopy : p.copyLen? = none
    · rcases pullSwitch_userless u₁ u₂ w₁.eNBs w₁.rand hcopy ha₁ ha₂ with hnone | hsome
      · exact Or.inl hnone
      · obtain ⟨tag, bytes, hx₁, hx₂⟩ := hsome
        exact Or.inr ⟨tag, bytes, w₁.rand, u₁, u₂, hx₁, hx₂, halike⟩
    · obtain ⟨t, ht, htag⟩ := p.exists_of_copyLen hcopy
      rw [htag, pullSwitch_eq _ _ _ ht] at ha₁ ha₂
      have hnot : t ∉ freshItems := fun hmem => hp ⟨t, hmem, htag⟩
      rw [halike.pulledBytes hnot] at ha₁
      exact Or.inr ⟨_, _, _, _, _, (Except.ok.inj ha₁).symm, (Except.ok.inj ha₂).symm,
        halike.pulledUser w₁.rand t⟩
  rcases hanswers with ⟨rfl, rfl⟩ | ⟨tag, bytes, rand, v₁, v₂, rfl, rfl, hv⟩
  · rcases hcase₁ with ⟨_, huser₁, hrand₁, hresp₁⟩ | ⟨x, hx, _⟩
    · rcases hcase₂ with ⟨_, huser₂, hrand₂, hresp₂⟩ | ⟨x, hx, _⟩
      · exact ⟨⟨u₁, u₂, huser₁.trans hu₁, huser₂.trans hu₂, halike⟩, henbs,
          by rw [hrand₁, hrand₂, h.rand], by rw [hresp₁, hresp₂, h.response], hoff⟩
      · cases hx
    · cases hx
  · rcases hcase₁ with ⟨hnone, _⟩ | ⟨x₁, hx₁, _, huser₁, hrand₁, hresp₁⟩
    · cases hnone
    · rcases hcase₂ with ⟨hnone, _⟩ | ⟨x₂, hx₂, _, huser₂, hrand₂, hresp₂⟩
      · cases hnone
      · cases hx₁
        cases hx₂
        exact ⟨⟨v₁, v₂, huser₁, huser₂, hv⟩, henbs, by rw [hrand₁, hrand₂],
          by rw [hresp₁, hresp₂, h.response, h.resOffset], hoff⟩

theorem AlikeWorks.foldlM_pullSlot {pulls : List Pull} {w₁ w₂ w₁' w₂' : Work}
    (h : AlikeWorks w₁ w₂) (hp : ∀ p ∈ pulls, ¬ p.ReadsFresh)
    (h₁ : pulls.foldlM CorekubeDb.pullSlot w₁ = .ok w₁')
    (h₂ : pulls.foldlM CorekubeDb.pullSlot w₂ = .ok w₂') : AlikeWorks w₁' w₂' := by
  induction pulls generalizing w₁ w₂ with
  | nil =>
      cases h₁
      cases h₂
      exact h
  | cons p ps ih =>
      rw [List.foldlM_cons] at h₁ h₂
      cases hs₁ : CorekubeDb.pullSlot w₁ p with
      | error e =>
          rw [hs₁] at h₁
          cases h₁
      | ok v₁ =>
          cases hs₂ : CorekubeDb.pullSlot w₂ p with
          | error e =>
              rw [hs₂] at h₂
              cases h₂
          | ok v₂ =>
              rw [hs₁] at h₁
              rw [hs₂] at h₂
              exact ih (h.pullSlot (hp p (by simp)) hs₁ hs₂) (fun q hq => hp q (by simp [hq])) h₁ h₂

/-- With a user, a run fails only by leaving the response array. -/
theorem pullSlot_error {w : Work} {u : UserInfo} (hu : w.user = some u) {p : Pull} {e : Fault}
    (h : pullSlot w p = .error e) : e = .responseOverflow := by
  obtain ⟨a, ha⟩ := pullSwitch_someUser u w.eNBs w.rand p
  simp only [pullSlot, pullItem, hu, ha, bind, Except.bind] at h
  cases a with
  | none => cases h
  | some x =>
      simp only at h
      split at h
      · cases h
        rfl
      · cases h

theorem foldlM_pullSlot_error {pulls : List Pull} {w : Work} {u : UserInfo}
    (hu : w.user = some u) {e : Fault} (h : pulls.foldlM pullSlot w = .error e) :
    e = .responseOverflow := by
  induction pulls generalizing w u with
  | nil => cases h
  | cons p ps ih =>
      rw [List.foldlM_cons] at h
      cases hs : pullSlot w p with
      | error e' =>
          rw [hs] at h
          cases h
          exact pullSlot_error hu hs
      | ok v =>
          rw [hs] at h
          obtain ⟨u', hu', _⟩ := pullSlot_user hs hu
          exact ih hu' h

structure PullRequest where
  request : Request
  noPushes : request.pushes = []
  noEom : request.PullsNoEom

/-- The bytes that are sent back. -/
def Answer.sent (a : Answer) : List UInt8 := a.response.read 0 a.responseLen

/-- The request gets the same answer after any two loads of one file with the same random numbers,
whatever the lines and the records lay in. -/
def DeterminedByLoad (r : PullRequest) : Prop :=
  ∀ (generateOpc : GenerateOpc) (tables : Tables) (rand : RandStream)
    (file₁ file₂ : List FileLine) (db₁ db₂ : Db) (response : Mem UInt8) (tail : List UInt8)
    (len : Nat),
    IsUserFile file₁ → List.Forall₂ SameText file₁ file₂ →
    initDb generateOpc tables rand file₁ = .ok db₁ →
    initDb generateOpc tables rand file₂ = .ok db₂ → r.request.Ends tail len →
    (analyzeRequest db₁ (r.request.body ++ tail) len response).map Answer.sent =
      (analyzeRequest db₂ (r.request.body ++ tail) len response).map Answer.sent

def Subscribable (key : UInt32) : Prop := ∃ imsi, IsImsi imsi ∧ imsiNumber imsi = key

namespace PullRequest

variable (r : PullRequest)

/-- A request to a user that can exist, with an answer that fits the response array, pulls nothing
that reads a fresh byte. -/
def ReadsLoaded : Prop :=
  ∀ (key : UInt32) (tables : Tables), r.request.target = .user key → Subscribable key →
    fits (.init tables.size tables.enbInitval) 0 r.request.pulls →
      ∀ p ∈ r.request.pulls, ¬ p.ReadsFresh

theorem run_eq (db : Db) (u : UserInfo) (response : Mem UInt8) :
    r.request.run (.start db (some u) response) =
      r.request.pulls.foldlM pullSlot (.start db (some u) response) := by
  rw [r.request.run_user rfl, Work.pushed, r.noPushes]
  rfl

theorem fits_iff (db : Db) (u : UserInfo) (response : Mem UInt8) :
    (∃ w, r.request.run (.start db (some u) response) = .ok w) ↔
      fits db.eNBs 0 r.request.pulls := by
  rw [r.request.run_ok_iff, r.noPushes]
  simp [Work.start, applyEnbPushes]

theorem run_error {db : Db} {u : UserInfo} {response : Mem UInt8}
    (h : ¬ fits db.eNBs 0 r.request.pulls) :
    r.request.run (.start db (some u) response) = .error .responseOverflow := by
  cases hw : r.request.run (.start db (some u) response) with
  | ok w => exact absurd ((r.fits_iff db u response).mp ⟨w, hw⟩) h
  | error e =>
      rw [r.run_eq] at hw
      rw [foldlM_pullSlot_error rfl hw]

theorem answer_eq {db₁ db₂ : Db} (h : AlikeDbs db₁ db₂) {key : UInt32}
    (hkey : r.request.target = .user key) (response : Mem UInt8) {tail : List UInt8} {len : Nat}
    (hend : r.request.Ends tail len)
    (hpulls : Subscribable key → fits db₁.eNBs 0 r.request.pulls →
      ∀ p ∈ r.request.pulls, ¬ p.ReadsFresh) :
    (analyzeRequest db₁ (r.request.body ++ tail) len response).map Answer.sent =
      (analyzeRequest db₂ (r.request.body ++ tail) len response).map Answer.sent := by
  have husers := h.users key
  cases hu₁ : db₁.user? key with
  | none =>
      cases hu₂ : db₂.user? key with
      | some u₂ =>
          rw [hu₁, hu₂] at husers
          cases husers
      | none =>
          rw [analyzeRequest_refused (Or.inr ⟨key, hkey, hu₁⟩),
            analyzeRequest_refused (Or.inr ⟨key, hkey, hu₂⟩)]
          rfl
  | some u₁ =>
      cases hu₂ : db₂.user? key with
      | none =>
          rw [hu₁, hu₂] at husers
          cases husers
      | some u₂ =>
          rw [hu₁, hu₂] at husers
          cases husers with | some halike
          rw [analyzeRequest_user hkey hu₁ r.noEom hend, analyzeRequest_user hkey hu₂ r.noEom hend]
          by_cases hfits : fits db₁.eNBs 0 r.request.pulls
          · have hnumber : imsiNumber u₁.imsi = key := by
              rw [← hashImsiUserInfo_eq]
              exact Db.hash_of_user? hu₁
            have hfresh := hpulls ⟨u₁.imsi, h.isImsi key u₁ hu₁, hnumber⟩ hfits
            obtain ⟨w₁, hw₁⟩ := (r.fits_iff db₁ u₁ response).mpr hfits
            rw [h.eNBs] at hfits
            obtain ⟨w₂, hw₂⟩ := (r.fits_iff db₂ u₂ response).mpr hfits
            rw [hw₁, hw₂]
            rw [r.run_eq] at hw₁ hw₂
            have hstart : AlikeWorks (.start db₁ (some u₁) response) (.start db₂ (some u₂) response) :=
              ⟨⟨u₁, u₂, rfl, rfl, halike⟩, h.eNBs, h.rand, rfl, rfl⟩
            have hlast := hstart.foldlM_pullSlot hfresh hw₁ hw₂
            simp only [Except.map, Answer.sent, hlast.response, hlast.resOffset]
          · rw [r.run_error hfits]
            rw [h.eNBs] at hfits
            rw [r.run_error hfits]
            rfl

theorem determinedByLoad_of_readsLoaded (h : r.ReadsLoaded) : DeterminedByLoad r := by
  intro generateOpc tables rand file₁ file₂ db₁ db₂ response tail len hfile htext h₁ h₂ hend
  have halike := initDb_alike hfile htext h₁ h₂
  cases htarget : r.request.target with
  | invalid =>
      rw [analyzeRequest_refused (Or.inl htarget), analyzeRequest_refused (Or.inl htarget)]
      rfl
  | newEnb =>
      have hstart : Work.start db₁ none response = Work.start db₂ none response := by
        simp only [Work.start, halike.eNBs, halike.rand]
      rw [analyzeRequest_newEnb htarget r.noEom hend, analyzeRequest_newEnb htarget r.noEom hend,
        hstart]
      cases r.request.run (.start db₂ none response) <;> rfl
  | user key =>
      apply r.answer_eq halike htarget response hend
      rw [initDb_eNBs h₁]
      exact h key tables htarget

end PullRequest

def Differ (u₁ u₂ : UserInfo) : Prop := ∀ i, Fresh i → u₁.mem i ≠ u₂.mem i

theorem Differ.pulledUser {u₁ u₂ : UserInfo} (h : Differ u₁ u₂) (rand₁ rand₂ : RandStream)
    (t : ItemType) :
    Differ (CorekubeDb.pulledUser u₁ rand₁ t) (CorekubeDb.pulledUser u₂ rand₂ t) := by
  have hset : ∀ {f : Field} (hf : f ≠ .imsi) {bs₁ bs₂ : List UInt8}, bs₁.length = f.size →
      bs₂.length = f.size → f ∈ loadedFields → Differ (u₁.set f hf bs₁) (u₂.set f hf bs₂) := by
    intro f hf bs₁ bs₂ hlen₁ hlen₂ hloaded i hi
    rw [set_fresh _ _ hlen₁ hloaded hi, set_fresh _ _ hlen₂ hloaded hi]
    exact h i hi
  cases t
  case epcNasSequenceNumber =>
    exact hset Field.epcNasSequenceNumber_ne_imsi rfl rfl (by decide)
  case nextHopChainingCount =>
    exact hset Field.nextHopChainingCount_ne_imsi rfl rfl (by decide)
  case randUpdate => exact hset Field.rand_ne_imsi rfl rfl (by decide)
  case ueNasSequenceNumber =>
    intro i hi
    by_cases hcell : i = Field.ueNasSequenceNumber.offset
    · subst hcell
      have hwrite : ∀ (u : UserInfo) (v : UInt8),
          (setUserUeNasSequenceNumber u v).mem Field.ueNasSequenceNumber.offset = v := fun u v =>
        Mem.write_inside u.mem Field.ueNasSequenceNumber.offset [v] 0 (by simp)
      simp only [CorekubeDb.pulledUser, hwrite, getUserUeNasSequenceNumber, getCounter]
      intro heq
      exact h _ hi (add_right_cancel heq)
    · have hother : ∀ (u : UserInfo) (v : UInt8), (setUserUeNasSequenceNumber u v).mem i = u.mem i := by
        intro u v
        apply u.set_outside
        rw [List.length_singleton]
        omega
      simp only [CorekubeDb.pulledUser, hother]
      exact h i hi
  all_goals exact h

theorem Differ.pulledBytes {u₁ u₂ : UserInfo} (h : Differ u₁ u₂) {t : ItemType}
    (ht : t ∈ freshItems) :
    ∃ j a b, j < 16 ∧ a ≠ b ∧ (CorekubeDb.pulledBytes u₁ t)[j]? = some a ∧
      (CorekubeDb.pulledBytes u₂ t)[j]? = some b := by
  have hcell : ∀ (u : UserInfo) (f : Field) {n j : Nat}, j < n →
      (u.copy f n)[j]? = some (u.mem (f.offset + j)) := by
    intro u f n j hj
    rw [UserInfo.copy, List.getElem?_eq_getElem (by simpa using hj), Mem.getElem_read]
  have hcopy : ∀ (f : Field) {n : Nat} (j : Nat), j < n → j < 16 → Fresh (f.offset + j) →
      ∃ j a b, j < 16 ∧ a ≠ b ∧ (u₁.copy f n)[j]? = some a ∧ (u₂.copy f n)[j]? = some b :=
    fun f n j hj hsixteen hfresh =>
      ⟨j, _, _, hsixteen, h _ hfresh, hcell u₁ f hj, hcell u₂ f hj⟩
  have hcounter : Fresh Field.ueNasSequenceNumber.offset := by decide
  cases t
  case ueNasSequenceNumber => exact ⟨0, _, _, by decide, h _ hcounter, rfl, rfl⟩
  case ueNasSequenceNumberNoInc => exact ⟨0, _, _, by decide, h _ hcounter, rfl, rfl⟩
  case pdnIp => exact hcopy .pdnIpv4 4 (by decide) (by decide) (by decide)
  all_goals
    first
      | exact absurd ht (by decide)
      | exact hcopy _ 0 (by decide) (by decide) (by decide)

theorem pullSlot_pulledUser {w w' : Work} {p : Pull} (h : pullSlot w p = .ok w') {u : UserInfo}
    (hu : w.user = some u) :
    w'.user = some (((ItemType.ofCode p.tag).map (pulledUser u w.rand)).getD u) := by
  obtain ⟨a, ha, _, _, hcase⟩ := pullSlot_ok h
  rw [hu] at ha
  by_cases hcopy : p.copyLen? = none
  · have hsame : ((ItemType.ofCode p.tag).map (pulledUser u w.rand)).getD u = u := by
      cases ho : ItemType.ofCode p.tag with
      | none => rfl
      | some t =>
          rw [Pull.copyLen?, ho, Option.bind_some] at hcopy
          cases t <;> first | rfl | cases hcopy
    rw [hsame]
    rcases pullSwitch_userless u u w.eNBs w.rand hcopy ha ha with ⟨rfl, _⟩ | ⟨tag, bytes, rfl, _⟩
    · rcases hcase with ⟨_, huser, _⟩ | ⟨x, hx, _⟩
      · exact huser.trans hu
      · cases hx
    · rcases hcase with ⟨hnone, _⟩ | ⟨x, hx, _, huser, _⟩
      · cases hnone
      · cases hx
        exact huser
  · obtain ⟨t, ht, htag⟩ := p.exists_of_copyLen hcopy
    rw [htag, pullSwitch_eq _ _ _ ht] at ha
    cases ha
    rw [htag, ItemType.ofCode_code]
    rcases hcase with ⟨hnone, _⟩ | ⟨x, hx, _, huser, _⟩
    · cases hnone
    · cases hx
      exact huser

theorem Differ.foldlM_pullSlot {pulls : List Pull} {w₁ w₂ w₁' w₂' : Work} {u₁ u₂ : UserInfo}
    (h : Differ u₁ u₂) (hu₁ : w₁.user = some u₁) (hu₂ : w₂.user = some u₂)
    (h₁ : pulls.foldlM pullSlot w₁ = .ok w₁') (h₂ : pulls.foldlM pullSlot w₂ = .ok w₂') :
    ∃ v₁ v₂, w₁'.user = some v₁ ∧ w₂'.user = some v₂ ∧ Differ v₁ v₂ := by
  induction pulls generalizing w₁ w₂ u₁ u₂ with
  | nil =>
      cases h₁
      cases h₂
      exact ⟨u₁, u₂, hu₁, hu₂, h⟩
  | cons p ps ih =>
      rw [List.foldlM_cons] at h₁ h₂
      cases hs₁ : pullSlot w₁ p with
      | error e =>
          rw [hs₁] at h₁
          cases h₁
      | ok v₁ =>
          cases hs₂ : pullSlot w₂ p with
          | error e =>
              rw [hs₂] at h₂
              cases h₂
          | ok v₂ =>
              rw [hs₁] at h₁
              rw [hs₂] at h₂
              refine ih ?_ (pullSlot_pulledUser hs₁ hu₁) (pullSlot_pulledUser hs₂ hu₂) h₁ h₂
              cases ItemType.ofCode p.tag with
              | none => exact h
              | some t => exact h.pulledUser w₁.rand w₂.rand t

def zeroColumn : HexColumn where
  marked := false
  digits := List.replicate 32 0x30
  length := List.length_replicate
  hex := by
    intro b hb
    rw [List.eq_of_mem_replicate hb]
    decide

def zeroLine (imsi : List UInt8) (h : IsImsi imsi) : UserLine := ⟨imsi, h, zeroColumn, false, zeroColumn⟩

/-- The file of one line, read where every byte of the heap and the stack is `b`. -/
def fileOver (x : UserLine) (b : UInt8) : List FileLine :=
  [⟨.ofBytes x.text, ⟨fun _ => b, fun _ => b, fun _ => b⟩⟩]

theorem ofBytes_bytes (bs : List UInt8) : (Line.ofBytes bs).bytes = bs := Mem.read_ofList bs 0

theorem fileOver_isUserFile (x : UserLine) (b : UInt8) : IsUserFile (fileOver x b) := by
  intro a ha
  rw [List.mem_singleton.mp ha]
  exact Or.inr ⟨x, [], Or.inl rfl, by simp [ofBytes_bytes]⟩

theorem fileOver_sameText (x : UserLine) (a b : UInt8) :
    List.Forall₂ SameText (fileOver x a) (fileOver x b) :=
  .cons rfl .nil

theorem initDb_singleton (generateOpc : GenerateOpc) (tables : Tables) (rand : RandStream)
    (a : FileLine) :
    initDb generateOpc tables rand [a] = processLine generateOpc
      { imsiMap := .init tables.size tables.imsiInitval
        eNBs := .init tables.size tables.enbInitval
        rand } a.line a.scratch := by
  rw [initDb, List.foldlM_cons]
  cases processLine generateOpc _ a.line a.scratch <;> rfl

theorem exists_load (x : UserLine) (b : UInt8) (tables : Tables) (rand : RandStream) :
    ∃ db u, initDb .unused tables rand (fileOver x b) = .ok db ∧
      db.user? (imsiNumber x.imsi) = some u ∧ ∀ i, Fresh i → u.mem i = b := by
  have hspells : (Line.ofBytes x.text).Spells x := ⟨[], Or.inl rfl, by simp [ofBytes_bytes]⟩
  obtain ⟨str, himsi, hrun⟩ := hspells.processLine_newUser .unused
    { imsiMap := .init tables.size tables.imsiInitval
      eNBs := .init tables.size tables.enbInitval
      rand } ⟨fun _ => b, fun _ => b, fun _ => b⟩
  refine ⟨_, storedUser (x.newUser .unused (fun _ => b) str) rand fun _ => b,
    (initDb_singleton _ _ _ _).trans hrun, ?_, fun i hi => ?_⟩
  · rw [user?_add, Db.user?, hashmapGet_init, Option.none_or, if_pos]
    rw [hashImsiUserInfo_eq, storedUser_imsi, x.newUser_imsi, himsi]
  · rw [storedUser_fresh _ _ _ hi, x.newUser_fresh _ _ _ hi]
    split <;> rfl

/-- The answers after two loads differ where an item reads a fresh byte. -/
theorem PullRequest.readsLoaded_of_determined {r : PullRequest} (h : DeterminedByLoad r) :
    r.ReadsLoaded := by
  rintro key tables hkey ⟨imsi, himsi, hnumber⟩ hfits p hp ⟨t, ht, htag⟩
  obtain ⟨db₁, u₁, hload₁, hu₁, hmem₁⟩ := exists_load (zeroLine imsi himsi) 0 tables fun _ => 0
  obtain ⟨db₂, u₂, hload₂, hu₂, hmem₂⟩ := exists_load (zeroLine imsi himsi) 1 tables fun _ => 0
  have hdiffer : Differ u₁ u₂ := by
    intro i hi
    rw [hmem₁ i hi, hmem₂ i hi]
    decide
  have hkey' : imsiNumber (zeroLine imsi himsi).imsi = key := hnumber
  rw [hkey'] at hu₁ hu₂
  have hend : r.request.Ends [] r.request.body.length := Or.inl rfl
  have hsame := h .unused tables (fun _ => 0) _ _ db₁ db₂ (fun _ => 0) [] r.request.body.length
    (fileOver_isUserFile _ 0) (fileOver_sameText _ 0 1) hload₁ hload₂ hend
  rw [analyzeRequest_user hkey hu₁ r.noEom hend, analyzeRequest_user hkey hu₂ r.noEom hend] at hsame
  have hfits₁ : fits db₁.eNBs 0 r.request.pulls := by rwa [initDb_eNBs hload₁]
  have hfits₂ : fits db₂.eNBs 0 r.request.pulls := by rwa [initDb_eNBs hload₂]
  obtain ⟨w₁, hw₁⟩ := (r.fits_iff db₁ u₁ fun _ => 0).mpr hfits₁
  obtain ⟨w₂, hw₂⟩ := (r.fits_iff db₂ u₂ fun _ => 0).mpr hfits₂
  rw [hw₁, hw₂] at hsame
  have hsent : w₁.response.read 0 w₁.resOffset = w₂.response.read 0 w₂.resOffset :=
    Except.ok.inj hsame
  obtain ⟨before, after, hpulls⟩ := List.append_of_mem hp
  rw [r.run_eq, hpulls] at hw₁ hw₂
  obtain ⟨v₁, y₁, a₁, hv₁, hy₁, _, ha₁, hcells₁⟩ := foldlM_pullSlot_slot hw₁ rfl
  obtain ⟨v₂, y₂, a₂, hv₂, hy₂, _, ha₂, hcells₂⟩ := foldlM_pullSlot_slot hw₂ rfl
  obtain ⟨z₁, z₂, hz₁, hz₂, hdiffer⟩ := hdiffer.foldlM_pullSlot rfl rfl hv₁ hv₂
  rw [hy₁] at hz₁
  rw [hy₂] at hz₂
  cases hz₁
  cases hz₂
  have hcopy : copyLen t ≠ none := by
    have key : ∀ t ∈ freshItems, copyLen t ≠ none := by decide
    exact key t ht
  rw [htag, pullSwitch_eq _ _ _ hcopy] at ha₁ ha₂
  cases ha₁
  cases ha₂
  obtain ⟨j, a, b, hj, hne, hbyte₁, hbyte₂⟩ := hdiffer.pulledBytes ht
  have hblock : ∀ {tag c d : UInt8} {bytes : List UInt8}, bytes[j]? = some c →
      (tag :: bytes).getD (j + 1) d = c := by
    intro tag c d bytes hc
    simp [hc]
  have h₁ := (hcells₁ (j + 1) (by omega)).trans (hblock hbyte₁)
  have h₂ := (hcells₂ (j + 1) (by omega)).trans (hblock hbyte₂)
  obtain ⟨_, hoff₁, _⟩ := foldlM_pullSlot_frame hw₁
  obtain ⟨_, hoff₂, _⟩ := foldlM_pullSlot_frame hw₂
  simp only [Work.start, List.length_append, List.length_cons, Nat.zero_add] at h₁ h₂ hoff₁ hoff₂
  rw [hoff₁, hoff₂] at hsent
  apply hne
  rw [← h₁, ← h₂]
  exact Mem.cell_eq_of_read_eq hsent (Nat.zero_le _) (by omega)

/-- Which requests get an answer that the file and the random numbers determine. -/
theorem determinedByLoad_iff (r : PullRequest) : DeterminedByLoad r ↔ r.ReadsLoaded :=
  ⟨PullRequest.readsLoaded_of_determined, r.determinedByLoad_of_readsLoaded⟩

def fetchUeCounter : PullRequest where
  request := (fetchValue .ueNasSequenceNumber).request fun _ => 0
  noPushes := rfl
  noEom := by
    intro p hp
    rw [List.mem_singleton.mp
      (show p ∈ [(⟨.ueNasSequenceNumber, fun _ => 0⟩ : PullArg).pull] from hp)]
    decide

/-- The first answer with the counter of uplink messages shows what `malloc` has left. -/
theorem not_determinedByLoad_ueCounter : ¬ ∀ r : PullRequest, DeterminedByLoad r := by
  intro h
  have hreads := PullRequest.readsLoaded_of_determined (h fetchUeCounter)
  refine hreads 1 oneList (Call.target_imsi rfl rfl _) ⟨testNetworkImsi, ⟨rfl, by decide⟩, ?_⟩ ?_ _
    (List.mem_singleton_self _) ⟨.ueNasSequenceNumber, by decide, rfl⟩
  · decide +kernel
  · exact fits_of_length _ _ _ (by decide)

end PublicCloudCore.CorekubeDb
