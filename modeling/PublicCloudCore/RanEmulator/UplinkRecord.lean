import PublicCloudCore.RanEmulator.NasProcedures
import PublicCloudCore.RanEmulator.ParserBounds
import PublicCloudCore.RanEmulator.S1apWalk

/-!
# The answers to the procedures in the record of the UE

The procedures rely on every answer leaving the sequence number and the integrity key as they are.
The parsers store into neither of the two fields, except that an identifier of 153 octets or more
runs over the sequence number: a parser that stays in bounds keeps both.
-/

namespace PublicCloudCore.RanEmulator

open Framework Framework.Parser UeRecord ParserBounds

def nasSequenceNumberAt : Nat := 196
def nasKeyIntAt : Nat := 333

/-- The cells of `nas_sequence_number` and `NAS_KEY_INT`. -/
def UplinkCell (k : Nat) : Prop :=
  k = nasSequenceNumberAt ∨ nasKeyIntAt ≤ k ∧ k < nasKeyIntAt + 16

/-- No store into these cells but the copy to `mme_s1ap_id`. -/
def SparesButId : Touch UInt8 → Prop
  | .load _ => True
  | .store p stored => p = mmeS1apIdAt ∨ Spares UplinkCell (.store p stored)

abbrev Sparing {β : Type} (p : UeParser β) : Prop :=
  p.Ensures SparesButId (fun _ => True) fun _ => True

section

variable {β γ : Type} {value m : Mem UInt8} {n k target source offset fuel ret : Nat}

theorem Sparing.of_leaves {p : UeParser β} (h : p.Leaves UplinkCell) : Sparing p := by
  refine h.imp ?_ fun _ h => h.elim
  intro q hq
  cases q with
  | load k => trivial
  | store p stored => exact Or.inr hq

theorem Sparing.bind {p : UeParser β} {f : β → UeParser γ} (hp : Sparing p)
    (hf : ∀ b, Sparing (f b)) : Sparing (p >>= f) :=
  Prog.Ensures.bind hp fun b _ => hf b

theorem sparing_ite {c : Prop} [Decidable c] {p q : UeParser β} (hp : Sparing p)
    (hq : Sparing q) : Sparing (if c then p else q) := by
  split
  · exact hp
  · exact hq

theorem sparing_setMmeS1apId (len : UInt8) : Sparing (setMmeS1apId source len) := by
  have hid : ∀ bytes, Sparing (store mmeS1apIdAt bytes) := fun bytes =>
    Prog.Ensures.bind ⟨Or.inl rfl, fun _ => trivial⟩ fun _ _ =>
      (Prog.ensures_assert _).mpr fun _ => trivial
  have hlen : (store mmeS1apIdLenAt [len] : UeParser Unit).Leaves UplinkCell := by
    apply leaves_store
    intro i hi
    simp only [UplinkCell, mmeS1apIdLenAt, nasSequenceNumberAt, nasKeyIntAt,
      List.length_singleton] at *
    omega
  have hcopy : Sparing (copy mmeS1apIdAt source len.toNat) :=
    (Sparing.of_leaves (leaves_block _ _)).bind hid
  exact hcopy.bind fun _ => .of_leaves hlen

theorem leaves_copy_beside (h : target + n ≤ nasSequenceNumberAt ∨
    nasSequenceNumberAt < target ∧ target + n ≤ nasKeyIntAt ∨ nasKeyIntAt + 16 ≤ target) :
    (copy target source n).Leaves UplinkCell := by
  apply leaves_copy
  intro i hi
  simp only [UplinkCell, nasSequenceNumberAt, nasKeyIntAt] at *
  omega

theorem leaves_setGtpTeid (teid : UInt32) : (setGtpTeid teid).Leaves UplinkCell := by
  apply leaves_store
  intro i hi
  simp only [UplinkCell, EnbThreads.littleEndian, gtpTeidAt, nasSequenceNumberAt, nasKeyIntAt,
    List.length_cons, List.length_nil] at *
  omega

theorem leaves_setAlgorithms (algs : UInt8) :
    (setNasSessionSecurityAlgorithms algs).Leaves UplinkCell := by
  apply leaves_store
  intro i hi
  simp only [UplinkCell, algorithmsAt, nasSequenceNumberAt, nasKeyIntAt,
    List.length_singleton] at *
  omega

end

namespace NgapAnalysis

variable {offset n j : Nat}

theorem leaves_skipItem : (skipItem offset).Leaves UplinkCell :=
  (leaves_load _).bind fun _ => leaves_pure _

theorem leaves_searchPduAddress : (searchPduAddress offset n j).Leaves UplinkCell := by
  induction n generalizing j with
  | zero => trivial
  | succ n ih => exact (leaves_load _).bind fun _ => leaves_ite (leaves_pure _) ih

theorem leaves_searchGtpId : (searchGtpId offset n j).Leaves UplinkCell := by
  induction n generalizing j with
  | zero => trivial
  | succ n ih =>
      exact (leaves_load _).bind fun _ => leaves_ite
        ((leaves_load _).bind fun _ => leaves_ite (leaves_pure _) ih) ih

theorem leaves_analyzePduSession : (analyzePduSession offset).Leaves UplinkCell := by
  have hcopy : ∀ {target source}, target + 4 ≤ nasSequenceNumberAt →
      (copy target source 4).Leaves UplinkCell := fun h => leaves_copy_beside (Or.inl h)
  exact leaves_glance.bind fun _ => (leaves_load _).bind fun _ => leaves_searchPduAddress.bind
    fun _ => (hcopy (by decide)).bind fun _ => leaves_searchGtpId.bind fun _ =>
      (hcopy (by decide)).bind fun _ => leaves_load32.bind fun _ => leaves_setGtpTeid _

theorem leaves_analyzePduSessionList : (analyzePduSessionList offset).Leaves UplinkCell :=
  (leaves_load _).bind fun _ => leaves_glance.bind fun _ => (leaves_load _).bind fun _ =>
    leaves_ite (leaves_analyzePduSession.bind fun _ => leaves_skipItem) leaves_skipItem

theorem leaves_analyzeNasPdu : (analyzeNasPdu offset).Leaves UplinkCell := by
  have hprotected : (analyzeProtectedNas offset).Leaves UplinkCell :=
    (leaves_load _).bind fun _ => leaves_ite (leaves_glance.bind fun _ => leaves_glance.bind
      fun _ => leaves_copy_beside (by decide)) (leaves_pure _)
  have hcommand : (analyzeCommandNas offset).Leaves UplinkCell :=
    leaves_glance.bind fun _ => (leaves_load _).bind fun _ => leaves_ite
      ((leaves_load _).bind fun _ => leaves_setAlgorithms _) (leaves_pure _)
  have hplain : (analyzePlainNas offset).Leaves UplinkCell :=
    (leaves_load _).bind fun _ => leaves_ite ((leaves_copy_beside (by decide)).bind fun _ =>
      leaves_copy_beside (by decide)) (leaves_pure _)
  exact (leaves_load _).bind fun _ => leaves_ite hprotected
    (leaves_ite hcommand (leaves_ite hplain (leaves_pure _)))

theorem sparing_analyzeItem : Sparing (analyzeItem offset) := by
  have hskip : Sparing (skipItem offset) := .of_leaves leaves_skipItem
  have hglance : ∀ {source n : Nat}, Sparing (glance source n) := .of_leaves leaves_glance
  have hguami : Sparing (setGuami (offset + 4)) := .of_leaves (leaves_copy_beside (by decide))
  refine (Sparing.of_leaves (leaves_load _)).bind fun _ => ?_
  apply sparing_ite
  · exact (Sparing.of_leaves (leaves_load _)).bind fun length =>
      (sparing_setMmeS1apId length).bind fun _ => hskip
  apply sparing_ite (hguami.bind fun _ => hskip)
  apply sparing_ite
  · exact hglance.bind fun _ => hglance.bind fun _ => hglance.bind fun _ => hglance.bind fun _ =>
      hskip
  apply sparing_ite
  · exact (Sparing.of_leaves (leaves_load _)).bind fun _ => hglance.bind fun _ => hskip
  apply sparing_ite (hglance.bind fun _ => hskip)
  apply sparing_ite (.of_leaves leaves_analyzePduSessionList)
  exact sparing_ite ((Sparing.of_leaves leaves_analyzeNasPdu).bind fun _ => hskip) hskip

theorem sparing_analyzeItems : Sparing (analyzeItems n offset) := by
  induction n generalizing offset with
  | zero => trivial
  | succ n ih => exact ⟨trivial, sparing_analyzeItem.bind fun _ => ih⟩

theorem sparing_analyze (caller : Caller) : Sparing caller.analyze := by
  rw [Caller.analyze_eq, analyzePdu]
  have haccepts : ∀ form code criticality strict,
      (accepts form code criticality strict).Leaves UplinkCell := fun _ _ _ _ =>
    (leaves_load _).bind fun _ => leaves_ite (leaves_pure _) ((leaves_load _).bind fun _ =>
      leaves_ite (leaves_pure _) ((leaves_load _).bind fun _ => leaves_pure _))
  have hitems : ∀ buffer, Sparing (analyzeMessageItems buffer) := fun _ =>
    (Sparing.of_leaves leaves_load16).bind fun _ => sparing_analyzeItems
  exact (Sparing.of_leaves (haccepts _ _ _ _)).bind fun _ => sparing_ite
    ((Sparing.of_leaves leaves_glance).bind fun _ => (hitems _).bind fun _ => trivial) trivial

end NgapAnalysis

namespace S1apAnalysis

variable {challenge : Bool} {len fuel n ret offset : Nat}

theorem leaves_analyzeNasPdu : (analyzeNasPdu challenge ret offset).Leaves UplinkCell := by
  have hheader : (skipNasHeader offset).Leaves UplinkCell :=
    (leaves_load _).bind fun _ => leaves_ite (leaves_pure _)
      (leaves_ite (leaves_glance.bind fun _ => leaves_pure _) (leaves_pure _))
  have hchallenge : ∀ p, (analyzeAuthenticationRequest challenge ret p).Leaves UplinkCell :=
    fun _ => leaves_ite ((leaves_copy_beside (by decide)).bind fun _ =>
      (leaves_copy_beside (by decide)).bind fun _ => leaves_pure _) (leaves_pure _)
  have hcommand : ∀ p, (analyzeSecurityModeCommand p).Leaves UplinkCell := fun _ =>
    (leaves_load _).bind fun _ => (leaves_setAlgorithms _).bind fun _ =>
      leaves_glance.bind fun _ => leaves_pure _
  have hname : ∀ tag p, (skipNetworkName tag p).Leaves UplinkCell := fun _ _ =>
    (leaves_load _).bind fun _ => leaves_ite ((leaves_load _).bind fun _ => leaves_pure _)
      (leaves_pure _)
  have hinformation : ∀ p, (analyzeEmmInformation p).Leaves UplinkCell := fun _ =>
    (hname _ _).bind fun _ => (hname _ _).bind fun _ => leaves_pure _
  exact hheader.bind fun _ => (leaves_load _).bind fun _ => leaves_ite (hchallenge _)
    (leaves_ite (hcommand _) (leaves_ite (hinformation _) (leaves_pure _)))

theorem sparing_analyzeItem {id : Nat} (valueLen : UInt8) :
    Sparing (analyzeItem fuel id valueLen ret offset) := by
  have hcell : ∀ k, UplinkCell k → ¬ ItemCell k := by
    intro k hk
    simp only [UplinkCell, ItemCell, nasSequenceNumberAt, nasKeyIntAt, spgwIpAt, gutiAt,
      securityCapabilitiesAt] at *
    omega
  by_cases hid : id = idMmeUeS1apIe
  · have hprint : (printValue valueLen offset).Leaves UplinkCell :=
      leaves_glance.bind fun _ => leaves_pure _
    rw [analyzeItem, if_pos hid]
    exact (sparing_setMmeS1apId _).bind fun _ => .of_leaves hprint
  · exact .of_leaves (leaves_analyzeItem fun k hk => ⟨hid, hcell k hk⟩)

theorem sparing_analyzeItems : Sparing (analyzeItems len fuel challenge n ret offset) := by
  induction n generalizing ret offset with
  | zero => trivial
  | succ n ih =>
      rw [analyzeItems]
      refine sparing_ite trivial ⟨trivial, ?_⟩
      refine (Sparing.of_leaves leaves_load16).bind fun id => ?_
      refine (Sparing.of_leaves leaves_glance).bind fun _ => ?_
      refine (Sparing.of_leaves (leaves_load _)).bind fun valueLen => ?_
      exact sparing_ite ((Sparing.of_leaves leaves_analyzeNasPdu).bind fun _ => ih)
        ((sparing_analyzeItem valueLen).bind fun _ => ih)

theorem sparing_analyze : Sparing (analyzeDownlinkNasTransport len fuel challenge) :=
  (Sparing.of_leaves leaves_load16).bind fun _ => sparing_analyzeItems

end S1apAnalysis

namespace ParserBounds

section

variable {β : Type} {value m m' : Mem UInt8} {n : Nat}

/-- In bounds the copy to `mme_s1ap_id` ends before the sequence number. -/
theorem spares_of_inBounds {present : Bool} {q : Touch UInt8} (h : SparesButId q)
    (hbounds : InBounds n present q) : Spares UplinkCell q := by
  cases q with
  | load k => trivial
  | store p stored =>
      rcases h with hid | hspares
      · have hlength := hbounds.2 hid
        intro i hi
        simp only [UplinkCell, mmeS1apIdAt, mmeS1apIdSize, nasSequenceNumberAt, nasKeyIntAt] at *
        omega
      · exact hspares

theorem exec_keeps_uplink {p : UeParser β} (hp : Sparing p)
    (hbounds : StaysInBounds p value n (some m))
    (hm' : (p.exec (serve value) (some m)).state = some m') {k : Nat} (hk : UplinkCell k) :
    m' k = m k := by
  refine exec_spares (fun q hq => ?_) hm' hk
  exact spares_of_inBounds ((hp.exec (serve value) (some m)).1 q hq) (hbounds q hq)

end

namespace Receiver

/-- The records that the analysis of a received message may leave; `start` and `len` are those of
the value that a caller of the S1AP parser copies. -/
def Leaves (value m m' : Mem UInt8) : Receiver → Prop
  | ngap caller => (caller.analyze.exec (serve value) (caller.record m)).state = some m'
  | s1ap caller => ∃ start len fuel,
      (caller.take.exec (serve value) (some m)).result = some (some (start, len)) ∧
        ((S1apAnalysis.analyzeDownlinkNasTransport len fuel caller.challenge).exec
          (serve (value.shift start)) (some m)).state = some m'

theorem keeps_uplink {value m m' : Mem UInt8} {n : Nat} {receiver : Receiver}
    (hbounds : receiver.StaysInBounds value n m) (h : receiver.Leaves value m m') {k : Nat}
    (hk : UplinkCell k) : m' k = m k := by
  cases receiver with
  | ngap caller =>
      have hrecord : caller.record m = some m := by
        cases caller with
        | ngSetupResponse => cases (exec_null _).symm.trans h
        | _ => rfl
      rw [Leaves, hrecord] at h
      rw [StaysInBounds, hrecord] at hbounds
      exact exec_keeps_uplink (NgapAnalysis.sparing_analyze caller) hbounds h hk
  | s1ap caller =>
      obtain ⟨start, len, fuel, htaken, hrun⟩ := h
      exact exec_keeps_uplink S1apAnalysis.sparing_analyze (hbounds.2 start len htaken fuel) hrun hk

end Receiver

end ParserBounds

namespace CoreMessages

def littleEndianWord (m : Mem UInt8) (p : Nat) : UInt32 :=
  (m p).toUInt32 ||| (m (p + 1)).toUInt32 <<< 8 ||| (m (p + 2)).toUInt32 <<< 16 |||
    (m (p + 3)).toUInt32 <<< 24

def octets (m : Mem UInt8) (p n : Nat) : Vector UInt8 n := .ofFn fun i => m (p + i)

/-- The record that lies in a memory, on a little-endian machine. -/
def UE.ofRecord (m : Mem UInt8) : UE where
  id := littleEndianWord m 0
  mcc := octets m 4 3
  mnc := octets m 7 2
  plmn := octets m 9 3
  msin := octets m 12 5
  netCapabilities := octets m 33 3
  mmeS1apId := m.shift mmeS1apIdAt
  mmeS1apIdLen := m mmeS1apIdLenAt
  gtpTeid := littleEndianWord m gtpTeidAt
  guti := octets m gutiAt 10
  ueIp := octets m 192 4
  nasSequenceNumber := m nasSequenceNumberAt
  authChallenge :=
    { rand := octets m randAt 16
      ck := octets m 229 16
      ik := octets m 245 16
      res := octets m 277 8
      nasKeyInt := octets m nasKeyIntAt 16 }
  securityCapabilities := octets m securityCapabilitiesAt 4
  guami := octets m guamiAt 6

/-- The other record, but for the sequence number and the integrity key. -/
def UE.rewrittenTo (ue ue' : UE) : UE :=
  { ue' with
    nasSequenceNumber := ue.nasSequenceNumber
    authChallenge := { ue'.authChallenge with nasKeyInt := ue.authChallenge.nasKeyInt } }

/-- What a message in bounds makes of the record is an answer to the procedures. -/
theorem exists_answer {value m m' : Mem UInt8} {n : Nat} {receiver : Receiver}
    (hbounds : receiver.StaysInBounds value n m) (h : receiver.Leaves value m m')
    (accepted : Bool) :
    ∃ a : Answer, a.accepted = accepted ∧ a.rewrite (.ofRecord m) = .ofRecord m' := by
  have hnumber : m' nasSequenceNumberAt = m nasSequenceNumberAt :=
    Receiver.keeps_uplink hbounds h (Or.inl rfl)
  have hkey : octets m' nasKeyIntAt 16 = octets m nasKeyIntAt 16 := by
    refine Vector.ext fun i hi => ?_
    rw [octets, octets, Vector.getElem_ofFn, Vector.getElem_ofFn]
    exact Receiver.keeps_uplink hbounds h (Or.inr ⟨Nat.le_add_right _ _, by omega⟩)
  refine ⟨⟨(UE.rewrittenTo · (.ofRecord m')), accepted, fun _ => rfl, fun _ => rfl⟩, rfl, ?_⟩
  show (UE.ofRecord m).rewrittenTo (.ofRecord m') = UE.ofRecord m'
  simp only [UE.rewrittenTo, UE.ofRecord, hnumber, hkey]

end CoreMessages

end PublicCloudCore.RanEmulator
