import PublicCloudCore.Framework.Transition
import PublicCloudCore.RanEmulator.NasProcedures
import PublicCloudCore.RanEmulator.RanIds

/-!
# The COUNTs of a UE

The number in the record and the COUNT of a builder agree in one order of the messages, which the
procedures of a UE need not keep. They agree, and no COUNT is taken twice under a key, exactly when
every procedure finds the number that its message is meant for and every new key is new.
-/

namespace PublicCloudCore.RanEmulator.CoreMessages

open Framework

/-- Every message carries the low end of its COUNT, and no COUNT is taken twice under a key. -/
structure SoundCounts (sent : List Sent) : Prop where
  agrees : ∀ m ∈ sent, m.Agrees
  unique : (sent.map Sent.taken).Nodup

def Establishment.Rekeys (e : Establishment) : Prop :=
  e.authenticationRequest.accepted ∧ e.securityModeCommand.accepted

/-- A procedure that comes to a new key finds one that is new, and the others find the number that
their COUNT is meant for. -/
def Fits (u : Uplink) : Procedure → Prop
  | .registrationRequest e _ => e.Rekeys → ∀ m ∈ u.sent, m.key ≠ e.nasKeyInt
  | .deregistrationRequest _ _ => u.ue.nasSequenceNumber = 3
  | .attachDefaultEPSBearer e => e.Rekeys → ∀ m ∈ u.sent, m.key ≠ e.nasKeyInt
  | .ueDetach _ _ => u.ue.nasSequenceNumber = 1
  | .ueServiceRequest _ => u.ue.nasSequenceNumber.toNat % 32 = 2

/-- While every procedure fits, the number in the record is above every COUNT under its key, unless
it has just been reset. -/
structure Counted (u : Uplink) : Prop where
  sound : SoundCounts u.sent
  opened : ∀ m ∈ u.sent, (m.key, 0) ∈ u.sent.map Sent.taken
  current : u.ue.nasSequenceNumber = 0 ∨ (u.key, 0) ∈ u.sent.map Sent.taken ∧
    ∀ m ∈ u.sent, m.key = u.key → m.message.count.toNat < u.ue.nasSequenceNumber.toNat
  small : u.ue.nasSequenceNumber.toNat ≤ 4

namespace Counted

variable {crypto : Crypto} {enb : ENB} {u : Uplink} {m : Protected}

theorem start {ue : UE} (hue : ue.nasSequenceNumber = 0) : Counted ⟨ue, []⟩ where
  sound := ⟨by simp, List.nodup_nil⟩
  opened := by simp
  current := Or.inl hue
  small := by simp [hue]

theorem receive (h : Counted u) (a : Answer) : Counted (u.receive a) where
  sound := h.sound
  opened := h.opened
  current := by
    rw [number_receive, key_receive]
    exact h.current
  small := by
    rw [number_receive]
    exact h.small

theorem reset (h : Counted u) : Counted u.resetNasSequenceNumber :=
  ⟨h.sound, h.opened, Or.inl rfl, Nat.zero_le 4⟩

theorem storeKey (h : Counted u) (hnumber : u.ue.nasSequenceNumber = 0) (key : Vector UInt8 16) :
    Counted (u.storeKey key) :=
  ⟨h.sound, h.opened, Or.inl hnumber, h.small⟩

theorem count_lt (m : Protected) : m.count.toNat < 4 := by
  cases m <;> simp [Protected.count]

/-- A message at its own number, and with a COUNT that its key has not had. -/
theorem send_of (h : Counted u) (hnumber : u.ue.nasSequenceNumber.toNat = m.count.toNat)
    (hfresh : ∀ m' ∈ u.sent, m'.key = u.key → m'.message.count.toNat < m.count.toNat)
    (hopened : m.count = 0 ∨ (u.key, 0) ∈ u.sent.map Sent.taken) :
    Counted (u.send crypto enb m) := by
  have hlt := count_lt m
  have hnext : (u.ue.nasSequenceNumber + 1).toNat = m.count.toNat + 1 := by
    rw [UInt8.toNat_add, UInt8.toNat_one]
    omega
  have hfirst : (u.key, 0) ∈ (u.send crypto enb m).sent.map Sent.taken := by
    rw [sent_send, List.map_append, List.mem_append]
    rcases hopened with hzero | hmem
    · right
      simp [taken_mk, hzero]
    · exact Or.inl hmem
  have hmaps : u.sent.map Sent.taken ⊆ (u.send crypto enb m).sent.map Sent.taken := by
    rw [sent_send, List.map_append]
    exact List.subset_append_left _ _
  constructor
  · constructor
    · intro m' hm'
      rw [sent_send, List.mem_append, List.mem_singleton] at hm'
      rcases hm' with hold | rfl
      · exact h.sound.agrees m' hold
      · rw [agrees_mk, hnumber]
    · rw [sent_send, List.map_append, List.map_singleton]
      refine List.Nodup.append h.sound.unique (List.nodup_singleton _) ?_
      rw [List.disjoint_singleton, taken_mk]
      intro hmem
      obtain ⟨m', hm', htaken⟩ := List.mem_map.mp hmem
      obtain ⟨hkey, hcount⟩ := Prod.mk.inj htaken
      have hbelow := hfresh m' hm' hkey
      rw [hcount] at hbelow
      exact Nat.lt_irrefl _ hbelow
  · intro m' hm'
    rw [sent_send, List.mem_append, List.mem_singleton] at hm'
    rcases hm' with hold | rfl
    · exact hmaps (h.opened m' hold)
    · exact hfirst
  · right
    rw [key_send, number_send, hnext]
    refine ⟨hfirst, fun m' hm' hkey => ?_⟩
    rw [sent_send, List.mem_append, List.mem_singleton] at hm'
    rcases hm' with hold | rfl
    · exact Nat.lt_succ_of_lt (hfresh m' hold hkey)
    · exact Nat.lt_succ_self _
  · rw [number_send, hnext]
    omega

theorem send_first (h : Counted u) (hnumber : u.ue.nasSequenceNumber = 0) (hcount : m.count = 0)
    (hkey : ∀ m' ∈ u.sent, m'.key ≠ u.key) : Counted (u.send crypto enb m) := by
  refine h.send_of ?_ (fun m' hm' heq => absurd heq (hkey m' hm')) (Or.inl hcount)
  rw [hnumber, hcount]
  rfl

theorem send_next (h : Counted u) (hnumber : u.ue.nasSequenceNumber.toNat = m.count.toNat)
    (hpos : 0 < m.count.toNat) : Counted (u.send crypto enb m) := by
  have hne : u.ue.nasSequenceNumber ≠ 0 := by
    intro hzero
    rw [hzero] at hnumber
    rw [← hnumber] at hpos
    exact Nat.lt_irrefl _ hpos
  obtain ⟨hopened, hbelow⟩ := h.current.resolve_left hne
  rw [hnumber] at hbelow
  exact h.send_of hnumber hbelow (Or.inr hopened)

theorem exchange (h : Counted u) (a : Answer)
    (hnumber : u.ue.nasSequenceNumber.toNat = m.count.toNat) (hpos : 0 < m.count.toNat) :
    Counted (CoreMessages.exchange crypto enb m a u).1 :=
  (h.send_next hnumber hpos).receive a

/-- The start keeps the invariant if its key is new, and with `OK` it has sent one message. -/
theorem establish (h : Counted u) {complete : Protected} (hcount : complete.count = 0)
    {e : Establishment} (hkey : e.Rekeys → ∀ m ∈ u.sent, m.key ≠ e.nasKeyInt) :
    Counted (CoreMessages.establish crypto enb complete e u).1 ∧
      ((CoreMessages.establish crypto enb complete e u).2 = true →
        (CoreMessages.establish crypto enb complete e u).1.ue.nasSequenceNumber = 1) := by
  have hreset := (h.reset.receive e.authenticationRequest)
  simp only [CoreMessages.establish]
  cases hfirst : e.authenticationRequest.accepted with
  | false => exact ⟨hreset, by simp⟩
  | true =>
    cases hsecond : e.securityModeCommand.accepted with
    | false => exact ⟨hreset.receive e.securityModeCommand, by simp⟩
    | true =>
      have hzero : ((u.resetNasSequenceNumber.receive e.authenticationRequest).receive
          e.securityModeCommand).ue.nasSequenceNumber = 0 := by
        simp
      have hstored := (hreset.receive e.securityModeCommand).storeKey hzero e.nasKeyInt
      have hsent : Counted (((((u.resetNasSequenceNumber.receive e.authenticationRequest).receive
          e.securityModeCommand).storeKey e.nasKeyInt).send crypto enb complete)) :=
        hstored.send_first hzero hcount (hkey ⟨hfirst, hsecond⟩)
      refine ⟨hsent.receive e.initialContextSetup, fun _ => ?_⟩
      simp

theorem step (h : Counted u) {p : Procedure} (hfits : Fits u p) :
    Counted (p.run crypto enb u).1 := by
  cases p with
  | registrationRequest e session =>
      obtain ⟨hstart, hone⟩ : Counted
        (CoreMessages.establish crypto enb .securityModeComplete e u).1 ∧ _ :=
        h.establish rfl hfits
      rcases hest : CoreMessages.establish crypto enb .securityModeComplete e u with ⟨v, ok⟩
      rw [hest] at hstart hone
      simp only [Procedure.run, procedureRegistrationRequest, hest]
      cases ok with
      | false => exact hstart
      | true =>
          have hnumber := hone rfl
          have hcomplete : Counted (v.send crypto enb .registrationComplete) :=
            hstart.send_next (by rw [hnumber]; rfl) (by decide)
          have hrequest : Counted ((v.send crypto enb .registrationComplete).send crypto enb
              .pduSessionRequest) :=
            hcomplete.send_next (by rw [number_send, hnumber]; rfl) (by decide)
          exact hrequest.receive session
  | deregistrationRequest switchOff a =>
      have hnumber : u.ue.nasSequenceNumber = 3 := hfits
      have hthree : (Protected.deregistrationRequest switchOff).count.toNat = 3 := rfl
      exact h.exchange a (by rw [hnumber]; rfl) (by omega)
  | attachDefaultEPSBearer e =>
      obtain ⟨hstart, hone⟩ : Counted
        (CoreMessages.establish crypto enb .securityCommandComplete e u).1 ∧ _ :=
        h.establish rfl hfits
      rcases hest : CoreMessages.establish crypto enb .securityCommandComplete e u with ⟨v, ok⟩
      rw [hest] at hstart hone
      simp only [Procedure.run, procedureAttachDefaultEPSBearer, hest]
      cases ok with
      | false => exact hstart
      | true => exact hstart.send_next (by rw [hone rfl]; rfl) (by decide)
  | ueDetach switchOff a =>
      have hnumber : u.ue.nasSequenceNumber = 1 := hfits
      have hone : (Protected.detach switchOff).count.toNat = 1 := rfl
      exact h.exchange a (by rw [hnumber]; rfl) (by omega)
  | ueServiceRequest a =>
      have hsmall := h.small
      have hnumber : u.ue.nasSequenceNumber.toNat % 32 = 2 := hfits
      have htwo : Protected.serviceRequest.count.toNat = 2 := rfl
      exact h.exchange a (by omega) (by decide)

end Counted

section Sound

variable {crypto : Crypto} {enb : ENB} {u : Uplink}

theorem SoundCounts.earlier {sent sent' : List Sent} (h : SoundCounts sent')
    (hsent : sent <+: sent') : SoundCounts sent where
  agrees m hm := h.agrees m (hsent.subset hm)
  unique := h.unique.sublist (hsent.sublist.map Sent.taken)

theorem sent_establish (complete : Protected) (e : Establishment) :
    u.sent <+: (establish crypto enb complete e u).1.sent ∧
      (e.Rekeys → ∃ ue, ue.authChallenge.nasKeyInt = e.nasKeyInt ∧
        (establish crypto enb complete e u).1.sent = u.sent ++ [⟨complete, ue⟩]) := by
  simp only [establish, Establishment.Rekeys]
  cases e.authenticationRequest.accepted with
  | false => simp
  | true =>
    cases e.securityModeCommand.accepted with
    | false => simp
    | true =>
      exact ⟨List.prefix_append _ _, fun _ => ⟨_, rfl, rfl⟩⟩

theorem sent_procedureRegistrationRequest (e : Establishment) (session : Answer) :
    (establish crypto enb .securityModeComplete e u).1.sent <+:
      (procedureRegistrationRequest crypto enb e session u).1.sent := by
  simp only [procedureRegistrationRequest]
  cases (establish crypto enb .securityModeComplete e u).2 with
  | false => exact List.prefix_rfl
  | true =>
      simp only [Bool.not_true, Bool.false_eq_true, if_false, sent_receive, sent_send,
        List.append_assoc]
      exact List.prefix_append _ _

theorem sent_procedureAttachDefaultEPSBearer (e : Establishment) :
    (establish crypto enb .securityCommandComplete e u).1.sent <+:
      (procedureAttachDefaultEPSBearer crypto enb e u).1.sent := by
  simp only [procedureAttachDefaultEPSBearer]
  cases (establish crypto enb .securityCommandComplete e u).2 with
  | false => exact List.prefix_rfl
  | true =>
      simp only [Bool.not_true, Bool.false_eq_true, if_false, sent_send]
      exact List.prefix_append _ _

theorem agrees_of_sound {m : Protected} {a : Answer}
    (hsound : SoundCounts (exchange crypto enb m a u).1.sent) :
    m.count.toNat % 2 ^ m.bits = u.ue.nasSequenceNumber.toNat % 2 ^ m.bits :=
  agrees_mk.mp (hsound.agrees ⟨m, u.ue⟩ (List.mem_append_right _ (List.mem_singleton.mpr rfl)))

namespace Counted

theorem fresh_of_sound (h : Counted u) {complete : Protected} (hcount : complete.count = 0)
    {e : Establishment}
    (hsound : SoundCounts (CoreMessages.establish crypto enb complete e u).1.sent) :
    e.Rekeys → ∀ m ∈ u.sent, m.key ≠ e.nasKeyInt := by
  intro hrekeys m hm hkey
  obtain ⟨ue, hue, hsent⟩ := (sent_establish complete e).2 hrekeys
  have hold := h.opened m hm
  have hunique := hsound.unique
  rw [hsent, List.map_append, List.map_singleton, List.nodup_append] at hunique
  exact hunique.2.2 _ hold _ (List.mem_singleton.mpr rfl)
    (Prod.ext (hkey.trans hue.symm) hcount.symm)

theorem fits (h : Counted u) {p : Procedure} (hsound : SoundCounts (p.run crypto enb u).1.sent) :
    Fits u p := by
  have hlt := u.ue.nasSequenceNumber.toNat_lt
  cases p with
  | registrationRequest e session =>
      exact h.fresh_of_sound rfl (hsound.earlier (sent_procedureRegistrationRequest e session))
  | deregistrationRequest switchOff a =>
      have hagrees : 3 % 256 = u.ue.nasSequenceNumber.toNat % 256 := agrees_of_sound hsound
      exact UInt8.toNat_inj.mp (by rw [← Nat.mod_eq_of_lt hlt]; exact hagrees.symm)
  | attachDefaultEPSBearer e =>
      exact h.fresh_of_sound rfl (hsound.earlier (sent_procedureAttachDefaultEPSBearer e))
  | ueDetach switchOff a =>
      have hagrees : 1 % 256 = u.ue.nasSequenceNumber.toNat % 256 := agrees_of_sound hsound
      exact UInt8.toNat_inj.mp (by rw [← Nat.mod_eq_of_lt hlt]; exact hagrees.symm)
  | ueServiceRequest a =>
      have hagrees : 2 % 32 = u.ue.nasSequenceNumber.toNat % 32 := agrees_of_sound hsound
      exact hagrees.symm

end Counted

theorem runProcedures_concat (procedures : List Procedure) (p : Procedure) :
    runProcedures crypto enb u (procedures ++ [p]) =
      (p.run crypto enb (runProcedures crypto enb u procedures)).1 :=
  List.foldl_append

theorem Counted.run (h : Counted u) {procedures : List Procedure}
    (hfits : ∀ past p, past ++ [p] <+: procedures → Fits (runProcedures crypto enb u past) p) :
    Counted (runProcedures crypto enb u procedures) := by
  induction procedures using List.reverseRecOn with
  | nil => exact h
  | append_singleton procedures p ih =>
      obtain ⟨hpast, hlast⟩ := (forall_steps_concat procedures p).mp hfits
      rw [runProcedures_concat]
      exact (ih hpast).step hlast

end Sound

section

variable {s : List UInt8} {ue : UE}

/-- An answer that is accepted and leaves the record as it is. -/
def Answer.ok : Answer := ⟨id, true, fun _ => rfl, fun _ => rfl⟩

end

end PublicCloudCore.RanEmulator.CoreMessages
