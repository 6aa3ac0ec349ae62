import PublicCloudCore.CorekubeDb.IdentityCoherence
import PublicCloudCore.Worker.ResponseSlots

/-!
# Whose record the worker works on

The handlers of an Uplink NAS Transport message name a user to the database by the low 32 bits of
the AMF_UE_NGAP_ID, which has up to 40. The record that they find there is the UE's own where the
identifier fits.
-/

namespace PublicCloudCore.Worker

open Framework CorekubeDb Libck

/-- `MME_UE_S1AP_ID` of a record, as a number. -/
def mmeUeS1apIdOf (u : UserInfo) : UInt64 := (arrayToUint32 (u.get .mmeUeS1apId)).toUInt64

def World.addressed (w : World) : Query → Option UserInfo
  | .dbAccess c =>
      match c.request.target with
      | .user key => w.db.user? key
      | _ => none
  | .pkbufAlloc _ => none

def Query.IsDbAccess : Query → Prop
  | .dbAccess _ => True
  | .pkbufAlloc _ => False

instance : DecidablePred Query.IsDbAccess
  | .dbAccess _ => .isTrue trivial
  | .pkbufAlloc _ => .isFalse not_false

/-- A question about the user with this key and nobody else, which does not rename the user. -/
def Query.About (key : UInt32) : Query → Prop
  | .dbAccess c => c.request.target = .user key ∧ OwnItems c.pushes c.pulls
  | .pkbufAlloc _ => True

/-- Nothing but the record of this key differs, and this record is no other user's. -/
structure SameUsers (key : UInt32) (w w' : World) : Prop where
  others : ∀ key', key' ≠ key → w'.db.user? key' = w.db.user? key'
  id : (w'.db.user? key).map mmeUeS1apIdOf = (w.db.user? key).map mmeUeS1apIdOf

theorem SameUsers.refl (key : UInt32) (w : World) : SameUsers key w w := ⟨fun _ _ => rfl, rfl⟩

theorem SameUsers.trans {key : UInt32} {w w' w'' : World} (h : SameUsers key w w')
    (h' : SameUsers key w' w'') : SameUsers key w w'' :=
  ⟨fun key' hne => (h'.others key' hne).trans (h.others key' hne), h'.id.trans h.id⟩

theorem OwnItems.keepsId_request {c : DbCall} (h : OwnItems c.pushes c.pulls) (u : UserInfo) :
    (applyPushes c.request.pushes u).get .mmeUeS1apId = u.get .mmeUeS1apId := by
  apply applyPushes_get_other
  intro p hp target htarget heq
  have hpush := (Push.target?_mmeUeS1apId htarget).mp heq
  obtain ⟨value, hvalue, htag⟩ := Call.mem_pushSlots hp
  obtain ⟨arg, harg, hitem⟩ := mem_pushValues hvalue
  obtain ⟨x, hx, rfl⟩ := List.mem_map.mp harg
  rw [Push.isMmeUeS1apId, htag, beq_iff_eq, ItemType.code_injective.eq_iff, hitem] at hpush
  exact h.keepsId x hx hpush

theorem pullTouches_ne_mmeUeS1apId (t : ItemType) : pullTouches t ≠ some .mmeUeS1apId := by
  cases t <;> simp [pullTouches]

theorem sameUsers_serve {key : UInt32} {q : Query} (h : q.About key) (env : Env) (w : World) :
    SameUsers key w (w.serve env q).2 := by
  cases q with
  | pkbufAlloc content => exact .refl key w
  | dbAccess c =>
      obtain ⟨hkey, hitems⟩ := h
      have hplain : c.Plain := ⟨hitems.subset, hitems.nodup⟩
      cases hu : w.db.user? key with
      | none =>
          rw [World.serve_unknown hplain hkey hu hitems.pos env]
          exact ⟨fun _ _ => rfl, rfl⟩
      | some u =>
          have hknown : Known w c key u := ⟨hplain, hitems.pos, hkey, hu⟩
          obtain ⟨u', husers, hfields⟩ := hknown.next env
          constructor
          · intro key' hne
            rw [husers, if_neg hne]
          · have hid : u'.get .mmeUeS1apId = u.get .mmeUeS1apId :=
              (hfields .mmeUeS1apId fun t _ => pullTouches_ne_mmeUeS1apId t).trans
                (hitems.keepsId_request u)
            rw [husers, if_pos rfl, hu, Option.map_some, Option.map_some, mmeUeS1apIdOf, hid]
            rfl

/-- The database is read and written for the UE with this identifier alone. -/
structure Isolated {α : Type} (env : Env) (w : World) (p : Processing α) (id : UInt64) : Prop where
  addressed : ∀ x ∈ p.trace (World.serve env) w, ∀ u, x.1.addressed x.2 = some u →
    mmeUeS1apIdOf u = id
  untouched : ∀ key u, w.db.user? key = some u → mmeUeS1apIdOf u ≠ id →
    (p.exec (World.serve env) w).state.db.user? key = some u

/-- An Uplink NAS Transport message, from `ngap_message_handler` to the encoded responses. -/
def handleUplinkNasTransport (lib : Ogs) (ies : List ProtocolIe) (responses : Nat → Slot)
    (sctpStreamId : UInt8) : Processing Response :=
  handleNgapMessage lib (.initiatingMessage (.uplinkNasTransport ies))
    (.start responses sctpStreamId)

/-- Answers without a database. -/
def Env.answer (env : Env) : (q : Query) → Answer q
  | .dbAccess c => ⟨[], env.stack c, env.heap c⟩
  | .pkbufAlloc content => env.pool content

section

variable {lib : Ogs} {ies : List ProtocolIe} {id : UInt64} {responses : Nat → Slot}
  {sctpStreamId : UInt8} {env : Env} {w : World}

theorem permits_about (hlib : lib.Documented) (id : UInt64) :
    Permits lib (Query.About id.toUInt32) (some id) := by
  constructor
  · intro content
    trivial
  · intro id' pushes pulls hid hitems
    cases hid
    exact ⟨hlib.target_byAmfUeNgapId id pushes pulls, hitems.toOwnItems⟩

theorem asked_about (hlib : lib.Documented)
    (hid : ProtocolIe.find ProtocolIe.amfUeNgapId? ies = some id)
    (hno : ∀ nasPdu, ProtocolIe.find ProtocolIe.nasPdu? ies = some nasPdu →
      NoRegistrationRequest lib nasPdu) :
    ∀ q ∈ ((handleUplinkNasTransport lib ies responses sctpStreamId).exec
      (World.serve env) w).asked, q.About id.toUInt32 := by
  have hhandler : Keeps (Query.About id.toUInt32)
      (ngapHandleUplinkNasTransport lib ies
        { Response.start responses sctpStreamId with sctpStreamId := 1 })
      (Holds (Consumer.Expects .messageToBytes)) := by
    apply keeps_uplinkNasTransport _ rfl fun nasPdu h => (hno nasPdu h).permitsEnclosed _
    intro id' hid'
    obtain rfl := Option.some.inj (hid.symm.trans hid')
    exact permits_about hlib id
  have hkeeps : Keeps (Query.About id.toUInt32)
      (handleUplinkNasTransport lib ies responses sctpStreamId) fun _ => True := by
    rw [Keeps, handleUplinkNasTransport, handleNgapMessage, Prog.ensures_bind]
    apply Prog.ensures_map.mpr
    apply hhandler.mono
    intro r hr
    rw [Prog.ensures_bind, Prog.ensures_require]
    intro r' hr'
    cases hr'
    exact (keeps_encodeResponses hr).mono fun _ _ => trivial
  exact (hkeeps.exec (World.serve env) w).1

section

variable (hlib : lib.Documented) (hid : ProtocolIe.find ProtocolIe.amfUeNgapId? ies = some id)
  (hno : ∀ nasPdu, ProtocolIe.find ProtocolIe.nasPdu? ies = some nasPdu →
    NoRegistrationRequest lib nasPdu)

include hlib hid hno

theorem sameUsers_trace :
    (∀ x ∈ (handleUplinkNasTransport lib ies responses sctpStreamId).trace (World.serve env) w,
        SameUsers id.toUInt32 w x.1) ∧
      SameUsers id.toUInt32 w ((handleUplinkNasTransport lib ies responses sctpStreamId).exec
        (World.serve env) w).state :=
  Prog.trace_invariant (fun w' _ hq hw' => hw'.trans (sameUsers_serve hq env w'))
    (asked_about hlib hid hno) (.refl _ w)

theorem addressed_trace {x : World × Query} (hx : x ∈ (handleUplinkNasTransport lib ies responses
    sctpStreamId).trace (World.serve env) w) (hdb : x.2.IsDbAccess) :
    (x.1.addressed x.2).map mmeUeS1apIdOf = (w.db.user? id.toUInt32).map mmeUeS1apIdOf := by
  have habout := asked_about hlib hid hno x.2
    (by rw [← Prog.trace_asked]; exact List.mem_map_of_mem hx)
  have hsame := (sameUsers_trace hlib hid hno).1 x hx
  obtain ⟨w', q⟩ := x
  cases q with
  | pkbufAlloc content => exact absurd hdb not_false
  | dbAccess c =>
      have hrecord : w'.addressed (.dbAccess c) = w'.db.user? id.toUInt32 := by
        simp only [World.addressed, habout.1]
      rw [hrecord]
      exact hsame.id

theorem isolated_of_own (hown : ∀ u, w.db.user? id.toUInt32 = some u → mmeUeS1apIdOf u = id) :
    Isolated env w (handleUplinkNasTransport lib ies responses sctpStreamId) id := by
  constructor
  · intro x hx u hu
    cases hquery : x.2 with
    | pkbufAlloc content =>
        rw [hquery] at hu
        cases hu
    | dbAccess c =>
        have haddressed := addressed_trace hlib hid hno hx (by rw [hquery]; trivial)
        rw [hu, Option.map_some] at haddressed
        obtain ⟨v, hv, hvid⟩ := Option.map_eq_some_iff.mp haddressed.symm
        rw [← hvid]
        exact hown v hv
  · intro key u hu hother
    have hne : key ≠ id.toUInt32 := by
      intro hkey
      exact hother (hown u (hkey ▸ hu))
    rw [(sameUsers_trace hlib hid hno).2.others key hne]
    exact hu

/-- In a database whose records carry their keys, an identifier of 32 bits is enough. -/
theorem isolated_of_wellIndexed (hdb : w.db.WellIndexed) (hfits : id.toUInt32.toUInt64 = id) :
    Isolated env w (handleUplinkNasTransport lib ies responses sctpStreamId) id := by
  apply isolated_of_own hlib hid hno
  intro u hu
  have hcomplete := hdb.complete u (HashMap.get_mem_entries hu)
  rw [mmeUeS1apIdOf, hcomplete.mmeUeS1apId, arrayToUint32_uint32ToArray, Db.hash_of_user? hu]
  exact hfits

end

end

/-- A database with the subscriber, as the server has completed its record. -/
def World.ofSubscriber : World where
  db := .init (some (completeUserInfo subscriber fun _ => 0).1) fun _ => 0
  response := fun _ => 0

/-- An Authentication Response under this identifier. -/
def authenticationResponseFor (id : UInt64) : List ProtocolIe :=
  [.amfUeNgapId id, .ranUeNgapId 1, .nasPdu [0x7e, 0x00, 0x57], .userLocationInformation true]

end PublicCloudCore.Worker
