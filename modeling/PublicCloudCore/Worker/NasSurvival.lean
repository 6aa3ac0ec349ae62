import PublicCloudCore.Worker.FetchedKeys

/-!
# NAS PDUs that the worker survives

`nas_handler_entrypoint` asserts what it expects, so it returns for some PDUs and ends the process
for the others. Whether it returns is told from the message in the PDU, however deep it is nested,
and from the database as it is when the PDU arrives.
-/

namespace PublicCloudCore.Worker

open Framework CorekubeDb Libck

/-- The libraries do what is documented, and they do not fail on what the worker gives them. -/
structure Ogs.Dependable (lib : Ogs) : Prop extends lib.toOgsSecurity.Documented where
  milenage : ∀ opc amf k sqn rand, (lib.milenageGenerate opc amf k sqn rand).res ≠ []
  plainEncode : ∀ m, (lib.nas5gsPlainEncode m).isSome

/-- `nas_5gs_generate_keys` gets the SUPI out of this identity. -/
def KeysDerivable (lib : Ogs) (mobIdent : MobileIdentity) : Prop :=
  ∃ suci, lib.suciFromMobileIdentity mobIdent = some suci ∧ (lib.supiFromSuci suci).isSome

theorem nas5gsGenerateKeys_isSome_iff {lib : Ogs} (hlib : lib.Dependable) {mobIdent : MobileIdentity}
    {opc key rand sqn : List UInt8} :
    (nas5gsGenerateKeys lib mobIdent opc key rand sqn).isSome ↔ KeysDerivable lib mobIdent := by
  have hres : (lib.milenageGenerate opc coreKubeAmfField key sqn rand).res.length ≠ 0 := by
    simpa using hlib.milenage opc coreKubeAmfField key sqn rand
  simp only [nas5gsGenerateKeys, if_neg hres, KeysDerivable]
  cases lib.suciFromMobileIdentity mobIdent <;> simp

def failurePulls : List ItemType := [.rand, .key, .opc, .knh1]

/-- The mobile identity that an Authentication Failure takes out of the response: KNH_1, and behind
it the heap. -/
def storedIdentity (lib : Ogs) (env : Env) (id : UInt64) (knh1 : List UInt8) : MobileIdentity :=
  let mem := ((env.heap (lib.byAmfUeNgapId id [] failurePulls)).shift 52).write 0 knh1
  ⟨(mem 0).toUInt16 ||| ((mem 1).toUInt16 <<< 8), mem.shift 2⟩

/-- The subscriber with this mobile identity. -/
def MobileIdentity.user? (lib : Ogs) (w : World) (mobileIdentity : MobileIdentity) :
    Option UserInfo := (mobileIdentity.imsiKey lib).bind w.db.user?

namespace UeMessage

def messageType : UeMessage → UInt8
  | gmm m => m.messageType
  | gsm m => m.messageType

/-- What the handler of the message takes for granted. -/
def Accepted (lib : Ogs) (env : Env) (w : World) (amfUeNgapId : Option UInt64) : UeMessage → Prop
  | gmm (.registrationRequest mobileIdentity) => (mobileIdentity.user? lib w).isSome ∧
      mobileIdentity.length ≤ 14 ∧ KeysDerivable lib mobileIdentity
  | gmm .registrationComplete => True
  | gmm (.deregistrationRequestFromUe type) =>
      type.accessType = nasSecurityAccessType3gpp ∧ type.reRegistrationRequired = false
  | gmm .authenticationResponse => True
  | gmm (.authenticationFailure gmmCause _) => gmmCause = 21 ∧ ∃ id u, amfUeNgapId = some id ∧
      w.db.user? id.toUInt32 = some u ∧ KeysDerivable lib (storedIdentity lib env id (u.get .knh1))
  | gmm (.securityModeComplete nasMessageContainer _) =>
      nasMessageContainer = true ∧ KnownUe w amfUeNgapId
  | gmm (.ulNasTransport _ _ _) => False
  | gmm (.other _ _) => False
  | gsm (.pduSessionEstablishmentRequest pduSessionType) =>
      pduSessionType = 1 ∧ KnownUe w amfUeNgapId
  | gsm (.other _ _) => False

/-- Whether it is answered, and whether the answer is protected. -/
def answer : UeMessage → Option Bool
  | gmm .registrationComplete => none
  | gmm (.deregistrationRequestFromUe type) => if type.switchOff then none else some true
  | gmm .authenticationResponse => some true
  | gmm (.securityModeComplete _ _) => some true
  | _ => some false

def amfAfter (lib : Ogs) (w : World) (amfUeNgapId : Option UInt64) : UeMessage → Option UInt64
  | gmm (.registrationRequest mobileIdentity) => (mobileIdentity.user? lib w).map mmeUeS1apIdOf
  | _ => amfUeNgapId

def maskedAfter (lib : Ogs) (maskedImeisv : Option (List UInt8)) :
    UeMessage → Option (List UInt8)
  | gmm (.securityModeComplete _ (some imeisv)) => maskImeisv lib imeisv maskedImeisv
  | _ => maskedImeisv

/-- The keys are generated again, from the identity that is stored. -/
def IsAuthenticationFailure : UeMessage → Prop
  | gmm (.authenticationFailure _ _) => True
  | _ => False

theorem IsAuthenticationFailure.exists_eq {m : UeMessage} (h : m.IsAuthenticationFailure) :
    ∃ gmmCause auts, m = gmm (.authenticationFailure gmmCause auts) := by
  unfold IsAuthenticationFailure at h
  split at h
  · exact ⟨_, _, rfl⟩
  · cases h

inductive PassesOn (nasPdu : List UInt8) : UeMessage → Prop
  | container {payloadContainer : List UInt8} {pduSessionId : UInt8} (hsome : payloadContainer ≠ [])
      (hid : pduSessionId ≠ 0)
      (hinner : nasPdu = payloadContainer.take (payloadContainer.length % 256)) :
      PassesOn nasPdu (gmm (.ulNasTransport 1 payloadContainer (some pduSessionId)))

end UeMessage

section

variable {lib : Ogs} {env : Env} {w w' : World} {ctx : Context}

theorem SameKeys.knownUe (h : SameKeys w w') (amfUeNgapId : Option UInt64) :
    KnownUe w' amfUeNgapId ↔ KnownUe w amfUeNgapId := by
  simp only [KnownUe, h _]

theorem SameKeys.fetchable (h : SameKeys w w') (pulls : List ItemType)
    (amfUeNgapId : Option UInt64) :
    Fetchable lib env w' pulls amfUeNgapId ↔ Fetchable lib env w pulls amfUeNgapId := by
  simp only [Fetchable, h _]

theorem SameIdentities.symm (h : SameIdentities w w') : SameIdentities w' w := fun key => (h key).symm

theorem SameIds.amfAfter (h : SameIds w w') (m : UeMessage) (amfUeNgapId : Option UInt64) :
    m.amfAfter lib w' amfUeNgapId = m.amfAfter lib w amfUeNgapId := by
  rcases m with m | m
  · cases m with
    | registrationRequest mobileIdentity =>
        simp only [UeMessage.amfAfter, MobileIdentity.user?]
        cases mobileIdentity.imsiKey lib with
        | none => simp only [Option.bind_none]
        | some key => simp only [Option.bind_some, h key]
    | _ => rfl
  · rfl

theorem SameKeys.accepted (h : SameKeys w w') {m : UeMessage} (hm : ¬ m.IsAuthenticationFailure)
    (amfUeNgapId : Option UInt64) :
    m.Accepted lib env w' amfUeNgapId ↔ m.Accepted lib env w amfUeNgapId := by
  rcases m with m | m
  · cases m with
    | registrationRequest mobileIdentity =>
        simp only [UeMessage.Accepted, MobileIdentity.user?]
        cases mobileIdentity.imsiKey lib with
        | none => simp only [Option.bind_none]
        | some key => simp only [Option.bind_some, h key]
    | authenticationFailure gmmCause auts => exact absurd trivial hm
    | securityModeComplete nasMessageContainer imeisv =>
        exact and_congr_right fun _ => h.knownUe amfUeNgapId
    | _ => exact Iff.rfl
  · cases m with
    | pduSessionEstablishmentRequest pduSessionType =>
        exact and_congr_right fun _ => h.knownUe amfUeNgapId
    | other messageType unhandled => exact Iff.rfl

theorem SameIdentities.accepted (h : SameIdentities w w') (m : UeMessage)
    (amfUeNgapId : Option UInt64) :
    m.Accepted lib env w' amfUeNgapId ↔ m.Accepted lib env w amfUeNgapId := by
  have hfailure : ∀ {w w' : World} (id : UInt64), SameIdentities w w' →
      (∃ u, w.db.user? id.toUInt32 = some u ∧
        KeysDerivable lib (storedIdentity lib env id (u.get .knh1))) →
      ∃ u, w'.db.user? id.toUInt32 = some u ∧
        KeysDerivable lib (storedIdentity lib env id (u.get .knh1)) := by
    rintro w w' id h ⟨u, hu, hkeys⟩
    obtain ⟨u', hu', _, hknh1⟩ := h.exists_user hu
    exact ⟨u', hu', by rwa [hknh1]⟩
  by_cases hm : m.IsAuthenticationFailure
  · obtain ⟨gmmCause, auts, rfl⟩ := hm.exists_eq
    refine and_congr_right fun _ => exists_congr fun id => ?_
    constructor
    · rintro ⟨u, hid, hu, hkeys⟩
      obtain ⟨u', hu', hkeys'⟩ := hfailure id h.symm ⟨u, hu, hkeys⟩
      exact ⟨u', hid, hu', hkeys'⟩
    · rintro ⟨u, hid, hu, hkeys⟩
      obtain ⟨u', hu', hkeys'⟩ := hfailure id h ⟨u, hu, hkeys⟩
      exact ⟨u', hid, hu', hkeys'⟩
  · exact h.sameKeys.accepted hm amfUeNgapId

def HoldsAnswer (kind : Bool → Slot → Prop) (r : Response) : Option Bool → Prop
  | none => r.numResponses = 0
  | some protects => r.numResponses = 1 ∧ kind protects (r.responses 0)

def MessageSlot (protects : Bool) (x : Slot) : Prop :=
  ∃ m, x = .nasMessage m ∧ integrityProtected m.securityHeaderType = some protects

def BufferSlot (_ : Bool) (x : Slot) : Prop := ∃ bytes, x = .nasBuffer bytes

theorem HoldsAnswer.single {kind : Bool → Slot → Prop} {x : Slot} {protects : Bool} (r : Response)
    (hx : kind protects x) : HoldsAnswer kind (r.single x) (some protects) :=
  ⟨rfl, by rwa [Response.single_responses_zero]⟩

def downlinkPulls : List ItemType := [.kasme1, .kasme2, .epcNasSequenceNumber]

theorem returnsIff_nasMessageToBytes (hlib : lib.Dependable) {keyed : Bool} {answer : Option Bool}
    (hanswer : HoldsAnswer MessageSlot ctx.response answer) (hkeys : ctx.params.HasKeys keyed) :
    (nasMessageToBytes lib ctx).ReturnsIff (World.serve env) w
      (answer = some true → keyed = true ∨ Fetchable lib env w downlinkPulls ctx.params.amfUeNgapId)
      fun ctx' w' => WithKeys ctx.params ctx'.params (keyed || answer == some true) ∧
        HoldsAnswer BufferSlot ctx'.response answer ∧ SameIdentities w w' := by
  rw [nasMessageToBytes]
  cases answer with
  | none =>
      have hnone : ctx.response.numResponses = 0 := hanswer
      rw [hnone]
      refine (Prog.ReturnsIff.pure ⟨⟨.refl _, ?_⟩, hnone, SameIdentities.refl w⟩).congr (by simp)
      simpa using hkeys
  | some protects =>
      obtain ⟨hone, m, hm, hprotects⟩ := hanswer
      rw [hone]
      have hencode : (nas5gsSecurityEncode lib ctx.params m).ReturnsIff (World.serve env) w _ _ :=
        returnsIff_nas5gsSecurityEncode hlib.toDocumented hprotects (hlib.plainEncode m) hkeys
      have hturn : (nasMessageToBytesAt lib ctx 0).ReturnsIff (World.serve env) w
          (some protects = some true →
            keyed = true ∨ Fetchable lib env w downlinkPulls ctx.params.amfUeNgapId)
          fun ctx' w' => WithKeys ctx.params ctx'.params (keyed || some protects == some true) ∧
            HoldsAnswer BufferSlot ctx'.response (some protects) ∧ SameIdentities w w' := by
        rw [nasMessageToBytesAt, hm]
        apply returnsIff_consume (a := m) rfl
        apply Prog.ReturnsIff.congr
        · apply hencode.bind
          rintro encoded w' ⟨⟨r, rfl, hkeyed⟩, hsame⟩
          rw [Prog.require_some_bind]
          refine Prog.ReturnsIff.pure ⟨?_, ⟨hone, r.2, Response.set_responses_self _ _ _⟩, hsame⟩
          simpa using hkeyed
        · simp [downlinkPulls]
      show Prog.ReturnsIff _ (nasMessageToBytesAt lib ctx 0 >>= fun ctx => pure ctx) _ _ _
      exact (hturn.bind fun _ _ h => Prog.ReturnsIff.pure h).congr (and_iff_left trivial)

theorem returnsIff_handled {p : Processing (Option Context)} {C : Prop}
    {post : Context → World → Prop}
    (h : p.ReturnsIff (World.serve env) w C fun x w' => ∃ ctx, x = some ctx ∧ post ctx w') :
    (p >>= Prog.require).ReturnsIff (World.serve env) w C post := by
  apply Prog.ReturnsIff.congr
  · apply h.bind
    rintro x w' ⟨ctx, rfl, hctx⟩
    have hrequire : (Prog.require (some ctx) : Processing Context).ReturnsIff (World.serve env) w'
        True post := .pure hctx
    exact hrequire
  · simp

theorem returnsIff_unhandled {post : Context → World → Prop} :
    ((pure none : Processing (Option Context)) >>= Prog.require).ReturnsIff (World.serve env) w
      False post := .abort

theorem ownItems_registration (enbUeS1apId knh1 : Mem UInt8) :
    OwnItems [⟨.enbUeS1apId, enbUeS1apId, rfl⟩, ⟨.knh1, knh1, rfl⟩]
      [.mmeUeS1apId, .rand, .key, .opc] := by
  constructor
  · simp
  · decide
  · decide
  · decide

theorem returnsIff_registrationRequest (hlib : lib.Dependable) {mobileIdentity : MobileIdentity}
    (hran : ctx.params.ranUeNgapId.isSome) :
    (nasHandleRegistrationRequest lib mobileIdentity ctx).ReturnsIff (World.serve env) w
      ((mobileIdentity.user? lib w).isSome ∧ mobileIdentity.length ≤ 14 ∧
        KeysDerivable lib mobileIdentity)
      fun x w' => ∃ ctx', x = some ctx' ∧
        (ctx'.params = { ctx.params with
            amfUeNgapId := (mobileIdentity.user? lib w).map mmeUeS1apIdOf } ∧
          HoldsAnswer MessageSlot ctx'.response (some false)) ∧ SameKeys w w' := by
  obtain ⟨ranUeNgapId, hran⟩ := Option.isSome_iff_exists.mp hran
  rw [nasHandleRegistrationRequest, hran, Prog.require_some_bind]
  cases himsi : lib.nas5gsImsiToBcd mobileIdentity with
  | none =>
      refine Prog.ReturnsIff.abort.congr ?_
      simp [MobileIdentity.user?, MobileIdentity.imsiKey, himsi]
  | some imsi =>
      rw [Prog.require_some_bind]
      obtain ⟨key, hkey⟩ := (byImsi imsi [] []).target_user
      have hhash := target_byImsi hkey
      have htarget : ∀ pushes pulls, (byImsi imsi pushes pulls).request.target = .user key := by
        intro pushes pulls
        obtain ⟨key', hkey'⟩ := (byImsi imsi pushes pulls).target_user
        rw [hkey', Option.some.inj ((target_byImsi hkey').symm.trans hhash)]
      have huser : mobileIdentity.user? lib w = w.db.user? key := by
        rw [MobileIdentity.user?, MobileIdentity.imsiKey, himsi, Option.bind_some, hhash,
          Option.bind_some]
      rw [huser]
      apply Prog.ReturnsIff.congr
      · apply Prog.ReturnsIff.assert_bind
        intro hlen
        apply Prog.ReturnsIff.call_bind
        generalize (World.serve env w (.pkbufAlloc _)).1 = block
        have hitems := ownItems_registration (.ofList (lib.asnUint32ToOctetString
          ranUeNgapId.toUInt32) 0) (block.write 0 mobileIdentity.mobIdent)
        have hcall := returnsIff_toProcessing (returnsIff_dbAccess (c := byImsi imsi _ _) hitems
          (htarget _ _) env w)
        apply hcall.bind (D := KeysDerivable lib mobileIdentity)
        rintro dbPulls w' ⟨rfl, hsame, u, hknown⟩
        obtain ⟨mme, hmme, hid⟩ := hknown.mmeUeS1apId hitems env List.mem_cons_self
        apply returnsIff_pulled hknown List.mem_cons_self
        intro mme' hmme'
        cases hmme.symm.trans hmme'
        apply returnsIff_pulled hknown (List.mem_of_elem_eq_true rfl)
        intro opc _
        apply returnsIff_pulled hknown (List.mem_of_elem_eq_true rfl)
        intro k _
        apply returnsIff_pulled hknown (List.mem_of_elem_eq_true rfl)
        intro rand _
        apply Prog.ReturnsIff.congr
        · apply Prog.ReturnsIff.require_bind (C := fun _ => True)
          rintro ⟨autn, kamf⟩ _
          have hknown' : (w'.db.user? key).isSome = true := by
            rw [hsame key, hknown.user]
            rfl
          have hcall' := returnsIff_toProcessing (returnsIff_dbAccess (c := byImsi imsi _ _)
            (sessionItems_kamf kamf).toOwnItems (htarget _ _) env w')
          apply (hcall'.congr (iff_true_intro hknown')).bind_of_returns
          rintro dbPulls w'' ⟨_, hsame', _⟩
          refine Prog.ReturnsIff.pure ⟨_, rfl, ⟨?_, ?_⟩, hsame.trans hsame'⟩
          · rw [hlib.of_octets, hid, hknown.user]
            rfl
          · exact .single _ ⟨_, rfl, rfl⟩
        · simp only [and_true, ← Option.isSome_iff_exists]
          exact nas5gsGenerateKeys_isSome_iff hlib
      · tauto

theorem returnsIff_authenticationFailure (hlib : lib.Dependable) (gmmCause : UInt8)
    (auts : List UInt8) :
    (nasHandleAuthenticationFailure lib gmmCause auts ctx).ReturnsIff (World.serve env) w
      (gmmCause = 21 ∧ ∃ id u, ctx.params.amfUeNgapId = some id ∧
        w.db.user? id.toUInt32 = some u ∧
        KeysDerivable lib (storedIdentity lib env id (u.get .knh1)))
      fun x w' => ∃ ctx', x = some ctx' ∧ (ctx'.params = ctx.params ∧
        HoldsAnswer MessageSlot ctx'.response (some false)) ∧ SameKeys w w' := by
  rw [nasHandleAuthenticationFailure]
  apply Prog.ReturnsIff.assert_bind
  intro _
  apply Prog.ReturnsIff.congr
  · apply Prog.ReturnsIff.require_bind (C := fun id => (w.db.user? id.toUInt32).isSome ∧
      ∀ u, w.db.user? id.toUInt32 = some u →
        KeysDerivable lib (storedIdentity lib env id (u.get .knh1)))
    intro id _
    have hitems : OwnItems [] failurePulls :=
      (sessionItems_pulls (by decide) (by decide) (by decide)).toOwnItems
    apply (returnsIff_byAmfUeNgapId hlib.toDocumented hitems id env w).bind
    rintro dbPulls w' ⟨rfl, hsame, u, hknown⟩
    apply returnsIff_pulled hknown (List.mem_of_elem_eq_true rfl)
    intro opc _
    apply returnsIff_pulled hknown (List.mem_of_elem_eq_true rfl)
    intro key _
    apply returnsIff_pulled hknown (List.mem_of_elem_eq_true rfl)
    intro rand _
    apply returnsIff_pulled hknown (List.mem_of_elem_eq_true rfl)
    intro knh1 hknh1
    have hlast : failurePulls = [.rand, .key, .opc] ++ [.knh1] := rfl
    cases (hknown.knh1_eq env rfl hlast).symm.trans hknh1
    apply Prog.ReturnsIff.congr
    · apply Prog.ReturnsIff.require_bind (C := fun _ => True)
      rintro ⟨autn, kamf⟩ _
      have hknown' : (w'.db.user? id.toUInt32).isSome = true := by
        rw [hsame _, hknown.user]
        rfl
      have hcall := returnsIff_byAmfUeNgapId hlib.toDocumented (sessionItems_kamf kamf).toOwnItems id
        env w'
      apply (hcall.congr (iff_true_intro hknown')).bind_of_returns
      rintro dbPulls w'' ⟨_, hsame', _⟩
      exact Prog.ReturnsIff.pure ⟨_, rfl, ⟨rfl, .single _ ⟨_, rfl, rfl⟩⟩, hsame.trans hsame'⟩
    · simp only [and_true, ← Option.isSome_iff_exists, hknown.user, Option.some.injEq, forall_eq']
      exact nas5gsGenerateKeys_isSome_iff hlib
  · refine exists_congr fun id => ?_
    cases w.db.user? id.toUInt32 with
    | none => simp
    | some u => simp

theorem returnsIff_securityModeComplete (hlib : lib.Dependable) (imeisv : Option MobileIdentity) :
    (nasHandleSecurityModeComplete lib true imeisv ctx).ReturnsIff (World.serve env) w
      (KnownUe w ctx.params.amfUeNgapId)
      fun x w' => ∃ ctx', x = some ctx' ∧ (ctx'.params = { ctx.params with
            maskedImeisv := (UeMessage.gmm (.securityModeComplete true imeisv)).maskedAfter lib
              ctx.params.maskedImeisv } ∧
          HoldsAnswer MessageSlot ctx'.response (some true)) ∧ SameKeys w w' := by
  unfold nasHandleSecurityModeComplete
  rw [if_neg (by simp)]
  apply Prog.ReturnsIff.require_bind
  intro id _
  have hitems : OwnItems [] [.tmsi] :=
    (sessionItems_pulls (by decide) (by decide) (by decide)).toOwnItems
  apply Prog.ReturnsIff.congr
  · apply (returnsIff_byAmfUeNgapId hlib.toDocumented hitems id env w).bind
    rintro dbPulls w' ⟨rfl, hsame, u, hknown⟩
    apply returnsIff_pulled hknown List.mem_cons_self
    intro tmsi _
    refine Prog.ReturnsIff.pure ⟨_, rfl, ⟨?_, .single _ ⟨_, rfl, rfl⟩⟩, hsame⟩
    cases imeisv <;> rfl
  · simp

theorem returnsIff_pduSessionEstablishmentRequest (hlib : lib.Dependable) (pduSessionType : UInt8) :
    (nasHandlePduSessionEstablishmentRequest lib pduSessionType ctx).ReturnsIff (World.serve env) w
      (pduSessionType = 1 ∧ KnownUe w ctx.params.amfUeNgapId)
      fun x w' => ∃ ctx', x = some ctx' ∧ (ctx'.params = ctx.params ∧
        HoldsAnswer MessageSlot ctx'.response (some false)) ∧ SameKeys w w' := by
  rw [nasHandlePduSessionEstablishmentRequest]
  apply Prog.ReturnsIff.assert_bind
  intro _
  apply Prog.ReturnsIff.require_bind
  intro id _
  rw [nasPduSessionEstablishmentFetchPduIp, Prog.bind_assoc]
  have hitems : OwnItems [] [.pdnIp] :=
    (sessionItems_pulls (by decide) (by decide) (by decide)).toOwnItems
  apply Prog.ReturnsIff.congr
  · apply (returnsIff_byAmfUeNgapId hlib.toDocumented hitems id env w).bind
    rintro dbPulls w' ⟨rfl, hsame, u, hknown⟩
    rw [Prog.bind_assoc]
    apply returnsIff_pulled hknown List.mem_cons_self
    intro pdnIp _
    exact Prog.ReturnsIff.pure ⟨_, rfl, ⟨rfl, .single _ ⟨_, rfl, rfl⟩⟩, hsame⟩
  · simp

theorem returnsIff_deregistrationRequest (type : DeRegistrationType) :
    (nasHandleDeregistrationRequestFromUe type ctx).ReturnsIff (World.serve env) w
      (type.accessType = nasSecurityAccessType3gpp ∧ type.reRegistrationRequired = false)
      fun x w' => ∃ ctx', x = some ctx' ∧ (ctx'.params = ctx.params ∧
        HoldsAnswer MessageSlot ctx'.response (if type.switchOff then none else some true)) ∧
          SameKeys w w' := by
  rw [nasHandleDeregistrationRequestFromUe]
  apply Prog.ReturnsIff.congr
  · apply Prog.ReturnsIff.assert_bind
    intro _
    apply Prog.ReturnsIff.assert_bind (C := True)
    intro _
    split
    · exact .pure ⟨_, rfl, ⟨rfl, rfl⟩, .refl w⟩
    · exact .pure ⟨_, rfl, ⟨rfl, .single _ ⟨_, rfl, rfl⟩⟩, .refl w⟩
  · simp

def UeMessage.paramsAfter (lib : Ogs) (w : World) (m : UeMessage) (params : NasNgapParams) :
    NasNgapParams :=
  { params with
    nasMessageType := m.messageType
    amfUeNgapId := m.amfAfter lib w params.amfUeNgapId
    maskedImeisv := m.maskedAfter lib params.maskedImeisv }

structure UeMessage.Leaves (lib : Ogs) (w : World) (m : UeMessage) (ctx ctx' : Context)
    (w' : World) : Prop where
  params : ctx'.params = m.paramsAfter lib w ctx.params
  answer : HoldsAnswer MessageSlot ctx'.response m.answer
  users : SameKeys w w'

theorem returnsIff_leaves {m : UeMessage} {p : Processing (Option Context)} {C : Prop}
    {params : NasNgapParams} {answer : Option Bool}
    (h : p.ReturnsIff (World.serve env) w C fun x w' => ∃ ctx', x = some ctx' ∧
      (ctx'.params = params ∧ HoldsAnswer MessageSlot ctx'.response answer) ∧ SameKeys w w')
    (hC : C ↔ m.Accepted lib env w ctx.params.amfUeNgapId)
    (hparams : params = m.paramsAfter lib w ctx.params) (hanswer : answer = m.answer) :
    (p >>= Prog.require).ReturnsIff (World.serve env) w
      (m.Accepted lib env w ctx.params.amfUeNgapId) (m.Leaves lib w ctx) := by
  subst hparams hanswer
  exact ((returnsIff_handled h).mono fun _ _ h => ⟨h.1.1, h.1.2, h.2⟩).congr hC

theorem returnsIff_nas5gmmHandler (hlib : lib.Dependable) {n : Nat} {inner : InnerHandler n}
    {m : GmmMessage} {within : m.Within n} (hpass : ∀ nasPdu, ¬ (UeMessage.gmm m).PassesOn nasPdu)
    (hfresh : ctx.response.numResponses = 0) (hran : ctx.params.ranUeNgapId.isSome) :
    (nas5gmmHandler lib inner m within ctx >>= Prog.require).ReturnsIff (World.serve env) w
      ((UeMessage.gmm m).Accepted lib env w ctx.params.amfUeNgapId)
      ((UeMessage.gmm m).Leaves lib w ctx) := by
  cases m with
  | registrationRequest mobileIdentity =>
      exact returnsIff_leaves (returnsIff_registrationRequest hlib hran) Iff.rfl rfl rfl
  | registrationComplete =>
      have hhandler : (pure (some (ctx.withMessageType 67)) : Processing (Option Context)).ReturnsIff
          (World.serve env) w True fun x w' => ∃ ctx', x = some ctx' ∧
            (ctx'.params = (ctx.withMessageType 67).params ∧
              HoldsAnswer MessageSlot ctx'.response none) ∧ SameKeys w w' :=
        .pure ⟨_, rfl, ⟨rfl, hfresh⟩, .refl w⟩
      exact returnsIff_leaves hhandler Iff.rfl rfl rfl
  | deregistrationRequestFromUe type =>
      exact returnsIff_leaves (returnsIff_deregistrationRequest type) Iff.rfl rfl rfl
  | authenticationResponse =>
      have hhandler : (pure (nasHandleAuthenticationResponse (ctx.withMessageType 87)) :
          Processing (Option Context)).ReturnsIff (World.serve env) w True
            fun x w' => ∃ ctx', x = some ctx' ∧ (ctx'.params = (ctx.withMessageType 87).params ∧
              HoldsAnswer MessageSlot ctx'.response (some true)) ∧ SameKeys w w' :=
        .pure ⟨_, rfl, ⟨rfl, .single _ ⟨_, rfl, rfl⟩⟩, .refl w⟩
      exact returnsIff_leaves hhandler Iff.rfl rfl rfl
  | authenticationFailure gmmCause auts =>
      exact returnsIff_leaves (returnsIff_authenticationFailure hlib gmmCause auts) Iff.rfl rfl rfl
  | securityModeComplete nasMessageContainer imeisv =>
      cases nasMessageContainer with
      | false => exact returnsIff_unhandled.congr (by simp [UeMessage.Accepted])
      | true =>
          refine returnsIff_leaves (returnsIff_securityModeComplete hlib imeisv) ?_ rfl rfl
          exact (and_iff_right rfl).symm
  | ulNasTransport payloadContainerType payloadContainer pduSessionId =>
      simp only [nas5gmmHandler, nasHandleUlNasTransport, Prog.bind_assoc]
      apply Prog.ReturnsIff.congr
      · apply Prog.ReturnsIff.assert_bind
        intro _
        apply Prog.ReturnsIff.assert_bind
        intro hlen
        apply Prog.ReturnsIff.require_bind (C := fun id => id ≠ 0 ∧ False)
        intro id hid
        apply Prog.ReturnsIff.assert_bind
        intro hne
        split
        · next htype =>
          subst htype hid
          exact absurd (.container (by simpa using hlen) hne rfl) (hpass _)
        · exact returnsIff_unhandled
      · simp [UeMessage.Accepted]
  | other messageType unhandled => exact returnsIff_unhandled

theorem returnsIff_nasDispatch (hlib : lib.Dependable) {n : Nat} {inner : InnerHandler n}
    {message : NasUplink n} (hpass : ∀ nasPdu, ¬ message.ueMessage.PassesOn nasPdu)
    (hfresh : ctx.response.numResponses = 0) (hran : ctx.params.ranUeNgapId.isSome) :
    (nasDispatch lib inner message ctx >>= Prog.require).ReturnsIff (World.serve env) w
      (message.ueMessage.Accepted lib env w ctx.params.amfUeNgapId)
      (message.ueMessage.Leaves lib w ctx) := by
  cases message with
  | gmm m within => exact returnsIff_nas5gmmHandler hlib hpass hfresh hran
  | gsm m =>
      cases m with
      | pduSessionEstablishmentRequest pduSessionType =>
          exact returnsIff_leaves (returnsIff_pduSessionEstablishmentRequest hlib pduSessionType)
            Iff.rfl rfl rfl
      | other messageType unhandled => exact returnsIff_unhandled

/-- The PDU in a container has to be answered, and its answer is put into a protected message. -/
theorem returnsIff_ulNasTransport {n : Nat} (inner : InnerHandler n) {payloadContainer : List UInt8}
    {pduSessionId : UInt8} (within : payloadContainer.length < n) {C : Prop}
    {post : Context → World → Prop} {answer : Option Bool} (hsome : payloadContainer ≠ [])
    (hid : pduSessionId ≠ 0)
    (hinner : ∀ h, (inner (payloadContainer.take (payloadContainer.length % 256)) h ctx).ReturnsIff
      (World.serve env) w C post)
    (hanswer : ∀ ctx' w', post ctx' w' → HoldsAnswer BufferSlot ctx'.response answer) :
    (nasHandleUlNasTransport inner 1 payloadContainer (some pduSessionId) within ctx).ReturnsIff
      (World.serve env) w (C ∧ answer.isSome) fun x w' => ∃ ctx', x = some ctx' ∧
        answer.isSome ∧ ∃ ctx'' m, post ctx'' w' ∧
          integrityProtected m.securityHeaderType = some true ∧
          ctx' = { ctx'' with response := ctx''.response.single (.nasMessage m) } := by
  rw [nasHandleUlNasTransport]
  apply Prog.ReturnsIff.congr
  · apply Prog.ReturnsIff.assert_bind
    intro _
    apply Prog.ReturnsIff.assert_bind
    intro _
    rw [Prog.require_some_bind]
    apply Prog.ReturnsIff.assert_bind
    intro _
    rw [if_pos rfl]
    apply (hinner _).bind (D := answer.isSome = true)
    intro ctx' w' hpost
    have hslot := hanswer ctx' w' hpost
    cases answer with
    | none =>
        have hnone : ctx'.response.numResponses = 0 := hslot
        rw [hnone]
        exact Prog.ReturnsIff.abort.congr (by simp)
    | some protects =>
        obtain ⟨hone, bytes, hbytes⟩ := hslot
        rw [hone, hbytes]
        refine (Prog.ReturnsIff.assert_bind fun _ => ?_).congr (and_iff_right rfl)
        apply returnsIff_consume (a := bytes) rfl
        refine (Prog.ReturnsIff.pure ?_).congr (by simp)
        exact ⟨_, rfl, rfl, ctx', _, hpost, rfl, rfl⟩
  · simp [hsome, hid]

/-- The message that a PDU comes to: at which level it is, and whether a code is calculated on the
way. -/
inductive Carries (lib : Ogs) (env : Env) : List UInt8 → Bool → Bool → UeMessage → Prop
  | here {nasPdu : List UInt8} {m : UeMessage} (hopened : (nasbufOf env nasPdu).opened lib = some m)
      (hlast : ∀ inner, ¬ m.PassesOn inner) :
      Carries lib env nasPdu false (nasbufOf env nasPdu).needsKey m
  | inside {nasPdu inner : List UInt8} {nested protects : Bool} {outer m : UeMessage}
      (hopened : (nasbufOf env nasPdu).opened lib = some outer) (hpasses : outer.PassesOn inner)
      (hinner : Carries lib env inner nested protects m) :
      Carries lib env nasPdu true ((nasbufOf env nasPdu).needsKey || protects) m

/-- The keys are there or can be fetched where they are needed, the message is as its handler
expects it, and it has an answer where one is waited for. -/
structure UeMessage.Survived (lib : Ogs) (env : Env) (w : World) (amfUeNgapId : Option UInt64)
    (keyed nested protects : Bool) (m : UeMessage) : Prop where
  opens : protects = true → keyed = true ∨ KnownUe w amfUeNgapId
  accepted : m.Accepted lib env w amfUeNgapId
  answered : nested = true → m.answer.isSome
  sealed : nested = true ∨ m.answer = some true → keyed = true ∨ protects = true ∨
    Fetchable lib env w downlinkPulls (m.amfAfter lib w amfUeNgapId)

structure UeMessage.Handled (lib : Ogs) (w : World) (keyed nested protects : Bool) (m : UeMessage)
    (ctx ctx' : Context) (w' : World) : Prop where
  keys : ctx'.params.HasKeys (keyed || protects || nested || m.answer == some true)
  amfUeNgapId : ctx'.params.amfUeNgapId = m.amfAfter lib w ctx.params.amfUeNgapId
  messageType : ctx'.params.nasMessageType = m.messageType
  maskedImeisv : ctx'.params.maskedImeisv = m.maskedAfter lib ctx.params.maskedImeisv
  answer : HoldsAnswer BufferSlot ctx'.response m.answer
  users : SameKeys w w'

theorem nasHandlerEntrypoint_eq (lib : Ogs) (nasPdu : List UInt8) (ctx : Context) :
    nasHandlerEntrypoint lib nasPdu ctx =
      (nasBytesToMessage lib ctx.params.allocSecurityParams nasPdu >>= Prog.require) >>= fun r =>
        (nasDispatch lib (fun inner _ ctx => nasHandlerEntrypoint lib inner ctx) r.2
          ⟨r.1, ctx.response⟩ >>= Prog.require) >>= nasMessageToBytes lib := by
  rw [nasHandlerEntrypoint, nasHandlerWith]
  simp only [Prog.bind_assoc]

def Context.withKeys (ctx : Context) (securityParams : Option NasSecurityParams) : Context :=
  { ctx with params := { ctx.params with nasSecurityParams := securityParams } }

theorem returnsIff_opened (hlib : lib.Dependable) {nasPdu : List UInt8} {m : UeMessage} {keyed : Bool}
    (hopened : (nasbufOf env nasPdu).opened lib = some m)
    (hkeys : ctx.params.allocSecurityParams.HasKeys keyed) {D : Prop} {post : Context → World → Prop}
    (hdispatch : ∀ (sp : Option NasSecurityParams) (message : NasUplink nasPdu.length) (w' : World),
      (ctx.withKeys sp).params.HasKeys (keyed || (nasbufOf env nasPdu).needsKey) →
      message.ueMessage = m → SameIdentities w w' →
      ((nasDispatch lib (fun inner _ ctx => nasHandlerEntrypoint lib inner ctx) message
        (ctx.withKeys sp) >>= Prog.require) >>= nasMessageToBytes lib).ReturnsIff (World.serve env)
          w' D post) :
    (nasHandlerEntrypoint lib nasPdu ctx).ReturnsIff (World.serve env) w
      (((nasbufOf env nasPdu).needsKey = true →
        keyed = true ∨ KnownUe w ctx.params.amfUeNgapId) ∧ D) post := by
  have hopen : (nasBytesToMessage lib ctx.params.allocSecurityParams nasPdu >>=
      Prog.require).ReturnsIff (World.serve env) w _ _ :=
    returnsIff_nasBytesToMessage hlib.toDocumented hkeys nasPdu
  rw [nasHandlerEntrypoint_eq]
  refine (hopen.bind fun r w' h => ?_).congr (and_congr_left' ?_)
  · obtain ⟨params, message⟩ := r
    obtain ⟨⟨⟨sp, hrekeyed⟩, hhas⟩, hmessage, hsame⟩ := h
    simp only at hrekeyed hhas hmessage ⊢
    subst hrekeyed
    exact hdispatch sp message w' hhas (Option.some.inj (hmessage.symm.trans hopened)) hsame
  · rw [hopened]
    exact and_iff_right rfl

theorem returnsIff_encoded (hlib : lib.Dependable) {p : Processing Context} {C : Prop} {keyed : Bool}
    {answer : Option Bool} {amfUeNgapId : Option UInt64} {mid : Context → World → Prop}
    (hp : p.ReturnsIff (World.serve env) w C mid)
    (hmid : ∀ ctx' w', mid ctx' w' → ctx'.params.HasKeys keyed ∧
      ctx'.params.amfUeNgapId = amfUeNgapId ∧ HoldsAnswer MessageSlot ctx'.response answer ∧
      SameKeys w w') :
    (p >>= nasMessageToBytes lib).ReturnsIff (World.serve env) w
      (C ∧ (answer = some true → keyed = true ∨ Fetchable lib env w downlinkPulls amfUeNgapId))
      fun ctx' w' => ∃ ctx'' w'', mid ctx'' w'' ∧
        WithKeys ctx''.params ctx'.params (keyed || answer == some true) ∧
        HoldsAnswer BufferSlot ctx'.response answer ∧ SameKeys w w' := by
  apply hp.bind
  intro ctx' w' h
  obtain ⟨hkeys, rfl, hanswer, hsame⟩ := hmid ctx' w' h
  refine ((returnsIff_nasMessageToBytes hlib hanswer hkeys).mono ?_).congr ?_
  · rintro ctx'' w'' ⟨hkeyed, hbuffer, hsame'⟩
    exact ⟨ctx', w', h, hkeyed, hbuffer, hsame.trans hsame'.sameKeys⟩
  · rw [hsame.fetchable]

theorem returnsIff_here (hlib : lib.Dependable) {nasPdu : List UInt8} {m : UeMessage} {keyed : Bool}
    (hopened : (nasbufOf env nasPdu).opened lib = some m) (hlast : ∀ inner, ¬ m.PassesOn inner)
    (hfresh : ctx.response.numResponses = 0) (hran : ctx.params.ranUeNgapId.isSome)
    (hkeys : ctx.params.allocSecurityParams.HasKeys keyed) :
    (nasHandlerEntrypoint lib nasPdu ctx).ReturnsIff (World.serve env) w
      (m.Survived lib env w ctx.params.amfUeNgapId keyed false (nasbufOf env nasPdu).needsKey)
      (m.Handled lib w keyed false (nasbufOf env nasPdu).needsKey ctx) := by
  refine (returnsIff_opened hlib hopened hkeys (D := m.Accepted lib env w ctx.params.amfUeNgapId ∧
    (m.answer = some true → (keyed || (nasbufOf env nasPdu).needsKey) = true ∨
      Fetchable lib env w downlinkPulls (m.amfAfter lib w ctx.params.amfUeNgapId))) ?_).congr ?_
  · rintro sp message w' hhas rfl hsame
    have hhandler : (nasDispatch lib (fun inner _ ctx => nasHandlerEntrypoint lib inner ctx) message
        (ctx.withKeys sp) >>= Prog.require).ReturnsIff (World.serve env) w' _ _ :=
      returnsIff_nasDispatch hlib hlast hfresh hran
    have hleft : ∀ ctx' w'', message.ueMessage.Leaves lib w' (ctx.withKeys sp) ctx' w'' →
        ctx'.params.HasKeys (keyed || (nasbufOf env nasPdu).needsKey) ∧
          ctx'.params.amfUeNgapId =
            message.ueMessage.amfAfter lib w ctx.params.amfUeNgapId ∧
          HoldsAnswer MessageSlot ctx'.response message.ueMessage.answer ∧ SameKeys w' w'' := by
      intro ctx' w'' hleaves
      rw [hleaves.params]
      exact ⟨hhas, hsame.sameIds.amfAfter _ _, hleaves.answer, hleaves.users⟩
    refine ((returnsIff_encoded hlib hhandler hleft).mono ?_).congr ?_
    · rintro ctx'' _ ⟨ctx', w'', hleaves, ⟨hrekeyed, hhas'⟩, hbuffer, hsame'⟩
      obtain ⟨sp', hrekeyed⟩ := hrekeyed
      rw [hleaves.params] at hrekeyed
      refine ⟨by simpa using hhas', ?_, ?_, ?_, hbuffer, hsame.sameKeys.trans hsame'⟩
      · rw [hrekeyed]
        exact hsame.sameIds.amfAfter _ _
      · rw [hrekeyed]
        rfl
      · rw [hrekeyed]
        rfl
    · rw [hsame.sameKeys.fetchable]
      exact and_congr_left' (hsame.accepted _ _)
  · constructor
    · rintro ⟨hopens, haccepted, hsealed⟩
      exact ⟨hopens, haccepted, by simp, by simpa [or_assoc] using hsealed⟩
    · rintro ⟨hopens, haccepted, _, hsealed⟩
      exact ⟨hopens, haccepted, by simpa [or_assoc] using hsealed⟩

theorem UeMessage.survived_iff {m : UeMessage} {amfUeNgapId : Option UInt64}
    {keyed nested protects : Bool} : m.Survived lib env w amfUeNgapId keyed nested protects ↔
      (protects = true → keyed = true ∨ KnownUe w amfUeNgapId) ∧
        m.Accepted lib env w amfUeNgapId ∧ (nested = true → m.answer.isSome) ∧
        (nested = true ∨ m.answer = some true → keyed = true ∨ protects = true ∨
          Fetchable lib env w downlinkPulls (m.amfAfter lib w amfUeNgapId)) :=
  ⟨fun h => ⟨h.opens, h.accepted, h.answered, h.sealed⟩,
    fun h => ⟨h.1, h.2.1, h.2.2.1, h.2.2.2⟩⟩

theorem SameIdentities.survived (h : SameIdentities w w') {m : UeMessage}
    {amfUeNgapId : Option UInt64} {keyed nested protects : Bool} :
    m.Survived lib env w' amfUeNgapId keyed nested protects ↔
      m.Survived lib env w amfUeNgapId keyed nested protects := by
  rw [UeMessage.survived_iff, UeMessage.survived_iff, h.sameKeys.knownUe, h.accepted,
    h.sameKeys.fetchable, h.sameIds.amfAfter]

theorem SameIds.survived (h : SameIds w w') {m : UeMessage} (hm : ¬ m.IsAuthenticationFailure)
    {amfUeNgapId : Option UInt64} {keyed nested protects : Bool} :
    m.Survived lib env w' amfUeNgapId keyed nested protects ↔
      m.Survived lib env w amfUeNgapId keyed nested protects := by
  rw [UeMessage.survived_iff, UeMessage.survived_iff, h.sameKeys.knownUe, h.sameKeys.accepted hm,
    h.sameKeys.fetchable, h.amfAfter]

/-- The levels around a message want the keys to be there once, and the message to be answered. -/
theorem UeMessage.survived_inside {m : UeMessage} {amfUeNgapId : Option UInt64}
    {keyed needsKey protects : Bool} (nested : Bool) :
    (needsKey = true → keyed = true ∨ KnownUe w amfUeNgapId) ∧
        (m.Survived lib env w amfUeNgapId (keyed || needsKey) nested protects ∧ m.answer.isSome) ∧
        (some true = some true →
          (keyed || needsKey || protects || nested || m.answer == some true) = true ∨
            Fetchable lib env w downlinkPulls (m.amfAfter lib w amfUeNgapId)) ↔
      m.Survived lib env w amfUeNgapId keyed true (needsKey || protects) := by
  constructor
  · rintro ⟨hopens, ⟨hinner, hanswered⟩, hsealed⟩
    have hinnerOpens := hinner.opens
    have hinnerSealed := hinner.sealed
    simp only [Bool.or_eq_true, beq_iff_eq, forall_const] at hinnerOpens hinnerSealed hsealed
    refine ⟨?_, hinner.accepted, fun _ => hanswered, ?_⟩ <;> grind
  · rintro ⟨hopens, haccepted, hanswered, hsealed⟩
    refine ⟨?_, ⟨⟨?_, haccepted, ?_, ?_⟩, hanswered rfl⟩, ?_⟩ <;> grind

theorem NasNgapParams.HasKeys.alloc {params : NasNgapParams} {keyed : Bool}
    (h : params.HasKeys keyed) : params.allocSecurityParams.HasKeys keyed := by
  obtain ⟨sp, hsp, hkeys⟩ := h
  exact ⟨sp, by rw [NasNgapParams.allocSecurityParams, hsp]; rfl, hkeys⟩

/-- `nas_handler_entrypoint` returns for a PDU that comes to a message if and only if the message
is survived. -/
theorem returnsIff_carries (hlib : lib.Dependable) {nasPdu : List UInt8} {nested protects : Bool}
    {m : UeMessage} (h : Carries lib env nasPdu nested protects m) {keyed : Bool}
    (hfresh : ctx.response.numResponses = 0) (hran : ctx.params.ranUeNgapId.isSome)
    (hkeys : ctx.params.allocSecurityParams.HasKeys keyed) :
    (nasHandlerEntrypoint lib nasPdu ctx).ReturnsIff (World.serve env) w
      (m.Survived lib env w ctx.params.amfUeNgapId keyed nested protects)
      (m.Handled lib w keyed nested protects ctx) := by
  induction h generalizing ctx w keyed with
  | here hopened hlast => exact returnsIff_here hlib hopened hlast hfresh hran hkeys
  | @inside nasPdu inner nested protects outer m hopened hpasses _ ih =>
      refine (returnsIff_opened hlib hopened hkeys ?_).congr (UeMessage.survived_inside nested)
      intro sp message w' hhas hmessage hsame
      cases hpasses with
      | @container payloadContainer pduSessionId hsome hid hinner =>
      subst hinner
      cases message with
      | gsm m => cases hmessage
      | gmm m' within =>
      cases hmessage
      have hnested : (nasHandlerEntrypoint lib (payloadContainer.take (payloadContainer.length % 256))
          ((ctx.withKeys sp).withMessageType 103)).ReturnsIff (World.serve env) w' _ _ :=
        ih hfresh hran hhas.alloc
      have hhandler := returnsIff_handled (returnsIff_ulNasTransport
        (fun inner _ ctx => nasHandlerEntrypoint lib inner ctx) within hsome hid (fun _ => hnested)
        fun _ _ hhandled => hhandled.answer)
      have hleft : ∀ ctx' w'', (m.answer.isSome ∧ ∃ ctx'' nm,
          m.Handled lib w' (keyed || (nasbufOf env nasPdu).needsKey) nested protects
              ((ctx.withKeys sp).withMessageType 103) ctx'' w'' ∧
            integrityProtected nm.securityHeaderType = some true ∧
            ctx' = { ctx'' with response := ctx''.response.single (.nasMessage nm) }) →
          ctx'.params.HasKeys (keyed || (nasbufOf env nasPdu).needsKey || protects || nested ||
            m.answer == some true) ∧
          ctx'.params.amfUeNgapId = m.amfAfter lib w ctx.params.amfUeNgapId ∧
          HoldsAnswer MessageSlot ctx'.response (some true) ∧ SameKeys w' w'' := by
        rintro _ w'' ⟨_, ctx'', nm, hhandled, hprotects, rfl⟩
        refine ⟨hhandled.keys, ?_, .single _ ⟨nm, rfl, hprotects⟩, hhandled.users⟩
        exact hhandled.amfUeNgapId.trans (hsame.sameIds.amfAfter _ _)
      refine ((returnsIff_encoded hlib hhandler hleft).mono ?_).congr ?_
      · rintro ctx₃ _ ⟨_, w'', ⟨hsome, ctx'', nm, hhandled, _, rfl⟩, ⟨⟨sp', hrekeyed⟩, hhas'⟩,
          hbuffer, hsame'⟩
        obtain ⟨protects', hanswer⟩ := Option.isSome_iff_exists.mp hsome
        refine ⟨by simpa using hhas', ?_, ?_, ?_, ?_, hsame.sameKeys.trans hsame'⟩
        · rw [hrekeyed]
          exact hhandled.amfUeNgapId.trans (hsame.sameIds.amfAfter _ _)
        · rw [hrekeyed]
          exact hhandled.messageType
        · rw [hrekeyed]
          exact hhandled.maskedImeisv
        · rw [hanswer]
          exact hbuffer
      · rw [hsame.sameKeys.fetchable]
        exact and_congr_left' (and_congr_left' hsame.survived)

theorem returnsIff_not_carries (hlib : lib.Dependable) {nasPdu : List UInt8} {keyed : Bool}
    (hno : ∀ nested protects m, ¬ Carries lib env nasPdu nested protects m)
    (hkeys : ctx.params.allocSecurityParams.HasKeys keyed) :
    (nasHandlerEntrypoint lib nasPdu ctx).ReturnsIff (World.serve env) w False fun _ _ => False := by
  induction hlen : nasPdu.length using Nat.strong_induction_on generalizing nasPdu ctx w keyed with
  | h n ih =>
      cases hopened : (nasbufOf env nasPdu).opened lib with
      | none =>
          have hopen : (nasBytesToMessage lib ctx.params.allocSecurityParams nasPdu >>=
              Prog.require).ReturnsIff (World.serve env) w _ _ :=
            returnsIff_nasBytesToMessage hlib.toDocumented hkeys nasPdu
          rw [nasHandlerEntrypoint_eq]
          rw [hopened] at hopen
          refine (hopen.bind (D := False) ?_).congr (by simp)
          rintro r w' ⟨_, hmessage, _⟩
          cases hmessage
      | some outer =>
          by_cases hpasses : ∃ inner, outer.PassesOn inner
          · obtain ⟨inner, hpasses⟩ := hpasses
            refine (returnsIff_opened hlib hopened hkeys (D := False) ?_).congr (by simp)
            intro sp message w' hhas hmessage _
            cases hpasses with
            | @container payloadContainer pduSessionId hsome hid hinner =>
            subst hinner
            cases message with
            | gsm m => cases hmessage
            | gmm m' within =>
            cases hmessage
            have hshort : (payloadContainer.take (payloadContainer.length % 256)).length < n :=
              hlen ▸ Nat.lt_of_le_of_lt (List.length_take_le' _ _) within
            have hnested : (nasHandlerEntrypoint lib
                (payloadContainer.take (payloadContainer.length % 256))
                ((ctx.withKeys sp).withMessageType 103)).ReturnsIff (World.serve env) w' _ _ :=
              ih _ hshort (fun nested protects m h => hno _ _ m
                (.inside hopened (.container hsome hid rfl) h)) hhas.alloc rfl
            have hnever : ∀ (ctx' : Context) (w'' : World), False →
                HoldsAnswer BufferSlot ctx'.response none :=
              fun _ _ h => h.elim
            have hhandler := returnsIff_handled (returnsIff_ulNasTransport
              (fun inner _ ctx => nasHandlerEntrypoint lib inner ctx) within hsome hid
              (fun _ => hnested) hnever)
            refine (hhandler.bind (D := False) ?_).congr (by simp)
            rintro ctx' w'' ⟨hnone, _⟩
            cases hnone
          · exact absurd (.here hopened fun inner h => hpasses ⟨inner, h⟩) (hno _ _ _)

/-- What follows the entry point, for each message that the PDU may come to. -/
theorem returnsIff_nasHandlerEntrypoint_bind (hlib : lib.Dependable) {α : Type}
    {nasPdu : List UInt8} {keyed : Bool} {f : Context → Processing α}
    {C : Bool × Bool × UeMessage → Prop} {post : α → World → Prop}
    (hfresh : ctx.response.numResponses = 0) (hran : ctx.params.ranUeNgapId.isSome)
    (hkeys : ctx.params.allocSecurityParams.HasKeys keyed)
    (hf : ∀ nested protects m ctx' w', m.Survived lib env w ctx.params.amfUeNgapId keyed nested protects →
      m.Handled lib w keyed nested protects ctx ctx' w' →
        (f ctx').ReturnsIff (World.serve env) w' (C (nested, protects, m)) post) :
    (nasHandlerEntrypoint lib nasPdu ctx >>= f).ReturnsIff (World.serve env) w
      (∃ i : Bool × Bool × UeMessage, Carries lib env nasPdu i.1 i.2.1 i.2.2 ∧
        i.2.2.Survived lib env w ctx.params.amfUeNgapId keyed i.1 i.2.1 ∧ C i) post := by
  apply Prog.ReturnsIff.of_cases
  · rintro ⟨nested, protects, m⟩ hcarries
    exact (returnsIff_carries hlib hcarries hfresh hran hkeys).and_condition.bind
      fun ctx' w' h => hf nested protects m ctx' w' h.2 h.1
  · intro hno
    have hentry : (nasHandlerEntrypoint lib nasPdu ctx).ReturnsIff (World.serve env) w _ _ :=
      returnsIff_not_carries hlib (fun nested protects m h => hno (nested, protects, m) h) hkeys
    exact (hentry.bind (D := False) fun _ _ h => h.elim).congr (by simp)

end

end PublicCloudCore.Worker
