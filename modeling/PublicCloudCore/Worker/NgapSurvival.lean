import PublicCloudCore.Worker.NasSurvival

/-!
# NGAP messages that the worker survives

The handlers of `ngap_handler.c`, message by message: where they return, and that what they hand
over can be encoded. An Initial UE Message is survived with a Registration Request only.
-/

namespace PublicCloudCore.Worker

open Framework CorekubeDb Libck

/-- `AMF-UE-NGAP-ID` has 40 bits, `RAN-UE-NGAP-ID` has 32. -/
def IdsInRange (amfUeNgapId ranUeNgapId : UInt64) : Prop :=
  amfUeNgapId.toNat < 2 ^ 40 ∧ ranUeNgapId.toNat < 2 ^ 32

def ProtocolIe.InRange : ProtocolIe → Prop
  | ranUeNgapId id => id.toNat < 2 ^ 32
  | amfUeNgapId id => id.toNat < 2 ^ 40
  | _ => True

/-- The information elements of a message with identifiers. -/
def NgapUplink.ies : NgapUplink → List ProtocolIe
  | .initiatingMessage (.initialUeMessage ies) => ies
  | .initiatingMessage (.uplinkNasTransport ies) => ies
  | .successfulOutcome (.pduSessionResourceSetupResponse ies) => ies
  | _ => []

def NgapMessage.InRange : NgapMessage → Prop
  | ngSetupResponse => True
  | downlinkNasTransport amfUeNgapId ranUeNgapId _ => IdsInRange amfUeNgapId ranUeNgapId
  | initialContextSetupRequest amfUeNgapId ranUeNgapId _ _ _ => IdsInRange amfUeNgapId ranUeNgapId
  | pduSessionResourceSetupRequest amfUeNgapId ranUeNgapId _ _ => IdsInRange amfUeNgapId ranUeNgapId
  | ueContextReleaseCommand amfUeNgapId ranUeNgapId => IdsInRange amfUeNgapId ranUeNgapId

def NgapSlot (x : Slot) : Prop := ∃ m, x = .ngapMessage m ∧ m.InRange

/-- The same of NGAP: what is decoded is in range, and what is in range is encoded and fits a
datagram. -/
structure Ogs.NgapDependable (lib : Ogs) : Prop extends lib.Dependable where
  decode : ∀ bytes m, lib.ngapDecode bytes = some m → ∀ ie ∈ m.ies, ie.InRange
  encode : ∀ m, m.InRange → ∃ bytes, lib.ngapEncode m = some bytes ∧ bytes.length ≤ 8192
  transferEncode : ∀ spgwIp epcTeid, (lib.requestTransferEncode spgwIp epcTeid).isSome

theorem ProtocolIe.mem_of_find {α : Type} {kind : ProtocolIe → Option α} {ies : List ProtocolIe}
    {a : α} (h : find kind ies = some a) : ∃ ie ∈ ies, kind ie = some a :=
  List.mem_filterMap.mp (List.mem_of_getLast? h)

theorem ProtocolIe.ranUeNgapId_inRange {ies : List ProtocolIe} (hies : ∀ ie ∈ ies, ie.InRange)
    {id : UInt64} (h : find ranUeNgapId? ies = some id) : id.toNat < 2 ^ 32 := by
  obtain ⟨ie, hmem, hkind⟩ := mem_of_find h
  cases ie <;> cases hkind
  exact hies _ hmem

theorem ProtocolIe.amfUeNgapId_inRange {ies : List ProtocolIe} (hies : ∀ ie ∈ ies, ie.InRange)
    {id : UInt64} (h : find amfUeNgapId? ies = some id) : id.toNat < 2 ^ 40 := by
  obtain ⟨ie, hmem, hkind⟩ := mem_of_find h
  cases ie <;> cases hkind
  exact hies _ hmem

theorem mmeUeS1apIdOf_inRange (u : UserInfo) : (mmeUeS1apIdOf u).toNat < 2 ^ 40 := by
  rw [mmeUeS1apIdOf, UInt32.toNat_toUInt64]
  exact Nat.lt_trans (arrayToUint32 _).toNat_lt (by decide)

section

variable {lib : Ogs} {env : Env} {w : World} {amfUeNgapId ranUeNgapId : UInt64} {x : Slot}

def IdsSet (amfUeNgapId ranUeNgapId : UInt64) : Prop := amfUeNgapId ≠ 0 ∧ ranUeNgapId ≠ 0

theorem returnsIff_downlinkNasTransport (hx : BufferSlot true x)
    (hrange : IdsInRange amfUeNgapId ranUeNgapId) :
    (ngapBuildDownlinkNasTransport amfUeNgapId ranUeNgapId x).ReturnsIff (World.serve env) w
      (IdsSet amfUeNgapId ranUeNgapId) fun m _ => m.InRange := by
  obtain ⟨bytes, rfl⟩ := hx
  rw [ngapBuildDownlinkNasTransport]
  apply Prog.ReturnsIff.assert_bind
  intro _
  apply Prog.ReturnsIff.congr
  · apply Prog.ReturnsIff.assert_bind
    intro _
    exact returnsIff_consume (a := bytes) rfl (.pure hrange)
  · exact and_iff_left trivial

theorem returnsIff_initialContextSetupRequest {kgnb maskedImeisv : List UInt8}
    (hx : BufferSlot true x) (hrange : IdsInRange amfUeNgapId ranUeNgapId) :
    (ngapBuildInitialContextSetupRequest amfUeNgapId ranUeNgapId kgnb maskedImeisv x).ReturnsIff
      (World.serve env) w (IdsSet amfUeNgapId ranUeNgapId) fun m _ => m.InRange := by
  obtain ⟨bytes, rfl⟩ := hx
  rw [ngapBuildInitialContextSetupRequest]
  apply Prog.ReturnsIff.assert_bind
  intro _
  apply Prog.ReturnsIff.congr
  · apply Prog.ReturnsIff.assert_bind
    intro _
    exact returnsIff_consume (a := bytes) rfl (.pure hrange)
  · exact and_iff_left trivial

theorem returnsIff_pduSessionResourceSetupRequest (hlib : lib.NgapDependable)
    (hx : BufferSlot true x) (hrange : IdsInRange amfUeNgapId ranUeNgapId)
    (hknown : (w.db.user? amfUeNgapId.toUInt32).isSome) :
    (ngapBuildPduSessionResourceSetupRequest lib amfUeNgapId ranUeNgapId x).ReturnsIff
      (World.serve env) w (IdsSet amfUeNgapId ranUeNgapId) fun m _ => m.InRange := by
  obtain ⟨bytes, rfl⟩ := hx
  rw [ngapBuildPduSessionResourceSetupRequest]
  apply Prog.ReturnsIff.assert_bind
  intro _
  apply Prog.ReturnsIff.congr
  · apply Prog.ReturnsIff.assert_bind
    intro _
    apply returnsIff_consume (a := bytes) rfl
    rw [nasBuildNgapPduSessionResourceSetupRequestTransfer, Prog.bind_assoc]
    have hitems : OwnItems [] [.epcTeid, .spgwIp] :=
      (sessionItems_pulls (by decide) (by decide) (by decide)).toOwnItems
    have hcall := returnsIff_byAmfUeNgapId hlib.toDocumented hitems amfUeNgapId env w
    apply (hcall.congr (iff_true_intro hknown)).bind_of_returns (D := True)
    rintro dbPulls w' ⟨rfl, _, u, hknown⟩
    rw [Prog.bind_assoc]
    apply returnsIff_pulled hknown (List.mem_of_elem_eq_true rfl)
    intro epcTeid _
    rw [Prog.bind_assoc]
    apply returnsIff_pulled hknown (List.mem_of_elem_eq_true rfl)
    intro spgwIp _
    obtain ⟨transfer, htransfer⟩ := Option.isSome_iff_exists.mp
      (hlib.transferEncode (spgwIp.read 0 4) (epcTeid.read 0 4))
    rw [Prog.pure_bind, htransfer]
    exact .pure hrange
  · exact and_iff_left trivial

end

/-- An Initial UE Message: a Registration Request of a subscriber, without any code to calculate
on the way. -/
inductive InitialUeServed (lib : Ogs) (env : Env) (w : World) (ies : List ProtocolIe) : Prop
  | intro {ranUeNgapId : UInt64} {nasPdu : List UInt8} {nested : Bool}
      {mobileIdentity : MobileIdentity} {u : UserInfo}
      (hran : ProtocolIe.find ProtocolIe.ranUeNgapId? ies = some ranUeNgapId)
      (hnr : ProtocolIe.find ProtocolIe.userLocationInformation? ies = some true)
      (hnasPdu : ProtocolIe.find ProtocolIe.nasPdu? ies = some nasPdu)
      (hcarries : Carries lib env nasPdu nested false (.gmm (.registrationRequest mobileIdentity)))
      (huser : mobileIdentity.user? lib w = some u) (hlength : mobileIdentity.length ≤ 14)
      (hkeys : KeysDerivable lib mobileIdentity) (hids : IdsSet (mmeUeS1apIdOf u) ranUeNgapId)
      (hsealed : nested = true → Fetchable lib env w downlinkPulls (some (mmeUeS1apIdOf u))) :
      InitialUeServed lib env w ies

def UeMessage.MasksImeisv : UeMessage → Prop
  | gmm (.securityModeComplete _ imeisv) => ∃ e, imeisv = some e ∧ e.buffer 0 &&& 7 = 5 ∧ e.length = 9
  | _ => True

/-- An Uplink NAS Transport: where there is an answer it goes to a UE with identifiers. -/
inductive UplinkServed (lib : Ogs) (env : Env) (w : World) (ies : List ProtocolIe) : Prop
  | intro {ranUeNgapId amfUeNgapId : UInt64} {nasPdu : List UInt8} {nested protects : Bool}
      {m : UeMessage} (hran : ProtocolIe.find ProtocolIe.ranUeNgapId? ies = some ranUeNgapId)
      (hamf : ProtocolIe.find ProtocolIe.amfUeNgapId? ies = some amfUeNgapId)
      (hnr : ProtocolIe.find ProtocolIe.userLocationInformation? ies = some true)
      (hnasPdu : ProtocolIe.find ProtocolIe.nasPdu? ies = some nasPdu)
      (hcarries : Carries lib env nasPdu nested protects m)
      (hsurvived : m.Survived lib env w (some amfUeNgapId) false nested protects)
      (hids : m.answer.isSome → ∀ id, m.amfAfter lib w (some amfUeNgapId) = some id →
        IdsSet id ranUeNgapId)
      (hmasks : m.MasksImeisv) : UplinkServed lib env w ies

/-- A PDU Session Resource Setup Response: each item has a tunnel over IPv4, for a UE that is
known. -/
inductive SetupResponseServed (lib : Ogs) (w : World) (ies : List ProtocolIe) : Prop
  | intro {amfUeNgapId : UInt64} {items : List (UInt8 × List UInt8)}
      (hamf : ProtocolIe.find ProtocolIe.amfUeNgapId? ies = some amfUeNgapId)
      (hitems : ProtocolIe.find ProtocolIe.pduSessionList? ies = some items)
      (hserved : ∀ item ∈ items, item.1 ≠ 0 ∧
        (∃ gtpTunnel, lib.responseTransferDecode item.2 = some (some gtpTunnel) ∧
          gtpTunnel.ipv4 = true) ∧ (w.db.user? amfUeNgapId.toUInt32).isSome) :
      SetupResponseServed lib w ies

def NgapUplink.Served (lib : Ogs) (env : Env) (w : World) : NgapUplink → Prop
  | .initiatingMessage (.ngSetupRequest ies) =>
      ProtocolIe.find ProtocolIe.globalRanNodeId? ies = some true ∧
        (ProtocolIe.find ProtocolIe.supportedTaList? ies).isSome
  | .initiatingMessage (.initialUeMessage ies) => InitialUeServed lib env w ies
  | .initiatingMessage (.uplinkNasTransport ies) => UplinkServed lib env w ies
  | .successfulOutcome .initialContextSetupResponse => True
  | .successfulOutcome (.pduSessionResourceSetupResponse ies) => SetupResponseServed lib w ies
  | .successfulOutcome .ueContextReleaseComplete => True
  | _ => False

section

variable {lib : Ogs} {env : Env} {w : World} {response : Response}

theorem hasKeys_start (ranUeNgapId : UInt64) (amfUeNgapId : Option UInt64) :
    (NasNgapParams.mk (some ranUeNgapId) amfUeNgapId 0 none none).allocSecurityParams.HasKeys false :=
  ⟨.calloc, rfl, rfl, rfl⟩

theorem UeMessage.amfAfter_inRange {m : UeMessage} {amfUeNgapId : Option UInt64} {id : UInt64}
    (h : ∀ id, amfUeNgapId = some id → id.toNat < 2 ^ 40)
    (hid : m.amfAfter lib w amfUeNgapId = some id) : id.toNat < 2 ^ 40 := by
  rcases m with m | m
  · cases m with
    | registrationRequest mobileIdentity =>
        obtain ⟨u, _, rfl⟩ := Option.map_eq_some_iff.mp hid
        exact mmeUeS1apIdOf_inRange u
    | _ => exact h id hid
  · exact h id hid

theorem UeMessage.amfAfter_none {m : UeMessage} {id : UInt64}
    (hid : m.amfAfter lib w none = some id) :
    ∃ mobileIdentity u, m = .gmm (.registrationRequest mobileIdentity) ∧
      mobileIdentity.user? lib w = some u ∧ mmeUeS1apIdOf u = id := by
  rcases m with m | m
  · cases m with
    | registrationRequest mobileIdentity =>
        obtain ⟨u, hu, rfl⟩ := Option.map_eq_some_iff.mp hid
        exact ⟨mobileIdentity, u, rfl, hu, rfl⟩
    | _ => cases hid
  · cases hid

theorem returnsIff_initialUeMessage (hlib : lib.NgapDependable) {ies : List ProtocolIe}
    (hies : ∀ ie ∈ ies, ie.InRange) (hfresh : response.numResponses = 0) :
    (ngapHandleInitialUeMessage lib ies response).ReturnsIff (World.serve env) w
      (InitialUeServed lib env w ies) fun r _ => Holds NgapSlot r := by
  rw [ngapHandleInitialUeMessage]
  apply Prog.ReturnsIff.congr
  · apply Prog.ReturnsIff.require_bind
    intro ranUeNgapId hran
    apply Prog.ReturnsIff.require_bind
    intro nr hnr
    apply Prog.ReturnsIff.assert_bind
    intro _
    apply Prog.ReturnsIff.require_bind
    intro nasPdu hnasPdu
    apply returnsIff_nasHandlerEntrypoint_bind hlib.toDependable hfresh rfl
      (hasKeys_start ranUeNgapId none) (C := fun i => i.2.2.answer.isSome ∧
        ∃ id, i.2.2.amfAfter lib w none = some id ∧ IdsSet id ranUeNgapId)
    intro nested protects m ctx w' hsurvived hhandled
    have hanswer := hhandled.answer
    cases hm : m.answer with
    | none =>
        rw [hm] at hanswer
        have hnone : ctx.response.numResponses = 0 := hanswer
        rw [hnone]
        exact Prog.ReturnsIff.abort.congr (by simp)
    | some protects' =>
        rw [hm] at hanswer
        obtain ⟨hone, hbuffer⟩ := hanswer
        rw [hone, hhandled.amfUeNgapId]
        refine (Prog.ReturnsIff.assert_bind fun _ => ?_).congr (and_congr_left' (by simp))
        apply Prog.ReturnsIff.require_bind
        intro id hid
        have hrange : IdsInRange id ranUeNgapId :=
          ⟨UeMessage.amfAfter_inRange (fun _ h => by cases h) hid, ProtocolIe.ranUeNgapId_inRange hies hran⟩
        apply Prog.ReturnsIff.congr
        · apply (returnsIff_downlinkNasTransport hbuffer hrange).bind
          intro message _ hmessage
          exact .pure (.single _ ⟨message, rfl, hmessage⟩)
        · exact and_iff_left trivial
  · constructor
    · rintro ⟨ranUeNgapId, hran, nr, hnr, rfl, nasPdu, hnasPdu, ⟨nested, protects, m⟩, hcarries,
        hsurvived, _, id, hid, hids⟩
      obtain ⟨mobileIdentity, u, rfl, huser, rfl⟩ := UeMessage.amfAfter_none hid
      obtain ⟨hopens, ⟨_, hlength, hkeys⟩, _, hsealed⟩ := hsurvived
      obtain rfl : protects = false := by
        rw [← Bool.not_eq_true]
        intro h
        rcases hopens h with hfalse | ⟨_, hnone, _⟩
        · cases hfalse
        · cases hnone
      refine .intro hran hnr hnasPdu hcarries huser hlength hkeys hids fun hnested => ?_
      rcases hsealed (.inl hnested) with hfalse | hfalse | hfetchable
      · cases hfalse
      · cases hfalse
      · rwa [hid] at hfetchable
    · rintro ⟨hran, hnr, hnasPdu, hcarries, huser, hlength, hkeys, hids, hsealed⟩
      have hid : (UeMessage.gmm (.registrationRequest _)).amfAfter lib w none = some _ :=
        congrArg (Option.map mmeUeS1apIdOf) huser
      refine ⟨_, hran, _, hnr, rfl, _, hnasPdu, ⟨_, _, _⟩, hcarries, ?_, rfl, _, hid, hids⟩
      refine ⟨(by cases ·), ⟨by rw [huser]; rfl, hlength, hkeys⟩, fun _ => rfl, ?_⟩
      intro hnested
      rw [hid]
      exact .inr (.inr (hsealed (hnested.resolve_right fun h => by cases h)))

theorem returnsIff_single {p : Processing NgapMessage} {C : Prop} {r : Response}
    (hp : p.ReturnsIff (World.serve env) w C fun m _ => m.InRange) :
    (p >>= fun message => pure (r.single (.ngapMessage message))).ReturnsIff (World.serve env) w C
      fun r _ => Holds NgapSlot r := by
  apply Prog.ReturnsIff.congr
  · apply hp.bind
    intro message _ hmessage
    exact .pure (.single _ ⟨message, rfl, hmessage⟩)
  · exact and_iff_left trivial

/-- The answer to a message that the switch has no case for. -/
theorem returnsIff_answered {ctx : Context} {amfUeNgapId ranUeNgapId : UInt64}
    (hanswer : HoldsAnswer BufferSlot ctx.response (some true))
    (hid : ctx.params.amfUeNgapId = some amfUeNgapId)
    (hrange : IdsInRange amfUeNgapId ranUeNgapId) :
    (do
      Prog.assert (ctx.response.numResponses = 1)
      let amfUeNgapId ← Prog.require ctx.params.amfUeNgapId
      let message ← ngapBuildDownlinkNasTransport amfUeNgapId ranUeNgapId (ctx.response.responses 0)
      return ctx.response.single (.ngapMessage message) : Processing Response).ReturnsIff
        (World.serve env) w (IdsSet amfUeNgapId ranUeNgapId) fun r _ => Holds NgapSlot r := by
  obtain ⟨hone, hbuffer⟩ := hanswer
  refine (Prog.ReturnsIff.assert_bind fun _ => ?_).congr (and_iff_right hone)
  rw [hid, Prog.require_some_bind]
  exact returnsIff_single (returnsIff_downlinkNasTransport hbuffer hrange)

/-- The answer to a deregistration and the release of the context; to a UE that switches off the
release only. -/
theorem returnsIff_released {ctx : Context} {amfUeNgapId ranUeNgapId : UInt64} {switchOff : Bool}
    (hanswer : HoldsAnswer BufferSlot ctx.response (if switchOff then none else some true))
    (hid : ctx.params.amfUeNgapId = some amfUeNgapId)
    (hrange : IdsInRange amfUeNgapId ranUeNgapId) :
    (do
      let amfUeNgapId ← Prog.require ctx.params.amfUeNgapId
      if ctx.response.numResponses = 1 then do
        let message ← ngapBuildDownlinkNasTransport amfUeNgapId ranUeNgapId
          (ctx.response.responses 0)
        return { (ctx.response.single (.ngapMessage message)).set 1 (.ngapMessage
          (ngapBuildUeContextReleaseCommand amfUeNgapId ranUeNgapId)) with numResponses := 2 }
      else
        return ctx.response.single (.ngapMessage
          (ngapBuildUeContextReleaseCommand amfUeNgapId ranUeNgapId)) :
      Processing Response).ReturnsIff (World.serve env) w
        (switchOff = false → IdsSet amfUeNgapId ranUeNgapId) fun r _ => Holds NgapSlot r := by
  rw [hid, Prog.require_some_bind]
  cases switchOff with
  | true =>
      have hnone : ctx.response.numResponses = 0 := hanswer
      rw [if_neg (by rw [hnone]; decide)]
      have hslot : NgapSlot (.ngapMessage
        (ngapBuildUeContextReleaseCommand amfUeNgapId ranUeNgapId)) := ⟨_, rfl, hrange⟩
      exact (Prog.ReturnsIff.pure (.single _ hslot)).congr (by simp)
  | false =>
      obtain ⟨hone, hbuffer⟩ := hanswer
      rw [if_pos hone]
      apply Prog.ReturnsIff.congr
      · apply (returnsIff_downlinkNasTransport hbuffer hrange).bind
        intro message _ hmessage
        exact .pure (.pair _ ⟨message, rfl, hmessage⟩ ⟨_, rfl, hrange⟩)
      · simp

/-- The setup of the context behind a Security Mode Complete, which needs the masked IMEISV. -/
theorem returnsIff_contextSetup {lib : Ogs} {ctx : Context} {amfUeNgapId ranUeNgapId : UInt64}
    {sp : NasSecurityParams} {kamf : List UInt8}
    (hanswer : HoldsAnswer BufferSlot ctx.response (some true))
    (hsp : ctx.params.nasSecurityParams = some sp) (hkamf : sp.kamf = some kamf)
    (hrange : IdsInRange amfUeNgapId ranUeNgapId) :
    (do
      Prog.assert (ctx.response.numResponses = 1)
      let maskedImeisv ← Prog.require ctx.params.maskedImeisv
      let securityParams ← Prog.require ctx.params.nasSecurityParams
      let kamf ← Prog.require securityParams.kamf
      let message ← ngapBuildInitialContextSetupRequest amfUeNgapId ranUeNgapId
        (lib.kdfKgnb kamf securityParams.ulCount nasSecurityAccessType3gpp) maskedImeisv
        (ctx.response.responses 0)
      return ctx.response.single (.ngapMessage message) : Processing Response).ReturnsIff
        (World.serve env) w (∃ maskedImeisv, ctx.params.maskedImeisv = some maskedImeisv ∧
          IdsSet amfUeNgapId ranUeNgapId) fun r _ => Holds NgapSlot r := by
  obtain ⟨hone, hbuffer⟩ := hanswer
  refine (Prog.ReturnsIff.assert_bind fun _ => ?_).congr (and_iff_right hone)
  apply Prog.ReturnsIff.require_bind
  intro maskedImeisv _
  rw [hsp, Prog.require_some_bind, hkamf, Prog.require_some_bind]
  exact returnsIff_single (returnsIff_initialContextSetupRequest hbuffer hrange)

theorem returnsIff_sessionSetup (hlib : lib.NgapDependable) {ctx : Context}
    {amfUeNgapId ranUeNgapId : UInt64}
    (hanswer : HoldsAnswer BufferSlot ctx.response (some true))
    (hid : ctx.params.amfUeNgapId = some amfUeNgapId)
    (hknown : (w.db.user? amfUeNgapId.toUInt32).isSome)
    (hrange : IdsInRange amfUeNgapId ranUeNgapId) :
    (do
      Prog.assert (ctx.response.numResponses = 1)
      let amfUeNgapId ← Prog.require ctx.params.amfUeNgapId
      let message ← ngapBuildPduSessionResourceSetupRequest lib amfUeNgapId ranUeNgapId
        (ctx.response.responses 0)
      return ctx.response.single (.ngapMessage message) : Processing Response).ReturnsIff
        (World.serve env) w (IdsSet amfUeNgapId ranUeNgapId) fun r _ => Holds NgapSlot r := by
  obtain ⟨hone, hbuffer⟩ := hanswer
  refine (Prog.ReturnsIff.assert_bind fun _ => ?_).congr (and_iff_right hone)
  rw [hid, Prog.require_some_bind]
  exact returnsIff_single (returnsIff_pduSessionResourceSetupRequest hlib hbuffer hrange hknown)

theorem exists_maskImeisv_iff (e : MobileIdentity) :
    (∃ masked, maskImeisv lib e none = some masked) ↔ e.buffer 0 &&& 7 = 5 ∧ e.length = 9 := by
  rw [maskImeisv]
  split
  · next hboth => exact iff_of_true ⟨_, rfl⟩ hboth
  · next hboth => exact iff_of_false (by simp) hboth

theorem returnsIff_uplinkNasTransportResponse (hlib : lib.NgapDependable) {w' : World}
    {amfUeNgapId ranUeNgapId : UInt64} (hrange : IdsInRange amfUeNgapId ranUeNgapId)
    {nested protects : Bool} {m : UeMessage} {ctx : Context}
    (hsurvived : m.Survived lib env w (some amfUeNgapId) false nested protects)
    (hhandled : m.Handled lib w false nested protects
      ⟨⟨some ranUeNgapId, some amfUeNgapId, 0, none, none⟩, response⟩ ctx w') :
    (uplinkNasTransportResponse lib amfUeNgapId ranUeNgapId ctx).ReturnsIff (World.serve env) w'
      ((m.answer.isSome → ∀ id, m.amfAfter lib w (some amfUeNgapId) = some id →
        IdsSet id ranUeNgapId) ∧ m.MasksImeisv) fun r _ => Holds NgapSlot r := by
  obtain ⟨hkeys, hamf, htype, hmasked, hanswer, hsame⟩ := hhandled
  have haccepted := hsurvived.accepted
  simp only [uplinkNasTransportResponse, htype]
  rcases m with m | m
  · cases m with
    | registrationRequest mobileIdentity =>
        obtain ⟨u, hu⟩ := Option.isSome_iff_exists.mp haccepted.1
        have hid : ctx.params.amfUeNgapId = some (mmeUeS1apIdOf u) :=
          hamf.trans (congrArg (Option.map mmeUeS1apIdOf) hu)
        have hrange' : IdsInRange (mmeUeS1apIdOf u) ranUeNgapId := ⟨mmeUeS1apIdOf_inRange u, hrange.2⟩
        refine (returnsIff_answered hanswer hid hrange').congr ?_
        have hafter : (UeMessage.gmm (.registrationRequest mobileIdentity)).amfAfter lib w
            (some amfUeNgapId) = some (mmeUeS1apIdOf u) := congrArg (Option.map mmeUeS1apIdOf) hu
        simp [UeMessage.answer, UeMessage.MasksImeisv, hafter]
    | registrationComplete =>
        have hnone : ctx.response.numResponses = 0 := hanswer
        have hcomplete : (Prog.assert (ctx.response.numResponses = 0) >>= fun _ =>
            pure ctx.response : Processing Response).ReturnsIff (World.serve env) w' _
              fun r _ => Holds NgapSlot r :=
          Prog.ReturnsIff.assert_bind (C := True) fun _ => .pure (.of_none hnone)
        refine hcomplete.congr ?_
        simp [hnone, UeMessage.answer, UeMessage.MasksImeisv]
    | deregistrationRequestFromUe type =>
        refine (returnsIff_released hanswer hamf hrange).congr ?_
        cases hswitch : type.switchOff <;>
          simp [UeMessage.answer, UeMessage.MasksImeisv, UeMessage.amfAfter, hswitch]
    | authenticationResponse =>
        refine (returnsIff_answered hanswer hamf hrange).congr ?_
        simp [UeMessage.answer, UeMessage.MasksImeisv, UeMessage.amfAfter]
    | authenticationFailure gmmCause auts =>
        refine (returnsIff_answered hanswer hamf hrange).congr ?_
        simp [UeMessage.answer, UeMessage.MasksImeisv, UeMessage.amfAfter]
    | securityModeComplete nasMessageContainer imeisv =>
        obtain ⟨sp, hsp, _, hkamf⟩ := hkeys
        have hkamf : ∃ kamf, sp.kamf = some kamf := Option.isSome_iff_exists.mp (by
          simpa [UeMessage.answer] using hkamf)
        obtain ⟨kamf, hkamf⟩ := hkamf
        refine (returnsIff_contextSetup hanswer hsp hkamf hrange).congr ?_
        rw [hmasked]
        cases imeisv with
        | none => simp [UeMessage.MasksImeisv, UeMessage.maskedAfter]
        | some e =>
            simp [UeMessage.MasksImeisv, UeMessage.maskedAfter, UeMessage.answer,
              UeMessage.amfAfter, exists_maskImeisv_iff, and_comm (a := IdsSet _ _)]
    | ulNasTransport payloadContainerType payloadContainer pduSessionId => exact haccepted.elim
    | other messageType unhandled => exact haccepted.elim
  · cases m with
    | pduSessionEstablishmentRequest pduSessionType =>
        obtain ⟨_, id, hid, hknown⟩ := haccepted
        cases hid
        refine (returnsIff_sessionSetup hlib hanswer hamf ((hsame _).trans hknown) hrange).congr ?_
        simp [UeMessage.answer, UeMessage.MasksImeisv, UeMessage.amfAfter]
    | other messageType unhandled => exact haccepted.elim

theorem returnsIff_uplinkNasTransport (hlib : lib.NgapDependable) {ies : List ProtocolIe}
    (hies : ∀ ie ∈ ies, ie.InRange) (hfresh : response.numResponses = 0) :
    (ngapHandleUplinkNasTransport lib ies response).ReturnsIff (World.serve env) w
      (UplinkServed lib env w ies) fun r _ => Holds NgapSlot r := by
  rw [ngapHandleUplinkNasTransport]
  apply Prog.ReturnsIff.congr
  · apply Prog.ReturnsIff.require_bind
    intro ranUeNgapId hran
    apply Prog.ReturnsIff.require_bind
    intro amfUeNgapId hamf
    apply Prog.ReturnsIff.require_bind
    intro nr hnr
    apply Prog.ReturnsIff.assert_bind
    intro _
    apply Prog.ReturnsIff.require_bind
    intro nasPdu hnasPdu
    apply returnsIff_nasHandlerEntrypoint_bind hlib.toDependable hfresh rfl
      (hasKeys_start ranUeNgapId (some amfUeNgapId)) (C := fun i => (i.2.2.answer.isSome →
        ∀ id, i.2.2.amfAfter lib w (some amfUeNgapId) = some id → IdsSet id ranUeNgapId) ∧
          i.2.2.MasksImeisv)
    intro nested protects m ctx w' hsurvived hhandled
    exact returnsIff_uplinkNasTransportResponse hlib
      ⟨ProtocolIe.amfUeNgapId_inRange hies hamf, ProtocolIe.ranUeNgapId_inRange hies hran⟩
      hsurvived hhandled
  · constructor
    · rintro ⟨ranUeNgapId, hran, amfUeNgapId, hamf, nr, hnr, rfl, nasPdu, hnasPdu,
        ⟨nested, protects, m⟩, hcarries, hsurvived, hids, hmasks⟩
      exact .intro hran hamf hnr hnasPdu hcarries hsurvived hids hmasks
    · rintro ⟨hran, hamf, hnr, hnasPdu, hcarries, hsurvived, hids, hmasks⟩
      exact ⟨_, hran, _, hamf, _, hnr, rfl, _, hnasPdu, ⟨_, _, _⟩, hcarries, hsurvived, hids, hmasks⟩

theorem ownItems_tunnel (ueTeid enbIp : Mem UInt8) :
    OwnItems [⟨.ueTeid, ueTeid, rfl⟩, ⟨.enbIp, enbIp, rfl⟩] [.pdnIp] := by
  constructor
  · simp
  · decide
  · decide
  · decide

theorem returnsIff_responseTransfer (hlib : lib.NgapDependable) {amfUeNgapId : UInt64}
    {transfer : List UInt8} :
    (ngapHandleResponseTransfer lib amfUeNgapId transfer).ReturnsIff (World.serve env) w
      ((∃ gtpTunnel, lib.responseTransferDecode transfer = some (some gtpTunnel) ∧
        gtpTunnel.ipv4 = true) ∧ (w.db.user? amfUeNgapId.toUInt32).isSome)
      fun _ w' => SameKeys w w' := by
  rw [ngapHandleResponseTransfer]
  apply Prog.ReturnsIff.congr
  · apply Prog.ReturnsIff.require_bind
    intro decoded _
    apply Prog.ReturnsIff.require_bind
    intro gtpTunnel _
    apply Prog.ReturnsIff.assert_bind
    intro _
    apply (returnsIff_byAmfUeNgapId hlib.toDocumented (ownItems_tunnel _ _) _ env w).bind
    rintro _ _ ⟨_, hsame, _⟩
    exact .pure hsame
  · simp only [and_true]
    constructor
    · rintro ⟨_, hdecoded, gtpTunnel, rfl, hipv4, hknown⟩
      exact ⟨⟨gtpTunnel, hdecoded, hipv4⟩, hknown⟩
    · rintro ⟨⟨gtpTunnel, hdecoded, hipv4⟩, hknown⟩
      exact ⟨_, hdecoded, gtpTunnel, rfl, hipv4, hknown⟩

theorem returnsIff_pduSessionResourceSetupResponse (hlib : lib.NgapDependable)
    {ies : List ProtocolIe} :
    (ngapHandlePduSessionResourceSetupResponse lib ies response).ReturnsIff (World.serve env) w
      (SetupResponseServed lib w ies) fun r _ => Holds NgapSlot r := by
  rw [ngapHandlePduSessionResourceSetupResponse]
  apply Prog.ReturnsIff.congr
  · apply Prog.ReturnsIff.require_bind
    intro amfUeNgapId _
    apply Prog.ReturnsIff.require_bind (C := fun items : List (UInt8 × List UInt8) =>
      ∀ item ∈ items, item.1 ≠ 0 ∧
        (∃ gtpTunnel, lib.responseTransferDecode item.2 = some (some gtpTunnel) ∧
          gtpTunnel.ipv4 = true) ∧ (w.db.user? amfUeNgapId.toUInt32).isSome)
    intro items _
    apply Prog.ReturnsIff.congr
    · have hturn : ∀ (item : UInt8 × List UInt8) w', SameKeys w w' →
          (do
            Prog.assert (item.1 ≠ 0)
            ngapHandleResponseTransfer lib amfUeNgapId item.2 : Processing Unit).ReturnsIff
              (World.serve env) w' (item.1 ≠ 0 ∧
                (∃ gtpTunnel, lib.responseTransferDecode item.2 = some (some gtpTunnel) ∧
                  gtpTunnel.ipv4 = true) ∧ (w.db.user? amfUeNgapId.toUInt32).isSome)
              fun _ w'' => SameKeys w w'' := by
        intro item w' hsame
        rw [← hsame amfUeNgapId.toUInt32]
        apply Prog.ReturnsIff.assert_bind
        intro _
        exact (returnsIff_responseTransfer hlib).mono fun _ _ hsame' => hsame.trans hsame'
      apply (Prog.ReturnsIff.forM (SameKeys.refl w) hturn).bind
      intro _ _ _
      exact .pure (.of_none rfl)
    · exact and_iff_left trivial
  · constructor
    · rintro ⟨amfUeNgapId, hamf, items, hitems, hserved⟩
      exact .intro hamf hitems hserved
    · rintro ⟨hamf, hitems, hserved⟩
      exact ⟨_, hamf, _, hitems, hserved⟩

/-- `ngap_message_handler` hands over messages that can be encoded. -/
theorem returnsIff_ngapMessageHandler (hlib : lib.NgapDependable) {m : NgapUplink}
    (hies : ∀ ie ∈ m.ies, ie.InRange) (hfresh : response.numResponses = 0) :
    (ngapMessageHandler lib m response >>= Prog.require).ReturnsIff (World.serve env) w
      (m.Served lib env w) fun r _ => Holds NgapSlot r := by
  have hsome : ∀ {p : Processing Response} {C : Prop},
      p.ReturnsIff (World.serve env) w C (fun r _ => Holds NgapSlot r) →
      ((some <$> p) >>= Prog.require).ReturnsIff (World.serve env) w C
        fun r _ => Holds NgapSlot r := by
    intro p C hp
    show Prog.ReturnsIff _ ((p >>= fun r => pure (some r)) >>= Prog.require) _ _ _
    rw [Prog.bind_assoc]
    apply Prog.ReturnsIff.congr
    · apply hp.bind
      intro r w' hr
      have hkept : (pure r : Processing Response).ReturnsIff (World.serve env) w' True
          fun r _ => Holds NgapSlot r := .pure hr
      exact hkept
    · exact and_iff_left trivial
  have hempty : ∀ r : Response, r.numResponses = 0 → (pure (some r) >>= Prog.require :
      Processing Response).ReturnsIff (World.serve env) w True fun r _ => Holds NgapSlot r :=
    fun r hr => .pure (.of_none hr)
  have hnone : (pure none >>= Prog.require : Processing Response).ReturnsIff (World.serve env) w
      False fun r _ => Holds NgapSlot r := .abort
  cases m with
  | initiatingMessage m =>
      cases m with
      | ngSetupRequest ies =>
          simp only [ngapMessageHandler, ngapInitiatingMessageHandler, ngapHandleNgSetupRequest]
          split
          · next hglobal hsupported =>
            have hslot : Holds NgapSlot { Response.single { response with sctpStreamId := 1 }
                (.ngapMessage .ngSetupResponse) with sctpStreamId := 0 } :=
              ⟨Nat.le_succ 1, (Holds.single response ⟨_, rfl, trivial⟩).slots⟩
            have hsetup : (pure (some _) >>= Prog.require : Processing Response).ReturnsIff
              (World.serve env) w True fun r _ => Holds NgapSlot r := .pure hslot
            exact hsetup.congr (iff_of_true trivial ⟨hglobal, by rw [hsupported]; rfl⟩)
          · next hmissing =>
            refine hnone.congr (iff_of_false not_false ?_)
            rintro ⟨hglobal, hsupported⟩
            obtain ⟨tas, htas⟩ := Option.isSome_iff_exists.mp hsupported
            exact hmissing tas hglobal htas
      | initialUeMessage ies => exact hsome (returnsIff_initialUeMessage hlib hies hfresh)
      | uplinkNasTransport ies => exact hsome (returnsIff_uplinkNasTransport hlib hies hfresh)
      | other => exact hnone
  | successfulOutcome m =>
      cases m with
      | initialContextSetupResponse => exact hempty _ rfl
      | pduSessionResourceSetupResponse ies =>
          exact hsome (returnsIff_pduSessionResourceSetupResponse hlib)
      | ueContextReleaseComplete => exact hempty _ rfl
      | other => exact hnone
  | other => exact hnone

end

end PublicCloudCore.Worker
