import PublicCloudCore.Worker.MobileIdentity
import PublicCloudCore.Worker.PayloadContainer

/-!
# Messages that are acted on

Which messages make a handler push something or answer, for a UE that is known and whose keys are
there. `wp` of a handler, in surroundings in which nothing may be pushed, and with an end that no
answer satisfies, is that its message is none of these.
-/

namespace PublicCloudCore.Worker

open Framework CorekubeDb Libck

structure DecodesGsm (lib : Ogs) (nasPdu : List UInt8) (m : GsmMessage) : Prop where
  gsm : (nasContent nasPdu).head? = some extendedProtocolDiscriminator5gsm
  decoded : lib.nas5gsmDecode (nasContent nasPdu) = some m

/-- What `nas_handle_authentication_failure` is answered by the database makes up new keys. -/
def MakesKeys (lib : Ogs) (auts : List UInt8) (dbPulls : DbPulls) : Prop :=
  ∃ opc key rand knh1, dbPulls .opc = .to opc ∧ dbPulls .key = .to key ∧
    dbPulls .rand = .to rand ∧ dbPulls .knh1 = .to knh1 ∧
    nas5gsGenerateKeys lib ⟨(knh1 0).toUInt16 ||| ((knh1 1).toUInt16 <<< 8), knh1.shift 2⟩
      (opc.read 0 16) (key.read 0 16) (rand.read 0 16)
      (nextSqn (lib.aucSqn (opc.read 0 16) (key.read 0 16) (rand.read 0 16) auts)) ≠ none

/-- An Authentication Failure asks for what its new keys are made of. -/
def identityCall (lib : Ogs) (id : UInt64) : DbCall :=
  lib.byAmfUeNgapId id [] [.rand, .key, .opc, .knh1]

/-- Something is pushed for this message itself, or it has an answer. -/
def GmmMessage.ActedOn (lib : Ogs) (env : Env) (w : World) (ranUeNgapId : Option UInt64)
    (id : UInt64) : GmmMessage → Prop
  | registrationRequest mobileIdentity =>
      ranUeNgapId ≠ none ∧ lib.nas5gsImsiToBcd mobileIdentity ≠ none ∧ mobileIdentity.length ≤ 14
  | registrationComplete => False
  | deregistrationRequestFromUe type =>
      type.accessType = nasSecurityAccessType3gpp ∧ type.reRegistrationRequired = false ∧
        type.switchOff = false
  | authenticationResponse => True
  | authenticationFailure gmmCause auts =>
      gmmCause = 21 ∧ MakesKeys lib auts (w.serve env (.dbAccess (identityCall lib id))).1.pulls
  | securityModeComplete nasMessageContainer _ => nasMessageContainer = true
  | ulNasTransport _ _ _ => False
  | other _ _ => False

/-- The message of a PDU, at whatever level of UL NAS Transport, is acted on. -/
inductive Acts (lib : Ogs) (env : Env) (w : World) (ranUeNgapId : Option UInt64) (id : UInt64) :
    List UInt8 → Prop
  | gmm {nasPdu : List UInt8} {m : GmmMessage} : HeaderKnown nasPdu → Decodes lib nasPdu m →
      m.ActedOn lib env w ranUeNgapId id → Acts lib env w ranUeNgapId id nasPdu
  | gsm {nasPdu : List UInt8} : HeaderKnown nasPdu →
      DecodesGsm lib nasPdu (.pduSessionEstablishmentRequest 1) →
      Acts lib env w ranUeNgapId id nasPdu
  | transport {nasPdu payloadContainer : List UInt8} {pduSessionId : UInt8} :
      HeaderKnown nasPdu →
      Decodes lib nasPdu (.ulNasTransport 1 payloadContainer (some pduSessionId)) →
      payloadContainer.length ≠ 0 → pduSessionId ≠ 0 →
      Acts lib env w ranUeNgapId id (payloadContainer.take (payloadContainer.length % 256)) →
      Acts lib env w ranUeNgapId id nasPdu

/-- What the libraries document: an octet string holds a number with its highest byte first, a
message that the worker builds can be encoded, and no message is shorter than its discriminator
and the byte behind it. -/
structure Ogs.MessagesDocumented (lib : Ogs) : Prop where
  octets : lib.toOgsSecurity.Documented
  encodes : ∀ m, lib.nas5gsPlainEncode m ≠ none
  gmmHeader : ∀ bytes, bytes.length < 2 → lib.nas5gmmDecode bytes = none
  gsmHeader : ∀ bytes, bytes.length < 2 → lib.nas5gsmDecode bytes = none

/-- Surroundings in which nothing may be pushed; whoever stops has done nothing wrong. -/
abbrev unpushed (env : Env) : Prog.Reading Query Answer Observation World :=
  Prog.servedReading (World.serve env) True fun q => ∀ c, q = .dbAccess c → c.pushes = []

variable {lib : Ogs} {env : Env} {w : World} {ranUeNgapId : Option UInt64} {id : UInt64}
  {u : UserInfo}

theorem wp_unpushed_require {α : Type} {x : Option α} {post : α → World → Prop} :
    (Prog.require x : Processing α).wp (unpushed env) w post ↔ ∀ a, x = some a → post a w := by
  rw [Prog.wp_require]
  cases x <;> simp [Prog.servedReading]

theorem wp_unpushed_assert {c : Prop} [Decidable c] {post : Unit → World → Prop} :
    (Prog.assert c : Processing Unit).wp (unpushed env) w post ↔ (c → post () w) := by
  rw [Prog.wp_assert]
  split <;> simp [Prog.servedReading, *]

theorem wp_unpushed_dbAccess (hlib : lib.toOgsSecurity.Documented)
    (hu : w.db.user? id.toUInt32 = some u) {pulls : List ItemType} (hpulls : SessionItems [] pulls)
    {post : DbPulls → World → Prop} :
    (dbAccess (lib.byAmfUeNgapId id [] pulls)).toProcessing.wp (unpushed env) w post ↔
      post (w.serve env (.dbAccess (lib.byAmfUeNgapId id [] pulls))).1.pulls
        (w.serve env (.dbAccess (lib.byAmfUeNgapId id [] pulls))).2 := by
  have hknown : Known w (lib.byAmfUeNgapId id [] pulls) id.toUInt32 u :=
    hpulls.known hlib hu
  rw [wp_toProcessing, hknown.wp_dbAccess]
  constructor
  · exact fun h => h.2
  · refine fun h => ⟨?_, h⟩
    rintro c ⟨⟩
    rfl

theorem wp_unpushed_pulled {dbPulls : DbPulls} {t : ItemType} {mem : Mem UInt8}
    (h : dbPulls t = .to mem) {post : Mem UInt8 → World → Prop} :
    (pulled dbPulls t).wp (unpushed env) w post ↔ post mem w := by
  rw [pulled, wp_toProcessing, deref, h]
  exact Iff.rfl

theorem not_wp_push {c : DbCall} (hc : c.pushes ≠ []) {post : DbPulls → World → Prop} :
    ¬ (dbAccess c).toProcessing.wp (unpushed env) w post := by
  rw [wp_toProcessing, dbAccess, Prog.wp_bind, Prog.wp_call]
  exact fun h => hc (h.1 c rfl)

/-- A condition on the end of a run that an answer under these keys fails. -/
structure RefusesAnswers (keys : Option NasSecurityParams) (post : Context → World → Prop) :
    Prop where
  silent : ∀ ctx w, ctx.response.numResponses = 0 → post ctx w
  answered : ∀ ctx w bytes, ctx.params.nasSecurityParams = keys →
    ctx.response.numResponses = 1 → ctx.response.responses 0 = .nasBuffer bytes → ¬ post ctx w

def Sendable (params : NasNgapParams) (m : NasMessage) : Prop :=
  integrityProtected m.securityHeaderType = some false ∨
    integrityProtected m.securityHeaderType = some true ∧ Keyed params

/-- `nas_handler_entrypoint` behind the handler of the message. -/
def Ends (lib : Ogs) (env : Env) (post : Context → World → Prop) (handled : Option Context)
    (w : World) : Prop :=
  ∀ ctx, handled = some ctx → (nasMessageToBytes lib ctx).wp (unpushed env) w post

section

variable {post : Context → World → Prop} {keys : Option NasSecurityParams}

theorem wp_nas5gsSecurityEncode (hlib : lib.MessagesDocumented) {params : NasNgapParams}
    {m : NasMessage} (hm : Sendable params m) (hparams : params.nasSecurityParams ≠ none) :
    ∃ bytes, ∀ (w : World) (post : Option (NasNgapParams × List UInt8) → World → Prop),
      (nas5gsSecurityEncode lib params m).wp (unpushed env) w post ↔
        post (some (params, bytes)) w := by
  obtain ⟨plain, hplain⟩ := Option.ne_none_iff_exists'.mp (hlib.encodes m)
  obtain ⟨securityParams, hsp⟩ := Option.ne_none_iff_exists'.mp hparams
  rcases hm with hfalse | ⟨htrue, hkeyed⟩
  · refine ⟨plain, fun w post => ?_⟩
    simp [nas5gsSecurityEncode, hsp, hfalse, hplain]
  · have hrequire : requireKnasInt lib params .justDl = pure params :=
      hkeyed.requireKnasInt .justDl
    obtain ⟨sp, knasInt, hsp', hknasInt⟩ := hkeyed
    cases hsp.symm.trans hsp'
    refine ⟨m.extendedProtocolDiscriminator :: m.securityHeaderType ::
      lib.nasMacCalculate nasSecurityIntAlgorithm knasInt securityParams.dlCount
        nasSecurityAccessType3gpp nasSecurityDownlinkDirection
        (securityParams.dlCount.toUInt8 :: plain) ++ (securityParams.dlCount.toUInt8 :: plain),
      fun w post => ?_⟩
    simp only [nas5gsSecurityEncode, hsp, htrue, hplain, hrequire, hknasInt, Prog.wp_bind,
      Prog.wp_require, Prog.wp_pure, Prog.wp_observe]
    exact Iff.rfl

theorem wp_nasMessageToBytes_single (hlib : lib.MessagesDocumented) {params : NasNgapParams}
    {m : NasMessage} (hm : Sendable params m) (hparams : params.nasSecurityParams ≠ none)
    (r : Response) :
    ∃ bytes, ∀ w, (nasMessageToBytes lib ⟨params, r.single (.nasMessage m)⟩).wp (unpushed env) w
      post ↔ post ⟨params, (r.single (.nasMessage m)).set 0 (.nasBuffer bytes)⟩ w := by
  obtain ⟨bytes, hencode⟩ := @wp_nas5gsSecurityEncode _ env hlib _ _ hm hparams
  refine ⟨bytes, fun w => ?_⟩
  rw [nasMessageToBytes, Prog.wp_bind, wp_unpushed_assert]
  have hturn : (List.range 1).foldlM (nasMessageToBytesAt lib)
      ⟨params, r.single (.nasMessage m)⟩ =
        nasMessageToBytesAt lib ⟨params, r.single (.nasMessage m)⟩ 0 >>= pure := rfl
  simp only [Response.single_numResponses, Nat.le_refl, forall_true_left, hturn, Prog.wp_bind,
    nasMessageToBytesAt, consume, Prog.wp_observe, Response.single_responses_zero,
    wp_unpushed_require, Prog.wp_pure]
  constructor
  · intro h
    exact (hencode _ _).mp (h m rfl) _ rfl
  · rintro h a ⟨⟩
    rw [hencode]
    rintro r ⟨⟩
    exact h

theorem wp_nasMessageToBytes_none {ctx : Context} (hnone : ctx.response.numResponses = 0) :
    (nasMessageToBytes lib ctx).wp (unpushed env) w post ↔ post ctx w := by
  rw [nasMessageToBytes, hnone, Prog.wp_bind, wp_unpushed_assert]
  exact ⟨fun h => h (by decide), fun h _ => h⟩

theorem ends_none (w : World) : Ends lib env post none w := fun _ h => by cases h

theorem RefusesAnswers.ends_silent (h : RefusesAnswers keys post) {ctx : Context}
    (hnone : ctx.response.numResponses = 0) (w : World) : Ends lib env post (some ctx) w := by
  rintro _ ⟨⟩
  exact (wp_nasMessageToBytes_none hnone).mpr (h.silent ctx w hnone)

theorem RefusesAnswers.not_ends_single (h : RefusesAnswers keys post)
    (hlib : lib.MessagesDocumented) {params : NasNgapParams} {m : NasMessage}
    (hm : Sendable params m) (hkeys : params.nasSecurityParams = keys) (hsome : keys ≠ none)
    (r : Response) (w : World) :
    ¬ Ends lib env post (some ⟨params, r.single (.nasMessage m)⟩) w := by
  obtain ⟨bytes, hbytes⟩ := @wp_nasMessageToBytes_single _ env post hlib _ _ hm (hkeys ▸ hsome) r
  intro hends
  exact h.answered _ w bytes hkeys rfl (Response.set_responses_self _ _ _)
    ((hbytes w).mp (hends _ rfl))

end

structure Stands (w : World) (u : UserInfo) (ranUeNgapId : Option UInt64) (id : UInt64)
    (ctx : Context) : Prop where
  user : w.db.user? id.toUInt32 = some u
  ranUeNgapId : ctx.params.ranUeNgapId = ranUeNgapId
  amfUeNgapId : ctx.params.amfUeNgapId = some id
  fresh : ctx.response.numResponses = 0

theorem Keyed.ne_none {params : NasNgapParams} (h : Keyed params) :
    params.nasSecurityParams ≠ none := by
  obtain ⟨sp, _, hsp, _⟩ := h
  rw [hsp]
  exact Option.some_ne_none sp

section

variable {post : Context → World → Prop} {ctx : Context}

theorem wp_registrationRequest (hran : ctx.params.ranUeNgapId = ranUeNgapId)
    (mobileIdentity : MobileIdentity) {post : Option Context → World → Prop} :
    (nasHandleRegistrationRequest lib mobileIdentity ctx).wp (unpushed env) w post ↔
      ¬ (ranUeNgapId ≠ none ∧ lib.nas5gsImsiToBcd mobileIdentity ≠ none ∧
        mobileIdentity.length ≤ 14) := by
  rw [nasHandleRegistrationRequest]
  simp only [Prog.wp_bind, wp_unpushed_require, wp_unpushed_assert, Prog.wp_call, hran]
  constructor
  · rintro h ⟨hsome, himsi, hlen⟩
    obtain ⟨ran, hran⟩ := Option.ne_none_iff_exists'.mp hsome
    obtain ⟨imsi, himsi⟩ := Option.ne_none_iff_exists'.mp himsi
    exact not_wp_push (List.cons_ne_nil _ _) (h ran hran imsi himsi hlen).2
  · intro h ran hran imsi himsi hlen
    exact absurd ⟨hran ▸ Option.some_ne_none ran, himsi ▸ Option.some_ne_none imsi, hlen⟩ h

theorem wp_authenticationFailure (hlib : lib.toOgsSecurity.Documented)
    (hu : w.db.user? id.toUInt32 = some u) (hid : ctx.params.amfUeNgapId = some id)
    (gmmCause : UInt8) (auts : List UInt8) {post : Option Context → World → Prop} :
    (nasHandleAuthenticationFailure lib gmmCause auts ctx).wp (unpushed env) w post ↔
      ¬ (gmmCause = 21 ∧
        MakesKeys lib auts (w.serve env (.dbAccess (identityCall lib id))).1.pulls) := by
  have hitems : SessionItems [] [.rand, .key, .opc, .knh1] :=
    sessionItems_pulls (by decide) (by decide) (by decide)
  have hknown : Known w (identityCall lib id) id.toUInt32 u :=
    hitems.known hlib hu
  obtain ⟨rand, hrand⟩ := hknown.exists_pulled env (List.mem_of_elem_eq_true rfl : .rand ∈ _)
  obtain ⟨key, hkey⟩ := hknown.exists_pulled env (List.mem_of_elem_eq_true rfl : .key ∈ _)
  obtain ⟨opc, hopc⟩ := hknown.exists_pulled env (List.mem_of_elem_eq_true rfl : .opc ∈ _)
  obtain ⟨knh1, hknh1⟩ := hknown.exists_pulled env (List.mem_of_elem_eq_true rfl : .knh1 ∈ _)
  rw [nasHandleAuthenticationFailure]
  simp only [Prog.wp_bind, wp_unpushed_require, wp_unpushed_assert, hid, Option.some.injEq,
    forall_eq', wp_unpushed_dbAccess hlib hu hitems]
  rw [← identityCall]
  simp only [wp_unpushed_pulled hrand, wp_unpushed_pulled hkey, wp_unpushed_pulled hopc,
    wp_unpushed_pulled hknh1]
  constructor
  · rintro h ⟨hcause, opc', key', rand', knh1', hopc', hkey', hrand', hknh1', hkeys⟩
    cases hopc.symm.trans hopc'
    cases hkey.symm.trans hkey'
    cases hrand.symm.trans hrand'
    cases hknh1.symm.trans hknh1'
    obtain ⟨keys, hkeys⟩ := Option.ne_none_iff_exists'.mp hkeys
    exact not_wp_push (List.cons_ne_nil _ _) (h hcause keys hkeys)
  · intro h hcause keys hkeys
    exact absurd ⟨hcause, opc, key, rand, knh1, hopc, hkey, hrand, hknh1,
      hkeys ▸ Option.some_ne_none keys⟩ h

theorem wp_securityModeComplete (hlib : lib.MessagesDocumented)
    (hu : w.db.user? id.toUInt32 = some u) (hid : ctx.params.amfUeNgapId = some id)
    (hkeyed : Keyed ctx.params) (hpost : RefusesAnswers ctx.params.nasSecurityParams post)
    (nasMessageContainer : Bool) (imeisv : Option MobileIdentity) :
    (nasHandleSecurityModeComplete lib nasMessageContainer imeisv ctx).wp (unpushed env) w
      (Ends lib env post) ↔ ¬ nasMessageContainer = true := by
  have hitems : SessionItems [] [.tmsi] :=
    sessionItems_pulls (by decide) (by decide) (by decide)
  have hknown : Known w (lib.byAmfUeNgapId id [] [.tmsi]) id.toUInt32 u :=
    hitems.known hlib.octets hu
  obtain ⟨tmsi, htmsi⟩ := hknown.exists_pulled env (List.mem_of_elem_eq_true rfl : .tmsi ∈ _)
  cases nasMessageContainer with
  | false => exact iff_of_true (ends_none w) Bool.false_ne_true
  | true =>
      refine iff_of_false ?_ fun h => h rfl
      unfold nasHandleSecurityModeComplete
      rw [if_neg fun h => h rfl]
      simp only [Prog.wp_bind, wp_unpushed_require, hid, Option.some.injEq, forall_eq',
        wp_unpushed_dbAccess hlib.octets hu hitems, wp_unpushed_pulled htmsi]
      apply hpost.not_ends_single hlib
      · exact Or.inr ⟨rfl, hkeyed⟩
      · rfl
      · exact hkeyed.ne_none

theorem wp_deregistrationRequest (hlib : lib.MessagesDocumented) (hkeyed : Keyed ctx.params)
    (hpost : RefusesAnswers ctx.params.nasSecurityParams post) (type : DeRegistrationType) :
    (nasHandleDeregistrationRequestFromUe type ctx).wp (unpushed env) w (Ends lib env post) ↔
      ¬ (type.accessType = nasSecurityAccessType3gpp ∧ type.reRegistrationRequired = false ∧
        type.switchOff = false) := by
  rw [nasHandleDeregistrationRequestFromUe]
  simp only [Prog.wp_bind, wp_unpushed_assert, not_and]
  refine imp_congr_right fun _ => imp_congr_right fun _ => ?_
  cases type.switchOff with
  | true => exact iff_of_true (hpost.ends_silent rfl w) Bool.noConfusion
  | false =>
      refine iff_of_false ?_ fun h => h rfl
      exact hpost.not_ends_single hlib (Or.inr ⟨rfl, hkeyed⟩) rfl hkeyed.ne_none _ _

theorem wp_nas5gsmHandler (hlib : lib.MessagesDocumented)
    (hu : w.db.user? id.toUInt32 = some u) (hid : ctx.params.amfUeNgapId = some id)
    (hsome : ctx.params.nasSecurityParams ≠ none)
    (hpost : RefusesAnswers ctx.params.nasSecurityParams post) (m : GsmMessage) :
    (nas5gsmHandler lib m ctx).wp (unpushed env) w (Ends lib env post) ↔
      m ≠ .pduSessionEstablishmentRequest 1 := by
  have hitems : SessionItems [] [.pdnIp] :=
    sessionItems_pulls (by decide) (by decide) (by decide)
  have hknown : Known w (lib.byAmfUeNgapId id [] [.pdnIp]) id.toUInt32 u :=
    hitems.known hlib.octets hu
  obtain ⟨pdnIp, hpdnIp⟩ := hknown.exists_pulled env (List.mem_of_elem_eq_true rfl : .pdnIp ∈ _)
  have hid' : (ctx.withMessageType m.messageType).params.amfUeNgapId = some id := hid
  cases m with
  | pduSessionEstablishmentRequest pduSessionType =>
      rw [nas5gsmHandler, nasHandlePduSessionEstablishmentRequest]
      simp only [Prog.wp_bind, wp_unpushed_assert, wp_unpushed_require, hid', Option.some.injEq,
        forall_eq', nasPduSessionEstablishmentFetchPduIp,
        wp_unpushed_dbAccess hlib.octets hu hitems, wp_unpushed_pulled hpdnIp, Prog.wp_pure,
        ne_eq, GsmMessage.pduSessionEstablishmentRequest.injEq]
      refine imp_congr_right fun _ => iff_of_false ?_ not_false
      apply hpost.not_ends_single hlib
      · exact Or.inl rfl
      · rfl
      · exact hsome
  | other messageType unhandled =>
      refine iff_of_true (ends_none w) fun h => ?_
      cases h

theorem wp_nas5gmmHandler (hlib : lib.MessagesDocumented)
    (hctx : Stands w u ranUeNgapId id ctx) (hkeyed : Keyed ctx.params)
    (hpost : RefusesAnswers ctx.params.nasSecurityParams post) {n : Nat} {inner : InnerHandler n}
    {m : GmmMessage} {within : m.Within n}
    (hm : ∀ payloadContainerType payloadContainer pduSessionId,
      m ≠ .ulNasTransport payloadContainerType payloadContainer pduSessionId) :
    (nas5gmmHandler lib inner m within ctx).wp (unpushed env) w (Ends lib env post) ↔
      ¬ m.ActedOn lib env w ranUeNgapId id := by
  have hctx' : Stands w u ranUeNgapId id (ctx.withMessageType m.messageType) :=
    ⟨hctx.user, hctx.ranUeNgapId, hctx.amfUeNgapId, hctx.fresh⟩
  have hkeyed' : Keyed (ctx.withMessageType m.messageType).params := hkeyed
  have hpost' : RefusesAnswers (ctx.withMessageType m.messageType).params.nasSecurityParams post :=
    hpost
  cases m with
  | registrationRequest mobileIdentity =>
      rw [nas5gmmHandler]
      exact wp_registrationRequest hctx'.ranUeNgapId mobileIdentity
  | registrationComplete => exact iff_of_true (hpost'.ends_silent hctx'.fresh w) not_false
  | deregistrationRequestFromUe type =>
      rw [nas5gmmHandler]
      exact wp_deregistrationRequest hlib hkeyed' hpost' type
  | authenticationResponse =>
      refine iff_of_false ?_ fun h => h trivial
      apply hpost'.not_ends_single hlib
      · exact Or.inr ⟨rfl, hkeyed'⟩
      · rfl
      · exact hkeyed'.ne_none
  | authenticationFailure gmmCause auts =>
      rw [nas5gmmHandler]
      exact wp_authenticationFailure hlib.octets hctx'.user hctx'.amfUeNgapId gmmCause auts
  | securityModeComplete nasMessageContainer imeisv =>
      rw [nas5gmmHandler]
      exact wp_securityModeComplete hlib hctx'.user hctx'.amfUeNgapId hkeyed' hpost' _ imeisv
  | ulNasTransport payloadContainerType payloadContainer pduSessionId =>
      exact absurd rfl (hm payloadContainerType payloadContainer pduSessionId)
  | other messageType unhandled => exact iff_of_true (ends_none w) not_false

theorem wp_ulNasTransport (hlib : lib.MessagesDocumented) (hkeyed : Keyed ctx.params)
    (hpost : RefusesAnswers ctx.params.nasSecurityParams post) {n : Nat} {inner : InnerHandler n}
    {payloadContainerType : UInt8} {payloadContainer : List UInt8} {pduSessionId : Option UInt8}
    {within : payloadContainer.length < n} {P : Prop}
    (hinner : ∀ h post, RefusesAnswers ctx.params.nasSecurityParams post →
      ((inner (payloadContainer.take (payloadContainer.length % 256)) h ctx).wp (unpushed env) w
        post ↔ ¬ P)) :
    (nasHandleUlNasTransport inner payloadContainerType payloadContainer pduSessionId within
      ctx).wp (unpushed env) w (Ends lib env post) ↔
        (payloadContainerType = 1 → payloadContainer.length ≠ 0 →
          ∀ id, pduSessionId = some id → id ≠ 0 → ¬ P) := by
  have hcall : ∀ h, (inner (payloadContainer.take (payloadContainer.length % 256)) h ctx).wp
      (unpushed env) w (fun ctx' w' => ctx'.response.numResponses = 1 → ∀ nasPkbuf,
        (ctx'.response.responses 0).nasBuffer? = some nasPkbuf → Ends lib env post
          (some ⟨ctx'.params, ctx'.response.single (.nasMessage (nasBuildDlNasTransport nasPkbuf))⟩)
          w') ↔ ¬ P := by
    intro h
    apply hinner
    constructor
    · intro ctx' w' hnone hone
      omega
    · intro ctx' w' bytes hkeys hone hslot hends
      refine hpost.not_ends_single hlib ?_ hkeys hkeyed.ne_none ctx'.response w'
        (hends hone bytes (by rw [hslot]; rfl))
      obtain ⟨sp, knasInt, hsp, hknasInt⟩ := hkeyed
      exact Or.inr ⟨rfl, sp, knasInt, hkeys.trans hsp, hknasInt⟩
  rw [nasHandleUlNasTransport]
  simp only [Prog.wp_bind, wp_unpushed_require, wp_unpushed_assert]
  by_cases htype : payloadContainerType = 1
  · subst htype
    simp only [if_true, Prog.wp_bind, wp_unpushed_assert, consume, Prog.wp_observe,
      wp_unpushed_require, Prog.wp_pure]
    have hone : (1 : UInt8) ≠ 0 := by decide
    simp only [hone, ne_eq, not_false_eq_true, forall_true_left]
    exact imp_congr_right fun _ => forall_congr' fun _ => imp_congr_right fun _ =>
      imp_congr_right fun _ => hcall _
  · simp only [if_neg htype]
    refine iff_of_true ?_ fun h => absurd h htype
    intro _ _ id _ _
    exact ends_none w

end

end PublicCloudCore.Worker
