import PublicCloudCore.Framework.Succession
import PublicCloudCore.Worker.HandlerSpecs

/-!
# The payload container of a UL NAS Transport

`nas_handle_ul_nas_transport` hands its container to `nas_handler_entrypoint` as an octet string
whose size is cut down to eight bits. What is parsed after a transport is its container exactly
where no container, however deep, has more than 255 bytes.
-/

namespace PublicCloudCore.Worker

open Framework CorekubeDb Libck

/-- The content of the blocks that a run allocates: `nas_bytes_to_message` copies what it parses
into one. -/
def Query.parsed? : Query → Option (List UInt8)
  | .pkbufAlloc content => some content
  | .dbAccess _ => none

/-- What follows a UL NAS Transport with N1 SM information is the container of it. -/
def PassesOn (lib : Ogs) (nasPdu parsed : List UInt8) : Prop :=
  ∀ payloadContainer pduSessionId,
    Decodes lib nasPdu (.ulNasTransport 1 payloadContainer pduSessionId) → parsed = payloadContainer

/-- In every run, each inner call parses the container of the message around it. -/
def PassesWhole (lib : Ogs) (nasPdu : List UInt8) : Prop :=
  ∀ (S : Type) (serve : S → (q : Query) → Answer q × S) (s : S) (ctx : Context),
    List.IsChain (PassesOn lib)
      (((nasHandlerEntrypoint lib nasPdu ctx).exec serve s).asked.filterMap Query.parsed?)

/-- `security_decode_gsm` goes on with the security header of this PDU. -/
def HeaderKnown (nasPdu : List UInt8) : Prop :=
  nasPdu.getD 0 0 = extendedProtocolDiscriminator5gmm →
    integrityProtected (nasPdu.getD 1 0) ≠ none

/-- The PDU is a UL NAS Transport around this container, and passes the assertions. -/
structure Transports (lib : Ogs) (nasPdu payloadContainer : List UInt8) : Prop where
  header : HeaderKnown nasPdu
  nonempty : payloadContainer.length ≠ 0
  decodes : ∃ pduSessionId, pduSessionId ≠ 0 ∧
    Decodes lib nasPdu (.ulNasTransport 1 payloadContainer (some pduSessionId))

variable {lib : Ogs} {nasPdu payloadContainer : List UInt8}

theorem take_mod_eq_iff {bytes : List UInt8} :
    bytes.take (bytes.length % 256) = bytes ↔ bytes.length ≤ 255 := by
  rw [List.take_eq_self_iff]
  omega

abbrev ParsesNothing {α : Type} (p : Processing α) (post : α → Prop) : Prop :=
  p.Ensures (fun q => q.parsed? = none) (fun _ => True) post

theorem parsesNothing_dbAccess {c : DbCall} {post : DbPulls → Prop} (h : ∀ dbPulls, post dbPulls) :
    ParsesNothing (dbAccess c).toProcessing post := by
  rw [ParsesNothing, Handler.toProcessing, Prog.ensures_mapObservation]
  exact ensures_dbAccess rfl h

theorem Keeps.parsesNothing {α : Type} {p : Processing α} {post : α → Prop}
    (h : Keeps (fun q => q.parsed? = none) p post) : ParsesNothing p post :=
  h.imp (fun _ hq => hq) fun _ _ => trivial

theorem permitsAccess_parsesNothing (amfUeNgapId : Option UInt64) :
    PermitsAccess lib (fun q => q.parsed? = none) amfUeNgapId := fun _ _ _ _ _ => rfl

section

variable {ctx : Context}

theorem parsesNothing_nasMessageToBytes :
    ParsesNothing (nasMessageToBytes lib ctx) fun _ => True := by
  rw [ParsesNothing, nasMessageToBytes, Prog.ensures_bind, Prog.ensures_assert]
  intro _
  apply @Prog.Ensures.foldlM _ _ _ _ _ _ _ _ fun _ _ => True
  · trivial
  intro ctx i _ _
  rw [nasMessageToBytesAt, consume]
  simp only [Prog.ensures_bind, Prog.ensures_observe, Prog.ensures_require]
  refine ⟨trivial, fun m _ => ?_⟩
  apply (keeps_nas5gsSecurityEncode (permitsAccess_parsesNothing _) m).parsesNothing.mono
  intro _ _ _ _
  trivial

theorem Responding.parsesNothing {answerProtected : Prop} {p : Processing (Option Context)}
    (h : Responding lib ctx answerProtected p) : ParsesNothing p fun _ => True := by
  apply (h.imp _ fun _ _ => trivial).mono
  · intro _ _
    trivial
  · rintro q ⟨_⟩
    rfl

end

theorem ensures_headerKnown {params : NasNgapParams} :
    Keeps (fun _ => True) (nasBytesToMessage lib params nasPdu)
      fun converted => ∀ r, converted = some r → HeaderKnown nasPdu := by
  by_cases hknown : HeaderKnown nasPdu
  · exact (keeps_nasBytesToMessage (permits_all (fun _ => trivial) _) nasPdu).mono
      fun _ _ _ _ => hknown
  have hheader := Classical.not_imp.mp hknown
  have hnone : integrityProtected (nasPdu.getD 1 0) = none := Classical.not_not.mp hheader.2
  have hlen : 1 < nasPdu.length := by
    by_contra hshort
    rw [List.getD_eq_default _ _ (by omega)] at hnone
    cases hnone
  rw [Keeps, nasBytesToMessage, Prog.ensures_bind, Prog.ensures_call]
  refine ⟨trivial, fun block => ?_⟩
  have hdecode : securityDecodeGsm lib params
      ⟨block.write nasHeadroom nasPdu, nasHeadroom, nasPdu.length⟩ = pure none := by
    rw [securityDecodeGsm, Pkbuf.byte_of_lt block _ (Nat.zero_lt_of_lt hlen) 0,
      Pkbuf.byte_of_lt block _ hlen 0, if_pos hheader.1, hnone]
  simp only [hdecode]
  trivial

section

variable {S : Type} {serve : S → (q : Query) → Answer q × S} {x : S × Option (List UInt8)}
  {ctx : Context}

/-- A program that parses, after what was parsed last, what is to be parsed. -/
abbrev Relays (lib : Ogs) {α : Type} (serve : S → (q : Query) → Answer q × S) (p : Processing α)
    (x : S × Option (List UInt8)) (post : α → S × Option (List UInt8) → Prop) : Prop :=
  p.wp (Prog.successionReading serve Query.parsed? (PassesOn lib)) x post

theorem ParsesNothing.relays {α : Type} {p : Processing α} {post : α → Prop}
    (h : ParsesNothing p post) : Relays lib serve p x fun a x' => post a ∧ x'.2 = x.2 :=
  h.wp_successionReading

theorem ParsesNothing.relays_of {α : Type} {p : Processing α}
    {post : α → S × Option (List UInt8) → Prop} (h : ParsesNothing p fun _ => True)
    (hpost : ∀ a x', post a x') : Relays lib serve p x post :=
  Prog.wp_mono Prog.successionReading_monotone (fun a x' _ => hpost a x') h.relays

theorem relays_nasBytesToMessage {params : NasNgapParams}
    (hx : ∀ last, x.2 = some last → PassesOn lib last nasPdu) :
    Relays lib serve (nasBytesToMessage lib params nasPdu) x fun converted x' =>
      (∀ r, converted = some r → HeaderKnown nasPdu ∧ r.2.From lib nasPdu) ∧
        x'.2 = some nasPdu := by
  have hconverts : Keeps (fun _ => True) (nasBytesToMessage lib params nasPdu) _ :=
    keeps_nasBytesToMessage (permits_all (fun _ => trivial) _) nasPdu
  have hknown : Keeps (fun _ => True) (nasBytesToMessage lib params nasPdu) _ :=
    ensures_headerKnown
  have hboth := hknown.and hconverts
  rw [nasBytesToMessage, Prog.ensures_bind, Prog.ensures_call] at hboth
  rw [Relays, nasBytesToMessage, Prog.wp_bind, Prog.wp_call]
  refine ⟨?_, ?_⟩
  · intro parsed hparsed last hlast
    cases hparsed
    exact hx last hlast
  have hrest := hboth.2 (serve x.1 (.pkbufAlloc nasPdu)).1
  have hsilent : ParsesNothing _ _ :=
    (hrest.and (?_ : ParsesNothing _ fun _ => True)).imp (fun _ h => h.2) fun _ _ => trivial
  · apply Prog.wp_mono Prog.successionReading_monotone _ hsilent.relays
    rintro converted x' ⟨hconverted, hlast⟩
    refine ⟨fun r hr => ?_, hlast⟩
    exact ⟨hconverted.1.1 r hr, (hconverted.1.2 r hr).2⟩
  apply (keeps_securityDecodeGsm (permitsAccess_parsesNothing _) _).parsesNothing.bind
  intro decoded _
  rw [Prog.ensures_bind, Prog.ensures_require]
  intro r _
  simp only
  split
  · rw [Prog.ensures_bind, Prog.ensures_require]
    intro m _
    trivial
  split
  · rw [Prog.ensures_bind, Prog.ensures_require]
    intro m _
    trivial
  · trivial

theorem Decodes.passesOn {m : GmmMessage} (h : Decodes lib nasPdu m) {parsed : List UInt8}
    (hm : ∀ payloadContainer pduSessionId,
      m = .ulNasTransport 1 payloadContainer pduSessionId → parsed = payloadContainer) :
    PassesOn lib nasPdu parsed := by
  intro payloadContainer pduSessionId hdecodes
  exact hm payloadContainer pduSessionId (h.unique hdecodes)

theorem relays_registrationRequest {mobileIdentity : MobileIdentity}
    (hx : x.2 = some nasPdu) (hdecodes : Decodes lib nasPdu (.registrationRequest mobileIdentity)) :
    Relays lib serve (nasHandleRegistrationRequest lib mobileIdentity ctx) x fun _ _ => True := by
  rw [Relays, nasHandleRegistrationRequest]
  simp only [Prog.wp_bind, Prog.wp_succession_require, Prog.wp_succession_assert, Prog.wp_call]
  intro ranUeNgapId _ imsi _ _
  refine ⟨fun v _ last hlast => ?_, ?_⟩
  · cases hx.symm.trans hlast
    exact hdecodes.passesOn fun _ _ h => by cases h
  apply (parsesNothing_dbAccess fun _ => trivial).relays_of
  intro dbPulls _
  apply ParsesNothing.relays_of (ensures_pulled fun _ => trivial)
  intro mmeUeS1apId _
  apply ParsesNothing.relays_of (ensures_pulled fun _ => trivial)
  intro opc _
  apply ParsesNothing.relays_of (ensures_pulled fun _ => trivial)
  intro key _
  apply ParsesNothing.relays_of (ensures_pulled fun _ => trivial)
  intro rand _ keys _
  apply (parsesNothing_dbAccess fun _ => trivial).relays_of
  intro _ _
  trivial

/-- The inner call is on the container itself, where the cut leaves it whole. -/
theorem relays_ulNasTransport {n : Nat} {inner : InnerHandler n}
    {payloadContainerType : UInt8} {pduSessionId : Option UInt8}
    (within : payloadContainer.length < n)
    (hinner : payloadContainerType = 1 → payloadContainer.length ≠ 0 →
      (∃ id, id ≠ 0 ∧ pduSessionId = some id) → ∀ h,
      Relays lib serve (inner (payloadContainer.take (payloadContainer.length % 256)) h ctx) x
        fun _ _ => True) :
    Relays lib serve (nasHandleUlNasTransport inner payloadContainerType payloadContainer
      pduSessionId within ctx) x fun _ _ => True := by
  rw [Relays, nasHandleUlNasTransport]
  simp only [Prog.wp_bind, Prog.wp_succession_require, Prog.wp_succession_assert]
  intro _ hnonempty id hid hassigned
  split
  · next htype =>
    rw [Prog.wp_bind]
    have hcall := hinner htype hnonempty ⟨id, hassigned, hid⟩
      (Nat.lt_of_le_of_lt (List.length_take_le' _ _) within)
    apply Prog.wp_mono Prog.successionReading_monotone _ hcall
    intro ctx' x' _
    simp only [Prog.wp_bind, Prog.wp_succession_assert, consume, Prog.wp_succession_require,
      Prog.wp_observe]
    intro _ nasPkbuf _
    trivial
  · trivial

theorem relays_nas5gmmHandler {n : Nat} {inner : InnerHandler n} {m : GmmMessage}
    {within : m.Within n} (hx : x.2 = some nasPdu) (hknown : HeaderKnown nasPdu)
    (hdecodes : Decodes lib nasPdu m)
    (hinner : ∀ payloadContainer, Transports lib nasPdu payloadContainer → ∀ h ctx,
      Relays lib serve (inner (payloadContainer.take (payloadContainer.length % 256)) h ctx) x
        fun _ _ => True) :
    Relays lib serve (nas5gmmHandler lib inner m within ctx) x fun _ _ => True := by
  cases m with
  | registrationRequest mobileIdentity => exact relays_registrationRequest hx hdecodes
  | registrationComplete => trivial
  | ulNasTransport payloadContainerType payloadContainer pduSessionId =>
      apply relays_ulNasTransport within
      rintro rfl hnonempty ⟨id, hid, rfl⟩ h
      exact hinner payloadContainer ⟨hknown, hnonempty, id, hid, hdecodes⟩ h _
  | _ =>
      apply (responding_nas5gmmHandler _).parsesNothing.relays_of fun _ _ => trivial
      trivial

/-- Where no container is too long for eight bits, whatever is parsed is what is to be parsed. -/
theorem relays_nasHandlerEntrypoint
    (hshort : ∀ c, Relation.TransGen (Transports lib) nasPdu c → c.length ≤ 255)
    (hx : ∀ last, x.2 = some last → PassesOn lib last nasPdu) :
    Relays lib serve (nasHandlerEntrypoint lib nasPdu ctx) x fun _ _ => True := by
  induction hlen : nasPdu.length using Nat.strong_induction_on generalizing nasPdu ctx x with
  | h n ih =>
      rw [nasHandlerEntrypoint, nasHandlerWith, Relays, Prog.wp_bind]
      apply Prog.wp_mono Prog.successionReading_monotone _ (relays_nasBytesToMessage hx)
      rintro converted x' ⟨hconverted, hx'⟩
      rw [Prog.wp_bind, Prog.wp_succession_require]
      rintro ⟨params, message⟩ hr
      obtain ⟨hknown, hfrom⟩ := hconverted _ hr
      have hdispatch : Relays lib serve (nasDispatch lib
          (fun inner _ ctx => nasHandlerEntrypoint lib inner ctx) message
          ⟨params, ctx.response⟩) x' fun _ _ => True := by
        cases hfrom with
        | gsm => exact (responding_nas5gsmHandler _).parsesNothing.relays_of fun _ _ => trivial
        | gmm hdecodes =>
            apply relays_nas5gmmHandler hx' hknown hdecodes
            intro payloadContainer htransports h ctx
            have hwhole := take_mod_eq_iff.mpr (hshort _ (.single htransports))
            apply ih _ (hlen ▸ h) _ _ rfl
            · intro c hc
              rw [hwhole] at hc
              exact hshort c (.head htransports hc)
            · intro last hlast
              cases hx'.symm.trans hlast
              obtain ⟨id, _, hcontainer⟩ := htransports.decodes
              exact hcontainer.passesOn fun _ _ hm => by cases hm; exact hwhole
      rw [Prog.wp_bind]
      apply Prog.wp_mono Prog.successionReading_monotone _ hdispatch
      intro handled _ _
      rw [Prog.wp_bind, Prog.wp_succession_require]
      intro ctx' _
      exact parsesNothing_nasMessageToBytes.relays_of fun _ _ => trivial

end

/-- The worker has the integrity key of its UE, and need not ask for it. -/
def Keyed (params : NasNgapParams) : Prop :=
  ∃ securityParams knasInt, params.nasSecurityParams = some securityParams ∧
    securityParams.knasInt = some knasInt

theorem Keyed.requireKnasInt {params : NasNgapParams} (h : Keyed params)
    (includeCounts : NasCounts) : requireKnasInt lib params includeCounts = pure params := by
  obtain ⟨⟨_, _, _, _, _, _⟩, knasInt, hparams, rfl⟩ := h
  rw [Worker.requireKnasInt, hparams]
  rfl

theorem Keyed.allocSecurityParams {params : NasNgapParams} (h : Keyed params) :
    params.allocSecurityParams = params := by
  obtain ⟨securityParams, knasInt, hparams, hknasInt⟩ := h
  rw [NasNgapParams.allocSecurityParams, hparams, Option.getD_some, ← hparams]

section

variable {S : Type} {serve : S → (q : Query) → Answer q × S} {x : S × Option (List UInt8)}
  {params : NasNgapParams}

theorem Relays.nas5gsSecurityDecode {protects : Bool} {pkbuf : Pkbuf}
    {post : NasNgapParams × {b : Pkbuf // b.len = pkbuf.len} → S × Option (List UInt8) → Prop}
    (h : Relays lib serve (nas5gsSecurityDecode lib params protects pkbuf) x post)
    (hkeyed : Keyed params) (hroom : 7 ≤ pkbuf.data) :
    ∃ r, r.1 = params ∧ r.2.val = pkbuf ∧ post r x := by
  rw [Relays, Worker.nas5gsSecurityDecode] at h
  split at h
  · exact ⟨_, rfl, rfl, h⟩
  split at h
  · obtain ⟨header, hheader⟩ : ∃ header, pkbuf.push 7 = some header := ⟨_, if_pos hroom⟩
    obtain ⟨fromSequence, hsequence⟩ : ∃ b, header.val.pull 6 = some b :=
      ⟨_, dif_pos (by have := header.property; omega)⟩
    obtain ⟨message, hmessage⟩ : ∃ b, fromSequence.val.pull 1 = some b :=
      ⟨_, dif_pos (by have := header.property; have := fromSequence.property; omega)⟩
    have hsame := Pkbuf.push_pull hheader hsequence hmessage
    simp only [Prog.wp_bind, Prog.wp_succession_require, Prog.wp_observe, hkeyed.requireKnasInt,
      Prog.wp_pure] at h
    obtain ⟨securityParams, knasInt, hparams, hknasInt⟩ := hkeyed
    exact ⟨_, rfl, hsame, h _ hheader _ hsequence _ hparams _ hknasInt _ hmessage⟩
  · exact ⟨_, rfl, rfl, h⟩

theorem Relays.securityDecodeGsm {nasbuf : Pkbuf}
    {post : Option (NasNgapParams × {b : Pkbuf // b.len ≤ nasbuf.len}) →
      S × Option (List UInt8) → Prop}
    (h : Relays lib serve (securityDecodeGsm lib params nasbuf) x post)
    (hkeyed : Keyed params) (hroom : 7 ≤ nasbuf.data)
    (hgmm : nasbuf.byte 0 = extendedProtocolDiscriminator5gmm)
    (hheader : integrityProtected (nasbuf.byte 1) ≠ none) :
    ∃ r, r.1 = params ∧ r.2.val = nasbuf.content ∧ post (some r) x := by
  obtain ⟨protects, hprotects⟩ := Option.ne_none_iff_exists'.mp hheader
  have hdata : 7 ≤ (if protects then nasbuf.afterPull 7 else nasbuf.kept).val.data := by
    cases protects with
    | false => exact hroom
    | true =>
        rw [if_pos rfl, Pkbuf.afterPull_val]
        split
        · exact Nat.le_trans hroom (Nat.le_add_right _ _)
        · exact hroom
  rw [Relays, Worker.securityDecodeGsm, if_pos hgmm, hprotects] at h
  simp only [Prog.wp_bind, Prog.wp_pure] at h
  obtain ⟨r, hparams, hpkbuf, hpost⟩ := Relays.nas5gsSecurityDecode h hkeyed hdata
  refine ⟨_, hparams, hpkbuf.trans ?_, hpost⟩
  rw [Pkbuf.content, hprotects]
  cases protects <;> simp [hgmm, Pkbuf.kept]

end

def plainBlock : Mem UInt8 := fun i => if i = nasHeadroom + 1 then 0 else 0x7e

/-- Surroundings that hand out such memory; the database is not asked. -/
def serveBlocks : Unit → (q : Query) → Answer q × Unit
  | _, .pkbufAlloc _ => (plainBlock, ())
  | _, .dbAccess _ => (⟨[], fun _ => .null, plainBlock⟩, ())

def plainPkbuf (nasPdu : List UInt8) : Pkbuf :=
  ⟨plainBlock.write nasHeadroom nasPdu, nasHeadroom, nasPdu.length⟩

theorem plainPkbuf_byte (nasPdu : List UInt8) (i : Nat) :
    (plainPkbuf nasPdu).byte i = nasPdu.getD i (plainBlock (nasHeadroom + i)) := by
  by_cases hlen : i < nasPdu.length
  · exact Pkbuf.byte_of_lt plainBlock nasPdu hlen _
  · rw [List.getD_eq_default _ _ (by omega)]
    exact Mem.write_outside plainBlock nasHeadroom nasPdu (nasHeadroom + i) (by omega)

theorem Decodes.plainPkbuf_byte_zero {m : GmmMessage} (h : Decodes lib nasPdu m) :
    (plainPkbuf nasPdu).byte 0 = extendedProtocolDiscriminator5gmm := by
  obtain ⟨_, hgmm, _⟩ := h
  rw [plainPkbuf_byte]
  cases nasPdu with
  | nil => rfl
  | cons b bytes =>
      rw [nasContent] at hgmm
      split at hgmm
      · next hprotected => exact hprotected.2.1
      · exact hgmm b rfl

theorem HeaderKnown.plainPkbuf_byte_one (h : HeaderKnown nasPdu)
    (hgmm : (plainPkbuf nasPdu).byte 0 = extendedProtocolDiscriminator5gmm) :
    integrityProtected ((plainPkbuf nasPdu).byte 1) ≠ none := by
  rw [plainPkbuf_byte] at hgmm ⊢
  cases nasPdu with
  | nil => decide
  | cons b bytes => exact h hgmm

theorem Decodes.content_byte_zero {m : GmmMessage} (h : Decodes lib nasPdu m) :
    (plainPkbuf nasPdu).content.byte 0 = extendedProtocolDiscriminator5gmm := by
  have hzero := h.plainPkbuf_byte_zero
  obtain ⟨_, hgmm, _⟩ := h
  have hbytes : (plainPkbuf nasPdu).content.bytes = nasContent nasPdu :=
    Pkbuf.content_bytes plainBlock nasPdu
  cases hhead : (nasContent nasPdu).head? with
  | some b =>
      rw [← hgmm b hhead]
      exact Pkbuf.head?_bytes (by rw [hbytes, hhead])
  | none =>
      -- nothing is left of the PDU, and the byte is one of the memory behind it
      have hempty : (plainPkbuf nasPdu).content.len = 0 := by
        rw [← Pkbuf.bytes_length, hbytes, List.head?_eq_none_iff.mp hhead, List.length_nil]
      rw [Pkbuf.content] at hempty ⊢
      split at hempty
      · next hprotected =>
        rw [if_pos hprotected]
        rw [Pkbuf.afterPull_val] at hempty ⊢
        split at hempty
        · next hlen =>
          rw [if_pos hlen]
          have hbehind := plainPkbuf_byte nasPdu 7
          rwa [List.getD_eq_default _ _ (Nat.sub_eq_zero_iff_le.mp hempty)] at hbehind
        · next hlen => rwa [if_neg hlen]
      · next hplain => rwa [if_neg hplain]

section

variable {last : Option (List UInt8)} {ctx : Context}

theorem Relays.nasBytesToMessage {params : NasNgapParams} {m : GmmMessage}
    {post : Option (NasNgapParams × NasUplink nasPdu.length) → Unit × Option (List UInt8) → Prop}
    (h : Relays lib serveBlocks (nasBytesToMessage lib params nasPdu) ((), last) post)
    (hkeyed : Keyed params) (hknown : HeaderKnown nasPdu) (hdecodes : Decodes lib nasPdu m) :
    (∀ l, last = some l → PassesOn lib l nasPdu) ∧
      ∃ within, post (some (params, .gmm m within)) ((), some nasPdu) := by
  rw [Relays, Worker.nasBytesToMessage, Prog.wp_bind, Prog.wp_call] at h
  refine ⟨fun l hl => h.1 nasPdu rfl l hl, ?_⟩
  have hgmm := hdecodes.plainPkbuf_byte_zero
  have hrest := h.2
  simp only [Prog.wp_bind] at hrest
  obtain ⟨⟨params', nasbuf, hlen⟩, hparams, hcontent, hmessage⟩ :=
    Relays.securityDecodeGsm hrest hkeyed (Nat.le_of_ble_eq_true rfl) hgmm
      (hknown.plainPkbuf_byte_one hgmm)
  have hbyte : nasbuf.byte 0 = extendedProtocolDiscriminator5gmm :=
    (congrArg (Pkbuf.byte · 0) hcontent).trans hdecodes.content_byte_zero
  have hbytes : nasbuf.bytes = nasContent nasPdu :=
    (congrArg Pkbuf.bytes hcontent).trans (Pkbuf.content_bytes plainBlock nasPdu)
  have hdecoded : ∃ r, lib.nas5gmmDecode nasbuf.bytes = some r ∧ r.val = m := by
    obtain ⟨within, _, hm⟩ := hdecodes
    rw [hbytes]
    exact ⟨⟨m, within⟩, hm, rfl⟩
  obtain ⟨⟨_, within⟩, hdecode, rfl⟩ := hdecoded
  subst hparams
  rw [Prog.wp_succession_require] at hmessage
  have hconverted := hmessage _ rfl
  simp only at hconverted
  rw [if_pos hbyte, Prog.wp_bind, Prog.wp_succession_require] at hconverted
  exact ⟨_, hconverted _ hdecode⟩

theorem Relays.passesOn {S : Type} {serve : S → (q : Query) → Answer q × S}
    {x : S × Option (List UInt8)} {post : Context → S × Option (List UInt8) → Prop}
    (h : Relays lib serve (nasHandlerEntrypoint lib nasPdu ctx) x post) (l : List UInt8)
    (hl : x.2 = some l) : PassesOn lib l nasPdu := by
  rw [Relays, Worker.nasHandlerEntrypoint, nasHandlerWith, Prog.wp_bind, Worker.nasBytesToMessage,
    Prog.wp_bind, Prog.wp_call] at h
  exact h.1 nasPdu rfl l hl

theorem Relays.nasHandlerEntrypoint
    (h : Relays lib serveBlocks (nasHandlerEntrypoint lib nasPdu ctx) ((), last) fun _ _ => True)
    (hkeyed : Keyed ctx.params) (htransports : Transports lib nasPdu payloadContainer) :
    payloadContainer.length ≤ 255 ∧ ∃ ctx', Keyed ctx'.params ∧
      Relays lib serveBlocks (nasHandlerEntrypoint lib payloadContainer ctx') ((), some nasPdu)
        fun _ _ => True := by
  obtain ⟨hknown, hnonempty, id, hid, hdecodes⟩ := htransports
  rw [Worker.nasHandlerEntrypoint, nasHandlerWith, Relays, Prog.wp_bind,
    hkeyed.allocSecurityParams] at h
  obtain ⟨_, within, hconverted⟩ := Relays.nasBytesToMessage h hkeyed hknown hdecodes
  rw [Prog.wp_bind, Prog.wp_succession_require] at hconverted
  have hdispatch := hconverted _ rfl
  simp only [nasDispatch, nas5gmmHandler, nasHandleUlNasTransport, Prog.wp_bind,
    Prog.wp_succession_require, Prog.wp_succession_assert] at hdispatch
  have hcall := hdispatch (by decide) hnonempty id rfl hid
  rw [if_pos trivial, Prog.wp_bind] at hcall
  have hinner : Relays lib serveBlocks (Worker.nasHandlerEntrypoint lib
      (payloadContainer.take (payloadContainer.length % 256)) _) ((), some nasPdu)
      fun _ _ => True :=
    Prog.wp_mono Prog.successionReading_monotone (fun _ _ _ => trivial) hcall
  have hwhole := hinner.passesOn nasPdu rfl payloadContainer (some id) hdecodes
  rw [hwhole] at hinner
  refine ⟨take_mod_eq_iff.mp hwhole, _, ?_, hinner⟩
  exact hkeyed

theorem Relays.length_le
    (h : Relays lib serveBlocks (Worker.nasHandlerEntrypoint lib nasPdu ctx) ((), last)
      fun _ _ => True)
    (hkeyed : Keyed ctx.params)
    (htransports : Relation.TransGen (Transports lib) nasPdu payloadContainer) :
    payloadContainer.length ≤ 255 := by
  induction htransports using Relation.TransGen.head_induction_on generalizing last ctx with
  | single htransports => exact (h.nasHandlerEntrypoint hkeyed htransports).1
  | head htransports _ ih =>
      obtain ⟨_, ctx', hkeyed', hinner⟩ := h.nasHandlerEntrypoint hkeyed htransports
      exact ih hinner hkeyed'

end

def keyedParams : NasNgapParams :=
  ⟨none, none, 0, none, some { NasSecurityParams.calloc with knasInt := some [] }⟩

/-- What is parsed in the place of a container is the container, at every level, exactly where no
container at any level has more than 255 bytes. -/
theorem passesWhole_iff (lib : Ogs) (nasPdu : List UInt8) :
    PassesWhole lib nasPdu ↔ ∀ payloadContainer,
      Relation.TransGen (Transports lib) nasPdu payloadContainer →
        payloadContainer.length ≤ 255 := by
  constructor
  · intro h payloadContainer htransports
    have hrun := h Unit serveBlocks () ⟨keyedParams, ⟨0, fun _ => .unset, 0⟩⟩
    have hrelays := (Prog.wp_successionReading _ () none).mpr hrun
    exact Relays.length_le hrelays ⟨_, _, rfl, rfl⟩ htransports
  · intro hshort S serve s ctx
    exact (Prog.wp_successionReading _ s none).mp
      (relays_nasHandlerEntrypoint hshort fun _ h => by cases h)

/-- A plain UL NAS Transport with its container and, behind it, the PDU session identity. -/
def decodeUlNasTransport : (bytes : List UInt8) → Option {m : GmmMessage // m.Within bytes.length}
  | 0x7e :: 0x00 :: 0x67 :: payloadContainerType :: high :: low :: rest =>
      let length := high.toNat * 256 + low.toNat
      match rest.drop length with
      | [0x12, pduSessionId] =>
          some ⟨.ulNasTransport (payloadContainerType &&& 0x0f) (rest.take length)
            (some pduSessionId), by
              rw [GmmMessage.Within, List.length_take]
              simp only [List.length_cons]
              omega⟩
      | _ => none
  | _ => none

/-- Libraries that decode it. -/
def Ogs.transporting : Ogs := { Ogs.reference with nas5gmmDecode := decodeUlNasTransport }

/-- A transport around 256 bytes. -/
def longTransport (payloadContainer : List UInt8) : List UInt8 :=
  0x7e :: 0x00 :: 0x67 :: 0x01 :: 0x01 :: 0x00 :: (payloadContainer ++ [0x12, 0x01])

theorem transports_longTransport (hlen : payloadContainer.length = 256) :
    Transports .transporting (longTransport payloadContainer) payloadContainer where
  header := fun _ h => by cases h
  nonempty := by omega
  decodes := by
    have hcontent : nasContent (longTransport payloadContainer) = longTransport payloadContainer :=
      if_neg fun h => by cases h.2.2
    have hdecoded : ∃ r, decodeUlNasTransport (longTransport payloadContainer) = some r ∧
        r.val = .ulNasTransport 1 payloadContainer (some 1) := by
      rw [← Option.map_eq_some_iff, longTransport, decodeUlNasTransport]
      have hlength : (0x01 : UInt8).toNat * 256 + (0x00 : UInt8).toNat = 256 := by decide
      simp only [hlength, List.drop_left' hlen, List.take_left' hlen, Option.map_some]
      rfl
    rw [← hcontent] at hdecoded
    obtain ⟨⟨_, within⟩, hdecode, rfl⟩ := hdecoded
    refine ⟨1, by decide, within, ?_, hdecode⟩
    rw [hcontent]
    rintro b h
    cases h
    rfl

/-- Of 256 bytes none is left. -/
theorem not_passesWhole_long :
    ¬ PassesWhole .transporting (longTransport (List.replicate 256 0)) := by
  intro h
  have hrun := h Unit serveBlocks () ⟨keyedParams, ⟨0, fun _ => .unset, 0⟩⟩
  have hrelays := (Prog.wp_successionReading _ () none).mpr hrun
  have hshort := Relays.nasHandlerEntrypoint hrelays ⟨_, _, rfl, rfl⟩
    (transports_longTransport List.length_replicate)
  rw [List.length_replicate] at hshort
  exact absurd hshort.1 (by decide)

end PublicCloudCore.Worker
