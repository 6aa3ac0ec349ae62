import PublicCloudCore.Worker.ActedMessages

/-!
# The verdict on an uplink message authentication code

`nas_5gs_security_decode` compares the code of a protected PDU with the one that it calculates, and
logs a difference. Nothing else depends on the comparison, so a PDU with a wrong code is acted on
exactly where one with the right code would be.
-/

namespace PublicCloudCore.Worker

open Framework CorekubeDb Libck

structure DeclaresIntegrity (nasPdu : List UInt8) : Prop where
  whole : 7 ≤ nasPdu.length
  gmm : nasPdu.getD 0 0 = extendedProtocolDiscriminator5gmm
  protects : integrityProtected (nasPdu.getD 1 0) = some true

def receivedMac (nasPdu : List UInt8) : List UInt8 := (nasPdu.drop 2).take 4

/-- The code over what the header leaves, with the key and the uplink count of this UE. -/
def expectedMac (lib : Ogs) (u : UserInfo) (nasPdu : List UInt8) : List UInt8 :=
  lib.nasMacCalculate nasSecurityIntAlgorithm
    (lib.kdfNas5gs kdfNasIntAlg nasSecurityIntAlgorithm (u.get .kasme1 ++ u.get .kasme2))
    (getUserUeNasSequenceNumber u).toUInt32 nasSecurityAccessType3gpp nasSecurityUplinkDirection
    (nasPdu.drop 6)

/-- A PDU as it comes to `nas_handler_entrypoint`, and what its handling finds. -/
structure UplinkPdu where
  nasPdu : List UInt8
  ranUeNgapId : Option UInt64
  amfUeNgapId : Option UInt64
  responses : Nat → Slot
  sctpStreamId : UInt8
  env : Env
  world : World

namespace UplinkPdu

def context (d : UplinkPdu) : Context :=
  ⟨⟨d.ranUeNgapId, d.amfUeNgapId, 0, none, none⟩, .start d.responses d.sctpStreamId⟩

def run (lib : Ogs) (d : UplinkPdu) : Prog.Outcome Query Observation World Context :=
  (nasHandlerEntrypoint lib d.nasPdu d.context).exec (World.serve d.env) d.world

def Ignored (lib : Ogs) (d : UplinkPdu) : Prop :=
  (∀ c, .dbAccess c ∈ (d.run lib).asked → c.pushes = []) ∧
    ∀ ctx, (d.run lib).result = some ctx → ctx.response.numResponses = 0

/-- The PDU is protected, and its code is not that of its UE. -/
def Forged (lib : Ogs) (d : UplinkPdu) : Prop :=
  DeclaresIntegrity d.nasPdu ∧ ∃ id u, d.amfUeNgapId = some id ∧
    d.world.db.user? id.toUInt32 = some u ∧ expectedMac lib u d.nasPdu ≠ receivedMac d.nasPdu

end UplinkPdu

variable {lib : Ogs} {env : Env} {w : World} {ranUeNgapId : Option UInt64} {id : UInt64}
  {u : UserInfo} {nasPdu : List UInt8}

theorem UplinkPdu.ignored_iff {d : UplinkPdu} :
    d.Ignored lib ↔ (nasHandlerEntrypoint lib d.nasPdu d.context).wp (unpushed d.env) d.world
      fun ctx _ => ctx.response.numResponses = 0 := by
  rw [Prog.wp_servedReading, Ignored, run]
  refine and_congr ?_ ?_
  · constructor
    · rintro h q hq c rfl
      exact h c hq
    · intro h c hc
      exact h _ hc c rfl
  · cases ((nasHandlerEntrypoint lib d.nasPdu d.context).exec (World.serve d.env) d.world).result
      <;> simp

def keysCall (lib : Ogs) (id : UInt64) : DbCall :=
  lib.byAmfUeNgapId id [] [.kasme1, .kasme2, .epcNasSequenceNumber, .ueNasSequenceNumber]

section

variable {params params' : NasNgapParams} {w' : World}

/-- The key is there, or it is fetched. -/
def Fetches (lib : Ogs) (env : Env) (params : NasNgapParams) (w : World) (params' : NasNgapParams)
    (w' : World) : Prop :=
  ∀ post : NasNgapParams → World → Prop,
    (requireKnasInt lib params .bothUlDl).wp (unpushed env) w post ↔ post params' w'

theorem Keyed.fetches (h : Keyed params) : Fetches lib env params w params w := by
  intro post
  rw [h.requireKnasInt]
  exact Iff.rfl

theorem wp_nas5gsSecurityDecode (hfetches : Fetches lib env params w params' w')
    (hkeyed : Keyed params') {protects : Bool} {pkbuf : Pkbuf} (hroom : 7 ≤ pkbuf.data)
    (hcase : protects = true ∨ params' = params ∧ w' = w)
    {post : NasNgapParams × {b : Pkbuf // b.len = pkbuf.len} → World → Prop} :
    (nas5gsSecurityDecode lib params protects pkbuf).wp (unpushed env) w post ↔
      if pkbuf.byte 0 = extendedProtocolDiscriminator5gsm then post (params, ⟨pkbuf, rfl⟩) w
      else post (params', ⟨pkbuf, rfl⟩) w' := by
  rw [nas5gsSecurityDecode]
  by_cases hgsm : pkbuf.byte 0 = extendedProtocolDiscriminator5gsm
  · rw [if_pos hgsm, if_pos hgsm]
    exact Iff.rfl
  rw [if_neg hgsm, if_neg hgsm]
  cases protects with
  | false =>
      obtain ⟨rfl, rfl⟩ := hcase.resolve_left Bool.false_ne_true
      exact Iff.rfl
  | true =>
      obtain ⟨header, hheader⟩ : ∃ header, pkbuf.push 7 = some header := ⟨_, if_pos hroom⟩
      obtain ⟨fromSequence, hsequence⟩ : ∃ b, header.val.pull 6 = some b :=
        ⟨_, dif_pos (by have := header.property; omega)⟩
      obtain ⟨message, hmessage⟩ : ∃ b, fromSequence.val.pull 1 = some b :=
        ⟨_, dif_pos (by have := header.property; have := fromSequence.property; omega)⟩
      have hsame := Pkbuf.push_pull hheader hsequence hmessage
      have hend : (⟨message.val, by omega⟩ : {b : Pkbuf // b.len = pkbuf.len}) = ⟨pkbuf, rfl⟩ :=
        Subtype.ext hsame
      obtain ⟨sp, knasInt, hsp, hknasInt⟩ := hkeyed
      rw [if_pos rfl, ← hend]
      simp only [Prog.wp_bind, wp_unpushed_require, hheader, hsequence, Option.some.injEq,
        forall_eq']
      rw [hfetches]
      simp only [hsp, hknasInt, Option.some.injEq, forall_eq', Prog.wp_observe, hmessage,
        Prog.wp_pure]
      exact Iff.rfl

theorem Pkbuf.content_len_le (nasbuf : Pkbuf) : nasbuf.content.len ≤ nasbuf.len := by
  rw [Pkbuf.content]
  split
  · exact (nasbuf.afterPull 7).property
  · exact Nat.le_refl _

theorem wp_securityDecodeGsm (hfetches : Fetches lib env params w params' w')
    (hkeyed : Keyed params') {nasbuf : Pkbuf} (hroom : 7 ≤ nasbuf.data)
    (hcase : nasbuf.byte 0 = extendedProtocolDiscriminator5gmm ∧
      integrityProtected (nasbuf.byte 1) = some true ∨ params' = params ∧ w' = w)
    {post : NasNgapParams × {b : Pkbuf // b.len ≤ nasbuf.len} → World → Prop} :
    (securityDecodeGsm lib params nasbuf).wp (unpushed env) w
        (fun decoded w'' => ∀ r, decoded = some r → post r w'') ↔
      ((nasbuf.byte 0 = extendedProtocolDiscriminator5gmm →
          integrityProtected (nasbuf.byte 1) ≠ none) →
        if nasbuf.content.byte 0 = extendedProtocolDiscriminator5gsm then
          post (params, ⟨nasbuf.content, nasbuf.content_len_le⟩) w
        else post (params', ⟨nasbuf.content, nasbuf.content_len_le⟩) w') := by
  rw [securityDecodeGsm]
  by_cases hgmm : nasbuf.byte 0 = extendedProtocolDiscriminator5gmm
  · rw [if_pos hgmm]
    cases hprotects : integrityProtected (nasbuf.byte 1) with
    | none =>
        exact iff_of_true (fun r h => by cases h) fun h => absurd rfl (h hgmm)
    | some protects =>
        obtain ⟨content, hcontent⟩ : ∃ content, content =
          if protects then nasbuf.afterPull 7 else nasbuf.kept := ⟨_, rfl⟩
        have hsame : (⟨nasbuf.content, nasbuf.content_len_le⟩ : {b : Pkbuf // b.len ≤ nasbuf.len}) =
            content := by
          apply Subtype.ext
          simp only [hcontent, Pkbuf.content, hgmm, hprotects, true_and, Option.some.injEq]
          cases protects <;> rfl
        have hdata : 7 ≤ content.val.data := by
          rw [hcontent]
          cases protects with
          | false => exact hroom
          | true =>
              rw [if_pos rfl, Pkbuf.afterPull_val]
              split
              · exact Nat.le_trans hroom (Nat.le_add_right _ _)
              · exact hroom
        have hcase' : protects = true ∨ params' = params ∧ w' = w :=
          hcase.imp_left fun h => Option.some.inj (hprotects.symm.trans h.2)
        have hbyte : nasbuf.content.byte 0 = content.val.byte 0 :=
          congrArg (Pkbuf.byte · 0) (congrArg Subtype.val hsame)
        rw [hsame, hbyte]
        subst hcontent
        simp only [Prog.wp_bind, wp_nas5gsSecurityDecode hfetches hkeyed hdata hcase',
          Prog.wp_pure, Option.some.injEq, forall_eq', ne_eq, reduceCtorEq, not_false_eq_true,
          implies_true, forall_true_left]
  · have hkept : nasbuf.content = nasbuf := if_neg fun h => hgmm h.1
    have hsame : (⟨nasbuf.content, nasbuf.content_len_le⟩ : {b : Pkbuf // b.len ≤ nasbuf.len}) =
        nasbuf.kept := Subtype.ext hkept
    obtain ⟨rfl, rfl⟩ := hcase.resolve_left fun h => hgmm h.1
    rw [if_neg hgmm, hsame, ite_self]
    simp only [Prog.wp_pure, Option.some.injEq, forall_eq', hgmm, false_implies, forall_true_left]

theorem nasContent_length_le (nasPdu : List UInt8) :
    (nasContent nasPdu).length ≤ nasPdu.length := by
  rw [nasContent]
  split
  · rw [List.length_drop]
    exact Nat.sub_le _ _
  · exact Nat.le_refl _

theorem wp_decoded {n : Nat} {nasbuf : Pkbuf} (hlen : nasbuf.len ≤ n) {bytes : List UInt8}
    (hbytes : nasbuf.bytes = bytes) {post : NasNgapParams × NasUplink n → World → Prop} :
    ((if nasbuf.byte 0 = extendedProtocolDiscriminator5gmm then do
        let m ← Prog.require (lib.nas5gmmDecode nasbuf.bytes)
        return some (params, .gmm m.val (m.property.mono (by rwa [Pkbuf.bytes_length])))
      else if nasbuf.byte 0 = extendedProtocolDiscriminator5gsm then do
        let m ← Prog.require (lib.nas5gsmDecode nasbuf.bytes)
        return some (params, .gsm m)
      else return none : Processing (Option (NasNgapParams × NasUplink n)))).wp (unpushed env) w
        (fun converted w' => ∀ r, converted = some r → post r w') ↔
      (nasbuf.byte 0 = extendedProtocolDiscriminator5gmm →
        ∀ m within, lib.nas5gmmDecode bytes = some ⟨m, within⟩ →
          ∀ within', post (params, .gmm m within') w) ∧
      (nasbuf.byte 0 = extendedProtocolDiscriminator5gsm →
        ∀ m, lib.nas5gsmDecode bytes = some m → post (params, .gsm m) w) := by
  subst hbytes
  have hne : extendedProtocolDiscriminator5gmm ≠ extendedProtocolDiscriminator5gsm := by decide
  by_cases hgmm : nasbuf.byte 0 = extendedProtocolDiscriminator5gmm
  · simp only [hgmm, if_true, Prog.wp_bind, wp_unpushed_require, Prog.wp_pure, Option.some.injEq,
      forall_eq', hne, false_implies, and_true, forall_true_left]
    constructor
    · intro h m within hm _
      exact h ⟨m, within⟩ hm
    · intro h m hm
      exact h m.val m.property hm _
  by_cases hgsm : nasbuf.byte 0 = extendedProtocolDiscriminator5gsm
  · simp only [hgsm, hne.symm, if_true, if_false, Prog.wp_bind, wp_unpushed_require, Prog.wp_pure,
      Option.some.injEq, forall_eq', false_implies, true_and, forall_true_left]
  · simp only [hgmm, hgsm, if_false, Prog.wp_pure, false_implies, and_true, iff_true]
    exact fun r h => by cases h

/-- What a buffer with the bytes of a PDU is decoded to, that PDU is decoded to: decoders accept
none that is too short to fill the bytes which are looked at. -/
theorem decodes_pkbuf_iff (hlib : lib.MessagesDocumented) {nasbuf : Pkbuf}
    (hbyte : ∀ i < nasPdu.length, nasbuf.byte i = nasPdu.getD i 0)
    (hcontent : nasbuf.content.bytes = nasContent nasPdu) {P : GmmMessage → Prop}
    {Q : GsmMessage → Prop} :
    ((nasbuf.byte 0 = extendedProtocolDiscriminator5gmm →
          integrityProtected (nasbuf.byte 1) ≠ none) →
        (nasbuf.content.byte 0 = extendedProtocolDiscriminator5gmm →
          ∀ m within, lib.nas5gmmDecode (nasContent nasPdu) = some ⟨m, within⟩ → P m) ∧
        (nasbuf.content.byte 0 = extendedProtocolDiscriminator5gsm →
          ∀ m, lib.nas5gsmDecode (nasContent nasPdu) = some m → Q m)) ↔
      (HeaderKnown nasPdu →
        (∀ m, Decodes lib nasPdu m → P m) ∧ ∀ m, DecodesGsm lib nasPdu m → Q m) := by
  by_cases hshort : (nasContent nasPdu).length < 2
  · have hgmm := hlib.gmmHeader _ hshort
    have hgsm := hlib.gsmHeader _ hshort
    refine iff_of_true ?_ ?_
    · refine fun _ => ⟨fun _ m within hm => ?_, fun _ m hm => ?_⟩
      · cases hgmm.symm.trans hm
      · cases hgsm.symm.trans hm
    · refine fun _ => ⟨fun m hm => ?_, fun m hm => ?_⟩
      · obtain ⟨_, _, hm⟩ := hm
        cases hgmm.symm.trans hm
      · cases hgsm.symm.trans hm.decoded
  · have hlong : 2 ≤ nasPdu.length := by
      have hle := nasContent_length_le nasPdu
      omega
    obtain ⟨b, hhead⟩ : ∃ b, (nasContent nasPdu).head? = some b := by
      cases hbytes : nasContent nasPdu with
      | nil => exact absurd (by rw [hbytes]; decide) hshort
      | cons b bytes => exact ⟨b, rfl⟩
    have hfirst : nasbuf.content.byte 0 = b := Pkbuf.head?_bytes (hcontent ▸ hhead)
    rw [HeaderKnown, hbyte 0 (by omega), hbyte 1 (by omega), hfirst]
    refine imp_congr_right fun _ => and_congr ?_ ?_
    · constructor
      · rintro h m ⟨within, hgmm, hm⟩
        exact h (hgmm b hhead) m within hm
      · intro h hb m within hm
        exact h m ⟨within, fun x hx => (Option.some.inj (hhead.symm.trans hx)) ▸ hb, hm⟩
    · constructor
      · intro h m hm
        exact h (Option.some.inj (hhead.symm.trans hm.gsm)) m hm.decoded
      · intro h hb m hm
        exact h m ⟨hb ▸ hhead, hm⟩

/-- The PDU is handled as the message that it is decoded to, if it is decoded to one. -/
theorem wp_nasBytesToMessage (hlib : lib.MessagesDocumented)
    (hfetches : Fetches lib env params w params' w') (hkeyed : Keyed params')
    (hcase : DeclaresIntegrity nasPdu ∨ params' = params ∧ w' = w)
    {post : NasNgapParams × NasUplink nasPdu.length → World → Prop} :
    (nasBytesToMessage lib params nasPdu).wp (unpushed env) w
        (fun converted w'' => ∀ r, converted = some r → post r w'') ↔
      (HeaderKnown nasPdu →
        (∀ m, Decodes lib nasPdu m → ∀ within, post (params', .gmm m within) w') ∧
          ∀ m, DecodesGsm lib nasPdu m → post (params, .gsm m) w) := by
  rw [nasBytesToMessage, Prog.wp_bind, Prog.wp_call]
  obtain ⟨block, hblock⟩ : ∃ block : Mem UInt8,
    (w.serve env (.pkbufAlloc nasPdu)).1 = block := ⟨_, rfl⟩
  obtain ⟨nasbuf, hnasbuf⟩ : ∃ nasbuf : Pkbuf,
    ⟨block.write nasHeadroom nasPdu, nasHeadroom, nasPdu.length⟩ = nasbuf := ⟨_, rfl⟩
  have hroom : 7 ≤ nasbuf.data := by
    rw [← hnasbuf]
    exact Nat.le_of_ble_eq_true rfl
  have hbyte : ∀ i < nasPdu.length, nasbuf.byte i = nasPdu.getD i 0 := by
    intro i hi
    rw [← hnasbuf]
    exact Pkbuf.byte_of_lt block nasPdu hi 0
  have hcontent : nasbuf.content.bytes = nasContent nasPdu := by
    rw [← hnasbuf]
    exact Pkbuf.content_bytes block nasPdu
  have hcase' : nasbuf.byte 0 = extendedProtocolDiscriminator5gmm ∧
      integrityProtected (nasbuf.byte 1) = some true ∨ params' = params ∧ w' = w := by
    refine hcase.imp_left fun h => ?_
    have hwhole := h.whole
    rw [hbyte 0 (by omega), hbyte 1 (by omega)]
    exact ⟨h.gmm, h.protects⟩
  simp only [Prog.wp_bind, wp_unpushed_require]
  refine (and_iff_right ?_).trans ?_
  · exact fun c h => by cases h
  rw [hblock]
  subst hnasbuf
  refine (wp_securityDecodeGsm hfetches hkeyed hroom hcase').trans ?_
  have hne : extendedProtocolDiscriminator5gmm ≠ extendedProtocolDiscriminator5gsm := by decide
  refine Iff.trans ?_ (decodes_pkbuf_iff hlib hbyte hcontent)
  refine imp_congr_right fun _ => ?_
  by_cases hgsm : (Pkbuf.content ⟨block.write nasHeadroom nasPdu, nasHeadroom,
    nasPdu.length⟩).byte 0 = extendedProtocolDiscriminator5gsm
  · rw [if_pos hgsm]
    refine (wp_decoded (Pkbuf.content_len_le _) hcontent).trans ?_
    simp only [hgsm, hne.symm, false_implies, true_and]
  · rw [if_neg hgsm]
    refine (wp_decoded (Pkbuf.content_len_le _) hcontent).trans ?_
    simp only [hgsm, false_implies, and_true]

end

theorem not_acts_iff : ¬ Acts lib env w ranUeNgapId id nasPdu ↔
    (HeaderKnown nasPdu →
      (∀ m, Decodes lib nasPdu m → ¬ m.ActedOn lib env w ranUeNgapId id ∧
        ∀ payloadContainer pduSessionId,
          m = .ulNasTransport 1 payloadContainer (some pduSessionId) →
          payloadContainer.length ≠ 0 → pduSessionId ≠ 0 →
          ¬ Acts lib env w ranUeNgapId id
            (payloadContainer.take (payloadContainer.length % 256))) ∧
        ∀ m, DecodesGsm lib nasPdu m → m ≠ .pduSessionEstablishmentRequest 1) := by
  constructor
  · refine fun h hknown => ⟨fun m hm => ⟨fun hacted => ?_, ?_⟩, ?_⟩
    · exact h (.gmm hknown hm hacted)
    · rintro payloadContainer pduSessionId rfl hnonempty hassigned hacts
      exact h (.transport hknown hm hnonempty hassigned hacts)
    · rintro m hm rfl
      exact h (.gsm hknown hm)
  · intro h hacts
    cases hacts with
    | gmm hknown hm hacted => exact ((h hknown).1 _ hm).1 hacted
    | gsm hknown hm => exact (h hknown).2 _ hm rfl
    | transport hknown hm hnonempty hassigned hacts =>
        exact ((h hknown).1 _ hm).2 _ _ rfl hnonempty hassigned hacts

section

variable {post : Context → World → Prop} {ctx : Context} {params' : NasNgapParams} {w' : World}

/-- Handlers for the PDUs inside that push nothing and give no answer exactly where nothing is acted
on. -/
def InnerIgnores (lib : Ogs) (env : Env) (w : World) (u : UserInfo) (ranUeNgapId : Option UInt64)
    (id : UInt64) {n : Nat} (inner : InnerHandler n) : Prop :=
  ∀ nasPdu h ctx post, Stands w u ranUeNgapId id ctx → Keyed ctx.params →
    RefusesAnswers ctx.params.nasSecurityParams post →
    ((inner nasPdu h ctx).wp (unpushed env) w post ↔ ¬ Acts lib env w ranUeNgapId id nasPdu)

theorem wp_nas5gmmHandler_inner (hlib : lib.MessagesDocumented)
    (hctx : Stands w u ranUeNgapId id ctx) (hkeyed : Keyed ctx.params)
    (hpost : RefusesAnswers ctx.params.nasSecurityParams post) {n : Nat} {inner : InnerHandler n}
    (hinner : InnerIgnores lib env w u ranUeNgapId id inner) {m : GmmMessage}
    {within : m.Within n} :
    (nas5gmmHandler lib inner m within ctx).wp (unpushed env) w (Ends lib env post) ↔
      ¬ m.ActedOn lib env w ranUeNgapId id ∧ ∀ payloadContainer pduSessionId,
        m = .ulNasTransport 1 payloadContainer (some pduSessionId) →
        payloadContainer.length ≠ 0 → pduSessionId ≠ 0 →
        ¬ Acts lib env w ranUeNgapId id
          (payloadContainer.take (payloadContainer.length % 256)) := by
  have hctx' : Stands w u ranUeNgapId id (ctx.withMessageType m.messageType) :=
    ⟨hctx.user, hctx.ranUeNgapId, hctx.amfUeNgapId, hctx.fresh⟩
  have hkeyed' : Keyed (ctx.withMessageType m.messageType).params := hkeyed
  have hpost' : RefusesAnswers (ctx.withMessageType m.messageType).params.nasSecurityParams post :=
    hpost
  cases m with
  | ulNasTransport payloadContainerType payloadContainer pduSessionId =>
      rw [nas5gmmHandler]
      refine (wp_ulNasTransport hlib hkeyed' hpost' fun h post' hpost' =>
        hinner _ h _ post' hctx' hkeyed' hpost').trans ?_
      constructor
      · rintro h
        refine ⟨not_false, ?_⟩
        rintro _ id' ⟨⟩ hnonempty hassigned
        exact h rfl hnonempty id' rfl hassigned
      · rintro ⟨_, h⟩ rfl hnonempty id' rfl hassigned
        exact h _ id' rfl hnonempty hassigned
  | _ =>
      refine (wp_nas5gmmHandler hlib hctx hkeyed hpost fun _ _ _ hm => ?_).trans
        (and_iff_left ?_).symm
      · cases hm
      · intro _ _ hm
        cases hm

theorem Decodes.within {m : GmmMessage} (h : Decodes lib nasPdu m) : m.Within nasPdu.length := by
  obtain ⟨within, _, _⟩ := h
  exact within.mono (nasContent_length_le nasPdu)

/-- One level: the message is handled with the keys that are there behind its conversion. -/
theorem wp_nasHandlerWith (hlib : lib.MessagesDocumented) {params' : NasNgapParams} {w' : World}
    (hfetches : Fetches lib env ctx.params.allocSecurityParams w params' w')
    (hkeyed : Keyed params')
    (hcase : DeclaresIntegrity nasPdu ∨ params' = ctx.params.allocSecurityParams ∧ w' = w)
    {u₀ : UserInfo} (hbefore : Stands w u₀ ranUeNgapId id ctx)
    (hafter : Stands w' u ranUeNgapId id ⟨params', ctx.response⟩)
    (hpost : ∀ keys, keys = ctx.params.allocSecurityParams.nasSecurityParams ∨
      keys = params'.nasSecurityParams → RefusesAnswers keys post)
    {inner : InnerHandler nasPdu.length}
    (hinner : InnerIgnores lib env w' u ranUeNgapId id inner) :
    (nasHandlerWith lib nasPdu inner ctx).wp (unpushed env) w post ↔
      ¬ Acts lib env w' ranUeNgapId id nasPdu := by
  rw [nasHandlerWith, not_acts_iff]
  simp only [Prog.wp_bind, wp_unpushed_require]
  refine (wp_nasBytesToMessage hlib hfetches hkeyed hcase).trans ?_
  refine imp_congr_right fun _ => and_congr ?_ ?_
  · refine forall_congr' fun m => forall_congr' fun hm => ?_
    constructor
    · intro h
      exact (wp_nas5gmmHandler_inner hlib hafter hkeyed (hpost _ (.inr rfl)) hinner).mp
        (h hm.within)
    · intro h within
      exact (wp_nas5gmmHandler_inner hlib hafter hkeyed (hpost _ (.inr rfl)) hinner).mpr h
  · refine forall_congr' fun m => forall_congr' fun hm => ?_
    have hstands : Stands w u₀ ranUeNgapId id ⟨ctx.params.allocSecurityParams, ctx.response⟩ :=
      ⟨hbefore.user, hbefore.ranUeNgapId, hbefore.amfUeNgapId, hbefore.fresh⟩
    exact wp_nas5gsmHandler hlib hstands.user hstands.amfUeNgapId (Option.some_ne_none _)
      (hpost _ (.inl rfl)) m

theorem wp_nasHandlerEntrypoint_keyed (hlib : lib.MessagesDocumented)
    (hctx : Stands w u ranUeNgapId id ctx) (hkeyed : Keyed ctx.params)
    (hpost : RefusesAnswers ctx.params.nasSecurityParams post) :
    (nasHandlerEntrypoint lib nasPdu ctx).wp (unpushed env) w post ↔
      ¬ Acts lib env w ranUeNgapId id nasPdu := by
  induction hlen : nasPdu.length using Nat.strong_induction_on generalizing nasPdu ctx post with
  | h n ih =>
      rw [nasHandlerEntrypoint]
      have hsame := hkeyed.allocSecurityParams
      apply wp_nasHandlerWith hlib
      · rw [hsame]
        exact hkeyed.fetches
      · exact hkeyed
      · exact .inr ⟨hsame.symm, rfl⟩
      · exact hctx
      · exact hctx
      · rw [hsame]
        rintro keys (rfl | rfl) <;> exact hpost
      · intro inner h ctx' post' hctx' hkeyed' hpost'
        exact ih inner.length (hlen ▸ h) hctx' hkeyed' hpost' rfl

theorem exists_fetches (hlib : lib.toOgsSecurity.Documented)
    (hu : w.db.user? id.toUInt32 = some u) {params : NasNgapParams}
    (hid : params.amfUeNgapId = some id) (hcalloc : params.nasSecurityParams = some .calloc) :
    ∃ params', Fetches lib env params w params' (w.serve env (.dbAccess (keysCall lib id))).2 ∧
      Keyed params' ∧ params'.ranUeNgapId = params.ranUeNgapId ∧
        params'.amfUeNgapId = params.amfUeNgapId := by
  have hitems : SessionItems [] [.kasme1, .kasme2, .epcNasSequenceNumber, .ueNasSequenceNumber] :=
    sessionItems_pulls (by decide) (by decide) (by decide)
  have hknown : Known w (keysCall lib id) id.toUInt32 u :=
    hitems.known hlib hu
  obtain ⟨epc, hepc⟩ :=
    hknown.exists_pulled env (List.mem_of_elem_eq_true rfl : .epcNasSequenceNumber ∈ _)
  obtain ⟨ue, hue⟩ :=
    hknown.exists_pulled env (List.mem_of_elem_eq_true rfl : .ueNasSequenceNumber ∈ _)
  have hpulls : NasCounts.bothUlDl.pulls =
    some [.kasme1, .kasme2, .epcNasSequenceNumber, .ueNasSequenceNumber] := rfl
  obtain ⟨kamf, hwp⟩ := wp_nasSecurityFetchKeys hlib env hid hcalloc hpulls hu
  rw [← keysCall, hepc, hue] at hwp
  refine ⟨{ params with nasSecurityParams := some {
    kamf := some kamf
    knasInt := some (lib.kdfNas5gs kdfNasIntAlg nasSecurityIntAlgorithm kamf)
    knasEnc := some (lib.kdfNas5gs kdfNasEncAlg nasSecurityEncAlgorithm kamf)
    dlCount := lib.asnOctetStringToUint32 (epc.read 2 4)
    ulCount := lib.asnOctetStringToUint32 (ue.read 2 4)
    owner := id.toUInt32 } }, ?_, ⟨_, _, rfl, rfl⟩, rfl, rfl⟩
  intro post
  rw [requireKnasInt, Prog.wp_bind, wp_unpushed_require, hcalloc]
  simp only [Option.some.injEq, forall_eq', NasSecurityParams.calloc, Prog.wp_bind,
    wp_toProcessing, wp_unpushed_require]
  refine (hwp _ _ _).trans ⟨fun h => h.2 _ rfl, fun h => ⟨?_, ?_⟩⟩
  · rintro c ⟨⟩
    rfl
  · rintro _ ⟨⟩
    exact h

/-- The integrity verdict changes nothing: whether a protected PDU of this UE is ignored depends
on what its message is. -/
theorem UplinkPdu.ignored_iff_not_acts {d : UplinkPdu} (hlib : lib.MessagesDocumented)
    (hpdu : DeclaresIntegrity d.nasPdu) (hid : d.amfUeNgapId = some id)
    (hu : d.world.db.user? id.toUInt32 = some u) :
    d.Ignored lib ↔ ¬ Acts lib d.env (d.world.serve d.env (.dbAccess (keysCall lib id))).2
      d.ranUeNgapId id d.nasPdu := by
  have halloc : d.context.params.allocSecurityParams.amfUeNgapId = some id := hid
  obtain ⟨params', hfetches, hkeyed, hran, hamf⟩ :=
    @exists_fetches _ d.env _ _ _ hlib.octets hu _ halloc rfl
  have hitems : SessionItems [] [.kasme1, .kasme2, .epcNasSequenceNumber, .ueNasSequenceNumber] :=
    sessionItems_pulls (by decide) (by decide) (by decide)
  have hknown : Known d.world (keysCall lib id) id.toUInt32 u :=
    hitems.known hlib.octets hu
  obtain ⟨u', husers, _⟩ := hknown.next d.env
  have hu' : (d.world.serve d.env (.dbAccess (keysCall lib id))).2.db.user? id.toUInt32 =
      some u' := by
    rw [husers, if_pos rfl]
  rw [UplinkPdu.ignored_iff, nasHandlerEntrypoint]
  apply wp_nasHandlerWith hlib hfetches hkeyed (.inl hpdu)
  · exact ⟨hu, rfl, hid, rfl⟩
  · exact ⟨hu', hran, hamf.trans hid, rfl⟩
  · rintro keys _
    constructor
    · exact fun _ _ h => h
    · rintro ctx _ _ _ hone _ hnone
      omega
  · rintro inner h ctx post hctx hkeyed' hpost
    exact wp_nasHandlerEntrypoint_keyed hlib hctx hkeyed' hpost

end

namespace UplinkPdu

/-- A PDU whose code is wrong is ignored. -/
def EnforcesIntegrity (lib : Ogs) (d : UplinkPdu) : Prop := d.Forged lib → d.Ignored lib

/-- Nothing in the PDU is acted on, for the UE that it comes from. -/
def Harmless (lib : Ogs) (d : UplinkPdu) : Prop :=
  ∀ id, d.amfUeNgapId = some id →
    ¬ Acts lib d.env (d.world.serve d.env (.dbAccess (keysCall lib id))).2 d.ranUeNgapId id d.nasPdu

/-- A PDU with a wrong code is ignored where any other would be: it has nothing in it that is acted
on. -/
theorem enforcesIntegrity_iff (hlib : lib.MessagesDocumented) (d : UplinkPdu) :
    d.EnforcesIntegrity lib ↔ (d.Forged lib → d.Harmless lib) := by
  refine imp_congr_right fun hforged => ?_
  obtain ⟨hpdu, id, u, hid, hu, _⟩ := hforged
  rw [ignored_iff_not_acts hlib hpdu hid hu, Harmless]
  constructor
  · intro h id' hid'
    cases hid.symm.trans hid'
    exact h
  · intro h
    exact h id hid

/-- A PDU of the subscriber, in a database in which its keys are zero. -/
def ofSubscriber (nasPdu : List UInt8) : UplinkPdu where
  nasPdu
  ranUeNgapId := some 1
  amfUeNgapId := some 1
  responses _ := .unset
  sctpStreamId := 0
  env := .zero
  world := .counting 7 0

end UplinkPdu

/-- The libraries of the runs on concrete messages; a message that these leave out is encoded as a
header without elements. -/
def Ogs.answering : Ogs := { Ogs.reference with
  nas5gsPlainEncode := fun m => some ((Ogs.reference.nas5gsPlainEncode m).getD [0x7e, 0x00]) }

theorem Ogs.answering_messagesDocumented : Ogs.answering.MessagesDocumented where
  octets := OgsSecurity.reference_documented
  encodes := fun _ => Option.some_ne_none _
  gmmHeader := by
    intro bytes hlen
    simp only [answering, reference]
    split <;> simp_all
  gsmHeader := fun _ _ => rfl

theorem UplinkPdu.forged_ofSubscriber (plain : List UInt8) :
    (ofSubscriber ([0x7e, 0x01, 0x01, 0x01, 0x01, 0x01, 0x00] ++ plain)).Forged .answering := by
  have hsome : ((World.counting 7 0).db.user? 1).isSome := by decide +kernel
  obtain ⟨u, hu⟩ := Option.isSome_iff_exists.mp hsome
  refine ⟨⟨?_, rfl, rfl⟩, 1, u, rfl, hu, ?_⟩
  · exact Nat.le_add_left 7 plain.length
  · have hexpected : expectedMac .answering u (ofSubscriber
        ([0x7e, 0x01, 0x01, 0x01, 0x01, 0x01, 0x00] ++ plain)).nasPdu = [0, 0, 0, 0] := rfl
    rw [hexpected]
    exact fun h => by cases h

/-- An Authentication Response with a wrong code is answered. -/
theorem UplinkPdu.not_enforcesIntegrity_authenticationResponse :
    ¬ (ofSubscriber [0x7e, 0x01, 0x01, 0x01, 0x01, 0x01, 0x00, 0x7e, 0x00, 0x57]).EnforcesIntegrity
      .answering := by
  have hanswered : (((ofSubscriber [0x7e, 0x01, 0x01, 0x01, 0x01, 0x01, 0x00, 0x7e, 0x00, 0x57]).run
      .answering).result.map fun ctx => ctx.response.numResponses) = some 1 := by
    decide +kernel
  intro h
  obtain ⟨ctx, hctx, hone⟩ := Option.map_eq_some_iff.mp hanswered
  have hnone := (h (forged_ofSubscriber [0x7e, 0x00, 0x57])).2 ctx hctx
  omega

/-- A Registration Complete with a wrong code is ignored, as one with the right code is. -/
theorem UplinkPdu.enforcesIntegrity_registrationComplete :
    (ofSubscriber [0x7e, 0x01, 0x01, 0x01, 0x01, 0x01, 0x00, 0x7e, 0x00, 0x43]).Forged
        .answering ∧
      (ofSubscriber [0x7e, 0x01, 0x01, 0x01, 0x01, 0x01, 0x00, 0x7e, 0x00, 0x43]).EnforcesIntegrity
        .answering := by
  refine ⟨forged_ofSubscriber _, ?_⟩
  refine (enforcesIntegrity_iff Ogs.answering_messagesDocumented _).mpr fun _ id _ => ?_
  rw [not_acts_iff]
  refine fun _ => ⟨fun m hm => ?_, fun m hm => ?_⟩
  · obtain ⟨_, _, hm⟩ := hm
    cases hm
    exact ⟨not_false, fun _ _ h => by cases h⟩
  · cases hm.decoded

end PublicCloudCore.Worker
