import PublicCloudCore.Worker.NgapHandlers

/-!
# What the handlers do in arbitrary surroundings

One statement for each function: which questions it asks, in which state it uses a response slot,
and what it leaves behind. The questions are those about the UE of the context, unless a
Registration Request is handled.
-/

namespace PublicCloudCore.Worker

open Framework CorekubeDb Libck

/-- What is decoded: a PDU with a security header is seven bytes shorter. -/
def nasContent (nasPdu : List UInt8) : List UInt8 :=
  if 7 ≤ nasPdu.length ∧ nasPdu.getD 0 0 = extendedProtocolDiscriminator5gmm ∧
    integrityProtected (nasPdu.getD 1 0) = some true then nasPdu.drop 7
  else nasPdu

inductive Decodes (lib : Ogs) (nasPdu : List UInt8) : GmmMessage → Prop
  | intro {m : GmmMessage} (within : m.Within (nasContent nasPdu).length)
      (gmm : ∀ b, (nasContent nasPdu).head? = some b → b = extendedProtocolDiscriminator5gmm)
      (decoded : lib.nas5gmmDecode (nasContent nasPdu) = some ⟨m, within⟩) : Decodes lib nasPdu m

/-- The 5GMM messages of a PDU at any level of UL NAS Transport. -/
inductive Encloses (lib : Ogs) : List UInt8 → GmmMessage → Prop
  | outer {nasPdu : List UInt8} {m : GmmMessage} : Decodes lib nasPdu m → Encloses lib nasPdu m
  | inner {nasPdu payloadContainer : List UInt8} {payloadContainerType : UInt8}
      {pduSessionId : Option UInt8} {m : GmmMessage} :
      Decodes lib nasPdu (.ulNasTransport payloadContainerType payloadContainer pduSessionId) →
      Encloses lib (payloadContainer.take (payloadContainer.length % 256)) m →
      Encloses lib nasPdu m

def NoRegistrationRequest (lib : Ogs) (nasPdu : List UInt8) : Prop :=
  ∀ mobileIdentity, ¬ Encloses lib nasPdu (.registrationRequest mobileIdentity)

/-- The items of a call that neither renames its user nor pulls anything twice. -/
structure OwnItems (pushes : List PushItem) (pulls : List ItemType) : Prop where
  keepsId : ∀ x ∈ pushes, x.type ≠ .mmeUeS1apId
  subset : pulls ⊆ workerItems
  nodup : pulls.Nodup
  pos : 0 < pulls.length

/-- Such items of a UE that has registered: they leave its mobile identity alone. -/
structure SessionItems (pushes : List PushItem) (pulls : List ItemType) : Prop
    extends OwnItems pushes pulls where
  keepsIdentity : ∀ x ∈ pushes, x.type ≠ .knh1

def PermitsAccess (lib : Ogs) (allowed : Query → Prop) (amfUeNgapId : Option UInt64) : Prop :=
  ∀ id pushes pulls, amfUeNgapId = some id → SessionItems pushes pulls →
    allowed (.dbAccess (lib.byAmfUeNgapId id pushes pulls))

/-- Blocks of memory may be asked for, and the database for the items of this UE. -/
structure Permits (lib : Ogs) (allowed : Query → Prop) (amfUeNgapId : Option UInt64) : Prop where
  block : ∀ content, allowed (.pkbufAlloc content)
  access : ∀ id pushes pulls, amfUeNgapId = some id → SessionItems pushes pulls →
    allowed (.dbAccess (lib.byAmfUeNgapId id pushes pulls))

theorem permits_all {lib : Ogs} {allowed : Query → Prop} (h : ∀ q, allowed q)
    (amfUeNgapId : Option UInt64) : Permits lib allowed amfUeNgapId :=
  ⟨fun _ => h _, fun _ _ _ _ _ => h _⟩

/-- What a Registration Request writes to the front of `mob_ident_buffer`. -/
def MobileIdentity.mobIdent (mobileIdentity : MobileIdentity) : List UInt8 :=
  [mobileIdentity.length.toUInt8, (mobileIdentity.length >>> 8).toUInt8] ++
    mobileIdentity.buffer.read 0 mobileIdentity.length.toNat

def StoresOnly (mobileIdentity : MobileIdentity) (pushes : List PushItem) : Prop :=
  ∀ x ∈ pushes, x.type = .knh1 → mobileIdentity.length ≤ 14 ∧
    ∃ block : Mem UInt8, x.item = block.write 0 mobileIdentity.mobIdent

/-- A Registration Request may ask for the items of the subscriber whose IMSI it has, and then for
those of whatever UE this turns out to be. -/
structure PermitsRegistration (lib : Ogs) (allowed : Query → Prop)
    (mobileIdentity : MobileIdentity) : Prop where
  access : ∀ imsi pushes pulls, lib.nas5gsImsiToBcd mobileIdentity = some imsi →
    OwnItems pushes pulls → StoresOnly mobileIdentity pushes →
    allowed (.dbAccess (byImsi imsi pushes pulls))
  permits : ∀ id, Permits lib allowed (some id)

def PermitsEnclosed (lib : Ogs) (allowed : Query → Prop) (nasPdu : List UInt8) : Prop :=
  ∀ mobileIdentity, Encloses lib nasPdu (.registrationRequest mobileIdentity) →
    PermitsRegistration lib allowed mobileIdentity

theorem permitsEnclosed_all {lib : Ogs} {allowed : Query → Prop} (h : ∀ q, allowed q)
    (nasPdu : List UInt8) : PermitsEnclosed lib allowed nasPdu :=
  fun _ _ => ⟨fun _ _ _ _ _ _ => h _, fun _ => permits_all h _⟩

theorem NoRegistrationRequest.permitsEnclosed {lib : Ogs} {nasPdu : List UInt8}
    (h : NoRegistrationRequest lib nasPdu) (allowed : Query → Prop) :
    PermitsEnclosed lib allowed nasPdu :=
  fun mobileIdentity henclosed => absurd henclosed (h mobileIdentity)

def Observation.Disciplined : Observation → Prop
  | .consumes c x => c.Expects x
  | _ => True

/-- A program that asks what is allowed, uses the slots as it should, and ends well. -/
abbrev Keeps {α : Type} (allowed : Query → Prop) (p : Processing α) (post : α → Prop) : Prop :=
  p.Ensures allowed Observation.Disciplined post

variable {lib : Ogs} {allowed : Query → Prop}

theorem Decodes.unique {nasPdu : List UInt8} {m m' : GmmMessage} (h : Decodes lib nasPdu m)
    (h' : Decodes lib nasPdu m') : m = m' := by
  obtain ⟨_, _, hm⟩ := h
  obtain ⟨_, _, hm'⟩ := h'
  exact congrArg Subtype.val (Option.some.inj (hm.symm.trans hm'))

theorem keeps_consume {α : Type} {c : Consumer} {view : Slot → Option α} {x : Slot}
    {post : α → Prop} (hx : c.Expects x) (hpost : ∀ a, view x = some a → post a) :
    Keeps allowed (consume c view x) post := by
  rw [Keeps, consume, Prog.ensures_bind, Prog.ensures_observe, Prog.ensures_require]
  exact ⟨hx, hpost⟩

theorem ensures_dbAccess {seen : Protection → Prop} {c : DbCall} {post : DbPulls → Prop}
    (hc : allowed (.dbAccess c)) (h : ∀ dbPulls, post dbPulls) :
    (dbAccess c).Ensures allowed seen post := by
  rw [dbAccess, Prog.ensures_bind, Prog.ensures_call]
  refine ⟨hc, fun reply => ?_⟩
  split
  · rw [Prog.ensures_bind, Prog.ensures_assert]
    exact fun _ => h _
  · exact h _

theorem ensures_pulled {seen : Observation → Prop} {dbPulls : DbPulls} {t : ItemType}
    {post : Mem UInt8 → Prop} (h : ∀ mem, post mem) :
    (pulled dbPulls t).Ensures allowed seen post := by
  rw [pulled, Handler.toProcessing, Prog.ensures_mapObservation, deref, Prog.ensures_require]
  exact fun mem _ => h mem

theorem keeps_dbAccess {c : DbCall} {post : DbPulls → Prop} (hc : allowed (.dbAccess c))
    (h : ∀ dbPulls, post dbPulls) : Keeps allowed (dbAccess c).toProcessing post := by
  rw [Keeps, Handler.toProcessing, Prog.ensures_mapObservation]
  exact ensures_dbAccess hc h

def Rekeyed (params params' : NasNgapParams) : Prop :=
  ∃ securityParams, params' = { params with nasSecurityParams := securityParams }

theorem Rekeyed.refl (params : NasNgapParams) : Rekeyed params params := ⟨_, rfl⟩

theorem Rekeyed.amfUeNgapId {params params' : NasNgapParams} (h : Rekeyed params params') :
    params'.amfUeNgapId = params.amfUeNgapId := by
  obtain ⟨_, rfl⟩ := h
  rfl

theorem Rekeyed.permits {params params' : NasNgapParams} (h : Rekeyed params params')
    (hpermits : Permits lib allowed params.amfUeNgapId) :
    Permits lib allowed params'.amfUeNgapId := by
  rwa [h.amfUeNgapId]

theorem sessionItems_pulls {pulls : List ItemType} (hsubset : pulls ⊆ workerItems)
    (hnodup : pulls.Nodup) (hpos : 0 < pulls.length) : SessionItems [] pulls where
  keepsId := fun _ h => absurd h List.not_mem_nil
  subset := hsubset
  nodup := hnodup
  pos := hpos
  keepsIdentity := fun _ h => absurd h List.not_mem_nil

theorem NasCounts.sessionItems {includeCounts : NasCounts} {pulls : List ItemType}
    (h : includeCounts.pulls = some pulls) : SessionItems [] pulls := by
  obtain ⟨⟨hsubset, hnodup⟩, hpos, _⟩ := NasCounts.pulls_plain h
  exact sessionItems_pulls hsubset hnodup hpos

section

variable {params : NasNgapParams}

theorem keeps_nasSecurityFetchKeys (haccess : PermitsAccess lib allowed params.amfUeNgapId)
    (includeCounts : NasCounts) :
    Keeps allowed (nasSecurityFetchKeys lib.toOgsSecurity params includeCounts).toProcessing
      fun fetched => ∀ params', fetched = some params' → Rekeyed params params' := by
  rw [Keeps, Handler.toProcessing, Prog.ensures_mapObservation, nasSecurityFetchKeys,
    Prog.ensures_bind, Prog.ensures_require]
  intro id hid
  cases hpulls : includeCounts.pulls with
  | none => exact fun params' h => by cases h
  | some pulls =>
      simp only
      rw [Prog.ensures_bind]
      apply ensures_dbAccess (haccess id [] pulls hid (NasCounts.sessionItems hpulls))
      intro dbPulls
      simp only [nasSecurityStoreKeysInParams, deref, copyCount_eq, Prog.ensures_bind,
        Prog.ensures_require, Prog.ensures_pure, Option.some.injEq]
      intro _ _ _ _ _ _ _ _ _ _ params' h
      exact ⟨_, h.symm⟩

theorem keeps_requireKnasInt (haccess : PermitsAccess lib allowed params.amfUeNgapId)
    (includeCounts : NasCounts) :
    Keeps allowed (requireKnasInt lib params includeCounts) (Rekeyed params) := by
  rw [Keeps, requireKnasInt, Prog.ensures_bind, Prog.ensures_require]
  intro securityParams _
  cases securityParams.knasInt with
  | some _ => exact .refl params
  | none =>
      apply (keeps_nasSecurityFetchKeys haccess includeCounts).bind
      intro fetched h
      rw [Prog.ensures_require]
      exact h

theorem keeps_nas5gsSecurityEncode (haccess : PermitsAccess lib allowed params.amfUeNgapId)
    (message : NasMessage) :
    Keeps allowed (nas5gsSecurityEncode lib params message)
      fun encoded => ∀ r, encoded = some r → Rekeyed params r.1 := by
  rw [Keeps, nas5gsSecurityEncode, Prog.ensures_bind, Prog.ensures_require]
  intro securityParams _
  cases integrityProtected message.securityHeaderType with
  | none => exact fun r h => by cases h
  | some protects =>
      cases protects with
      | false =>
          intro r h
          obtain ⟨plain, _, rfl⟩ := Option.map_eq_some_iff.mp h
          exact .refl params
      | true =>
          cases lib.nas5gsPlainEncode message with
          | none => exact fun r h => by cases h
          | some plain =>
              apply (keeps_requireKnasInt haccess .justDl).bind
              intro params' hparams'
              simp only [Prog.ensures_bind, Prog.ensures_require, Prog.ensures_observe,
                Prog.ensures_pure, Option.some.injEq]
              intro _ _ _ _
              refine ⟨trivial, ?_⟩
              intro r h
              exact h ▸ hparams'

theorem Pkbuf.push_pull {b : Pkbuf} {i j : Nat} {header : {b' : Pkbuf // b'.len = b.len + (i + j)}}
    {middle : {b' : Pkbuf // b'.len + i = header.val.len}}
    {last : {b' : Pkbuf // b'.len + j = middle.val.len}} (hheader : b.push (i + j) = some header)
    (hmiddle : header.val.pull i = some middle) (hlast : middle.val.pull j = some last) :
    last.val = b := by
  obtain ⟨mem, data, len⟩ := b
  simp only [push, pull, Option.ite_none_right_eq_some, Option.some.injEq,
    Option.dite_none_right_eq_some] at hheader hmiddle hlast
  obtain ⟨hroom, rfl⟩ := hheader
  obtain ⟨_, rfl⟩ := hmiddle
  obtain ⟨_, rfl⟩ := hlast
  simp only [Pkbuf.mk.injEq, true_and]
  omega

theorem keeps_nas5gsSecurityDecode (haccess : PermitsAccess lib allowed params.amfUeNgapId)
    (protects : Bool) (pkbuf : Pkbuf) :
    Keeps allowed (nas5gsSecurityDecode lib params protects pkbuf)
      fun decoded => Rekeyed params decoded.1 ∧ decoded.2.val = pkbuf := by
  rw [Keeps, nas5gsSecurityDecode]
  split
  · exact ⟨.refl params, rfl⟩
  split
  · simp only [Prog.ensures_bind, Prog.ensures_require]
    intro header hheader fromSequence hsequence
    apply (keeps_requireKnasInt haccess .bothUlDl).mono
    intro params' hparams'
    simp only [Prog.ensures_observe, Prog.ensures_pure]
    intro _ _ _ _
    exact ⟨trivial, fun _ hmessage => ⟨hparams', Pkbuf.push_pull hheader hsequence hmessage⟩⟩
  · exact ⟨.refl params, rfl⟩

def Pkbuf.content (b : Pkbuf) : Pkbuf :=
  if b.byte 0 = extendedProtocolDiscriminator5gmm ∧ integrityProtected (b.byte 1) = some true then
    (b.afterPull 7).val
  else b

theorem keeps_securityDecodeGsm (haccess : PermitsAccess lib allowed params.amfUeNgapId)
    (nasbuf : Pkbuf) :
    Keeps allowed (securityDecodeGsm lib params nasbuf)
      fun decoded => ∀ r, decoded = some r → Rekeyed params r.1 ∧ r.2.val = nasbuf.content := by
  rw [Keeps, securityDecodeGsm, Pkbuf.content]
  split
  · next hgmm =>
    cases hprotects : integrityProtected (nasbuf.byte 1) with
    | none => exact fun r h => by cases h
    | some protects =>
        apply (keeps_nas5gsSecurityDecode haccess protects _).bind
        intro decoded hdecoded r h
        cases h
        refine ⟨hdecoded.1, hdecoded.2.trans ?_⟩
        cases protects <;> simp [hgmm, Pkbuf.kept]
  · next hgmm =>
    intro r h
    cases h
    simp [hgmm, Rekeyed.refl, Pkbuf.kept]

theorem Pkbuf.byte_of_lt (block : Mem UInt8) (nasPdu : List UInt8) {i : Nat}
    (h : i < nasPdu.length) (d : UInt8) :
    (⟨block.write nasHeadroom nasPdu, nasHeadroom, nasPdu.length⟩ : Pkbuf).byte i =
      nasPdu.getD i d := by
  show block.write nasHeadroom nasPdu (nasHeadroom + i) = _
  rw [Mem.write_inside _ _ _ _ h, List.getD_eq_getElem _ _ h]

theorem Pkbuf.content_bytes (block : Mem UInt8) (nasPdu : List UInt8) :
    (Pkbuf.content ⟨block.write nasHeadroom nasPdu, nasHeadroom, nasPdu.length⟩).bytes =
      nasContent nasPdu := by
  have hbytes : (block.write nasHeadroom nasPdu).read nasHeadroom nasPdu.length = nasPdu :=
    Mem.read_write_same _ _ _
  rw [content, afterPull_val]
  by_cases hlen : 7 ≤ nasPdu.length
  · have hbyte : ∀ i < 7, (⟨block.write nasHeadroom nasPdu, nasHeadroom, nasPdu.length⟩ :
        Pkbuf).byte i = nasPdu.getD i 0 := fun i hi => Pkbuf.byte_of_lt block _ (by omega) 0
    have hdrop : (block.write nasHeadroom nasPdu).read (nasHeadroom + 7) (nasPdu.length - 7) =
        nasPdu.drop 7 := by
      have hsplit := Mem.read_add (block.write nasHeadroom nasPdu) nasHeadroom 7 (nasPdu.length - 7)
      rw [Nat.add_sub_cancel' hlen, hbytes] at hsplit
      have hcut := congrArg (List.drop 7) hsplit
      rwa [List.drop_left' (Mem.read_length _ _ _), eq_comm] at hcut
    simp only [nasContent, hbyte 0 (by decide), hbyte 1 (by decide), hlen, true_and, if_true]
    split
    · exact hdrop
    · exact hbytes
  · simp only [nasContent, hlen, if_false, ite_self, false_and]
    exact hbytes

theorem Pkbuf.head?_bytes {b : Pkbuf} {x : UInt8} (h : b.bytes.head? = some x) : b.byte 0 = x := by
  obtain ⟨mem, data, len⟩ := b
  cases len with
  | zero => cases h
  | succ len =>
      rw [bytes, Mem.read_succ, List.head?_cons, Option.some.injEq] at h
      exact h

inductive NasUplink.From (lib : Ogs) (nasPdu : List UInt8) : {n : Nat} → NasUplink n → Prop
  | gmm {n : Nat} {m : GmmMessage} {within : m.Within n} : Decodes lib nasPdu m →
      From lib nasPdu (.gmm m within)
  | gsm {n : Nat} {m : GsmMessage} : From lib nasPdu (.gsm m : NasUplink n)

theorem keeps_nasBytesToMessage (hpermits : Permits lib allowed params.amfUeNgapId)
    (nasPdu : List UInt8) :
    Keeps allowed (nasBytesToMessage lib params nasPdu)
      fun converted => ∀ r, converted = some r → Rekeyed params r.1 ∧ r.2.From lib nasPdu := by
  rw [Keeps, nasBytesToMessage, Prog.ensures_bind, Prog.ensures_call]
  refine ⟨hpermits.block _, fun block => ?_⟩
  apply (keeps_securityDecodeGsm hpermits.access _).bind
  intro decoded hdecoded
  simp only [Prog.ensures_bind, Prog.ensures_require]
  intro r hr
  obtain ⟨hrekeyed, hcontent⟩ := hdecoded r hr
  obtain ⟨params', ⟨nasbuf, hlen⟩⟩ := r
  subst hcontent
  have hbytes := Pkbuf.content_bytes block nasPdu
  simp only at hrekeyed ⊢
  split
  · next hgmm =>
    simp only [Prog.ensures_bind, Prog.ensures_require, Prog.ensures_pure, Option.some.injEq]
    intro m hm r h
    cases h
    refine ⟨hrekeyed, .gmm ?_⟩
    have hfirst : ∀ x, (nasContent nasPdu).head? = some x →
        x = extendedProtocolDiscriminator5gmm := by
      intro x hx
      rw [← hbytes] at hx
      exact (Pkbuf.head?_bytes hx).symm.trans hgmm
    revert m
    rw [hbytes]
    intro m hm
    exact ⟨m.property, hfirst, hm⟩
  split
  · simp only [Prog.ensures_bind, Prog.ensures_require, Prog.ensures_pure, Option.some.injEq]
    intro m _ r h
    cases h
    exact ⟨hrekeyed, .gsm⟩
  · intro r h
    cases h

end

structure Answered (kind : Slot → Prop) (r : Response) : Prop where
  few : r.numResponses ≤ 1
  slot : 0 < r.numResponses → kind (r.responses 0)

theorem Answered.single {kind : Slot → Prop} {x : Slot} (r : Response) (hx : kind x) :
    Answered kind (r.single x) := by
  constructor
  · exact Nat.le_refl _
  · intro _
    rwa [Response.single_responses_zero]

theorem Answered.of_none {kind : Slot → Prop} {r : Response} (h : r.numResponses = 0) :
    Answered kind r := by
  constructor
  · omega
  · intro hpos
    omega

structure Ready (lib : Ogs) (allowed : Query → Prop) (kind : Slot → Prop) (ctx : Context) :
    Prop where
  answered : Answered kind ctx.response
  permits : Permits lib allowed ctx.params.amfUeNgapId

/-- What a handler hands back, unless it is `OGS_ERROR`. -/
abbrev Handled (lib : Ogs) (allowed : Query → Prop) (handled : Option Context) : Prop :=
  ∀ ctx, handled = some ctx → Ready lib allowed (Consumer.Expects .nasMessageToBytes) ctx

theorem handled_none : Handled lib allowed none := fun _ h => by cases h

theorem handled_single {params : NasNgapParams} (r : Response) (m : NasMessage)
    (hpermits : Permits lib allowed params.amfUeNgapId) :
    Handled lib allowed (some ⟨params, r.single (.nasMessage m)⟩) := by
  intro ctx h
  cases h
  exact ⟨.single r ⟨m, rfl⟩, hpermits⟩

section

variable {ctx : Context}

theorem keeps_nasMessageToBytesAt {i : Nat}
    (hslot : Consumer.Expects .nasMessageToBytes (ctx.response.responses i))
    (hpermits : Permits lib allowed ctx.params.amfUeNgapId) :
    Keeps allowed (nasMessageToBytesAt lib ctx i) fun ctx' =>
      (∃ bytes, ctx'.response = ctx.response.set i (.nasBuffer bytes)) ∧
        Permits lib allowed ctx'.params.amfUeNgapId := by
  rw [Keeps, nasMessageToBytesAt, Prog.ensures_bind]
  apply keeps_consume hslot
  intro m _
  apply (keeps_nas5gsSecurityEncode hpermits.access m).bind
  intro encoded hencoded
  simp only [Prog.ensures_bind, Prog.ensures_require, Prog.ensures_pure]
  intro r hr
  exact ⟨⟨r.2, rfl⟩, (hencoded r hr).permits hpermits⟩

theorem keeps_nasMessageToBytes
    (h : Ready lib allowed (Consumer.Expects .nasMessageToBytes) ctx) :
    Keeps allowed (nasMessageToBytes lib ctx)
      (Ready lib allowed (Consumer.Expects .ngapBuilder)) := by
  rw [Keeps, nasMessageToBytes, Prog.ensures_bind, Prog.ensures_assert]
  intro hfew
  rcases Nat.le_one_iff_eq_zero_or_eq_one.mp hfew with hnone | hone
  · rw [hnone]
    exact ⟨.of_none hnone, h.permits⟩
  · rw [hone]
    have hslot := h.answered.slot (by omega)
    apply (keeps_nasMessageToBytesAt hslot h.permits).bind
    intro ctx' ⟨⟨bytes, hresponse⟩, hpermits⟩
    refine ⟨⟨?_, ?_⟩, hpermits⟩
    · rw [hresponse]
      exact hfew
    · intro _
      rw [hresponse]
      exact ⟨bytes, Response.set_responses_self _ _ _⟩

theorem sessionItems_kamf (kamf : List UInt8) : SessionItems (kamfPushes kamf) [.spgwIp] := by
  constructor
  · exact ⟨by simp [kamfPushes], by decide, by decide, by decide⟩
  · simp [kamfPushes]

theorem keeps_registrationRequest {mobileIdentity : MobileIdentity}
    (hpermits : PermitsRegistration lib allowed mobileIdentity) :
    Keeps allowed (nasHandleRegistrationRequest lib mobileIdentity ctx)
      (Handled lib allowed) := by
  rw [Keeps, nasHandleRegistrationRequest]
  simp only [Prog.ensures_bind, Prog.ensures_require, Prog.ensures_assert, Prog.ensures_call]
  intro ranUeNgapId _ imsi himsi hlen
  refine ⟨(hpermits.permits 0).block _, fun block => ?_⟩
  apply keeps_dbAccess
  · apply hpermits.access imsi _ _ himsi
    · exact ⟨by simp, by decide, by decide, by decide⟩
    · intro x hx hknh1
      simp only [List.mem_cons, List.not_mem_nil, or_false] at hx
      rcases hx with rfl | rfl
      · cases hknh1
      · exact ⟨hlen, block, rfl⟩
  intro dbPulls
  apply ensures_pulled
  intro mmeUeS1apId
  apply ensures_pulled
  intro opc
  apply ensures_pulled
  intro key
  apply ensures_pulled
  intro rand keys _
  have hkamf := sessionItems_kamf keys.2
  apply keeps_dbAccess (hpermits.access imsi _ _ himsi hkamf.toOwnItems
    fun x hx hknh1 => absurd hknh1 (hkamf.keepsIdentity x hx))
  intro _
  exact handled_single _ _ (hpermits.permits _)

theorem keeps_ulNasTransport {n : Nat} {inner : InnerHandler n} {payloadContainer : List UInt8}
    (within : payloadContainer.length < n)
    (hinner : ∀ h, Keeps allowed
      (inner (payloadContainer.take (payloadContainer.length % 256)) h ctx)
      (Ready lib allowed (Consumer.Expects .ngapBuilder)))
    (payloadContainerType : UInt8) (pduSessionId : Option UInt8) :
    Keeps allowed (nasHandleUlNasTransport inner payloadContainerType payloadContainer pduSessionId
      within ctx) (Handled lib allowed) := by
  rw [Keeps, nasHandleUlNasTransport]
  simp only [Prog.ensures_bind, Prog.ensures_require, Prog.ensures_assert]
  intro _ _ _ _ _
  split
  · apply (hinner _).bind
    intro ctx' hctx'
    simp only [Prog.ensures_bind, Prog.ensures_assert]
    intro hone
    apply keeps_consume (hctx'.answered.slot (by omega))
    intro nasPkbuf _
    exact handled_single _ _ hctx'.permits
  · exact handled_none

end

/-- The messages whose handlers answer for a UE that has registered. -/
def GmmMessage.OfSession : GmmMessage → Prop
  | registrationRequest _ => False
  | registrationComplete => False
  | ulNasTransport _ _ _ => False
  | _ => True

def GmmMessage.AnswerProtected : GmmMessage → Prop
  | authenticationResponse => True
  | securityModeComplete _ _ => True
  | ulNasTransport _ _ _ => True
  | deregistrationRequestFromUe type => type.switchOff = false
  | _ => False

inductive SessionQuery (lib : Ogs) (amfUeNgapId : Option UInt64) : Query → Prop
  | access {id : UInt64} {pushes : List PushItem} {pulls : List ItemType} :
      amfUeNgapId = some id → SessionItems pushes pulls → .epcNasSequenceNumber ∉ pulls →
      SessionQuery lib amfUeNgapId (.dbAccess (lib.byAmfUeNgapId id pushes pulls))

/-- What it makes of its context: there is no answer or a single one, and this is protected only
where it is said. -/
structure Responds (ctx : Context) (answerProtected : Prop) (ctx' : Context) : Prop where
  keys : ctx'.params.nasSecurityParams = ctx.params.nasSecurityParams
  amfUeNgapId : ctx'.params.amfUeNgapId = ctx.params.amfUeNgapId
  answer : ctx'.response.numResponses = 0 ∨ ∃ m, (¬ answerProtected → m.securityHeaderType = 0) ∧
    ctx'.response = ctx.response.single (.nasMessage m)

/-- A handler that asks no more than this, uses no slot and protects nothing. -/
abbrev Responding (lib : Ogs) (ctx : Context) (answerProtected : Prop)
    (p : Processing (Option Context)) : Prop :=
  p.Ensures (SessionQuery lib ctx.params.amfUeNgapId) (fun _ => False)
    fun handled => ∀ ctx', handled = some ctx' → Responds ctx answerProtected ctx'

section

variable {ctx : Context} {answerProtected : Prop}

theorem Responds.single {params : NasNgapParams} {m : NasMessage}
    (hkeys : params.nasSecurityParams = ctx.params.nasSecurityParams)
    (hid : params.amfUeNgapId = ctx.params.amfUeNgapId)
    (hm : ¬ answerProtected → m.securityHeaderType = 0) :
    ∀ ctx', some (⟨params, ctx.response.single (.nasMessage m)⟩ : Context) = some ctx' →
      Responds ctx answerProtected ctx' := by
  intro ctx' h
  cases h
  exact ⟨hkeys, hid, Or.inr ⟨m, hm, rfl⟩⟩

theorem responding_none : Responding lib ctx answerProtected (pure none) :=
  fun _ h => by cases h

theorem responding_access {id : UInt64} {pushes : List PushItem} {pulls : List ItemType}
    {post : DbPulls → Prop} (hid : ctx.params.amfUeNgapId = some id)
    (hitems : SessionItems pushes pulls) (hcount : .epcNasSequenceNumber ∉ pulls)
    (h : ∀ dbPulls, post dbPulls) :
    (dbAccess (lib.byAmfUeNgapId id pushes pulls)).toProcessing.Ensures
      (SessionQuery lib ctx.params.amfUeNgapId) (fun _ => False) post := by
  rw [Handler.toProcessing, Prog.ensures_mapObservation]
  exact ensures_dbAccess (.access hid hitems hcount) h

theorem responding_authenticationFailure (gmmCause : UInt8) (auts : List UInt8) :
    Responding lib ctx False (nasHandleAuthenticationFailure lib gmmCause auts ctx) := by
  rw [Responding, nasHandleAuthenticationFailure]
  simp only [Prog.ensures_bind, Prog.ensures_require, Prog.ensures_assert]
  intro _ id hid
  apply responding_access hid (sessionItems_pulls (by decide) (by decide) (by decide)) (by decide)
  intro dbPulls
  apply ensures_pulled
  intro opc
  apply ensures_pulled
  intro key
  apply ensures_pulled
  intro rand
  apply ensures_pulled
  intro knh1 keys _
  apply responding_access hid (sessionItems_kamf _) (by decide)
  intro _
  exact .single rfl rfl fun _ => rfl

theorem responding_securityModeComplete (nasMessageContainer : Bool)
    (imeisv : Option MobileIdentity) :
    Responding lib ctx True (nasHandleSecurityModeComplete lib nasMessageContainer imeisv ctx) := by
  unfold Responding nasHandleSecurityModeComplete
  split
  · exact responding_none
  simp only [Prog.ensures_bind, Prog.ensures_require]
  intro id hid
  apply responding_access hid (sessionItems_pulls (by decide) (by decide) (by decide)) (by decide)
  intro dbPulls
  apply ensures_pulled
  intro tmsi
  exact .single rfl rfl fun hprotected => absurd trivial hprotected

theorem responding_deregistrationRequest (type : DeRegistrationType) :
    Responding lib ctx (type.switchOff = false)
      (nasHandleDeregistrationRequestFromUe type ctx) := by
  rw [Responding, nasHandleDeregistrationRequestFromUe]
  simp only [Prog.ensures_bind, Prog.ensures_assert]
  intro _ _
  split
  · intro ctx' h
    cases h
    exact ⟨rfl, rfl, Or.inl rfl⟩
  · next hswitch =>
    exact .single rfl rfl fun hprotected => absurd (Bool.eq_false_iff.mpr hswitch) hprotected

theorem responding_pduSessionEstablishmentRequest (pduSessionType : UInt8) :
    Responding lib ctx False
      (nasHandlePduSessionEstablishmentRequest lib pduSessionType ctx) := by
  rw [Responding, nasHandlePduSessionEstablishmentRequest]
  simp only [Prog.ensures_bind, Prog.ensures_require, Prog.ensures_assert,
    nasPduSessionEstablishmentFetchPduIp]
  intro _ id hid
  apply responding_access hid (sessionItems_pulls (by decide) (by decide) (by decide)) (by decide)
  intro dbPulls
  apply ensures_pulled
  intro pdnIp
  exact .single rfl rfl fun _ => rfl

theorem Responding.of_withMessageType {messageType : UInt8} {p : Processing (Option Context)}
    (h : Responding lib (ctx.withMessageType messageType) answerProtected p) :
    Responding lib ctx answerProtected p :=
  h.mono fun _ hhandled ctx' hctx' =>
    ⟨(hhandled ctx' hctx').keys, (hhandled ctx' hctx').amfUeNgapId, (hhandled ctx' hctx').answer⟩

theorem responding_nas5gsmHandler (m : GsmMessage) :
    Responding lib ctx False (nas5gsmHandler lib m ctx) := by
  cases m with
  | pduSessionEstablishmentRequest pduSessionType =>
      exact (responding_pduSessionEstablishmentRequest pduSessionType).of_withMessageType
  | other messageType unhandled => exact responding_none

theorem responding_nas5gmmHandler {n : Nat} {inner : InnerHandler n} {m : GmmMessage}
    {within : m.Within n} (hm : m.OfSession) :
    Responding lib ctx m.AnswerProtected (nas5gmmHandler lib inner m within ctx) := by
  cases m with
  | registrationRequest mobileIdentity => exact hm.elim
  | registrationComplete => exact hm.elim
  | deregistrationRequestFromUe type =>
      exact (responding_deregistrationRequest type).of_withMessageType
  | authenticationResponse =>
      intro ctx' h
      cases h
      exact ⟨rfl, rfl, Or.inr ⟨_, fun hprotected => absurd trivial hprotected, rfl⟩⟩
  | authenticationFailure gmmCause auts =>
      exact (responding_authenticationFailure gmmCause auts).of_withMessageType
  | securityModeComplete nasMessageContainer imeisv =>
      exact (responding_securityModeComplete nasMessageContainer imeisv).of_withMessageType
  | ulNasTransport payloadContainerType payloadContainer pduSessionId => exact hm.elim
  | other messageType unhandled => exact responding_none

theorem Responding.keeps {p : Processing (Option Context)}
    (h : Responding lib ctx answerProtected p)
    (hpermits : Permits lib allowed ctx.params.amfUeNgapId) :
    Keeps allowed p (Handled lib allowed) := by
  apply (h.imp _ fun _ hseen => hseen.elim).mono
  · intro handled hhandled ctx' hctx'
    obtain ⟨_, hid, hanswer⟩ := hhandled ctx' hctx'
    refine ⟨?_, hid ▸ hpermits⟩
    rcases hanswer with hnone | ⟨m, _, hresponse⟩
    · exact .of_none hnone
    · rw [hresponse]
      exact .single _ ⟨m, rfl⟩
  · rintro q ⟨hid, hitems, _⟩
    exact hpermits.access _ _ _ hid hitems

end

section

variable {ctx : Context}

theorem keeps_nas5gmmHandler {nasPdu : List UInt8} {n : Nat} {inner : InnerHandler n}
    {m : GmmMessage} {within : m.Within n} (hdecodes : Decodes lib nasPdu m)
    (hpermits : Permits lib allowed ctx.params.amfUeNgapId)
    (hfresh : ctx.response.numResponses = 0)
    (henclosed : PermitsEnclosed lib allowed nasPdu)
    (hinner : ∀ payloadContainerType payloadContainer pduSessionId,
      m = .ulNasTransport payloadContainerType payloadContainer pduSessionId → ∀ h,
        Keeps allowed (inner (payloadContainer.take (payloadContainer.length % 256)) h
          (ctx.withMessageType m.messageType))
          (Ready lib allowed (Consumer.Expects .ngapBuilder))) :
    Keeps allowed (nas5gmmHandler lib inner m within ctx) (Handled lib allowed) := by
  have hpermits' : Permits lib allowed
      (ctx.withMessageType m.messageType).params.amfUeNgapId := hpermits
  cases m with
  | registrationRequest mobileIdentity =>
      exact keeps_registrationRequest (henclosed mobileIdentity (.outer hdecodes))
  | registrationComplete =>
      intro ctx' h
      cases h
      exact ⟨.of_none hfresh, hpermits⟩
  | ulNasTransport payloadContainerType payloadContainer pduSessionId =>
      exact keeps_ulNasTransport within (hinner _ _ _ rfl) payloadContainerType pduSessionId
  | _ =>
      apply (responding_nas5gmmHandler _).keeps hpermits
      trivial

theorem PermitsEnclosed.inner {nasPdu payloadContainer : List UInt8}
    {payloadContainerType : UInt8} {pduSessionId : Option UInt8}
    (h : PermitsEnclosed lib allowed nasPdu)
    (hdecodes : Decodes lib nasPdu
      (.ulNasTransport payloadContainerType payloadContainer pduSessionId)) :
    PermitsEnclosed lib allowed (payloadContainer.take (payloadContainer.length % 256)) := by
  intro mobileIdentity hinner
  exact h mobileIdentity (.inner hdecodes hinner)

/-- However deep the message is nested, `nas_handler_entrypoint` turns an empty response into at
most one encoded NAS message. -/
theorem keeps_nasHandlerEntrypoint {nasPdu : List UInt8}
    (hpermits : Permits lib allowed ctx.params.amfUeNgapId)
    (hfresh : ctx.response.numResponses = 0)
    (henclosed : PermitsEnclosed lib allowed nasPdu) :
    Keeps allowed (nasHandlerEntrypoint lib nasPdu ctx)
      (Ready lib allowed (Consumer.Expects .ngapBuilder)) := by
  induction hlen : nasPdu.length using Nat.strong_induction_on generalizing nasPdu ctx with
  | h n ih =>
      rw [nasHandlerEntrypoint, nasHandlerWith, Keeps]
      have halloc : Permits lib allowed ctx.params.allocSecurityParams.amfUeNgapId := hpermits
      apply (keeps_nasBytesToMessage halloc nasPdu).bind
      intro converted hconverted
      rw [Prog.ensures_bind, Prog.ensures_require]
      intro r hr
      obtain ⟨hrekeyed, hfrom⟩ := hconverted r hr
      obtain ⟨params, message⟩ := r
      have hpermits' : Permits lib allowed params.amfUeNgapId := hrekeyed.permits hpermits
      have hdispatch : Keeps allowed (nasDispatch lib
          (fun inner _ ctx => nasHandlerEntrypoint lib inner ctx) message
          ⟨params, ctx.response⟩) (Handled lib allowed) := by
        cases hfrom with
        | gsm =>
            apply (responding_nas5gsmHandler _).keeps
            exact hpermits'
        | gmm hdecodes =>
            apply keeps_nas5gmmHandler hdecodes
            · exact hpermits'
            · exact hfresh
            · exact henclosed
            · intro payloadContainerType payloadContainer pduSessionId hm hinner
              subst hm
              apply ih _ (hlen ▸ hinner) _ _ _ rfl
              · exact hpermits'
              · exact hfresh
              · exact henclosed.inner hdecodes
      apply hdispatch.bind
      intro handled hready
      rw [Prog.ensures_bind, Prog.ensures_require]
      intro ctx' hctx'
      exact keeps_nasMessageToBytes (hready ctx' hctx')

end

end PublicCloudCore.Worker
