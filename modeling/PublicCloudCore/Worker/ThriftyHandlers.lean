import PublicCloudCore.Worker.DownlinkCounts

/-!
# What the handlers do with a downlink count

One statement for each function. A fetch of the keys leaves its worker with a count that nobody has
used, a protected answer takes it, and everything else leaves it alone; so a handler is thrifty with
the counts of a UE unless it answers with a protected message inside another one.
-/

namespace PublicCloudCore.Worker

open Framework CorekubeDb Libck

variable {lib : Ogs} {key : UInt32} {held : Option UInt32}

/-- A program that neither draws a count of the UE nor protects a message of it. -/
abbrev Idle {α : Type} (key : UInt32) (p : Processing α) (post : α → Prop) : Prop :=
  p.Ensures (fun q => ∀ db, drawsCount key db q = none) (fun o => takesCount key o = none) post

theorem drawsCount_eq_none {q : Query} (h : ¬ q.PullsCount key) (db : Db) :
    drawsCount key db q = none := if_neg h

theorem drawsCount_block (content : List UInt8) (db : Db) :
    drawsCount key db (.pkbufAlloc content) = none :=
  drawsCount_eq_none (q := .pkbufAlloc content) not_false db

theorem idle_dbAccess {c : DbCall} {post : DbPulls → Prop} (hc : .epcNasSequenceNumber ∉ c.pulls)
    (h : ∀ dbPulls, post dbPulls) : Idle key (dbAccess c).toProcessing post := by
  rw [Idle, Handler.toProcessing, Prog.ensures_mapObservation]
  exact ensures_dbAccess (drawsCount_eq_none fun hpulls => hc hpulls.2) h

theorem idle_consume {α : Type} {c : Consumer} {view : Slot → Option α} {x : Slot}
    {post : α → Prop} (h : ∀ a, view x = some a → post a) : Idle key (consume c view x) post := by
  rw [Idle, consume, Prog.ensures_bind, Prog.ensures_observe, Prog.ensures_require]
  exact ⟨rfl, h⟩

/-- A handler has left the keys alone, and its answer, if there is one, is protected only where
this is said. -/
structure Answers (ctx : Context) (answerProtected : Prop) (ctx' : Context) : Prop where
  keys : ctx'.params.nasSecurityParams = ctx.params.nasSecurityParams
  plain : ¬ answerProtected → 0 < ctx'.response.numResponses →
    ∀ m, ctx'.response.responses 0 = .nasMessage m → m.securityHeaderType = 0

theorem Answers.single {ctx : Context} {params : NasNgapParams} {answerProtected : Prop}
    {m : NasMessage} (hkeys : params.nasSecurityParams = ctx.params.nasSecurityParams)
    (hm : ¬ answerProtected → m.securityHeaderType = 0) :
    Answers ctx answerProtected ⟨params, ctx.response.single (.nasMessage m)⟩ where
  keys := hkeys
  plain hprotected _ m' hm' := by
    rw [Response.single_responses_zero] at hm'
    cases hm'
    exact hm hprotected

theorem Answers.of_none {ctx ctx' : Context} {answerProtected : Prop}
    (hkeys : ctx'.params.nasSecurityParams = ctx.params.nasSecurityParams)
    (hnone : ctx'.response.numResponses = 0) : Answers ctx answerProtected ctx' where
  keys := hkeys
  plain _ hpos := by omega

section

variable {ctx : Context}

theorem idle_registrationRequest (mobileIdentity : MobileIdentity) :
    Idle key (nasHandleRegistrationRequest lib mobileIdentity ctx)
      fun handled => ∀ ctx', handled = some ctx' → Answers ctx False ctx' := by
  rw [Idle, nasHandleRegistrationRequest]
  simp only [Prog.ensures_bind, Prog.ensures_require, Prog.ensures_assert, Prog.ensures_call]
  intro ranUeNgapId _ imsi himsi hlen
  refine ⟨drawsCount_block _, fun block => ?_⟩
  apply idle_dbAccess (by simp [byImsi])
  intro dbPulls
  apply ensures_pulled
  intro mmeUeS1apId
  apply ensures_pulled
  intro opc
  apply ensures_pulled
  intro key
  apply ensures_pulled
  intro rand keys _
  apply idle_dbAccess (by simp [byImsi])
  intro _ ctx' h
  cases h
  exact .single rfl fun _ => rfl

theorem SessionQuery.drawsCount {amfUeNgapId : Option UInt64} {q : Query}
    (h : SessionQuery lib amfUeNgapId q) (db : Db) : drawsCount key db q = none := by
  obtain ⟨_, _, hcount⟩ := h
  apply drawsCount_eq_none
  intro hpulls
  exact hcount hpulls.2

theorem Responds.answers {ctx' : Context} {answerProtected : Prop}
    (h : Responds ctx answerProtected ctx') : Answers ctx answerProtected ctx' := by
  obtain ⟨hkeys, _, hnone | ⟨m, hm, hresponse⟩⟩ := h
  · exact .of_none hkeys hnone
  · refine ⟨hkeys, fun hprotected _ m' hm' => ?_⟩
    rw [hresponse, Response.single_responses_zero] at hm'
    cases hm'
    exact hm hprotected

theorem Responding.idle {answerProtected : Prop} {p : Processing (Option Context)}
    (h : Responding lib ctx answerProtected p) :
    Idle key p fun handled => ∀ ctx', handled = some ctx' → Answers ctx answerProtected ctx' := by
  apply (h.imp _ fun _ hseen => hseen.elim).mono
  · intro handled hhandled ctx' hctx'
    exact (hhandled ctx' hctx').answers
  · exact fun _ hq => hq.drawsCount

theorem idle_nas5gmmHandler {n : Nat} {inner : InnerHandler n} {m : GmmMessage}
    {within : m.Within n} (hfresh : ctx.response.numResponses = 0)
    (hm : ∀ payloadContainerType payloadContainer pduSessionId,
      m ≠ .ulNasTransport payloadContainerType payloadContainer pduSessionId) :
    Idle key (nas5gmmHandler lib inner m within ctx)
      fun handled => ∀ ctx', handled = some ctx' → Answers ctx m.AnswerProtected ctx' := by
  cases m with
  | registrationRequest mobileIdentity =>
      apply (idle_registrationRequest mobileIdentity).mono
      intro handled h ctx' hctx'
      exact ⟨(h ctx' hctx').keys, (h ctx' hctx').plain⟩
  | registrationComplete =>
      intro ctx' h
      cases h
      exact .of_none rfl hfresh
  | ulNasTransport payloadContainerType payloadContainer pduSessionId =>
      exact absurd rfl (hm payloadContainerType payloadContainer pduSessionId)
  | _ =>
      apply (responding_nas5gmmHandler _).idle
      trivial

end

/-- The keys of the UE come with a count that has not been used. -/
def Fresh (key : UInt32) (params : NasNgapParams) (held : Option UInt32) : Prop :=
  ∀ sp, params.nasSecurityParams = some sp → sp.knasInt ≠ none → sp.owner = key →
    held = some sp.dlCount

/-- What a program makes of the count that its worker holds. -/
abbrev Counting {α : Type} (key : UInt32) (p : Processing α) (held : Option UInt32)
    (post : α → Option UInt32 → Prop) : Prop :=
  p.wp (ticketReading serveDb (drawsCount key) (takesCount key)) held post

theorem Counting.mono {α : Type} {p : Processing α} {post post' : α → Option UInt32 → Prop}
    (h : Counting key p held post) (hpost : ∀ a held, post a held → post' a held) :
    Counting key p held post' :=
  Prog.wp_mono ticketReading_monotone hpost h

theorem counting_bind {α β : Type} {p : Processing α} {f : α → Processing β}
    {post : β → Option UInt32 → Prop} :
    Counting key (p >>= f) held post ↔
      Counting key p held fun a held => Counting key (f a) held post := by
  rw [Counting, Prog.wp_bind]

theorem counting_require {α : Type} {x : Option α} {post : α → Option UInt32 → Prop} :
    Counting key (Prog.require x) held post ↔ ∀ a, x = some a → post a held := by
  rw [Counting, Prog.wp_require]
  cases x <;> simp [ticketReading]

theorem counting_assert {c : Prop} [Decidable c] {post : Unit → Option UInt32 → Prop} :
    Counting key (Prog.assert c) held post ↔ (c → post () held) := by
  rw [Counting, Prog.wp_assert]
  split <;> simp [ticketReading, *]

theorem counting_call {q : Query} {post : Answer q → Option UInt32 → Prop} :
    Counting key (Prog.call q) held post ↔
      ∀ s db, post (serveDb s db q).1 ((drawsCount key db q).or held) := Iff.rfl

theorem Idle.counting {α : Type} {p : Processing α} {post : α → Prop} (h : Idle key p post)
    (held : Option UInt32) : Counting key p held fun a held' => held' = held ∧ post a :=
  h.wp_ticketReading held

theorem counting_protects {α : Type} {p : Protection} {k : Unit → Processing α}
    {post : α → Option UInt32 → Prop} (hp : p.owner = key → held = some p.dlCount)
    (hk : ∀ held, Counting key (k ()) held post) :
    Counting key (Prog.observe (.protects p) >>= k) held post := by
  rw [counting_bind, Counting, Prog.wp_observe]
  by_cases howner : p.owner = key
  · simp only [ticketReading, takesCount, Observation.protection?, if_pos howner, Option.map_some]
    exact ⟨hp howner, hk none⟩
  · simp only [ticketReading, takesCount, Observation.protection?, if_neg howner, Option.map_none]
    exact hk held

section

variable {params : NasNgapParams}

theorem counting_dbAccess {c : DbCall} (hpos : 0 < c.pulls.length)
    {post : DbPulls → Option UInt32 → Prop} :
    Counting key (dbAccess c).toProcessing held post ↔ ∀ s db,
      (serveDb s db (.dbAccess c)).1.received.length = 17 * c.pulls.length →
        post (serveDb s db (.dbAccess c)).1.pulls ((drawsCount key db (.dbAccess c)).or held) := by
  rw [Counting, Handler.toProcessing, Prog.wp_mapObservation, dbAccess, Prog.wp_bind, Prog.wp_call]
  refine forall_congr' fun s => forall_congr' fun db => ?_
  simp only [if_pos hpos, Prog.wp_bind, Prog.wp_assert, Prog.wp_pure]
  split <;> simp [Prog.Reading.comap, ticketReading, *]

theorem count_of_served (hlib : lib.toOgsSecurity.Documented) {id : UInt64} {pulls : List ItemType}
    (hsub : pulls ⊆ workerItems) (hnodup : pulls.Nodup) (hepc : .epcNasSequenceNumber ∈ pulls)
    {s : Surroundings} {db : Db}
    (hlen : (serveDb s db (.dbAccess (lib.byAmfUeNgapId id [] pulls))).1.received.length =
      17 * pulls.length) :
    ∃ u mem, db.user? id.toUInt32 = some u ∧
      (serveDb s db (.dbAccess (lib.byAmfUeNgapId id [] pulls))).1.pulls .epcNasSequenceNumber =
        .to mem ∧
      lib.asnOctetStringToUint32 (mem.read 2 4) = (getUserEpcNasSequenceNumber u).toUInt32 := by
  have hpos : 0 < pulls.length := List.length_pos_of_mem hepc
  have hplain : (lib.byAmfUeNgapId id [] pulls).Plain := ⟨hsub, hnodup⟩
  have htarget := hlib.target_byAmfUeNgapId id [] pulls
  cases hu : db.user? id.toUInt32 with
  | none =>
      have hserve := World.serve_unknown (w := ⟨db, s.response⟩) hplain htarget hu hpos s.env
      have hone : (serveDb s db (.dbAccess (lib.byAmfUeNgapId id [] pulls))).1.received = [0] :=
        congrArg (fun r => r.1.received) hserve
      rw [hone, List.length_singleton] at hlen
      omega
  | some u =>
      have hknown : Known ⟨db, s.response⟩ (lib.byAmfUeNgapId id [] pulls) id.toUInt32 u :=
        ⟨hplain, hpos, htarget, hu⟩
      obtain ⟨before, after, hsplit⟩ := List.append_of_mem hepc
      obtain ⟨mem, hptr, hcount⟩ := hknown.epcCount hlib s.env rfl hsplit
      exact ⟨u, mem, rfl, hptr, hcount⟩

theorem counting_nasSecurityFetchKeys (hlib : lib.toOgsSecurity.Documented)
    {includeCounts : NasCounts} {pulls : List ItemType} (hpulls : includeCounts.pulls = some pulls)
    (hepc : .epcNasSequenceNumber ∈ pulls) :
    Counting key (nasSecurityFetchKeys lib.toOgsSecurity params includeCounts).toProcessing held
      fun fetched held' => ∀ params', fetched = some params' → Fresh key params' held' := by
  obtain ⟨⟨hsub, hnodup⟩, hpos, _⟩ := NasCounts.pulls_plain hpulls
  simp only [Handler.toProcessing, nasSecurityFetchKeys, nasSecurityStoreKeysInParams, deref,
    copyCount_eq, hpulls, Prog.mapObservation_bind, Prog.mapObservation_require,
    Prog.mapObservation_pure, counting_bind, counting_require]
  intro id hid
  refine (counting_dbAccess hpos).mpr fun s db hlen => ?_
  obtain ⟨u, mem, hu, hptr, hcount⟩ := count_of_served hlib hsub hnodup hepc hlen
  intro sp _ kasme1 _ kasme2 _ dlCount hdlCount ulCount _ params' h sp' hsp' _ howner
  rw [hptr, countBehind, hcount, Option.some.injEq] at hdlCount
  cases h
  cases hsp'
  have hdraws : (Query.dbAccess (lib.byAmfUeNgapId id [] pulls)).PullsCount key :=
    ⟨(hlib.target_byAmfUeNgapId id [] pulls).trans (congrArg _ howner), hepc⟩
  have howner' : id.toUInt32 = key := howner
  rw [drawsCount, if_pos hdraws, ← howner', hu, ← hdlCount]
  rfl

theorem counting_requireKnasInt (hlib : lib.toOgsSecurity.Documented)
    {includeCounts : NasCounts} {pulls : List ItemType} (hpulls : includeCounts.pulls = some pulls)
    (hepc : .epcNasSequenceNumber ∈ pulls) (hfresh : Fresh key params held) :
    Counting key (requireKnasInt lib params includeCounts) held (Fresh key) := by
  rw [requireKnasInt, counting_bind, counting_require]
  intro sp _
  cases sp.knasInt with
  | some _ => exact hfresh
  | none =>
      rw [counting_bind]
      apply (counting_nasSecurityFetchKeys hlib hpulls hepc).mono
      intro fetched held' h
      rw [counting_require]
      exact h

theorem counting_nas5gsSecurityDecode (hlib : lib.toOgsSecurity.Documented)
    (hfresh : Fresh key params held) (protects : Bool) (pkbuf : Pkbuf) :
    Counting key (nas5gsSecurityDecode lib params protects pkbuf) held
      fun decoded => Fresh key decoded.1 := by
  rw [nas5gsSecurityDecode]
  split
  · exact hfresh
  split
  · simp only [counting_bind, counting_require]
    intro header _ fromSequence _
    apply (counting_requireKnasInt hlib rfl (by decide) hfresh).mono
    intro params' held' hfresh' sp _ knasInt _ message _
    exact hfresh'
  · exact hfresh

theorem counting_securityDecodeGsm (hlib : lib.toOgsSecurity.Documented)
    (hfresh : Fresh key params held) (nasbuf : Pkbuf) :
    Counting key (securityDecodeGsm lib params nasbuf) held
      fun decoded held' => ∀ r, decoded = some r → Fresh key r.1 held' := by
  rw [securityDecodeGsm]
  split
  · cases integrityProtected (nasbuf.byte 1) with
    | none => exact fun r h => by cases h
    | some protects =>
        simp only [counting_bind]
        apply (counting_nas5gsSecurityDecode hlib hfresh protects _).mono
        intro decoded held' hfresh' r h
        cases h
        exact hfresh'
  · intro r h
    cases h
    exact hfresh

theorem counting_nasBytesToMessage (hlib : lib.toOgsSecurity.Documented)
    (hfresh : Fresh key params held) (nasPdu : List UInt8) :
    Counting key (nasBytesToMessage lib params nasPdu) held
      fun converted held' => ∀ r, converted = some r → Fresh key r.1 held' := by
  rw [nasBytesToMessage, counting_bind, counting_call]
  intro s db
  rw [drawsCount_block, Option.none_or, counting_bind]
  apply (counting_securityDecodeGsm hlib hfresh _).mono
  intro decoded held' hdecoded
  simp only [counting_bind, counting_require]
  intro r hr
  have hfresh' := hdecoded r hr
  obtain ⟨params', ⟨nasbuf, hlen⟩⟩ := r
  split
  · simp only [counting_bind, counting_require]
    intro m _ r h
    cases h
    exact hfresh'
  split
  · simp only [counting_bind, counting_require]
    intro m _ r h
    cases h
    exact hfresh'
  · intro r h
    cases h

theorem counting_nas5gsSecurityEncode (hlib : lib.toOgsSecurity.Documented)
    (hfresh : Fresh key params held) (m : NasMessage) :
    Counting key (nas5gsSecurityEncode lib params m) held fun encoded held' =>
      ∀ r, encoded = some r → m.securityHeaderType = 0 → Fresh key r.1 held' := by
  rw [nas5gsSecurityEncode, counting_bind, counting_require]
  intro sp _
  cases hprotects : integrityProtected m.securityHeaderType with
  | none => exact fun r h => by cases h
  | some protects =>
      cases protects with
      | false =>
          intro r h _
          obtain ⟨plain, _, rfl⟩ := Option.map_eq_some_iff.mp h
          exact hfresh
      | true =>
          have hheader : m.securityHeaderType ≠ 0 := by
            intro h
            rw [h] at hprotects
            cases hprotects
          simp only
          cases lib.nas5gsPlainEncode m with
          | none => exact fun r h => by cases h
          | some plain =>
              simp only [counting_bind, counting_require]
              apply (counting_requireKnasInt hlib rfl (by decide) hfresh).mono
              intro params' held' hfresh' sp' hsp' knasInt hint
              apply counting_protects
              · intro howner
                exact hfresh' sp' hsp' (by simp [hint]) howner
              · intro held'' r _ hplain
                exact absurd hplain hheader

end

/-- The answer is one message at most: protected, it takes the count, and plain, it leaves it. -/
theorem counting_nasMessageToBytes (hlib : lib.toOgsSecurity.Documented) {ctx : Context}
    (hfresh : Fresh key ctx.params held) {plainly : Prop}
    (hplain : plainly → 0 < ctx.response.numResponses →
      ∀ m, ctx.response.responses 0 = .nasMessage m → m.securityHeaderType = 0) :
    Counting key (nasMessageToBytes lib ctx) held fun ctx' held' =>
      plainly → Fresh key ctx'.params held' := by
  rw [nasMessageToBytes, counting_bind, counting_assert]
  intro hfew
  rcases Nat.le_one_iff_eq_zero_or_eq_one.mp hfew with hnone | hone
  · rw [hnone]
    exact fun _ => hfresh
  · rw [hone]
    show Counting key (nasMessageToBytesAt lib ctx 0 >>= fun ctx => pure ctx) held _
    rw [counting_bind, nasMessageToBytesAt, counting_bind]
    apply ((idle_consume fun _ h => h).counting held).mono
    rintro m held' ⟨rfl, hm⟩
    rw [counting_bind]
    apply (counting_nas5gsSecurityEncode hlib hfresh m).mono
    intro encoded held' hencoded
    rw [counting_bind, counting_require]
    intro r hr hplainly
    apply hencoded r hr
    apply hplain hplainly (by omega)
    revert hm
    cases ctx.response.responses 0 <;> simp [Slot.nasMessage?]

def AnswersPlainly (lib : Ogs) (nasPdu : List UInt8) : Prop :=
  ∀ m, Decodes lib nasPdu m → ¬ m.AnswerProtected

def ProtectsOnce (lib : Ogs) (nasPdu : List UInt8) : Prop :=
  ∀ payloadContainerType payloadContainer pduSessionId,
    Decodes lib nasPdu (.ulNasTransport payloadContainerType payloadContainer pduSessionId) →
    AnswersPlainly lib (payloadContainer.take (payloadContainer.length % 256))

section

variable {ctx : Context}

theorem counting_ulNasTransport {n : Nat} {inner : InnerHandler n} {payloadContainer : List UInt8}
    (within : payloadContainer.length < n)
    (hinner : ∀ h, Counting key
      (inner (payloadContainer.take (payloadContainer.length % 256)) h ctx) held
      fun ctx' held' => Fresh key ctx'.params held')
    (payloadContainerType : UInt8) (pduSessionId : Option UInt8) :
    Counting key (nasHandleUlNasTransport inner payloadContainerType payloadContainer pduSessionId
      within ctx) held fun handled held' =>
        ∀ ctx', handled = some ctx' → Fresh key ctx'.params held' := by
  rw [nasHandleUlNasTransport]
  simp only [counting_bind, counting_require, counting_assert]
  intro _ _ _ _ _
  split
  · rw [counting_bind]
    apply (hinner _).mono
    intro ctx' held' hfresh
    simp only [counting_bind, counting_assert]
    intro _
    apply ((idle_consume fun _ _ => trivial).counting held').mono
    rintro nasPkbuf held'' ⟨rfl, _⟩ ctx'' h
    cases h
    exact hfresh
  · intro ctx' h
    cases h

/-- The context has fresh keys, and its answer is plain where the one to the PDU is. -/
structure FreshAnswer (lib : Ogs) (key : UInt32) (nasPdu : List UInt8) (ctx : Context)
    (held : Option UInt32) : Prop where
  fresh : Fresh key ctx.params held
  plain : AnswersPlainly lib nasPdu → 0 < ctx.response.numResponses →
    ∀ m, ctx.response.responses 0 = .nasMessage m → m.securityHeaderType = 0

theorem Idle.freshAnswer {p : Processing (Option Context)} {answerProtected : Prop}
    {nasPdu : List UInt8} (h : Idle key p fun handled => ∀ ctx', handled = some ctx' →
      Answers ctx answerProtected ctx')
    (hplain : AnswersPlainly lib nasPdu → ¬ answerProtected) (hfresh : Fresh key ctx.params held) :
    Counting key p held fun handled held =>
      ∀ ctx', handled = some ctx' → FreshAnswer lib key nasPdu ctx' held := by
  apply (h.counting held).mono
  rintro handled held ⟨rfl, hhandled⟩ ctx' hctx'
  have hanswers := hhandled ctx' hctx'
  constructor
  · intro sp hsp
    exact hfresh sp (hanswers.keys.symm.trans hsp)
  · intro hplainly
    exact hanswers.plain (hplain hplainly)

theorem counting_nasDispatch {nasPdu : List UInt8} {n : Nat} {inner : InnerHandler n}
    {message : NasUplink n} (hmessage : message.From lib nasPdu)
    (hnone : ctx.response.numResponses = 0) (hfresh : Fresh key ctx.params held)
    (hinner : ∀ payloadContainerType payloadContainer pduSessionId,
      Decodes lib nasPdu (.ulNasTransport payloadContainerType payloadContainer pduSessionId) →
      ∀ h ctx held, ctx.response.numResponses = 0 → Fresh key ctx.params held →
        Counting key (inner (payloadContainer.take (payloadContainer.length % 256)) h ctx) held
          fun ctx' held' => Fresh key ctx'.params held') :
    Counting key (nasDispatch lib inner message ctx) held fun handled held =>
      ∀ ctx', handled = some ctx' → FreshAnswer lib key nasPdu ctx' held := by
  cases hmessage with
  | gsm => exact (responding_nas5gsmHandler _).idle.freshAnswer (fun _ => not_false) hfresh
  | @gmm m within hdecodes =>
      by_cases htransport : ∃ payloadContainerType payloadContainer pduSessionId,
          m = .ulNasTransport payloadContainerType payloadContainer pduSessionId
      · obtain ⟨payloadContainerType, payloadContainer, pduSessionId, rfl⟩ := htransport
        have hhandler : Counting key (nasHandleUlNasTransport inner payloadContainerType
            payloadContainer pduSessionId within (ctx.withMessageType 103)) held _ :=
          counting_ulNasTransport within
            (fun h => hinner _ _ _ hdecodes h (ctx.withMessageType 103) held hnone hfresh)
            payloadContainerType pduSessionId
        apply hhandler.mono
        intro handled held h ctx' hctx'
        exact ⟨h ctx' hctx', fun hplainly => absurd trivial (hplainly _ hdecodes)⟩
      · have hidle : Idle key (nas5gmmHandler lib inner m within ctx) _ :=
          idle_nas5gmmHandler hnone fun _ _ _ hm => htransport ⟨_, _, _, hm⟩
        exact hidle.freshAnswer (fun hplainly => hplainly m hdecodes) hfresh

theorem Fresh.alloc {params : NasNgapParams} (h : Fresh key params held) :
    Fresh key params.allocSecurityParams held := by
  intro sp hsp hint
  cases hold : params.nasSecurityParams with
  | none =>
      rw [NasNgapParams.allocSecurityParams, hold] at hsp
      cases hsp
      exact absurd rfl hint
  | some sp' =>
      rw [NasNgapParams.allocSecurityParams, hold] at hsp
      cases hsp
      exact h _ hold hint

/-- The handling of a PDU, where the PDUs inside leave the count alone. -/
theorem counting_nasHandlerWith (hlib : lib.toOgsSecurity.Documented) {nasPdu : List UInt8}
    {inner : InnerHandler nasPdu.length} (hnone : ctx.response.numResponses = 0)
    (hfresh : Fresh key ctx.params held)
    (hinner : ∀ payloadContainerType payloadContainer pduSessionId,
      Decodes lib nasPdu (.ulNasTransport payloadContainerType payloadContainer pduSessionId) →
      ∀ h ctx held, ctx.response.numResponses = 0 → Fresh key ctx.params held →
        Counting key (inner (payloadContainer.take (payloadContainer.length % 256)) h ctx) held
          fun ctx' held' => Fresh key ctx'.params held') :
    Counting key (nasHandlerWith lib nasPdu inner ctx) held fun ctx' held' =>
      AnswersPlainly lib nasPdu → Fresh key ctx'.params held' := by
  have hconverts : Keeps (fun _ => True) (nasBytesToMessage lib ctx.params.allocSecurityParams nasPdu)
      _ := keeps_nasBytesToMessage (permits_all (fun _ => trivial) _) nasPdu
  have hboth : Counting key (nasBytesToMessage lib ctx.params.allocSecurityParams nasPdu) held _ :=
    hconverts.wp_ticketReading_and (counting_nasBytesToMessage hlib hfresh.alloc nasPdu)
  rw [nasHandlerWith, counting_bind]
  apply hboth.mono
  rintro converted held ⟨hfrom, hconverted⟩
  rw [counting_bind, counting_require]
  intro r hr
  obtain ⟨params, message⟩ := r
  have hdispatch : Counting key (nasDispatch lib inner message ⟨params, ctx.response⟩) held _ :=
    counting_nasDispatch (hfrom _ hr).2 hnone (hconverted _ hr) hinner
  rw [counting_bind]
  apply hdispatch.mono
  intro handled held hhandled
  rw [counting_bind, counting_require]
  intro ctx' hctx'
  have hanswer := hhandled ctx' hctx'
  exact counting_nasMessageToBytes hlib hanswer.fresh hanswer.plain

/-- A PDU whose answer is plain leaves the count for another one. -/
theorem counting_answersPlainly (hlib : lib.toOgsSecurity.Documented) {nasPdu : List UInt8}
    (hplainly : AnswersPlainly lib nasPdu) (hnone : ctx.response.numResponses = 0)
    (hfresh : Fresh key ctx.params held) :
    Counting key (nasHandlerEntrypoint lib nasPdu ctx) held
      fun ctx' held' => Fresh key ctx'.params held' := by
  rw [nasHandlerEntrypoint]
  apply (counting_nasHandlerWith hlib hnone hfresh ?_).mono
  · intro ctx' held' h
    exact h hplainly
  · intro _ _ _ hdecodes
    exact absurd trivial (hplainly _ hdecodes)

theorem counting_nasHandlerEntrypoint (hlib : lib.toOgsSecurity.Documented) {nasPdu : List UInt8}
    (honce : ProtectsOnce lib nasPdu) (hnone : ctx.response.numResponses = 0)
    (hfresh : Fresh key ctx.params held) :
    Counting key (nasHandlerEntrypoint lib nasPdu ctx) held fun _ _ => True := by
  rw [nasHandlerEntrypoint]
  apply (counting_nasHandlerWith hlib hnone hfresh ?_).mono
  · intro _ _ _
    trivial
  · intro _ _ _ hdecodes _ ctx held hnone hfresh
    exact counting_answersPlainly hlib (honce _ _ _ hdecodes) hnone hfresh

end

theorem idle_downlinkNasTransport {amfUeNgapId ranUeNgapId : UInt64} {x : Slot} :
    Idle key (ngapBuildDownlinkNasTransport amfUeNgapId ranUeNgapId x) fun _ => True := by
  rw [Idle, ngapBuildDownlinkNasTransport]
  simp only [Prog.ensures_bind, Prog.ensures_assert]
  intro _ _
  exact idle_consume fun _ _ => trivial

theorem idle_initialContextSetupRequest {amfUeNgapId ranUeNgapId : UInt64}
    {kgnb maskedImeisv : List UInt8} {x : Slot} :
    Idle key (ngapBuildInitialContextSetupRequest amfUeNgapId ranUeNgapId kgnb maskedImeisv x)
      fun _ => True := by
  rw [Idle, ngapBuildInitialContextSetupRequest]
  simp only [Prog.ensures_bind, Prog.ensures_assert]
  intro _ _
  exact idle_consume fun _ _ => trivial

theorem idle_pduSessionResourceSetupRequest {amfUeNgapId ranUeNgapId : UInt64} {x : Slot} :
    Idle key (ngapBuildPduSessionResourceSetupRequest lib amfUeNgapId ranUeNgapId x)
      fun _ => True := by
  rw [Idle, ngapBuildPduSessionResourceSetupRequest]
  simp only [Prog.ensures_bind, Prog.ensures_assert, Prog.ensures_require,
    nasBuildNgapPduSessionResourceSetupRequestTransfer]
  intro _ _
  apply idle_consume
  intro nasPdu _
  apply idle_dbAccess (by simp [OgsSecurity.byAmfUeNgapId])
  intro dbPulls
  apply ensures_pulled
  intro epcTeid
  apply ensures_pulled
  intro spgwIp transfer _
  trivial

theorem idle_uplinkNasTransportResponse {amfUeNgapId ranUeNgapId : UInt64} (ctx : Context) :
    Idle key (uplinkNasTransportResponse lib amfUeNgapId ranUeNgapId ctx) fun _ => True := by
  unfold Idle uplinkNasTransportResponse
  simp only
  split
  · simp only [Prog.ensures_bind, Prog.ensures_assert, Prog.ensures_require]
    intro _ _ _ _ _ _ _
    exact idle_initialContextSetupRequest.mono fun _ _ => trivial
  split
  · simp only [Prog.ensures_bind, Prog.ensures_assert, Prog.ensures_require]
    intro _ id _
    exact idle_pduSessionResourceSetupRequest.mono fun _ _ => trivial
  split
  · simp
  split
  · rw [Prog.ensures_bind, Prog.ensures_require]
    intro id _
    split
    · exact idle_downlinkNasTransport.bind fun _ _ => trivial
    · trivial
  · simp only [Prog.ensures_bind, Prog.ensures_assert, Prog.ensures_require]
    intro _ id _
    exact idle_downlinkNasTransport.mono fun _ _ => trivial

theorem idle_pduSessionResourceSetupResponse (ies : List ProtocolIe) (response : Response) :
    Idle key (ngapHandlePduSessionResourceSetupResponse lib ies response) fun _ => True := by
  rw [Idle, ngapHandlePduSessionResourceSetupResponse]
  simp only [Prog.ensures_bind, Prog.ensures_require]
  intro amfUeNgapId _ items _
  refine (Prog.Ensures.forM fun item _ => ?_).mono fun _ _ => trivial
  simp only [Prog.ensures_bind, Prog.ensures_assert, Prog.ensures_require,
    ngapHandleResponseTransfer]
  intro _ decoded _ gtpTunnel _ _
  apply idle_dbAccess (by simp [OgsSecurity.byAmfUeNgapId])
  intro _
  trivial

theorem idle_encodeResponses (response : Response) :
    Idle key ((List.range response.numResponses).foldlM (messageToBytes lib) response)
      fun _ => True := by
  refine Prog.Ensures.foldlM (I := fun _ _ => True) trivial fun r i _ _ => ?_
  rw [messageToBytes, Prog.ensures_bind]
  exact idle_consume fun _ _ => trivial

def NgapUplink.ProtectsOnce (lib : Ogs) (message : NgapUplink) : Prop :=
  ∀ nasPdu, message.nasPdu? = some nasPdu → Worker.ProtectsOnce lib nasPdu

theorem Idle.thrifty {α : Type} {p : Processing α} {post : α → Prop} (h : Idle key p post)
    (held : Option UInt32) : Counting key p held fun _ _ => True :=
  (h.counting held).mono fun _ _ _ => trivial

theorem counting_ngapMessageHandler (hlib : lib.toOgsSecurity.Documented) {message : NgapUplink}
    (honce : message.ProtectsOnce lib) (response : Response)
    (hnone : response.numResponses = 0) :
    Counting key (ngapMessageHandler lib message response) held fun _ _ => True := by
  have hsome : ∀ {p : Processing Response}, Counting key p held (fun _ _ => True) →
      Counting key (some <$> p) held fun _ _ => True := by
    intro p hp
    show Counting key (p >>= fun r => pure (some r)) held _
    rw [counting_bind]
    exact hp.mono fun _ _ _ => trivial
  have hfresh : ∀ ranUeNgapId amfUeNgapId,
      Fresh key ⟨ranUeNgapId, amfUeNgapId, 0, none, none⟩ held := by
    intro _ _ sp hsp
    cases hsp
  cases message with
  | initiatingMessage m =>
      cases m with
      | ngSetupRequest ies => exact trivial
      | initialUeMessage ies =>
          apply hsome
          rw [ngapHandleInitialUeMessage]
          simp only [counting_bind, counting_require, counting_assert]
          intro ranUeNgapId _ nr _ _ nasPdu hnasPdu
          apply (counting_nasHandlerEntrypoint hlib (honce nasPdu hnasPdu) hnone (hfresh _ _)).mono
          intro ctx held' _ _ amfUeNgapId _
          exact (idle_downlinkNasTransport.thrifty held').mono fun _ _ _ => trivial
      | uplinkNasTransport ies =>
          apply hsome
          rw [ngapHandleUplinkNasTransport]
          simp only [counting_bind, counting_require, counting_assert]
          intro ranUeNgapId _ amfUeNgapId _ nr _ _ nasPdu hnasPdu
          apply (counting_nasHandlerEntrypoint hlib (honce nasPdu hnasPdu) hnone (hfresh _ _)).mono
          intro ctx held' _
          exact (idle_uplinkNasTransportResponse ctx).thrifty held'
      | other => exact trivial
  | successfulOutcome m =>
      cases m with
      | initialContextSetupResponse => exact trivial
      | pduSessionResourceSetupResponse ies =>
          apply hsome
          exact (idle_pduSessionResourceSetupResponse ies _).thrifty held
      | ueContextReleaseComplete => exact trivial
      | other => exact trivial
  | other => exact trivial

theorem counting_handleNgapMessage (hlib : lib.toOgsSecurity.Documented) {message : NgapUplink}
    (honce : message.ProtectsOnce lib) (response : Response)
    (hnone : response.numResponses = 0) :
    Counting key (handleNgapMessage lib message response) held fun _ _ => True := by
  rw [handleNgapMessage, counting_bind]
  apply (counting_ngapMessageHandler hlib honce response hnone).mono
  intro handled held' _
  rw [counting_bind, counting_require]
  intro r _
  exact (idle_encodeResponses r).thrifty held'

end PublicCloudCore.Worker
