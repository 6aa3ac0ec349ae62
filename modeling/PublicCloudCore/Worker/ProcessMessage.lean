import PublicCloudCore.Frontend.Messages
import PublicCloudCore.Worker.NgapSurvival

/-!
# The worker and its datagrams

`udp_listener.c`: `process_message` passes what is behind the tag to the NGAP handler and sends each
of the encoded responses behind the same tag. A failing assertion, wherever it is, ends the process,
and with it the handling of all later datagrams.
-/

namespace PublicCloudCore.Worker

open Framework CorekubeDb Libck

def Slot.ngapBuffer? : Slot → Option (List UInt8)
  | ngapBuffer encoded => encoded
  | _ => none

/-- One turn of the loop that sends the responses: a null pointer is followed, and `sendto` has to
take the datagram. -/
def sendResponse (buffer : List UInt8) (response : Response) (sent : List (List UInt8)) (i : Nat) :
    Processing (List (List UInt8)) := do
  let responseBuffer ← Prog.require (response.responses i).ngapBuffer?
  let responseOut := Frontend.responseOut buffer response.sctpStreamId responseBuffer
  Prog.assert (responseOut.length ≤ Frontend.udpMaxLen)
  return sent ++ [responseOut]

/-- The datagrams that are sent in answer to one. Fewer than four bytes leave a negative length. -/
def processMessage (lib : Ogs) (buffer : List UInt8) (responses : Nat → Slot)
    (sctpStreamId : UInt8) : Processing (List (List UInt8)) := do
  Prog.assert (4 ≤ buffer.length)
  let response ← ngapHandlerEntrypoint lib (buffer.drop 4) (.start responses sctpStreamId)
  (List.range response.numResponses).foldlM (sendResponse buffer response) []

def EncodedSlot (x : Slot) : Prop := ∃ bytes, x = .ngapBuffer (some bytes) ∧ bytes.length ≤ 8192

/-- The datagram has a tag, and the message behind it, if there is one, is served. -/
def Served (lib : Ogs) (env : Env) (w : World) (buffer : List UInt8) : Prop :=
  4 ≤ buffer.length ∧ ∀ m, lib.ngapDecode (buffer.drop 4) = some m → m.Served lib env w

section

variable {lib : Ogs} {env : Env} {w : World}

/-- The slots from the next one on are messages, and those in front of it are encoded. -/
structure EncodedUpTo (n : Nat) (r : Response) (rest : List Nat) : Prop where
  count : r.numResponses = n
  nodup : rest.Nodup
  messages : ∀ i ∈ rest, NgapSlot (r.responses i)
  encoded : ∀ i < n, i ∉ rest → EncodedSlot (r.responses i)

theorem EncodedUpTo.step (hlib : lib.NgapDependable) {n : Nat} {r : Response} {i : Nat}
    {rest : List Nat} (h : EncodedUpTo n r (i :: rest)) :
    (messageToBytes lib r i).ReturnsIff (World.serve env) w True
      fun r' _ => EncodedUpTo n r' rest := by
  obtain ⟨message, hmessage, hrange⟩ := h.messages i List.mem_cons_self
  obtain ⟨bytes, hbytes, hlen⟩ := hlib.encode message hrange
  obtain ⟨hfresh, hnodup⟩ := List.nodup_cons.mp h.nodup
  rw [messageToBytes, hmessage]
  apply returnsIff_consume (a := message) rfl
  refine Prog.ReturnsIff.pure ⟨h.count, hnodup, fun j hj => ?_, fun j hj hrest => ?_⟩
  · rw [Response.set_responses_of_ne _ (by rintro rfl; exact hfresh hj)]
    exact h.messages j (List.mem_cons_of_mem i hj)
  · by_cases hji : j = i
    · rw [hji, Response.set_responses_self, hbytes]
      exact ⟨bytes, rfl, hlen⟩
    · rw [Response.set_responses_of_ne _ hji]
      exact h.encoded j hj (by simp [hji, hrest])

theorem returnsIff_encodeResponses (hlib : lib.NgapDependable) {r : Response}
    (h : Holds NgapSlot r) :
    ((List.range r.numResponses).foldlM (messageToBytes lib) r).ReturnsIff (World.serve env) w True
      fun r' _ => Holds EncodedSlot r' := by
  have hstart : EncodedUpTo r.numResponses r (List.range r.numResponses) :=
    ⟨rfl, List.nodup_range, fun i hi => h.slots i (List.mem_range.mp hi),
      fun i hi hrest => absurd (List.mem_range.mpr hi) hrest⟩
  have hloop : ((List.range r.numResponses).foldlM (messageToBytes lib) r).ReturnsIff
      (World.serve env) w True fun r' _ => EncodedUpTo r.numResponses r' [] :=
    Prog.ReturnsIff.foldlM (I := fun r' rest _ => EncodedUpTo r.numResponses r' rest) hstart
      fun _ _ _ _ hstep => hstep.step hlib
  apply hloop.mono
  intro r' _ hr'
  refine ⟨hr'.count ▸ h.fits, fun i hi => hr'.encoded i (hr'.count ▸ hi) List.not_mem_nil⟩

theorem returnsIff_ngapHandlerEntrypoint (hlib : lib.NgapDependable) (incoming : List UInt8)
    {response : Response} (hfresh : response.numResponses = 0) :
    (ngapHandlerEntrypoint lib incoming response).ReturnsIff (World.serve env) w
      (∀ m, lib.ngapDecode incoming = some m → m.Served lib env w)
      fun r _ => Holds EncodedSlot r := by
  rw [ngapHandlerEntrypoint]
  cases hdecode : lib.ngapDecode incoming with
  | none => exact (Prog.ReturnsIff.pure (.of_none hfresh)).congr (by simp)
  | some m =>
      simp only [handleNgapMessage, ← Prog.bind_assoc]
      have hhandler : (ngapMessageHandler lib m response >>= Prog.require).ReturnsIff
          (World.serve env) w _ _ :=
        returnsIff_ngapMessageHandler hlib (hlib.decode incoming m hdecode) hfresh
      apply Prog.ReturnsIff.congr
      · apply hhandler.bind
        intro r w' hr
        exact returnsIff_encodeResponses hlib hr
      · simp

/-- What has been sent and what is still to be sent together are at most two datagrams. -/
structure Sending (buffer : List UInt8) (r : Response) (sent : List (List UInt8))
    (rest : List Nat) : Prop where
  few : sent.length + rest.length ≤ maxNumResponses
  tagged : ∀ x ∈ sent, x.take 4 = buffer.take 4
  encoded : ∀ i ∈ rest, EncodedSlot (r.responses i)

theorem take_responseOut {buffer : List UInt8} (h : 4 ≤ buffer.length) (stream : UInt8)
    (bytes : List UInt8) : (Frontend.responseOut buffer stream bytes).take 4 = buffer.take 4 := by
  rw [Frontend.responseOut, List.take_append_of_le_length (by simpa using h), List.take_take,
    Nat.min_self]

theorem Sending.step {buffer : List UInt8} (hlen : 4 ≤ buffer.length) {r : Response}
    {sent : List (List UInt8)} {i : Nat} {rest : List Nat} (h : Sending buffer r sent (i :: rest)) :
    (sendResponse buffer r sent i).ReturnsIff (World.serve env) w True
      fun sent' _ => Sending buffer r sent' rest := by
  obtain ⟨bytes, hbytes, hle⟩ := h.encoded i List.mem_cons_self
  have hfits : (Frontend.responseOut buffer r.sctpStreamId bytes).length ≤ Frontend.udpMaxLen := by
    rw [Frontend.responseOut, List.length_append, List.length_take, List.length_cons,
      Frontend.udpMaxLen]
    omega
  have hfew := h.few
  rw [List.length_cons] at hfew
  rw [sendResponse, hbytes, Slot.ngapBuffer?, Prog.require_some_bind]
  refine (Prog.ReturnsIff.assert_bind fun _ => ?_).congr (and_iff_left trivial |>.trans
    (iff_true_intro hfits))
  refine Prog.ReturnsIff.pure ⟨?_, fun x hx => ?_, fun j hj => ?_⟩
  · rw [List.length_append, List.length_singleton]
    omega
  · rcases List.mem_append.mp hx with hx | hx
    · exact h.tagged x hx
    · rw [List.mem_singleton.mp hx]
      exact take_responseOut hlen _ _
  · exact h.encoded j (List.mem_cons_of_mem i hj)

/-- `process_message` returns where the datagram is served, and nowhere else. What it sends are at
most two datagrams with the tag of the one that is answered. -/
theorem returnsIff_processMessage (hlib : lib.NgapDependable) (buffer : List UInt8)
    (responses : Nat → Slot) (sctpStreamId : UInt8) :
    (processMessage lib buffer responses sctpStreamId).ReturnsIff (World.serve env) w
      (Served lib env w buffer)
      fun sent _ => sent.length ≤ maxNumResponses ∧ ∀ x ∈ sent, x.take 4 = buffer.take 4 := by
  rw [processMessage]
  apply Prog.ReturnsIff.assert_bind
  intro hlen
  have hentry : (ngapHandlerEntrypoint lib (buffer.drop 4)
      (.start responses sctpStreamId)).ReturnsIff (World.serve env) w _ _ :=
    returnsIff_ngapHandlerEntrypoint hlib (buffer.drop 4) rfl
  apply Prog.ReturnsIff.congr
  · apply hentry.bind (D := True)
    intro r w' hr
    have hstart : Sending buffer r [] (List.range r.numResponses) :=
      ⟨by simpa using hr.fits, by simp, fun i hi => hr.slots i (List.mem_range.mp hi)⟩
    have hloop : ((List.range r.numResponses).foldlM (sendResponse buffer r) []).ReturnsIff
        (World.serve env) w' True fun sent _ => Sending buffer r sent [] :=
      Prog.ReturnsIff.foldlM (I := fun sent rest _ => Sending buffer r sent rest) hstart
        fun _ _ _ _ hstep => hstep.step hlen
    exact hloop.mono fun sent _ hsent => ⟨hsent.few, hsent.tagged⟩
  · exact and_iff_left trivial

end

/-- An Uplink NAS Transport of the UE with both identifiers 1, with an Authentication Response. -/
def uplinkAuthenticationResponse : List UInt8 :=
  [0x00, 0x2e, 0x40, 0x2a, 0x00, 0x00, 0x04, 0x00, 0x0a, 0x00, 0x02, 0x00, 0x01, 0x00, 0x55, 0x00,
    0x02, 0x00, 0x01, 0x00, 0x26, 0x00, 0x04, 0x03, 0x7e, 0x00, 0x57, 0x00, 0x79, 0x40, 0x0f, 0x40,
    0x02, 0xf8, 0x39, 0x00, 0x00, 0x00, 0x01, 0x00, 0x02, 0xf8, 0x39, 0x00, 0x00, 0x01]

/-- Libraries that decode this message and encode the answer to it, with identifiers of one byte,
and that never refuse to encode. -/
def Ogs.dependable : Ogs :=
  { Ogs.reference with
    nas5gsPlainEncode := fun m => some ((Ogs.reference.nas5gsPlainEncode m).getD [])
    ngapDecode := fun bytes =>
      if bytes = uplinkAuthenticationResponse then
        some (.initiatingMessage (.uplinkNasTransport (authenticationResponseFor 1)))
      else none
    ngapEncode := fun m =>
      match m with
      | .downlinkNasTransport amfUeNgapId ranUeNgapId nasPdu =>
          some (([0x00, 0x04, 0x40, UInt8.ofNat (nasPdu.length + 20), 0x00, 0x00, 0x03,
            0x00, 0x0a, 0x00, 0x02, 0x00, amfUeNgapId.toUInt8, 0x00, 0x55, 0x00, 0x02, 0x00,
            ranUeNgapId.toUInt8, 0x00, 0x26, 0x00, UInt8.ofNat (nasPdu.length + 1),
            UInt8.ofNat nasPdu.length] ++ nasPdu).take 8192)
      | _ => some []
    requestTransferEncode := fun _ _ => some [] }

theorem Ogs.dependable_ngapDecode (bytes : List UInt8) :
    Ogs.dependable.ngapDecode bytes =
      if bytes = uplinkAuthenticationResponse then
        some (.initiatingMessage (.uplinkNasTransport (authenticationResponseFor 1)))
      else none := rfl

theorem Ogs.dependable_ngapDependable : Ogs.dependable.NgapDependable where
  toDocumented := OgsSecurity.reference_documented
  milenage _ _ _ _ _ := List.cons_ne_nil _ _
  plainEncode _ := rfl
  decode bytes m h ie hie := by
    rw [Ogs.dependable_ngapDecode] at h
    split at h <;> cases h
    simp only [NgapUplink.ies, authenticationResponseFor, List.mem_cons, List.not_mem_nil,
      or_false] at hie
    rcases hie with rfl | rfl | rfl | rfl <;> simp [ProtocolIe.InRange]
  encode m _ := by
    cases m with
    | downlinkNasTransport amfUeNgapId ranUeNgapId nasPdu =>
        exact ⟨_, rfl, List.length_take_le _ _⟩
    | _ => exact ⟨[], rfl, Nat.zero_le _⟩
  transferEncode _ _ := rfl

theorem served_authenticationResponse (tag : List UInt8) (h : tag.length = 4) :
    Served .dependable .zero .ofSubscriber (tag ++ uplinkAuthenticationResponse) := by
  refine ⟨by simp [h], fun m hm => ?_⟩
  rw [List.drop_left' h] at hm
  cases hm
  have huser : (World.ofSubscriber.db.user? 1).isSome := by decide +kernel
  have hcarries : Carries .dependable .zero [0x7e, 0x00, 0x57] false false
      (.gmm .authenticationResponse) :=
    .here rfl fun inner h => by cases h
  have hfetchable : Fetchable .dependable .zero .ofSubscriber downlinkPulls (some 1) :=
    ⟨1, rfl, huser, fun _ _ _ h => by cases h⟩
  refine ⟨rfl, rfl, rfl, rfl, hcarries, ⟨by simp, trivial, by simp, ?_⟩, ?_, trivial⟩
  · exact fun _ => .inr (.inr hfetchable)
  · rintro _ id ⟨rfl⟩
    exact ⟨by decide, by decide⟩

/-- A request of another worker, to the thread of the database that serves it. -/
structure OtherRequest where
  env : Env
  response : Mem UInt8
  query : Query
  keepsIds : query.KeepsIds

/-- The request changes the database, not the response array of the worker's own thread. -/
def World.after (w : World) (r : OtherRequest) : World :=
  { w with db := (World.serve r.env ⟨w.db, r.response⟩ r.query).2.db }

/-- A datagram, what other workers ask for before it is read, and what is in the memory that its
handling does not initialise. -/
structure Arrival where
  datagram : List UInt8
  env : Env
  responses : Nat → Slot
  sctpStreamId : UInt8
  before : List OtherRequest

def Arrival.buffer (a : Arrival) : List UInt8 := udpRead Frontend.workerBufferLen a.datagram

/-- One turn of the loop of `start_listener`, without threads: the loop does not come back from the
two messages that test the resiliency. -/
def receiveMessage (lib : Ogs) (a : Arrival) : Processing (List (List UInt8)) := do
  Prog.assert (Frontend.passesToHandler a.buffer)
  processMessage lib a.buffer a.responses a.sctpStreamId

/-- The datagrams sent in answer to each, as long as the worker lives. -/
def startListener (lib : Ogs) : List Arrival → World → Option (List (List (List UInt8)))
  | [], _ => some []
  | a :: rest, w => do
      let run := (receiveMessage lib a).exec (World.serve a.env) (a.before.foldl World.after w)
      let sent ← run.result
      let others ← startListener lib rest run.state
      return sent :: others

/-- The datagram comes to an Authentication Failure, for which keys are generated from what the
database has stored. -/
def Arrival.CarriesFailure (lib : Ogs) (a : Arrival) : Prop :=
  ∃ ies nasPdu nested protects m,
    lib.ngapDecode (a.buffer.drop 4) = some (.initiatingMessage (.uplinkNasTransport ies)) ∧
      ProtocolIe.find ProtocolIe.nasPdu? ies = some nasPdu ∧
        Carries lib a.env nasPdu nested protects m ∧ m.IsAuthenticationFailure

/-- The datagram does not stop the worker when the database is as it is in this world. -/
def Arrival.Survived (lib : Ogs) (w : World) (a : Arrival) : Prop :=
  Frontend.passesToHandler a.buffer ∧ Served lib a.env w a.buffer

/-- What is sent in answer to a datagram: it goes back behind its tag. -/
def Arrival.Answered (a : Arrival) (sent : List (List UInt8)) : Prop :=
  sent.length ≤ maxNumResponses ∧ ∀ x ∈ sent, x.take 4 = a.buffer.take 4

section

variable {lib : Ogs} {env : Env} {w w' : World}

theorem SameIds.symm (h : SameIds w w') : SameIds w' w := fun key => (h key).symm

theorem SameIds.exists_user (h : SameIds w w') {key : UInt32} {u : UserInfo}
    (hu : w.db.user? key = some u) :
    ∃ u', w'.db.user? key = some u' ∧ mmeUeS1apIdOf u' = mmeUeS1apIdOf u := by
  have hkey := h key
  rw [hu, Option.map_some] at hkey
  exact Option.map_eq_some_iff.mp hkey

theorem SameIds.initialUeServed (h : SameIds w w') {ies : List ProtocolIe}
    (hserved : InitialUeServed lib env w ies) : InitialUeServed lib env w' ies := by
  cases hserved with
  | @intro ranUeNgapId nasPdu nested mobileIdentity u hran hnr hnasPdu hcarries huser hlength hkeys
      hids hsealed =>
  obtain ⟨key, hkey, hu⟩ := Option.bind_eq_some_iff.mp huser
  obtain ⟨u', hu', hsame⟩ := h.exists_user hu
  refine ⟨hran, hnr, hnasPdu, hcarries, Option.bind_eq_some_iff.mpr ⟨key, hkey, hu'⟩, hlength, hkeys,
    ?_, ?_⟩
  · rwa [hsame]
  · rw [hsame]
    exact fun hnested => (h.sameKeys.fetchable _ _).mpr (hsealed hnested)

theorem SameIds.uplinkServed (h : SameIds w w') {ies : List ProtocolIe}
    (hno : ∀ nasPdu nested protects m, ProtocolIe.find ProtocolIe.nasPdu? ies = some nasPdu →
      Carries lib env nasPdu nested protects m → ¬ m.IsAuthenticationFailure)
    (hserved : UplinkServed lib env w ies) : UplinkServed lib env w' ies := by
  cases hserved with
  | intro hran hamf hnr hnasPdu hcarries hsurvived hids hmasks =>
  refine ⟨hran, hamf, hnr, hnasPdu, hcarries,
    (h.survived (hno _ _ _ _ hnasPdu hcarries)).mpr hsurvived, ?_, hmasks⟩
  rwa [h.amfAfter]

theorem SameIds.setupResponseServed (h : SameIds w w') {ies : List ProtocolIe}
    (hserved : SetupResponseServed lib w ies) : SetupResponseServed lib w' ies := by
  cases hserved with
  | intro hamf hitems hall =>
  refine ⟨hamf, hitems, fun item hitem => ?_⟩
  obtain ⟨hid, htunnel, hknown⟩ := hall item hitem
  exact ⟨hid, htunnel, by rwa [h.sameKeys _]⟩

theorem SameIds.survived_arrival (h : SameIds w w') {a : Arrival} (hno : ¬ a.CarriesFailure lib)
    (hsurvived : a.Survived lib w) : a.Survived lib w' := by
  obtain ⟨hpasses, hlen, hserved⟩ := hsurvived
  refine ⟨hpasses, hlen, fun m hm => ?_⟩
  have hserved := hserved m hm
  cases m with
  | initiatingMessage m =>
      cases m with
      | ngSetupRequest ies => exact hserved
      | initialUeMessage ies => exact h.initialUeServed hserved
      | uplinkNasTransport ies =>
          exact h.uplinkServed (fun nasPdu nested protects message hnasPdu hcarries hfailure =>
            hno ⟨ies, nasPdu, nested, protects, message, hm, hnasPdu, hcarries, hfailure⟩) hserved
      | other => exact hserved
  | successfulOutcome m =>
      cases m with
      | initialContextSetupResponse => exact hserved
      | pduSessionResourceSetupResponse ies => exact h.setupResponseServed hserved
      | ueContextReleaseComplete => exact hserved
      | other => exact hserved
  | other => exact hserved

theorem SameIds.survived_arrival_iff (h : SameIds w w') {a : Arrival}
    (hno : ¬ a.CarriesFailure lib) : a.Survived lib w' ↔ a.Survived lib w :=
  ⟨h.symm.survived_arrival hno, h.survived_arrival hno⟩

/-- Nothing that handling a datagram asks for renames a user. -/
theorem keeps_processMessage (buffer : List UInt8) (responses : Nat → Slot) (sctpStreamId : UInt8) :
    Keeps Query.KeepsIds (processMessage lib buffer responses sctpStreamId) fun _ => True := by
  have hentry : Keeps Query.KeepsIds (ngapHandlerEntrypoint lib (buffer.drop 4)
      (.start responses sctpStreamId)) fun _ => True := by
    rw [ngapHandlerEntrypoint]
    cases lib.ngapDecode (buffer.drop 4) with
    | none => exact trivial
    | some m =>
        have hhandled : Keeps Query.KeepsIds
            (handleNgapMessage lib m (.start responses sctpStreamId)) _ :=
          keeps_handleNgapMessage permits_keepsIds
            (fun _ _ _ _ => ⟨fun _ _ _ _ hitems _ => hitems, fun _ => permits_keepsIds _⟩) _ rfl
        exact hhandled.mono fun _ _ => trivial
  rw [Keeps, processMessage, Prog.ensures_bind, Prog.ensures_assert]
  intro _
  apply hentry.bind
  intro response _
  apply Prog.Ensures.foldlM (I := fun _ _ => True) trivial
  intro sent i rest _
  rw [sendResponse, Prog.ensures_bind, Prog.ensures_require]
  intro bytes _
  rw [Prog.ensures_bind, Prog.ensures_assert]
  exact fun _ => trivial

theorem sameIds_after (w : World) (r : OtherRequest) : SameIds w (w.after r) :=
  sameIds_serve r.keepsIds r.env ⟨w.db, r.response⟩

theorem sameIds_before (w : World) (rs : List OtherRequest) :
    SameIds w (rs.foldl World.after w) := by
  induction rs generalizing w with
  | nil => exact .refl w
  | cons r rs ih => exact (sameIds_after w r).trans (ih (w.after r))

theorem returnsIff_receiveMessage (hlib : lib.NgapDependable) (a : Arrival) :
    (receiveMessage lib a).ReturnsIff (World.serve a.env) w (a.Survived lib w)
      fun sent w' => a.Answered sent ∧ SameIds w w' := by
  rw [receiveMessage]
  apply Prog.ReturnsIff.assert_bind
  intro _
  exact (returnsIff_processMessage hlib a.buffer a.responses a.sctpStreamId).and_invariant
    (keeps_processMessage a.buffer a.responses a.sctpStreamId)
    (fun w' _ hq hw' => hw'.trans (sameIds_serve hq a.env w')) (.refl w)

/-- The worker lives through a run of datagrams where it would live through each of them at the
start: neither their order nor what other workers ask for in between matters. -/
theorem startListener_returns (hlib : lib.NgapDependable) {arrivals : List Arrival}
    (hno : ∀ a ∈ arrivals, ¬ a.CarriesFailure lib) (w : World) :
    ((startListener lib arrivals w).isSome ↔ ∀ a ∈ arrivals, a.Survived lib w) ∧
      ∀ answers, startListener lib arrivals w = some answers →
        List.Forall₂ Arrival.Answered arrivals answers := by
  induction arrivals generalizing w with
  | nil =>
      refine ⟨by simp [startListener], ?_⟩
      rintro answers ⟨rfl⟩
      exact .nil
  | cons a rest ih =>
      obtain ⟨ha, hrest⟩ := List.forall_mem_cons.mp hno
      have hbefore := sameIds_before w a.before
      obtain ⟨hreturns, hleaves⟩ :=
        returnsIff_receiveMessage (w := a.before.foldl World.after w) hlib a
      rw [hbefore.survived_arrival_iff ha] at hreturns
      rw [startListener, List.forall_mem_cons]
      generalize (receiveMessage lib a).exec (World.serve a.env)
        (a.before.foldl World.after w) = run at hreturns hleaves ⊢
      obtain ⟨result, w', asked, emitted⟩ := run
      cases result with
      | none =>
          refine ⟨⟨by simp, fun h => ?_⟩, by simp⟩
          cases hreturns.mpr h.1
      | some sent =>
          obtain ⟨hanswered, hsame⟩ := hleaves sent rfl
          obtain ⟨hothers, hanswers⟩ := ih hrest w'
          have hall : (∀ b ∈ rest, b.Survived lib w') ↔ ∀ b ∈ rest, b.Survived lib w :=
            forall₂_congr fun b hb => (hbefore.trans hsame).survived_arrival_iff (hrest b hb)
          have hsurvived : a.Survived lib w := hreturns.mp rfl
          cases hlist : startListener lib rest w' with
          | none =>
              rw [hlist, hall] at hothers
              refine ⟨⟨by simp, fun h => ?_⟩, by simp⟩
              cases hothers.mpr h.2
          | some others =>
              rw [hlist, hall] at hothers
              refine ⟨⟨fun _ => ⟨hsurvived, hothers.mp rfl⟩, fun _ => rfl⟩, ?_⟩
              rintro answers ⟨rfl⟩
              exact .cons hanswered (hanswers others hlist)

end

def Arrival.ofTag (tag : List UInt8) : Arrival where
  datagram := tag ++ uplinkAuthenticationResponse
  env := .zero
  responses _ := .unset
  sctpStreamId := 0
  before := []

theorem Arrival.buffer_ofTag {tag : List UInt8} (h : tag.length = 4) :
    (Arrival.ofTag tag).buffer = tag ++ uplinkAuthenticationResponse := by
  apply udpRead_of_length_le
  rw [Arrival.ofTag, List.length_append, h]
  decide

theorem Arrival.not_carriesFailure_ofTag {tag : List UInt8} (h : tag.length = 4) :
    ¬ (Arrival.ofTag tag).CarriesFailure .dependable := by
  rintro ⟨ies, nasPdu, nested, protects, m, hdecode, hnasPdu, hcarries, hfailure⟩
  rw [Arrival.buffer_ofTag h, List.drop_left' h] at hdecode
  cases hdecode
  cases hnasPdu
  cases hcarries with
  | here hopened _ =>
      cases hopened
      exact hfailure
  | inside hopened hpasses _ =>
      cases hopened
      cases hpasses

theorem Arrival.survived_ofTag {tag : List UInt8} (h : tag.length = 4) :
    (Arrival.ofTag tag).Survived .dependable .ofSubscriber := by
  have hlength : (tag ++ uplinkAuthenticationResponse).length = 50 := by
    rw [List.length_append, h]
    rfl
  rw [Arrival.Survived, Arrival.buffer_ofTag h]
  refine ⟨?_, served_authenticationResponse tag h⟩
  rw [Frontend.passesToHandler, hlength]
  rfl

theorem startListener_returns_twice :
    (startListener .dependable [.ofTag [0, 0, 0, 5], .ofTag [0, 0, 0, 6]] .ofSubscriber).isSome := by
  have hno : ∀ a ∈ [Arrival.ofTag [0, 0, 0, 5], .ofTag [0, 0, 0, 6]],
      ¬ a.CarriesFailure .dependable := by
    intro a ha
    rcases List.mem_pair.mp ha with rfl | rfl
    · exact Arrival.not_carriesFailure_ofTag rfl
    · exact Arrival.not_carriesFailure_ofTag rfl
  apply (startListener_returns Ogs.dependable_ngapDependable hno .ofSubscriber).1.mpr
  intro a ha
  rcases List.mem_pair.mp ha with rfl | rfl
  · exact Arrival.survived_ofTag rfl
  · exact Arrival.survived_ofTag rfl

end PublicCloudCore.Worker
