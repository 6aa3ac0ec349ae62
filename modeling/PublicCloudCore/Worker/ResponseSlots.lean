import PublicCloudCore.Worker.HandlerSpecs

/-!
# The discipline of the response slots

The slots of `response->responses` are pointers without a type. They hold a NAS message, then its
bytes, then an NGAP message and in the end its bytes; UL NAS Transport goes through the first two
once more at each level. Every use of a slot finds what it takes it for, and what
`ngap_handler_entrypoint` returns is encoded.
-/

namespace PublicCloudCore.Worker

open Framework CorekubeDb Libck

def maxNumResponses : Nat := 2

/-- What `process_message` hands over: it has initialised nothing but the count. -/
def Response.start (responses : Nat → Slot) (sctpStreamId : UInt8) : Response :=
  ⟨0, responses, sctpStreamId⟩

/-- The responses fit their array and hold what they should. -/
structure Holds (kind : Slot → Prop) (r : Response) : Prop where
  fits : r.numResponses ≤ maxNumResponses
  slots : ∀ i < r.numResponses, kind (r.responses i)

theorem Holds.of_none {kind : Slot → Prop} {r : Response} (h : r.numResponses = 0) :
    Holds kind r := by
  constructor
  · rw [h]
    exact Nat.zero_le _
  · intro i hi
    omega

theorem Holds.single {kind : Slot → Prop} {x : Slot} (r : Response) (hx : kind x) :
    Holds kind (r.single x) := by
  constructor
  · exact Nat.le_succ 1
  · intro i hi
    have hzero : i = 0 := Nat.lt_one_iff.mp hi
    rw [hzero, Response.single_responses_zero]
    exact hx

theorem Holds.pair {kind : Slot → Prop} {x y : Slot} (r : Response) (hx : kind x) (hy : kind y) :
    Holds kind { (r.single x).set 1 y with numResponses := 2 } := by
  constructor
  · exact Nat.le_refl _
  · intro i hi
    show kind (((r.single x).set 1 y).responses i)
    cases i with
    | zero =>
        rw [Response.set_responses_of_ne _ (by decide), Response.single_responses_zero]
        exact hx
    | succ i =>
        have hone : i + 1 = 1 := by
          have : i + 1 < 2 := hi
          omega
        rw [hone, Response.set_responses_self]
        exact hy

variable {lib : Ogs} {allowed : Query → Prop}

section

variable {amfUeNgapId ranUeNgapId : UInt64} {x : Slot}

theorem keeps_downlinkNasTransport (hx : Consumer.Expects .ngapBuilder x) :
    Keeps allowed (ngapBuildDownlinkNasTransport amfUeNgapId ranUeNgapId x) fun _ => True := by
  rw [Keeps, ngapBuildDownlinkNasTransport]
  simp only [Prog.ensures_bind, Prog.ensures_assert]
  intro _ _
  exact keeps_consume hx fun _ _ => trivial

theorem keeps_initialContextSetupRequest {kgnb maskedImeisv : List UInt8}
    (hx : Consumer.Expects .ngapBuilder x) :
    Keeps allowed (ngapBuildInitialContextSetupRequest amfUeNgapId ranUeNgapId kgnb maskedImeisv x)
      fun _ => True := by
  rw [Keeps, ngapBuildInitialContextSetupRequest]
  simp only [Prog.ensures_bind, Prog.ensures_assert]
  intro _ _
  exact keeps_consume hx fun _ _ => trivial

theorem keeps_pduSessionResourceSetupRequest
    (hpermits : Permits lib allowed (some amfUeNgapId)) (hx : Consumer.Expects .ngapBuilder x) :
    Keeps allowed (ngapBuildPduSessionResourceSetupRequest lib amfUeNgapId ranUeNgapId x)
      fun _ => True := by
  rw [Keeps, ngapBuildPduSessionResourceSetupRequest]
  simp only [Prog.ensures_bind, Prog.ensures_assert, Prog.ensures_require,
    nasBuildNgapPduSessionResourceSetupRequestTransfer]
  intro _ _
  apply keeps_consume hx
  intro nasPdu _
  apply keeps_dbAccess
    (hpermits.access _ [] _ rfl (sessionItems_pulls (by decide) (by decide) (by decide)))
  intro dbPulls
  apply ensures_pulled
  intro epcTeid
  apply ensures_pulled
  intro spgwIp transfer _
  trivial

end

theorem keeps_uplinkNasTransportResponse {amfUeNgapId ranUeNgapId : UInt64} {ctx : Context}
    (h : Ready lib allowed (Consumer.Expects .ngapBuilder) ctx) :
    Keeps allowed (uplinkNasTransportResponse lib amfUeNgapId ranUeNgapId ctx)
      (Holds (Consumer.Expects .messageToBytes)) := by
  unfold Keeps uplinkNasTransportResponse
  simp only
  split
  · simp only [Prog.ensures_bind, Prog.ensures_assert, Prog.ensures_require]
    intro hone _ _ _ _ _ _
    apply (keeps_initialContextSetupRequest (h.answered.slot (by omega))).mono
    intro message _
    exact .single _ ⟨message, rfl⟩
  split
  · simp only [Prog.ensures_bind, Prog.ensures_assert, Prog.ensures_require]
    intro hone id hid
    apply (keeps_pduSessionResourceSetupRequest (hid ▸ h.permits)
      (h.answered.slot (by omega))).mono
    intro message _
    exact .single _ ⟨message, rfl⟩
  split
  · rw [Prog.ensures_bind, Prog.ensures_assert]
    exact fun hnone => .of_none hnone
  split
  · rw [Prog.ensures_bind, Prog.ensures_require]
    intro id _
    split
    · next hone =>
      apply (keeps_downlinkNasTransport (h.answered.slot (by omega))).bind
      intro message _
      exact .pair _ ⟨message, rfl⟩ ⟨_, rfl⟩
    · exact .single _ ⟨_, rfl⟩
  · simp only [Prog.ensures_bind, Prog.ensures_assert, Prog.ensures_require]
    intro hone id _
    apply (keeps_downlinkNasTransport (h.answered.slot (by omega))).mono
    intro message _
    exact .single _ ⟨message, rfl⟩

theorem keeps_uplinkNasTransport {ies : List ProtocolIe} {response : Response}
    (hpermits : ∀ id, ProtocolIe.find ProtocolIe.amfUeNgapId? ies = some id →
      Permits lib allowed (some id))
    (hfresh : response.numResponses = 0)
    (henclosed : ∀ nasPdu, ProtocolIe.find ProtocolIe.nasPdu? ies = some nasPdu →
      PermitsEnclosed lib allowed nasPdu) :
    Keeps allowed (ngapHandleUplinkNasTransport lib ies response)
      (Holds (Consumer.Expects .messageToBytes)) := by
  rw [Keeps, ngapHandleUplinkNasTransport]
  simp only [Prog.ensures_bind, Prog.ensures_assert, Prog.ensures_require]
  intro ranUeNgapId _ amfUeNgapId hid nr _ _ nasPdu hnasPdu
  apply (keeps_nasHandlerEntrypoint (hpermits amfUeNgapId hid) hfresh
    (henclosed nasPdu hnasPdu)).mono
  intro ctx hctx
  exact keeps_uplinkNasTransportResponse hctx

def NgapUplink.nasPdu? : NgapUplink → Option (List UInt8)
  | .initiatingMessage (.initialUeMessage ies) => ProtocolIe.find ProtocolIe.nasPdu? ies
  | .initiatingMessage (.uplinkNasTransport ies) => ProtocolIe.find ProtocolIe.nasPdu? ies
  | _ => none

section

variable (hpermits : ∀ id, Permits lib allowed id) (response : Response)

include hpermits

theorem keeps_initialUeMessage {ies : List ProtocolIe} (hfresh : response.numResponses = 0)
    (henclosed : ∀ nasPdu, ProtocolIe.find ProtocolIe.nasPdu? ies = some nasPdu →
      PermitsEnclosed lib allowed nasPdu) :
    Keeps allowed (ngapHandleInitialUeMessage lib ies response)
      (Holds (Consumer.Expects .messageToBytes)) := by
  rw [Keeps, ngapHandleInitialUeMessage]
  simp only [Prog.ensures_bind, Prog.ensures_assert, Prog.ensures_require]
  intro ranUeNgapId _ nr _ _ nasPdu hnasPdu
  apply (keeps_nasHandlerEntrypoint (hpermits none) hfresh (henclosed nasPdu hnasPdu)).mono
  intro ctx hctx hone amfUeNgapId _
  apply (keeps_downlinkNasTransport (hctx.answered.slot (by omega))).mono
  intro message _
  exact .single _ ⟨message, rfl⟩

theorem keeps_pduSessionResourceSetupResponse (ies : List ProtocolIe) :
    Keeps allowed (ngapHandlePduSessionResourceSetupResponse lib ies response)
      (Holds (Consumer.Expects .messageToBytes)) := by
  rw [Keeps, ngapHandlePduSessionResourceSetupResponse]
  simp only [Prog.ensures_bind, Prog.ensures_require]
  intro amfUeNgapId _ items _
  refine (Prog.Ensures.forM fun item _ => ?_).mono fun _ _ => .of_none rfl
  simp only [Prog.ensures_bind, Prog.ensures_assert, Prog.ensures_require,
    ngapHandleResponseTransfer]
  intro _ decoded _ gtpTunnel _ _
  apply keeps_dbAccess
  · apply (hpermits (some amfUeNgapId)).access amfUeNgapId _ _ rfl
    exact ⟨⟨by simp, by decide, by decide, by decide⟩, by simp⟩
  intro _
  trivial

/-- A handler hands back NGAP messages, unless it is `OGS_ERROR`. -/
theorem keeps_ngapMessageHandler {m : NgapUplink} (hfresh : response.numResponses = 0)
    (henclosed : ∀ nasPdu, m.nasPdu? = some nasPdu → PermitsEnclosed lib allowed nasPdu) :
    Keeps allowed (ngapMessageHandler lib m response) fun handled =>
      ∀ r, handled = some r → Holds (Consumer.Expects .messageToBytes) r := by
  have hsome : ∀ {p : Processing Response},
      Keeps allowed p (Holds (Consumer.Expects .messageToBytes)) →
      Keeps allowed (some <$> p) fun handled =>
        ∀ r, handled = some r → Holds (Consumer.Expects .messageToBytes) r := by
    intro p hp
    rw [Keeps, Prog.ensures_map]
    apply hp.mono
    intro r hr r' h
    cases h
    exact hr
  have hnone : ∀ r : Response, none = some r → Holds (Consumer.Expects .messageToBytes) r :=
    fun r h => by cases h
  cases m with
  | initiatingMessage m =>
      cases m with
      | ngSetupRequest ies =>
          intro r h
          unfold ngapHandleNgSetupRequest at h
          split at h
          · have hsingle : Holds (Consumer.Expects .messageToBytes)
                (response.single (.ngapMessage .ngSetupResponse)) := .single _ ⟨_, rfl⟩
            cases h
            exact ⟨hsingle.fits, hsingle.slots⟩
          · cases h
      | initialUeMessage ies => exact hsome (keeps_initialUeMessage hpermits _ hfresh henclosed)
      | uplinkNasTransport ies =>
          exact hsome (keeps_uplinkNasTransport (fun id _ => hpermits id) hfresh henclosed)
      | other => exact hnone
  | successfulOutcome m =>
      cases m with
      | initialContextSetupResponse =>
          intro r h
          cases h
          exact .of_none rfl
      | pduSessionResourceSetupResponse ies =>
          exact hsome (keeps_pduSessionResourceSetupResponse hpermits _ ies)
      | ueContextReleaseComplete =>
          intro r h
          cases h
          exact .of_none rfl
      | other => exact hnone
  | other => exact hnone

end

/-- Some of the responses are encoded, and the rest of them are messages. -/
structure Encoding (lib : Ogs) (n : Nat) (r : Response) (rest : List Nat) : Prop where
  count : r.numResponses = n
  rest_eq : rest = List.range' (n - rest.length) rest.length
  length_le : rest.length ≤ n
  encoded : ∀ i < n - rest.length, ∃ message, r.responses i = .ngapBuffer (lib.ngapEncode message)
  messages : ∀ i ∈ rest, Consumer.Expects .messageToBytes (r.responses i)

theorem Encoding.step {n : Nat} {r : Response} {i : Nat} {rest : List Nat}
    (h : Encoding lib n r (i :: rest)) :
    Keeps allowed (messageToBytes lib r i) fun r' => Encoding lib n r' rest := by
  have hi : i = n - (rest.length + 1) := by
    have heq := h.rest_eq
    rw [List.length_cons, List.range'_succ, List.cons.injEq] at heq
    exact heq.1
  have hle := h.length_le
  rw [List.length_cons] at hle
  have hnext : i + 1 = n - rest.length := by omega
  have hrest : rest = List.range' (n - rest.length) rest.length := by
    have heq := h.rest_eq
    rw [List.length_cons, List.range'_succ, List.cons.injEq, ← hi, hnext] at heq
    exact heq.2
  rw [Keeps, messageToBytes, Prog.ensures_bind]
  apply keeps_consume (h.messages i List.mem_cons_self)
  intro message _
  constructor
  · exact h.count
  · exact hrest
  · omega
  · intro j hj
    by_cases hji : j = i
    · rw [hji]
      exact ⟨message, Response.set_responses_self _ _ _⟩
    · rw [Response.set_responses_of_ne _ hji]
      apply h.encoded
      rw [List.length_cons]
      omega
  · intro j hj
    have hlow : i + 1 ≤ j := by
      rw [hrest, List.mem_range'_1] at hj
      omega
    rw [Response.set_responses_of_ne _ (by omega)]
    exact h.messages j (List.mem_cons_of_mem i hj)

theorem keeps_encodeResponses {r : Response} (h : Holds (Consumer.Expects .messageToBytes) r) :
    Keeps allowed ((List.range r.numResponses).foldlM (messageToBytes lib) r)
      (Holds fun x => ∃ message, x = .ngapBuffer (lib.ngapEncode message)) := by
  have hstart : Encoding lib r.numResponses r (List.range r.numResponses) := by
    constructor
    · rfl
    · rw [List.length_range, Nat.sub_self, List.range_eq_range']
    · rw [List.length_range]
    · intro i hi
      rw [List.length_range] at hi
      omega
    · intro i hi
      exact h.slots i (List.mem_range.mp hi)
  apply (Prog.Ensures.foldlM hstart fun _ _ _ hstep => hstep.step).mono
  intro r' hr'
  constructor
  · rw [hr'.count]
    exact h.fits
  · intro i hi
    exact hr'.encoded i (hr'.count ▸ hi)

theorem keeps_handleNgapMessage (hpermits : ∀ id, Permits lib allowed id) {m : NgapUplink}
    (henclosed : ∀ nasPdu, m.nasPdu? = some nasPdu → PermitsEnclosed lib allowed nasPdu)
    (response : Response) (hfresh : response.numResponses = 0) :
    Keeps allowed (handleNgapMessage lib m response)
      (Holds fun x => ∃ message, x = .ngapBuffer (lib.ngapEncode message)) := by
  rw [Keeps, handleNgapMessage]
  apply (keeps_ngapMessageHandler hpermits _ hfresh henclosed).bind
  intro handled hhandled
  rw [Prog.ensures_bind, Prog.ensures_require]
  intro r hr
  exact keeps_encodeResponses (hhandled r hr)

theorem keeps_ngapHandlerEntrypoint (hall : ∀ q, allowed q) (incoming : List UInt8)
    (response : Response) (hfresh : response.numResponses = 0) :
    Keeps allowed (ngapHandlerEntrypoint lib incoming response)
      (Holds fun x => ∃ message, x = .ngapBuffer (lib.ngapEncode message)) := by
  rw [Keeps, ngapHandlerEntrypoint]
  cases lib.ngapDecode incoming with
  | none => exact .of_none hfresh
  | some m =>
      exact keeps_handleNgapMessage (permits_all hall)
        (fun nasPdu _ => permitsEnclosed_all hall nasPdu) response hfresh

/-- Whatever arrives and whatever the surroundings answer: where `ngap_handler_entrypoint`
returns, at most two responses are there, each of them the result of `ogs_ngap_encode`; and
whether it returns or not, each use of a slot finds what it takes it for. -/
theorem responseSlots_disciplined {S : Type} (lib : Ogs) (incoming : List UInt8)
    (responses : Nat → Slot) (sctpStreamId : UInt8)
    (serve : S → (q : Query) → Answer q × S) (s : S) :
    let outcome :=
      (ngapHandlerEntrypoint lib incoming (.start responses sctpStreamId)).exec serve s
    (∀ r, outcome.result = some r → r.numResponses ≤ maxNumResponses ∧
        ∀ i < r.numResponses, ∃ message, r.responses i = .ngapBuffer (lib.ngapEncode message)) ∧
      ∀ c x, .consumes c x ∈ outcome.emitted → c.Expects x := by
  have hkeeps : Keeps (fun _ => True) (ngapHandlerEntrypoint lib incoming _) _ :=
    keeps_ngapHandlerEntrypoint (fun _ => trivial) incoming (.start responses sctpStreamId) rfl
  have hexec := hkeeps.exec serve s
  constructor
  · intro r hr
    have hholds := hexec.2.2 r hr
    exact ⟨hholds.fits, hholds.slots⟩
  · intro c x hmem
    exact hexec.2.1 _ hmem

end PublicCloudCore.Worker
