import PublicCloudCore.Framework.Transition
import PublicCloudCore.CorekubeDb.Serve
import PublicCloudCore.Worker.DbAccess

/-!
# Requests and responses on one connection

The worker's calls of `db_access`, one at a time under `db_sock_mutex`, and the server thread that
`attend_request` runs, with the two byte streams between them. `db_access` reads a response only
where it pulls something, so a response nobody reads, or a request that the server receives
together with the one before it, puts the two sides out of step.
-/

namespace PublicCloudCore.Worker

open Framework CorekubeDb Libck

/-- What a call of `db_access` sent, how many items it pulled and the bytes it read. -/
structure Called where
  sent : List UInt8
  numPull : Nat
  read : List UInt8
  deriving DecidableEq

/-- The `request_len` bytes that a call of `analyze_request` was given and the bytes it produced. -/
structure Exchange where
  request : List UInt8
  response : List UInt8
  deriving DecidableEq

inductive Client
  | idle
  | waiting (sent : List UInt8) (numPull : Nat)
  -- `ogs_assert(n == (17 * numPull))`
  | aborted
  deriving DecidableEq

/-- Both ends and what is under way between them; `calls` and `handled` record the past. -/
structure Link where
  client : Client
  toServer : List UInt8
  toClient : List UInt8
  db : Db
  request : List UInt8
  requestLen : Nat
  multiPkt : Nat
  response : Mem UInt8
  failed : Bool
  calls : List Called
  handled : List Exchange

/-- A fresh connection: neither array is initialised. -/
def Link.start (db : Db) (request : List UInt8) (response : Mem UInt8) : Link where
  client := .idle
  toServer := []
  toClient := []
  db
  request
  requestLen := 0
  multiPkt := 0
  response
  failed := false
  calls := []
  handled := []

inductive Event
  | call (c : DbCall) (heap : Mem UInt8)
  | serverRecv
  | analyze
  | clientRecv
  -- what other connections do to the database
  | others (db : Db)

namespace Link

/-- `db_access` up to its `recv_response`, if it has one. -/
def stepCall (s : Link) (c : DbCall) (heap : Mem UInt8) : Option Link :=
  if s.client ≠ .idle then none
  else if c.pulls.length = 0 then
    some { s with
      toServer := s.toServer ++ c.sent heap
      calls := s.calls ++ [⟨c.sent heap, 0, []⟩] }
  else
    some { s with
      toServer := s.toServer ++ c.sent heap
      client := .waiting (c.sent heap) c.pulls.length }

/-- `recv(sock_enb, request, BUFFER_LEN, 0)`, once the last chunk is handled. -/
def stepServerRecv (s : Link) : Option Link :=
  if s.failed ∨ s.multiPkt < s.requestLen ∨ s.toServer = [] then none
  else
    some { s with
      toServer := s.toServer.drop bufferLen
      request := s.toServer.take bufferLen ++ s.request.drop (s.toServer.take bufferLen).length
      requestLen := (s.toServer.take bufferLen).length
      multiPkt := 0 }

/-- One turn of `while(multi_pkt < request_len)`. -/
def stepAnalyze (s : Link) : Option Link :=
  if s.failed ∨ s.requestLen ≤ s.multiPkt then none
  else
    match analyzeRequest s.db (s.request.drop s.multiPkt) (s.requestLen - s.multiPkt) s.response with
    | .error _ => some { s with failed := true }
    | .ok a =>
        some { s with
          db := a.db
          response := a.response
          multiPkt := s.multiPkt + a.consumed
          toClient := s.toClient ++ a.response.read 0 a.responseLen
          handled := s.handled ++
            [⟨(s.request.drop s.multiPkt).take (s.requestLen - s.multiPkt),
              a.response.read 0 a.responseLen⟩] }

/-- `recv_response`, which blocks until there is a byte, and the check of its result. -/
def stepClientRecv (s : Link) : Option Link :=
  match s.client with
  | .waiting sent numPull =>
      if s.toClient = [] then none
      else
        let bytes := s.toClient.take (dbBufferOutputSize numPull)
        some { s with
          toClient := s.toClient.drop (dbBufferOutputSize numPull)
          calls := s.calls ++ [⟨sent, numPull, bytes⟩]
          client := if bytes.length = 17 * numPull then .idle else .aborted }
  | _ => none

def step (s : Link) : Event → Option Link
  | .call c heap => s.stepCall c heap
  | .serverRecv => s.stepServerRecv
  | .analyze => s.stepAnalyze
  | .clientRecv => s.stepClientRecv
  | .others db => some { s with db }

/-- The bytes that a call has read are what its own request produced, and between two calls
nothing is left to read. -/
structure Paired (s : Link) : Prop where
  answered : ∀ (i : Nat) (c : Called), s.calls[i]? = some c → 0 < c.numPull → i < s.handled.length
  own : ∀ (i : Nat) (c : Called) (x : Exchange), s.calls[i]? = some c → s.handled[i]? = some x →
    x.request = c.sent ∧ x.response = c.read
  drained : s.client = .idle → s.toClient = []

end Link

/-- A call that the server answers as the worker expects: its user exists and it pulls at most 60
items, or the user does not exist, the worker waits for the answer, and no byte behind the first
one can be taken for a terminator. -/
def Expected (db : Db) (c : DbCall) (heap : Mem UInt8) : Prop :=
  c.inputSize ≤ bufferLen ∧ .getEnb ∉ c.pulls ∧ .eom ∉ c.pulls ∧
    ∃ key, identify (c.sent heap) = .ok (.user key) ∧
      ((db.user? key).isSome ∧ c.pulls.length ≤ 60 ∨
        (db.user? key).isNone ∧ 0 < c.pulls.length ∧ ItemType.eom.code ∉ (c.sent heap).tail)

/-- The steps that keep the two sides together: a call is made when the server has handled
everything and is answered as expected; other connections neither add nor remove users. -/
def InStep (s : Link) : Event → Prop
  | .call c heap => s.toServer = [] ∧ s.requestLen ≤ s.multiPkt ∧ Expected s.db c heap
  | .others db => ∀ key, (db.user? key).isSome = (s.db.user? key).isSome
  | _ => True

private theorem le_scanEom {request : List UInt8} {len i : Nat}
    (h : ∀ j, i ≤ j → j < len → request[j]? ≠ some ItemType.eom.code) :
    len ≤ scanEom request len i := by
  fun_induction scanEom request len i with
  | case1 i hi hat => exact absurd hat (h i (Nat.le_refl _) hi)
  | case2 i hi _ ih => exact ih fun j hj => h j (by omega)
  | case3 i hi => omega

theorem Expected.answer {db : Db} {c : DbCall} {heap : Mem UInt8} (h : Expected db c heap)
    (stale : List UInt8) (response : Mem UInt8) :
    ∃ a, analyzeRequest db (c.sent heap ++ stale) (c.sent heap).length response = .ok a ∧
      (c.sent heap).length ≤ a.consumed ∧ a.responseLen ≤ 17 * c.pulls.length ∧
      (0 < c.pulls.length → 0 < a.responseLen) := by
  obtain ⟨_, hget, heom, key, hkey, hcase⟩ := h
  have hbody := DbCall.sent_eq_body hget heap
  have hpulls : (c.toCall.request (c.calloc heap)).pulls.length = c.pulls.length := by
    simp [Call.request, DbCall.toCall]
  have hnoeom : (c.toCall.request (c.calloc heap)).PullsNoEom := by
    intro p hp
    simp only [Call.request, DbCall.toCall, List.map_map, List.mem_map] at hp
    obtain ⟨t, ht, rfl⟩ := hp
    exact fun hcode => heom (ItemType.code_injective hcode ▸ ht)
  generalize c.toCall.request (c.calloc heap) = r at hbody hpulls hnoeom
  rw [hbody] at hkey hcase ⊢
  have htarget : r.target = .user key := by
    have hid := r.identify_body []
    rw [List.append_nil, hkey] at hid
    exact (Except.ok.inj hid).symm
  rcases hcase with ⟨hknown, hlen⟩ | ⟨hunknown, hpos, hmarker⟩
  · obtain ⟨u, hu⟩ := Option.isSome_iff_exists.mp hknown
    obtain ⟨w, hw⟩ := (r.run_ok_iff (.start db (some u) response)).mpr
      ⟨fun hnone => by simp [Work.start] at hnone,
        fits_of_length _ _ _ (by simp only [Work.start, bufferLen]; omega)⟩
    refine ⟨_, by rw [analyzeRequest_user htarget hu hnoeom (Or.inl rfl), hw]; rfl, ?_⟩
    rw [r.run_user rfl] at hw
    obtain ⟨_, hoff, _⟩ := foldlM_pullSlot_frame hw
    have hzero : ((Work.start db (some u) response).pushed r u).resOffset = 0 := rfl
    rw [hzero] at hoff
    show r.body.length ≤ r.body.length + 1 ∧ w.resOffset ≤ _ ∧ (_ → 0 < w.resOffset)
    omega
  · have hu : db.user? key = none := Option.isNone_iff_eq_none.mp hunknown
    refine ⟨_, analyzeRequest_refused (Or.inr ⟨key, htarget, hu⟩) response, ?_⟩
    have hscan : r.body.length ≤ scanEom (r.body ++ stale) r.body.length 1 := by
      apply le_scanEom
      intro j hj hjlen hat
      rw [List.getElem?_append_left hjlen] at hat
      refine hmarker (List.mem_iff_getElem?.mpr ⟨j - 1, ?_⟩)
      rw [List.getElem?_tail, Nat.sub_add_cancel hj]
      exact hat
    show r.body.length ≤ scanEom (r.body ++ stale) r.body.length 1 + 1 ∧ 1 ≤ _ ∧ (_ → 0 < 1)
    omega

/-- The answer to a call depends on which users exist, not on what they hold. -/
theorem Expected.others {db db' : Db} {c : DbCall} {heap : Mem UInt8} (h : Expected db c heap)
    (hsame : ∀ key, (db'.user? key).isSome = (db.user? key).isSome) : Expected db' c heap := by
  obtain ⟨hlen, hget, heom, key, hkey, hcase⟩ := h
  refine ⟨hlen, hget, heom, key, hkey, ?_⟩
  rw [← Option.not_isSome, hsame key, Option.not_isSome]
  exact hcase

/-- A request is between the two `send`s: still in the stream, or received and not yet handled. -/
def UnderWay (s : Link) (sent : List UInt8) : Prop :=
  s.toServer = sent ∧ s.requestLen ≤ s.multiPkt ∨
    s.toServer = [] ∧ s.multiPkt = 0 ∧ s.requestLen = sent.length ∧
      ∃ stale, s.request = sent ++ stale

def exchanges (calls : List Called) : List Exchange := calls.map fun c => ⟨c.sent, c.read⟩

/-- Where a connection can be when every step was in step; `done` are the calls whose requests
were handled. -/
inductive Phase (s : Link) : Prop
  | settled : (∀ sent numPull, s.client ≠ .waiting sent numPull) → s.toServer = [] →
      s.requestLen ≤ s.multiPkt → s.toClient = [] → s.handled = exchanges s.calls → Phase s
  -- a call that only pushes has returned already
  | pushing (c : DbCall) (heap : Mem UInt8) (done : List Called) : s.client = .idle →
      c.pulls.length = 0 → Expected s.db c heap → UnderWay s (c.sent heap) → s.toClient = [] →
      s.calls = done ++ [⟨c.sent heap, 0, []⟩] → s.handled = exchanges done → Phase s
  | pulling (c : DbCall) (heap : Mem UInt8) : s.client = .waiting (c.sent heap) c.pulls.length →
      0 < c.pulls.length → Expected s.db c heap → UnderWay s (c.sent heap) → s.toClient = [] →
      s.handled = exchanges s.calls → Phase s
  | answered (sent : List UInt8) (numPull : Nat) : s.client = .waiting sent numPull →
      s.toServer = [] → s.requestLen ≤ s.multiPkt → s.toClient.length ≤ 17 * numPull →
      s.handled = exchanges s.calls ++ [⟨sent, s.toClient⟩] → Phase s

theorem UnderWay.busy {s : Link} {c : DbCall} {heap : Mem UInt8} (h : UnderWay s (c.sent heap)) :
    ¬ (s.toServer = [] ∧ s.requestLen ≤ s.multiPkt) := by
  intro hquiet
  have hpos : 0 < (c.sent heap).length := by
    rw [DbCall.sent_length, DbCall.inputSize, dbBufferInputSize]
    omega
  rcases h with ⟨hsent, _⟩ | ⟨_, hzero, hlen, _⟩
  · rw [hquiet.1] at hsent
    rw [← hsent] at hpos
    exact absurd hpos (by decide)
  · omega

/-- The server receives a request as a whole. -/
theorem UnderWay.serverRecv {s s' : Link} {c : DbCall} {heap : Mem UInt8}
    (h : UnderWay s (c.sent heap)) (hlen : c.inputSize ≤ bufferLen)
    (hstep : s.stepServerRecv = some s') :
    UnderWay s' (c.sent heap) ∧ s'.client = s.client ∧ s'.db = s.db ∧ s'.toClient = s.toClient ∧
      s'.calls = s.calls ∧ s'.handled = s.handled ∧ s'.failed = s.failed := by
  rcases h with ⟨hsent, _⟩ | ⟨hempty, _⟩
  · have hshort : s.toServer.length ≤ bufferLen := by
      rw [hsent, DbCall.sent_length]
      exact hlen
    simp only [Link.stepServerRecv] at hstep
    split at hstep
    · cases hstep
    rw [List.take_of_length_le hshort, List.drop_of_length_le hshort] at hstep
    cases hstep
    refine ⟨Or.inr ⟨rfl, rfl, by rw [hsent], _, by rw [hsent]⟩, rfl, rfl, rfl, rfl, rfl, rfl⟩
  · simp [Link.stepServerRecv, hempty] at hstep

theorem UnderWay.analyze {s s' : Link} {c : DbCall} {heap : Mem UInt8}
    (h : UnderWay s (c.sent heap)) (hexp : Expected s.db c heap)
    (hstep : s.stepAnalyze = some s') :
    ∃ bytes : List UInt8, bytes.length ≤ 17 * c.pulls.length ∧ s'.toServer = [] ∧
      s'.requestLen ≤ s'.multiPkt ∧ s'.client = s.client ∧ s'.toClient = s.toClient ++ bytes ∧
      s'.calls = s.calls ∧ s'.handled = s.handled ++ [⟨c.sent heap, bytes⟩] ∧
      s'.failed = s.failed := by
  rcases h with ⟨_, hidle⟩ | ⟨hempty, hzero, hlen, stale, hrequest⟩
  · simp [Link.stepAnalyze, hidle] at hstep
  · obtain ⟨a, ha, hconsumed, hshort, _⟩ := hexp.answer stale s.response
    simp only [Link.stepAnalyze, hzero, hlen, hrequest, List.drop_zero, Nat.sub_zero, ha] at hstep
    split at hstep
    · cases hstep
    cases hstep
    refine ⟨a.response.read 0 a.responseLen, by simpa using hshort, hempty, ?_, rfl, rfl, rfl, ?_,
      rfl⟩
    · show (c.sent heap).length ≤ 0 + a.consumed
      omega
    · rw [List.take_left]

theorem Phase.step {s s' : Link} {e : Event} (h : Phase s) (hf : s.failed = false)
    (hok : InStep s e) (hstep : s.step e = some s') : s'.failed = false ∧ Phase s' := by
  cases e with
  | call c heap =>
      obtain ⟨hserver, hidle, hexp⟩ := hok
      simp only [Link.step, Link.stepCall] at hstep
      split at hstep
      · cases hstep
      next hclient =>
      have hclient : s.client = .idle := by simpa using hclient
      have hsettled : s.toClient = [] ∧ s.handled = exchanges s.calls := by
        cases h with
        | settled _ _ _ hdrained hdone => exact ⟨hdrained, hdone⟩
        | pushing _ _ _ _ _ _ hway => exact absurd ⟨hserver, hidle⟩ hway.busy
        | pulling _ _ hwait => rw [hclient] at hwait; cases hwait
        | answered _ _ hwait => rw [hclient] at hwait; cases hwait
      split at hstep
      · next hzero =>
        cases hstep
        refine ⟨hf, .pushing c heap s.calls hclient hzero hexp (Or.inl ⟨?_, hidle⟩) hsettled.1 rfl
          hsettled.2⟩
        simp [hserver]
      · next hpos =>
        cases hstep
        refine ⟨hf, .pulling c heap rfl (Nat.pos_of_ne_zero hpos) hexp (Or.inl ⟨?_, hidle⟩)
          hsettled.1 hsettled.2⟩
        simp [hserver]
  | serverRecv =>
      cases h with
      | settled _ hserver => simp [Link.step, Link.stepServerRecv, hserver] at hstep
      | answered _ _ _ hserver => simp [Link.step, Link.stepServerRecv, hserver] at hstep
      | pushing c heap done hclient hzero hexp hway hdrained hcalls hdone =>
          obtain ⟨hway', hc, hdb, hto, hca, hha, hfa⟩ := hway.serverRecv hexp.1 hstep
          refine ⟨hfa.trans hf, .pushing c heap done (hc.trans hclient) hzero (hdb ▸ hexp) hway'
            (hto.trans hdrained) (hca.trans hcalls) (hha.trans hdone)⟩
      | pulling c heap hclient hpos hexp hway hdrained hdone =>
          obtain ⟨hway', hc, hdb, hto, hca, hha, hfa⟩ := hway.serverRecv hexp.1 hstep
          refine ⟨hfa.trans hf, .pulling c heap (hc.trans hclient) hpos (hdb ▸ hexp) hway'
            (hto.trans hdrained) (by rw [hca, hha, hdone])⟩
  | analyze =>
      cases h with
      | settled _ _ hidle => simp [Link.step, Link.stepAnalyze, hidle] at hstep
      | answered _ _ _ _ hidle => simp [Link.step, Link.stepAnalyze, hidle] at hstep
      | pushing c heap done hclient hzero hexp hway hdrained hcalls hdone =>
          obtain ⟨bytes, hlen, hserver, hidle, hc, hto, hca, hha, hfa⟩ := hway.analyze hexp hstep
          -- nothing was pulled, so nothing is answered
          obtain rfl : bytes = [] := List.eq_nil_of_length_eq_zero (by omega)
          refine ⟨hfa.trans hf, .settled ?_ hserver hidle (by rw [hto, hdrained]; rfl) ?_⟩
          · intro sent numPull hwait
            rw [hc, hclient] at hwait
            cases hwait
          · rw [hha, hdone, hca, hcalls]
            simp [exchanges]
      | pulling c heap hclient hpos hexp hway hdrained hdone =>
          obtain ⟨bytes, hlen, hserver, hidle, hc, hto, hca, hha, hfa⟩ := hway.analyze hexp hstep
          rw [hdrained, List.nil_append] at hto
          refine ⟨hfa.trans hf, .answered (c.sent heap) c.pulls.length (hc.trans hclient) hserver
            hidle (by rw [hto]; exact hlen) (by rw [hha, hdone, hca, hto])⟩
  | clientRecv =>
      cases h with
      | settled hclient =>
          simp only [Link.step, Link.stepClientRecv] at hstep
          cases hstep
      | pushing _ _ _ hclient =>
          simp only [Link.step, Link.stepClientRecv, hclient] at hstep
          cases hstep
      | pulling _ _ hclient _ _ _ hdrained =>
          simp [Link.step, Link.stepClientRecv, hclient, hdrained] at hstep
      | answered sent numPull hclient hserver hidle hlen hdone =>
          simp only [Link.step, Link.stepClientRecv, hclient, dbBufferOutputSize] at hstep
          split at hstep
          · cases hstep
          simp only [List.take_of_length_le hlen, List.drop_of_length_le hlen] at hstep
          cases hstep
          refine ⟨hf, .settled ?_ hserver hidle rfl ?_⟩
          · intro sent' numPull' hwait
            dsimp only at hwait
            split at hwait <;> cases hwait
          · simp [hdone, exchanges]
  | others db =>
      cases hstep
      refine ⟨hf, ?_⟩
      cases h with
      | settled hclient hserver hidle hdrained hdone =>
          exact .settled hclient hserver hidle hdrained hdone
      | answered sent numPull hclient hserver hidle hlen hdone =>
          exact .answered sent numPull hclient hserver hidle hlen hdone
      | pushing c heap done hclient hzero hexp hway hdrained hcalls hdone =>
          exact .pushing c heap done hclient hzero (hexp.others hok) hway hdrained hcalls hdone
      | pulling c heap hclient hpos hexp hway hdrained hdone =>
          exact .pulling c heap hclient hpos (hexp.others hok) hway hdrained hdone

private theorem paired_of_done {s : Link} {done rest : List Called} {more : List Exchange}
    (hcalls : s.calls = done ++ rest) (hhandled : s.handled = exchanges done ++ more)
    (hone : rest = [] ∨ more = []) (hrest : ∀ c ∈ rest, c.numPull = 0)
    (hdrained : s.client = .idle → s.toClient = []) : s.Paired := by
  have hin : ∀ i, i < done.length → s.calls[i]? = done[i]? ∧
      s.handled[i]? = (exchanges done)[i]? := by
    intro i hi
    rw [hcalls, hhandled, List.getElem?_append_left hi,
      List.getElem?_append_left (by simpa [exchanges] using hi)]
    exact ⟨rfl, rfl⟩
  have hout : ∀ i c, done.length ≤ i → s.calls[i]? = some c → c ∈ rest := by
    intro i c hi hc
    rw [hcalls, List.getElem?_append_right hi] at hc
    exact List.mem_of_getElem? hc
  refine ⟨fun i c hc hpos => ?_, fun i c x hc hx => ?_, hdrained⟩
  · by_cases hi : i < done.length
    · rw [hhandled, List.length_append, exchanges, List.length_map]
      omega
    · have := hrest c (hout i c (by omega) hc)
      omega
  · by_cases hi : i < done.length
    · rw [(hin i hi).1] at hc
      rw [(hin i hi).2, exchanges, List.getElem?_map, hc] at hx
      cases hx
      exact ⟨rfl, rfl⟩
    · have hmem := hout i c (by omega) hc
      rcases hone with hnil | hnil
      · rw [hnil] at hmem
        cases hmem
      · rw [hhandled, hnil, List.append_nil, exchanges, List.getElem?_map,
          List.getElem?_eq_none (by omega)] at hx
        cases hx

theorem Phase.paired {s : Link} (h : Phase s) : s.Paired := by
  cases h with
  | settled _ _ _ hdrained hdone =>
      exact @paired_of_done s s.calls [] [] (by simp) (by simpa using hdone) (Or.inl rfl)
        (by simp) fun _ => hdrained
  | pushing c heap done _ _ _ _ hdrained hcalls hdone =>
      exact @paired_of_done s done _ [] hcalls (by simpa using hdone) (Or.inr rfl) (by simp)
        fun _ => hdrained
  | pulling _ _ _ _ _ _ hdrained hdone =>
      exact @paired_of_done s s.calls [] [] (by simp) (by simpa using hdone) (Or.inl rfl)
        (by simp) fun _ => hdrained
  | answered _ _ hclient _ _ _ hdone =>
      refine @paired_of_done s s.calls [] _ (by simp) hdone (Or.inl rfl) (by simp) ?_
      intro hidle
      rw [hclient] at hidle
      cases hidle

/-- In every run whose steps are in step, every call has read the answer to its own request and
none has left anything behind; the server handles all of it. -/
theorem paired_of_inStep {db : Db} {request : List UInt8} {response : Mem UInt8} {s : Link}
    (h : Run Link.step InStep (.start db request response) s) : s.Paired ∧ s.failed = false := by
  have hstart : (Link.start db request response).failed = false ∧
      Phase (.start db request response) := by
    refine ⟨rfl, .settled ?_ rfl (Nat.le_refl 0) rfl rfl⟩
    intro _ _ hwait
    cases hwait
  have hend := h.invariant (I := fun s => s.failed = false ∧ Phase s)
    (fun s e s' hs hok he => hs.2.step hs.1 hok he) hstart
  exact ⟨hend.2.paired, hend.1⟩

def keyOfSubscriber : DbCall := ⟨.imsi, subscriber.mem, imsi_identifies, [], [.key]⟩

/-- A call that neither pushes nor pulls, for a temporary identity nobody has. -/
def nothingOfTmsi : DbCall := ⟨.tmsi, fun _ => 0, tmsi_identifies, [], []⟩

/-- The connection that the runs below start from. -/
def Link.fresh : Link := .start (.init (some subscriber) fun _ => 0) [] fun _ => 0

/-- What the server and the worker do with a call that waits for its answer. -/
def answered : List Event := [.serverRecv, .analyze, .clientRecv]

theorem run_answered {s s₁ s' : Link} {c : DbCall} (hok : InStep s (.call c fun _ => 0))
    (hcall : s.step (.call c fun _ => 0) = some s₁)
    (hs : answered.foldlM Link.step s₁ = some s') : Run Link.step InStep s s' :=
  ((Run.refl _).tail hok hcall).trans (Run.of_foldlM (by simp [answered, InStep]) hs)

def keysOfSubscriber : DbCall := ⟨.imsi, subscriber.mem, imsi_identifies, [], [.key, .opc]⟩

theorem expected_ofSubscriber {db : Db} (hdb : (db.user? 1).isSome) :
    Expected db keyOfSubscriber (fun _ => 0) ∧ Expected db keysOfSubscriber fun _ => 0 :=
  ⟨⟨by decide, by decide, by decide, 1, by decide +kernel, Or.inl ⟨hdb, by decide⟩⟩,
    ⟨by decide, by decide, by decide, 1, by decide +kernel, Or.inl ⟨hdb, by decide⟩⟩⟩

/-- Two calls, the second for two items. -/
theorem paired_subscriberKeys :
    ∃ s, Run Link.step InStep .fresh s ∧ s.Paired ∧ s.calls.map Called.read =
      [0x0D :: List.replicate 16 0,
        0x0D :: List.replicate 16 0 ++ 0x0E :: List.replicate 16 0] := by
  have hfirst : ((Link.fresh.step (.call keyOfSubscriber fun _ => 0)).bind
      (answered.foldlM Link.step)).map
        (fun s => (s.toServer, decide (s.requestLen ≤ s.multiPkt), (s.db.user? 1).isSome)) =
      some ([], true, true) := by
    decide +kernel
  have hboth : (((Link.fresh.step (.call keyOfSubscriber fun _ => 0)).bind
      (answered.foldlM Link.step)).bind fun s =>
        (s.step (.call keysOfSubscriber fun _ => 0)).bind
          (answered.foldlM Link.step)).map (fun s => s.calls.map Called.read) =
      some [0x0D :: List.replicate 16 0,
        0x0D :: List.replicate 16 0 ++ 0x0E :: List.replicate 16 0] := by
    decide +kernel
  obtain ⟨s, hs, hstate⟩ := Option.map_eq_some_iff.mp hfirst
  simp only [Prod.mk.injEq, decide_eq_true_eq] at hstate
  obtain ⟨hserver, hhandled, huser⟩ := hstate
  rw [hs, Option.bind_some] at hboth
  obtain ⟨t, ht, hread⟩ := Option.map_eq_some_iff.mp hboth
  obtain ⟨s₁, hcall₁, hanswer₁⟩ := Option.bind_eq_some_iff.mp hs
  obtain ⟨t₁, hcall₂, hanswer₂⟩ := Option.bind_eq_some_iff.mp ht
  have hrun₁ : Run Link.step InStep .fresh s := run_answered
    ⟨rfl, Nat.le_refl 0, (expected_ofSubscriber (by decide +kernel)).1⟩ hcall₁ hanswer₁
  have hrun₂ : Run Link.step InStep s t := run_answered
    ⟨hserver, hhandled, (expected_ofSubscriber huser).2⟩ hcall₂ hanswer₂
  have hrun := hrun₁.trans hrun₂
  exact ⟨t, hrun, (paired_of_inStep hrun).1, hread⟩

/-- The answer to a call that does not read it is read by the next call. -/
theorem not_paired_nothingOfTmsi :
    ∃ s, Run Link.step (fun _ _ => True) .fresh s ∧ ¬ s.Paired ∧
      s.calls.map Called.read = [[], [0, 0x0D, 0, 0, 0, 0, 0, 0, 0, 0, 0, 0, 0, 0, 0, 0, 0]] ∧
      s.toClient = [0] := by
  have hread : ([.call nothingOfTmsi fun _ => 0, .serverRecv, .analyze,
      .call keyOfSubscriber fun _ => 0, .serverRecv, .analyze, .clientRecv].foldlM Link.step
        Link.fresh).map (fun s => (s.client, s.calls.map Called.read, s.toClient)) =
      some (.idle, [[], [0, 0x0D, 0, 0, 0, 0, 0, 0, 0, 0, 0, 0, 0, 0, 0, 0, 0]], [0]) := by
    decide +kernel
  obtain ⟨s, hs, hstate⟩ := Option.map_eq_some_iff.mp hread
  simp only [Prod.mk.injEq] at hstate
  refine ⟨s, Run.of_foldlM (fun _ _ _ => trivial) hs, fun h => ?_, hstate.2⟩
  have hdrained := h.drained hstate.1
  rw [hstate.2.2] at hdrained
  cases hdrained

end PublicCloudCore.Worker
