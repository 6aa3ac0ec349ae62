import PublicCloudCore.CorekubeDb.Walks

/-!
# Inside the arrays

Which received bytes make `analyze_request` stay inside the bytes that were received, inside the
response array, and away from a user pointer that no lookup has set.
-/

namespace PublicCloudCore.CorekubeDb

open Framework

/-- The call reads received bytes only, and consumes at least one and at most all of them. -/
structure BoundedParsing (db : Db) (received : List UInt8) : Prop where
  reads : ∀ behind start len, .request start len ∈ (call db received behind).touches →
    start + len ≤ received.length
  consumed : ∀ behind, 1 ≤ (call db received behind).consumed ∧
    (call db received behind).consumed ≤ received.length

/-- The received bytes start with a whole request: slots, zero byte, items, terminator. -/
def IsComplete (received : List UInt8) : Prop :=
  ∃ (r : Request) (rest : List UInt8), received = r.encode ++ rest ∧ r.PullsNoEom

/-- The identity lies in the received bytes; a request that is served is complete, and one that is
refused has a terminator somewhere behind its first byte. -/
def WellFramed (db : Db) (received : List UInt8) : Prop :=
  ∃ i, identify received = .ok i ∧ (db.Serves i → IsComplete received) ∧
    (¬ db.Serves i → ItemType.eom.code ∈ received.drop 1)

theorem Divides.isComplete {received : List UInt8} {identity : Slot} {pushes : List Push}
    {pulls : List Pull} {tail : List UInt8}
    (h : Divides received identity pushes (pullBytes pulls ++ ItemType.eom.code :: tail))
    (heom : ∀ p ∈ pulls, p.tag ≠ ItemType.eom.code) : IsComplete received := by
  refine ⟨⟨identity, pushes, pulls⟩, tail, ?_, heom⟩
  rw [h]
  simp [Request.encode, Request.body]

theorem IsComplete.divides {received : List UInt8} (h : IsComplete received) :
    ∃ identity pushes pulls tail,
      Divides received identity pushes (pullBytes pulls ++ ItemType.eom.code :: tail) ∧
        ∀ p ∈ pulls, p.tag ≠ ItemType.eom.code := by
  obtain ⟨r, tail, rfl, heom⟩ := h
  refine ⟨r.identity, r.pushes, r.pulls, tail, ?_, heom⟩
  simp [Divides, Request.encode, Request.body]

theorem scanEom_lt_iff {received : List UInt8} (behind : List UInt8) (i : Nat) :
    scanEom (received ++ behind) received.length i < received.length ↔
      ItemType.eom.code ∈ received.drop i := by
  fun_induction scanEom (received ++ behind) received.length i with
  | case1 i hlt hat =>
      rw [List.getElem?_append_left hlt] at hat
      refine ⟨fun _ => ?_, fun _ => hlt⟩
      rw [List.mem_drop_iff_getElem]
      obtain ⟨_, hget⟩ := List.getElem?_eq_some_iff.mp hat
      exact ⟨0, by omega, by simpa using hget⟩
  | case2 i hlt hat ih =>
      rw [List.getElem?_append_left hlt] at hat
      rw [ih, List.drop_eq_getElem_cons hlt, List.mem_cons]
      have hne : ItemType.eom.code ≠ received[i] := by
        intro heq
        apply hat
        rw [List.getElem?_eq_getElem hlt, heq]
      simp [hne]
  | case3 i hge =>
      rw [List.drop_of_length_le (by omega)]
      simp [hge]

theorem identity_of_reads {db : Db} {received : List UInt8}
    (h : ∀ start len, .request start len ∈ (call db received []).touches →
      start + len ≤ received.length) : ∃ i, identify received = .ok i := by
  have hagree := identityTouches_agree received false
  cases hi : identify received with
  | ok i => exact ⟨i, rfl⟩
  | error e =>
      rw [hi] at hagree
      obtain ⟨t, ht, hfault⟩ := hagree
      have hmem : t ∈ (call db received []).touches := by
        rw [call, List.append_nil, footprint_of_error hi]
        simpa using ht
      cases t with
      | request start len =>
          have := h start len hmem
          simp only [Touch.fault?, if_pos this, reduceCtorEq] at hfault
      | response start len => exact absurd ht (response_not_mem_identityTouches _ _ _)
      | user => exact absurd ht (user_not_mem_identityTouches _)

theorem BoundedParsing.wellFramed {db : Db} {received : List UInt8}
    (h : BoundedParsing db received) : WellFramed db received := by
  obtain ⟨i, hi⟩ := identity_of_reads (h.reads [])
  have hreads := h.reads []
  have hconsumed := (h.consumed []).2
  refine ⟨i, hi, fun hserves => ?_, fun hserves => ?_⟩
  · have hcall : call db received [] = _ :=
      footprint_of_serves (by rw [List.append_nil]; exact hi) hserves
    rw [hcall] at hreads hconsumed
    have hpush : ∀ start len, .request start len ∈ (pushWalk (received ++ []) db.eNBs 17).touches →
        start + len ≤ received.length := fun start len hmem =>
      hreads start len (List.mem_append_right _ (List.mem_append_left _ hmem))
    rcases divides_or_open received with ⟨identity, pushes, rest, hdivides⟩ | hshort | hopen
    · obtain ⟨eNBs', hserve⟩ := hdivides.serveFootprint [] db.eNBs
      rw [hserve] at hconsumed
      obtain ⟨pulls, tail, hrest, heom⟩ := exists_items_of_stop (by simp)
        (hdivides.pulls []) (Nat.lt_of_succ_le hconsumed)
      rw [hrest] at hdivides
      exact hdivides.isComplete heom
    · have hnil : (received ++ []).drop 17 = [] := by
        apply List.drop_eq_nil_of_le
        simp
        omega
      have := hpush 17 1 (by rw [pushWalk_nil hnil]; simp)
      omega
    · by_cases hlen : received.length < 17
      · have hnil : (received ++ []).drop 17 = [] := by
          apply List.drop_eq_nil_of_le
          simp
          omega
        have := hpush 17 1 (by rw [pushWalk_nil hnil]; simp)
        omega
      have hdrop : (received ++ []).drop 17 = received.drop 17 := by rw [List.append_nil]
      obtain ⟨start, len, hmem, hlt⟩ := hopen.reads_behind db.eNBs hdrop (by simp; omega)
      have := hpush start len hmem
      simp at hlt
      omega
  · have hcall : call db received [] = _ :=
      footprint_of_not_serves (by rw [List.append_nil]; exact hi) hserves
    rw [hcall] at hconsumed
    exact (scanEom_lt_iff [] 1).mp (Nat.lt_of_succ_le hconsumed)

private theorem bounded_of_complete {db : Db} {received : List UInt8} {i : Identity}
    (hi : identify received = .ok i) (hserves : db.Serves i) (h : IsComplete received)
    (behind : List UInt8) :
    (∀ start len, .request start len ∈ (call db received behind).touches →
        start + len ≤ received.length) ∧
      1 ≤ (call db received behind).consumed ∧
        (call db received behind).consumed ≤ received.length := by
  obtain ⟨identity, pushes, pulls, tail, hdivides, heom⟩ := h.divides
  have hlen := hdivides.length_eq
  simp only [List.length_append, List.length_cons] at hlen
  have hcall : call db received behind = _ :=
    footprint_of_serves (identify_append hi behind) hserves
  obtain ⟨eNBs', hserve⟩ := hdivides.serveFootprint behind db.eNBs
  obtain ⟨hsame, hidentity⟩ := identityTouches_append hi behind
  obtain ⟨_, _, hpush⟩ := pushWalk_slots db.eNBs (hdivides.drop_append behind)
  obtain ⟨hstop, hpull⟩ := pullWalk_items eNBs' 0 heom
    (hdivides.pulls behind)
  rw [hcall, hserve, hsame]
  refine ⟨fun start len hmem => ?_, by simp, ?_⟩
  · simp only [List.mem_append] at hmem
    rcases hmem with hmem | hmem | hmem
    · exact hidentity start len hmem
    · rcases hpush _ hmem with ht | ⟨s, l, ht, hle⟩
      · cases ht
      · cases ht
        omega
    · have := hpull start len hmem
      omega
  · simp only [hstop]
    omega

private theorem bounded_of_refused {db : Db} {received : List UInt8} {i : Identity}
    (hi : identify received = .ok i) (hserves : ¬ db.Serves i)
    (h : ItemType.eom.code ∈ received.drop 1) (behind : List UInt8) :
    (∀ start len, .request start len ∈ (call db received behind).touches →
        start + len ≤ received.length) ∧
      1 ≤ (call db received behind).consumed ∧
        (call db received behind).consumed ≤ received.length := by
  have hcall : call db received behind = _ :=
    footprint_of_not_serves (identify_append hi behind) hserves
  obtain ⟨hsame, hidentity⟩ := identityTouches_append hi behind
  have hscan := (scanEom_lt_iff behind 1).mpr h
  rw [hcall, hsame]
  refine ⟨fun start len hmem => ?_, by simp [refuseFootprint], hscan⟩
  simp only [refuseFootprint, List.mem_append, List.mem_cons, Touch.request.injEq, reduceCtorEq,
    List.not_mem_nil, or_false] at hmem
  rcases hmem with hmem | ⟨rfl, rfl⟩
  · exact hidentity start len hmem
  · omega

theorem WellFramed.boundedParsing {db : Db} {received : List UInt8}
    (h : WellFramed db received) : BoundedParsing db received := by
  obtain ⟨i, hi, hserved, hrefused⟩ := h
  by_cases hserves : db.Serves i
  · have hbounded := bounded_of_complete hi hserves (hserved hserves)
    exact ⟨fun behind => (hbounded behind).1, fun behind => (hbounded behind).2⟩
  · have hbounded := bounded_of_refused hi hserves (hrefused hserves)
    exact ⟨fun behind => (hbounded behind).1, fun behind => (hbounded behind).2⟩

/-- The parser stays inside the received bytes exactly for whole requests. -/
theorem boundedParsing_iff (db : Db) (received : List UInt8) :
    BoundedParsing db received ↔ WellFramed db received :=
  ⟨BoundedParsing.wellFramed, WellFramed.boundedParsing⟩

/-- The identity slot of a request whose other bytes are still on the way. -/
def identityAlone : List UInt8 := ItemType.imsi.code :: subscriber.get .imsi

/-- The first part of a request that was cut behind its identity slot. -/
theorem not_boundedParsing_identityAlone :
    ¬ ∀ (db : Db) (received : List UInt8), 1 ≤ received.length → received.length ≤ 1024 →
      BoundedParsing db received := by
  intro h
  have hbounded := h (.init (some subscriber) fun _ => 0) identityAlone (by decide) (by decide)
  obtain ⟨i, _, hserved, hrefused⟩ := hbounded.wellFramed
  by_cases hserves : Db.Serves (.init (some subscriber) fun _ => 0) i
  · obtain ⟨r, rest, heq, _⟩ := hserved hserves
    have hlen := congrArg List.length heq
    rw [List.length_append, r.encode_length, r.body_length] at hlen
    have : identityAlone.length = 17 := by decide
    omega
  · have hmem := hrefused hserves
    revert hmem
    decide

/-- Every store lies in the response array, and so does the response. -/
structure BoundedResponse (db : Db) (received : List UInt8) : Prop where
  stores : ∀ behind start len, .response start len ∈ (call db received behind).touches →
    start + len ≤ bufferLen
  responseLen : ∀ behind, (call db received behind).responseLen ≤ bufferLen

/-- A request that is served has at most sixty PULL items. -/
def AtMostSixtyPulls (db : Db) (received : List UInt8) : Prop :=
  ∀ i identity pushes rest, identify received = .ok i → db.Serves i →
    Divides received identity pushes rest → (pullTags rest).length ≤ 60

theorem BoundedResponse.atMostSixtyPulls {db : Db} {received : List UInt8}
    (h : BoundedResponse db received) : AtMostSixtyPulls db received := by
  intro i identity pushes rest hi hserves hdivides
  have hlen := h.responseLen []
  have hcall : call db received [] = _ :=
    footprint_of_serves (by rw [List.append_nil]; exact hi) hserves
  obtain ⟨eNBs', hserve⟩ := hdivides.serveFootprint [] db.eNBs
  have hres := (pullWalk_tags eNBs' 0 (by simp)
    (hdivides.pulls [])).1
  rw [hcall, hserve] at hlen
  simp only [hres, bufferLen] at hlen
  omega

/-- No bytes of the request make a refused call leave the array. -/
private theorem refuse_stores {request : List UInt8} {requestLen start len : Nat}
    (h : .response start len ∈
      identityTouches request ++ (refuseFootprint request requestLen).touches) :
    start + len ≤ bufferLen := by
  rw [List.mem_append] at h
  rcases h with h | h
  · exact absurd h (response_not_mem_identityTouches _ _ _)
  · simp only [refuseFootprint, List.mem_cons, reduceCtorEq, Touch.response.injEq,
      List.not_mem_nil, or_false, false_or] at h
    obtain ⟨rfl, rfl⟩ := h
    decide

theorem response_not_mem_pushWalk {request : List UInt8} {eNBs : HashMap hashEnbInfo}
    {offset start len : Nat} : .response start len ∉ (pushWalk request eNBs offset).touches := by
  fun_induction pushWalk request eNBs offset with
  | case1 => simp
  | case2 => simp
  | case3 =>
      rename_i ih
      intro hmem
      simp only [List.mem_cons, List.mem_append, reduceCtorEq, false_or] at hmem
      rcases hmem with hmem | hmem
      · rcases pushItemTouches_mem hmem with ht | ⟨_, _, ht, _⟩ <;> cases ht
      · exact ih hmem

theorem AtMostSixtyPulls.boundedResponse {db : Db} {received : List UInt8}
    (h : AtMostSixtyPulls db received) : BoundedResponse db received := by
  have hboth : ∀ behind,
      (∀ start len, .response start len ∈ (call db received behind).touches →
        start + len ≤ bufferLen) ∧ (call db received behind).responseLen ≤ bufferLen := by
    intro behind
    cases hi : identify (received ++ behind) with
    | error e =>
        rw [call, footprint_of_error hi]
        refine ⟨fun start len hmem => ?_, by simp⟩
        rw [List.append_nil] at hmem
        exact absurd hmem (response_not_mem_identityTouches _ _ _)
    | ok i =>
        by_cases hserves : db.Serves i
        · rw [call, footprint_of_serves hi hserves]
          rcases divides_or_open received with ⟨identity, pushes, rest, hdivides⟩ | hopen
          · obtain ⟨j, hj⟩ := hdivides.exists_identify
            obtain rfl : j = i := Except.ok.inj ((hj behind).symm.trans hi)
            have hcount := h j identity pushes rest (by simpa using hj []) hserves hdivides
            obtain ⟨eNBs', hserve⟩ := hdivides.serveFootprint behind db.eNBs
            obtain ⟨hres, _, hstores⟩ := pullWalk_tags eNBs' 0 (by simp)
              (hdivides.pulls behind)
            rw [hserve]
            refine ⟨fun start len hmem => ?_, ?_⟩
            · simp only [List.mem_append] at hmem
              rcases hmem with hmem | hmem | hmem
              · exact absurd hmem (response_not_mem_identityTouches _ _ _)
              · exact absurd hmem response_not_mem_pushWalk
              · have := hstores start len hmem
                simp only [bufferLen]
                omega
            · simp only [hres, bufferLen]
              omega
          · obtain ⟨htouches, hres⟩ := serveFootprint_of_open hopen behind db.eNBs
            refine ⟨fun start len hmem => ?_, by simp [hres]⟩
            simp only [htouches, List.mem_append] at hmem
            rcases hmem with hmem | hmem
            · exact absurd hmem (response_not_mem_identityTouches _ _ _)
            · exact absurd hmem response_not_mem_pushWalk
        · rw [call, footprint_of_not_serves hi hserves]
          exact ⟨fun start len hmem => refuse_stores hmem, by simp [refuseFootprint, bufferLen]⟩
  exact ⟨fun behind => (hboth behind).1, fun behind => (hboth behind).2⟩

/-- The response stays inside its array exactly if no served request has more than sixty items. -/
theorem boundedResponse_iff (db : Db) (received : List UInt8) :
    BoundedResponse db received ↔ AtMostSixtyPulls db received :=
  ⟨BoundedResponse.atMostSixtyPulls, AtMostSixtyPulls.boundedResponse⟩

def keyManyTimes : List UInt8 :=
  ItemType.imsi.code :: subscriber.get .imsi ++
    (0 :: List.replicate 61 ItemType.key.code ++ [ItemType.eom.code])

theorem not_boundedResponse_keyManyTimes :
    ¬ ∀ (db : Db) (received : List UInt8), received.length ≤ 1024 → BoundedResponse db received := by
  intro h
  have hbounded := h (.init (some subscriber) fun _ => 0) keyManyTimes (by decide)
  have hserves : Db.Serves (.init (some subscriber) fun _ => 0) (.user 1) := by
    change ((Db.init (some subscriber) fun _ => 0).user? 1).isSome
    decide
  have hcount := hbounded.atMostSixtyPulls (.user 1)
    ⟨ItemType.imsi.code, subscriber.get .imsi, by decide⟩ []
    (List.replicate 61 ItemType.key.code ++ [ItemType.eom.code]) (by decide) hserves rfl
  have hitems : ∀ n, pullTags (List.replicate n ItemType.key.code ++ [ItemType.eom.code]) =
      List.replicate n ItemType.key.code := by
    intro n
    induction n with
    | zero => simp [pullTags]
    | succ n ih =>
        rw [List.replicate_succ, List.cons_append, pullTags, if_neg (by decide)]
        exact congrArg (ItemType.key.code :: ·) ih
  rw [hitems, List.length_replicate] at hcount
  omega

/-- The call uses the `user` pointer only if the lookup of its own identity has found a record. -/
def GuardsUser (db : Db) (received : List UInt8) : Prop :=
  ∀ behind, .user ∈ (call db received behind).touches →
    ∃ key u, identify (received ++ behind) = .ok (.user key) ∧ db.user? key = some u

/-- A request for a new eNB is divided, and none of its items is an item of a user. -/
def NamesNoUserItem (received : List UInt8) : Prop :=
  (∀ b, received.head? = some b → b = ItemType.newEnb.code) →
    ∃ identity pushes rest, Divides received identity pushes rest ∧
      (∀ p ∈ pushes, p.target? = none) ∧ ∀ tag ∈ pullTags rest, copiesUser tag = false

theorem identify_newEnb_iff {request : List UInt8} :
    identify request = .ok .newEnb ↔ request.head? = some ItemType.newEnb.code := by
  cases request with
  | nil => simp [identify]
  | cons tag value =>
      rw [List.head?_cons, Option.some.injEq]
      constructor
      · intro h
        rcases ho : ItemType.ofCode tag with _ | t
        · simp [identify, ho] at h
        cases t <;> simp only [identify, ho] at h
        all_goals first
          | exact ItemType.ofCode_eq_some_iff.mp ho
          | (split at h <;> simp at h)
          | simp at h
      · rintro rfl
        simp [identify]

private theorem user_not_mem_refuse {request : List UInt8} {requestLen : Nat} :
    .user ∉ identityTouches request ++ (refuseFootprint request requestLen).touches := by
  simp [refuseFootprint, user_not_mem_identityTouches]

theorem NamesNoUserItem.guardsUser {received : List UInt8} (h : NamesNoUserItem received)
    (db : Db) : GuardsUser db received := by
  intro behind hmem
  cases hi : identify (received ++ behind) with
  | error e =>
      rw [call, footprint_of_error hi, List.append_nil] at hmem
      exact absurd hmem (user_not_mem_identityTouches _)
  | ok i =>
      by_cases hserves : db.Serves i
      · cases i with
        | invalid => cases hserves
        | user key =>
            obtain ⟨u, hu⟩ := Option.isSome_iff_exists.mp hserves
            exact ⟨key, u, rfl, hu⟩
        | newEnb =>
            have hhead := identify_newEnb_iff.mp hi
            obtain ⟨identity, pushes, rest, hdivides, hpushes, hpulls⟩ := h fun b hb => by
              cases received with
              | nil => simp at hb
              | cons tag value => simpa using hb.symm.trans hhead
            obtain ⟨eNBs', hserve⟩ := hdivides.serveFootprint behind db.eNBs
            rw [call, footprint_of_serves hi hserves, hserve] at hmem
            simp only [List.mem_append] at hmem
            rcases hmem with hmem | hmem | hmem
            · exact absurd hmem (user_not_mem_identityTouches _)
            · obtain ⟨p, hp, hsome⟩ := (pushWalk_slots _ (hdivides.drop_append behind)).2.1.mp hmem
              simp [hpushes p hp] at hsome
            · obtain ⟨tag, htag, hcopies⟩ :=
                (pullWalk_tags _ _ (by simp) (hdivides.pulls behind)).2.1.mp hmem
              simp [hpulls tag htag] at hcopies
      · rw [call, footprint_of_not_serves hi hserves] at hmem
        exact absurd hmem user_not_mem_refuse

theorem GuardsUser.namesNoUserItem {db : Db} {received : List UInt8} (h : GuardsUser db received) :
    NamesNoUserItem received := by
  intro hhead
  -- a call that uses the pointer although its identity is NEW_ENB
  have hrefute : ∀ behind, (received ++ behind).head? = some ItemType.newEnb.code →
      .user ∉ (serveFootprint db.eNBs (received ++ behind) received.length).touches := by
    intro behind hnew hmem
    have hi := identify_newEnb_iff.mpr hnew
    obtain ⟨key, u, hkey, _⟩ := h behind (by
      rw [call, footprint_of_serves hi trivial]
      exact List.mem_append_right _ hmem)
    rw [hi] at hkey
    cases hkey
  have hopen : ∀ behind, (received ++ behind).head? = some ItemType.newEnb.code →
      .user ∉ (pushWalk (received ++ behind) db.eNBs 17).touches := by
    intro behind hnew hmem
    exact hrefute behind hnew (List.mem_append_left _ hmem)
  cases received with
  | nil =>
      have hdrop : ([] ++ (ItemType.newEnb.code :: List.replicate 17 userCode)).drop 17 =
          userCode :: [] := rfl
      exact absurd (pushWalk_userCode hdrop) (hopen _ rfl)
  | cons tag value =>
      obtain rfl := hhead tag rfl
      rcases divides_or_open (ItemType.newEnb.code :: value) with
        ⟨identity, pushes, rest, hdivides⟩ | hcut
      · have huser := hrefute [] rfl
        obtain ⟨eNBs', hserve⟩ := hdivides.serveFootprint [] db.eNBs
        rw [hserve] at huser
        simp only [List.mem_append, not_or] at huser
        refine ⟨identity, pushes, rest, hdivides, fun p hp => ?_, fun t ht => ?_⟩
        · by_contra hne
          apply huser.1
          rw [(pushWalk_slots _ (hdivides.drop_append [])).2.1]
          exact ⟨p, hp, Option.isSome_iff_ne_none.mpr hne⟩
        · by_contra hne
          apply huser.2
          rw [(pullWalk_tags _ _ (by simp) (hdivides.pulls [])).2.1]
          exact ⟨t, ht, by simpa using hne⟩
      · by_cases hshort : (ItemType.newEnb.code :: value).length < 17
        · have hdrop : (ItemType.newEnb.code :: value ++ List.replicate 17 userCode).drop 17 =
              userCode :: List.replicate value.length userCode := by
            simp only [List.length_cons] at hshort
            rw [List.drop_append, List.drop_of_length_le (by simp; omega), List.drop_replicate,
              List.length_cons, List.nil_append,
              show 17 - (17 - (value.length + 1)) = value.length + 1 by omega, List.replicate_succ]
          exact absurd (pushWalk_userCode hdrop) (hopen _ rfl)
        · obtain hlen | hcut := hcut
          · exact absurd hlen hshort
          have hdrop : (ItemType.newEnb.code :: value ++ List.replicate 17 userCode).drop 17 =
              (ItemType.newEnb.code :: value).drop 17 ++ List.replicate 17 userCode :=
            List.drop_append_of_le_length (by omega)
          exact absurd (hcut.uses_user hdrop) (hopen _ rfl)

/-- The user pointer is used exactly as the lookup allows if and only if a request for a new eNB
names no item of a user. -/
theorem guardsUser_iff (db : Db) (received : List UInt8) :
    GuardsUser db received ↔ NamesNoUserItem received :=
  ⟨GuardsUser.namesNoUserItem, fun h => h.guardsUser db⟩

def keyOfNewEnb : List UInt8 :=
  (Slot.blank ItemType.newEnb.code).bytes ++ [0, ItemType.key.code, ItemType.eom.code]

theorem not_guardsUser_keyOfNewEnb :
    ¬ ∀ (db : Db) (received : List UInt8), GuardsUser db received := by
  intro h
  let db : Db := .init none fun _ => 0
  have hdivides : Divides keyOfNewEnb (Slot.blank ItemType.newEnb.code) []
      [ItemType.key.code, ItemType.eom.code] := rfl
  have hi : identify (keyOfNewEnb ++ []) = .ok .newEnb := by decide
  obtain ⟨eNBs', hserve⟩ := hdivides.serveFootprint [] db.eNBs
  have huser : .user ∈ (call db keyOfNewEnb []).touches := by
    rw [call, footprint_of_serves hi trivial, hserve]
    refine List.mem_append_right _ (List.mem_append_right _ ?_)
    rw [(pullWalk_tags _ _ (by simp) (hdivides.pulls [])).2.1]
    exact ⟨ItemType.key.code, by simp [pullTags, ItemType.code], by decide⟩
  obtain ⟨key, u, hkey, _⟩ := h db keyOfNewEnb [] huser
  rw [hi] at hkey
  cases hkey

end PublicCloudCore.CorekubeDb
