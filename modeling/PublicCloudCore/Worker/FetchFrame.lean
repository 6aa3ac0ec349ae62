import PublicCloudCore.Worker.NasSecurity

/-!
# What a fetch leaves alone

`nas_security_fetch_keys` tests the pointers of a structure on its stack that only the slots of the
answer assign. A pointer that no slot sets is the one that the stack held before.
-/

namespace PublicCloudCore.Worker

open Framework CorekubeDb Libck

def slotMember (received : List UInt8) (k : Nat) : Option ItemType :=
  (received[17 * k]?.bind ItemType.ofCode).bind pullsMember

def lastSlot? (received : List UInt8) (t : ItemType) : Option Nat :=
  (List.range ((received.length + 16) / 17)).reverse.find? fun k => slotMember received k = some t

def slotPayload (received : List UInt8) (k : Nat) : List UInt8 :=
  (received.drop (17 * k + 1)).take 16

theorem foldl_update_find? {K V : Type} [DecidableEq K] {f : (K → V) → Nat → K → V}
    {key : Nat → Option K} {value : Nat → V} {ks : List Nat}
    (hf : ∀ k ∈ ks, ∀ d, f d k = (key k).elim d fun t => Function.update d t (value k))
    (d : K → V) (t : K) :
    ks.foldl f d t = (ks.reverse.find? fun k => key k = some t).elim (d t) value := by
  induction ks using List.reverseRecOn with
  | nil => rfl
  | append_singleton ks k ih =>
      have hlast := hf k (by simp)
      have hinit := ih fun k hk => hf k (by simp [hk])
      rw [List.foldl_append, List.foldl_cons, List.foldl_nil, hlast, List.reverse_append,
        List.reverse_singleton, List.singleton_append]
      cases hkey : key k with
      | none => rw [List.find?_cons_of_neg (by simp [hkey]), ← hinit, Option.elim_none]
      | some t' =>
          rw [Option.elim_some]
          by_cases ht : t = t'
          · rw [List.find?_cons_of_pos (by simp [hkey, ht]), ht, Function.update_self,
              Option.elim_some]
          · rw [List.find?_cons_of_neg (by simp [hkey, Ne.symm ht]), ← hinit,
              Function.update_of_ne ht]

theorem buffer_received (reply : Reply) {i : Nat} (hi : i < reply.received.length) :
    (reply.heap.write 0 reply.received) i = reply.received[i] := by
  have hinside := reply.heap.write_inside 0 reply.received i hi
  rwa [Nat.zero_add] at hinside

/-- A member leads into the last slot that sets it; where there is none the stack decides. -/
theorem Reply.pulls_eq (reply : Reply) (t : ItemType) :
    reply.pulls t = (lastSlot? reply.received t).elim (reply.stack t)
      fun k => .to ((reply.heap.write 0 reply.received).shift (17 * k + 1)) := by
  rw [Reply.pulls, extractDbValues, List.foldl_map]
  refine foldl_update_find? (fun k hk d => ?_) reply.stack t
  have hlt : 17 * k < reply.received.length := by
    rw [List.mem_range] at hk
    omega
  have hmember : slotMember reply.received k =
      (ItemType.ofCode reply.received[17 * k]).bind pullsMember := by
    rw [slotMember, List.getElem?_eq_getElem hlt, Option.bind_some]
  rw [extractDbValue, buffer_received reply hlt, hmember]
  cases (ItemType.ofCode reply.received[17 * k]).bind pullsMember <;> rfl

theorem lastSlot?_lt {received : List UInt8} {t : ItemType} {k : Nat}
    (h : lastSlot? received t = some k) : k < (received.length + 16) / 17 := by
  have hmem := List.mem_of_find?_eq_some h
  rwa [List.mem_reverse, List.mem_range] at hmem

theorem read_slot (reply : Reply) {k : Nat} (hk : 17 * k + 17 ≤ reply.received.length) :
    ((reply.heap.write 0 reply.received).shift (17 * k + 1)).read 2 4 =
      ((slotPayload reply.received k).drop 2).take 4 := by
  have hpayload : (slotPayload reply.received k).length = 16 := by
    rw [slotPayload, List.length_take, List.length_drop]
    omega
  apply List.ext_getElem
  · rw [Mem.read_length, List.length_take, List.length_drop, hpayload]
    rfl
  · intro j hj _
    rw [Mem.read_length] at hj
    rw [Mem.getElem_read, Mem.shift, buffer_received reply (by omega), List.getElem_take,
      List.getElem_drop]
    simp only [slotPayload, List.getElem_take, List.getElem_drop]

def Ptr.isNull : Ptr → Bool
  | .null => true
  | _ => false

/-- The members that `nas_security_store_keys_in_params` looks at. -/
def storedMembers : List ItemType :=
  [.kasme1, .kasme2, .epcNasSequenceNumber, .ueNasSequenceNumber]

def storeDereferences (dbPulls : DbPulls) : List ItemType :=
  -- `ogs_assert(db_pulls->kasme1)` and `ogs_assert(db_pulls->kasme2)`
  if (dbPulls .kasme1).isNull ∨ (dbPulls .kasme2).isNull then []
  else [.kasme1, .kasme2] ++
    [ItemType.epcNasSequenceNumber, .ueNasSequenceNumber].filter fun t => !(dbPulls t).isNull

section

variable {lib : OgsSecurity} {p p' : DbPulls} {sp : NasSecurityParams} {owner : UInt32}

theorem isNull_iff (q : Ptr) : q.isNull = true ↔ q = .null := by
  cases q with
  | null => exact iff_of_true rfl rfl
  | _ => exact iff_of_false Bool.false_ne_true Ptr.noConfusion

theorem mem_storeDereferences (hkeys : ¬ ((p .kasme1).isNull ∨ (p .kasme2).isNull)) {t : ItemType} :
    t ∈ storeDereferences p ↔ t ∈ storedMembers ∧ (p t).isNull ≠ true := by
  rw [not_or] at hkeys
  rw [storeDereferences, if_neg (not_or.mpr hkeys), storedMembers, List.mem_append,
    List.mem_filter]
  simp only [List.mem_cons, List.not_mem_nil, or_false, Bool.not_eq_true', ne_eq,
    Bool.not_eq_true]
  constructor
  · rintro ((rfl | rfl) | ⟨rfl | rfl, hcount⟩)
    · exact ⟨Or.inl rfl, by simpa using hkeys.1⟩
    · exact ⟨Or.inr (Or.inl rfl), by simpa using hkeys.2⟩
    · exact ⟨Or.inr (Or.inr (Or.inl rfl)), hcount⟩
    · exact ⟨Or.inr (Or.inr (Or.inr rfl)), hcount⟩
  · rintro ⟨rfl | rfl | rfl | rfl, hcount⟩
    · exact Or.inl (Or.inl rfl)
    · exact Or.inl (Or.inr rfl)
    · exact Or.inr ⟨Or.inl rfl, hcount⟩
    · exact Or.inr ⟨Or.inr rfl, hcount⟩

theorem storeKeys_null (h : (p .kasme1).isNull ∨ (p .kasme2).isNull) {S : Type}
    {R : Prog.Reading Query Answer Protection S} {s : S} {post : NasSecurityParams → S → Prop} :
    (nasSecurityStoreKeysInParams lib p sp owner).wp R s post ↔ R.aborts := by
  simp only [nasSecurityStoreKeysInParams, deref, Prog.wp_bind, Prog.wp_require]
  rcases h with h | h
  · rw [(isNull_iff _).mp h]
    rfl
  · rw [(isNull_iff _).mp h]
    cases p .kasme1 <;> rfl

/-- What a fetch needs: the memory behind the keys, and the counts. -/
theorem wp_storeKeys {S : Type} {R : Prog.Reading Query Answer Protection S} {s : S}
    {post : NasSecurityParams → S → Prop} :
    (nasSecurityStoreKeysInParams lib p sp owner).wp R s post ↔
      match (p .kasme1).deref, (p .kasme2).deref,
        countBehind lib (p .epcNasSequenceNumber) sp.dlCount,
        countBehind lib (p .ueNasSequenceNumber) sp.ulCount with
      | some kasme1, some kasme2, some dlCount, some ulCount =>
          let kamf := kasme1.read 0 16 ++ kasme2.read 0 16
          post {
            kamf := some kamf
            knasInt := some (lib.kdfNas5gs kdfNasIntAlg nasSecurityIntAlgorithm kamf)
            knasEnc := some (lib.kdfNas5gs kdfNasEncAlg nasSecurityEncAlgorithm kamf)
            dlCount
            ulCount
            owner } s
      | _, _, _, _ => R.aborts := by
  simp only [nasSecurityStoreKeysInParams, deref, copyCount_eq, Prog.wp_bind, Prog.wp_pure,
    Prog.wp_require]
  cases (p .kasme1).deref with
  | none => rfl
  | some kasme1 =>
      cases (p .kasme2).deref with
      | none => rfl
      | some kasme2 =>
          cases countBehind lib (p .epcNasSequenceNumber) sp.dlCount with
          | none => rfl
          | some dlCount => cases countBehind lib (p .ueNasSequenceNumber) sp.ulCount <;> rfl

/-- Beside the tests for null, what is stored depends on the memory behind these members only. -/
theorem storeKeys_agree (hnull : ∀ t, (p t).isNull = (p' t).isNull)
    (hread : ∀ t ∈ storeDereferences p, p t = p' t) {S : Type}
    {R : Prog.Reading Query Answer Protection S} {s : S} {post : NasSecurityParams → S → Prop} :
    (nasSecurityStoreKeysInParams lib p sp owner).wp R s post ↔
      (nasSecurityStoreKeysInParams lib p' sp owner).wp R s post := by
  by_cases hnone : (p .kasme1).isNull ∨ (p .kasme2).isNull
  · rw [storeKeys_null hnone, storeKeys_null (by rwa [← hnull, ← hnull])]
  · rw [storeDereferences, if_neg hnone] at hread
    have hcount : ∀ t ∈ [ItemType.epcNasSequenceNumber, .ueNasSequenceNumber], p t = p' t := by
      intro t ht
      cases hp : (p t).isNull with
      | true =>
          rw [(isNull_iff _).mp hp, (isNull_iff _).mp ((hnull t).symm.trans hp)]
      | false =>
          refine hread t (List.mem_append_right _ (List.mem_filter.mpr ⟨ht, ?_⟩))
          rw [hp]
          rfl
    rw [wp_storeKeys, wp_storeKeys, hread .kasme1 (by simp), hread .kasme2 (by simp),
      hcount .epcNasSequenceNumber (by simp), hcount .ueNasSequenceNumber (by simp)]

theorem storeKeys_wild {t : ItemType} (ht : t ∈ storeDereferences p) (hwild : p t = .wild)
    {S : Type} {R : Prog.Reading Query Answer Protection S} {s : S}
    {post : NasSecurityParams → S → Prop} :
    (nasSecurityStoreKeysInParams lib p sp owner).wp R s post ↔ R.aborts := by
  by_cases hnone : (p .kasme1).isNull ∨ (p .kasme2).isNull
  · exact storeKeys_null hnone
  · rw [storeDereferences, if_neg hnone, List.mem_append, List.mem_filter] at ht
    simp only [List.mem_cons, List.not_mem_nil, or_false] at ht
    rw [wp_storeKeys]
    rcases ht with (rfl | rfl) | ⟨rfl | rfl, _⟩
    · rw [hwild]
      rfl
    · rw [hwild]
      cases (p .kasme1).deref <;> rfl
    · rw [hwild]
      cases (p .kasme1).deref with
      | none => rfl
      | some kasme1 => cases (p .kasme2).deref <;> rfl
    · rw [hwild]
      cases (p .kasme1).deref with
      | none => rfl
      | some kasme1 =>
          cases (p .kasme2).deref with
          | none => rfl
          | some kasme2 => cases countBehind lib (p .epcNasSequenceNumber) sp.dlCount <;> rfl

end

/-- Every question to the database gets this answer. -/
def Reply.serve (reply : Reply) (s : Unit) : (q : Query) → Answer q × Unit
  | .dbAccess _ => (reply, s)
  | .pkbufAlloc _ => (fun _ => 0, s)

def fetched (lib : OgsSecurity) (params : NasNgapParams) (includeCounts : NasCounts)
    (reply : Reply) : Option (Option NasNgapParams) :=
  ((nasSecurityFetchKeys lib params includeCounts).exec reply.serve ()).result

/-- Where `nas_security_fetch_keys` gets as far as to store the keys. -/
structure Stores (params : NasNgapParams) (includeCounts : NasCounts) (reply : Reply)
    (sp : NasSecurityParams) : Prop where
  amfUeNgapId : params.amfUeNgapId.isSome
  answered : ∃ pulls, includeCounts.pulls = some pulls ∧ reply.received.length = 17 * pulls.length
  nasSecurityParams : params.nasSecurityParams = some sp

/-- A count that was not asked for stays, and no member is read through that the answer has not
set. -/
structure FrameKept (lib : OgsSecurity) (params : NasNgapParams) (includeCounts : NasCounts)
    (reply : Reply) : Prop where
  ulCount : includeCounts = .justDl → ∀ params',
    fetched lib params includeCounts reply = some (some params') →
      params'.nasSecurityParams.map NasSecurityParams.ulCount =
        params.nasSecurityParams.map NasSecurityParams.ulCount
  dlCount : includeCounts = .justUl → ∀ params',
    fetched lib params includeCounts reply = some (some params') →
      params'.nasSecurityParams.map NasSecurityParams.dlCount =
        params.nasSecurityParams.map NasSecurityParams.dlCount
  dereferenced : ∀ sp, Stores params includeCounts reply sp →
    ∀ t ∈ storeDereferences reply.pulls, (lastSlot? reply.received t).isSome

/-- A key of which neither the answer nor the stack has a pointer: the assertion fails. -/
def LacksKey (reply : Reply) : Prop :=
  ∃ t ∈ [ItemType.kasme1, .kasme2], lastSlot? reply.received t = none ∧ reply.stack t = .null

/-- The pointers that the answer does not set were null, and the count that was not asked for is
not in the answer, or is the same. -/
structure Harmless (lib : OgsSecurity) (includeCounts : NasCounts) (reply : Reply)
    (sp : NasSecurityParams) : Prop where
  null : ∀ t ∈ storedMembers, lastSlot? reply.received t = none → reply.stack t = .null
  ulCount : includeCounts = .justDl → ∀ k,
    lastSlot? reply.received .ueNasSequenceNumber = some k →
      lib.asnOctetStringToUint32 (((slotPayload reply.received k).drop 2).take 4) = sp.ulCount
  dlCount : includeCounts = .justUl → ∀ k,
    lastSlot? reply.received .epcNasSequenceNumber = some k →
      lib.asnOctetStringToUint32 (((slotPayload reply.received k).drop 2).take 4) = sp.dlCount

section

variable {lib : OgsSecurity} {params : NasNgapParams} {includeCounts : NasCounts} {reply : Reply}
  {sp : NasSecurityParams}

theorem pulls_isNull_iff (t : ItemType) :
    (reply.pulls t).isNull = true ↔ lastSlot? reply.received t = none ∧ reply.stack t = .null := by
  rw [reply.pulls_eq]
  cases lastSlot? reply.received t with
  | none =>
      rw [Option.elim_none, isNull_iff]
      exact (and_iff_right rfl).symm
  | some k => exact iff_of_false Bool.false_ne_true fun h => Option.some_ne_none k h.1

theorem lacksKey_iff :
    LacksKey reply ↔ (reply.pulls .kasme1).isNull = true ∨ (reply.pulls .kasme2).isNull = true := by
  rw [LacksKey, List.exists_mem_cons_iff, List.exists_mem_cons_iff, pulls_isNull_iff,
    pulls_isNull_iff]
  simp

/-- What a fetch returns is what it stores, if it comes to that. -/
theorem fetched_iff {post : NasNgapParams → Prop} :
    (∀ params', fetched lib params includeCounts reply = some (some params') → post params') ↔
      ∀ id sp, params.amfUeNgapId = some id → Stores params includeCounts reply sp →
        (nasSecurityStoreKeysInParams lib reply.pulls sp id.toUInt32).wp
          (Prog.servedReading reply.serve True fun _ => True) ()
          fun sp' _ => post { params with nasSecurityParams := some sp' } := by
  have hwp := Prog.wp_servedReading reply.serve True (fun _ => True)
    (nasSecurityFetchKeys lib params includeCounts) ()
    fun r _ => ∀ params', r = some params' → post params'
  have hresult : (∀ params', fetched lib params includeCounts reply = some (some params') →
      post params') ↔ (nasSecurityFetchKeys lib params includeCounts).wp
        (Prog.servedReading reply.serve True fun _ => True) ()
        fun r _ => ∀ params', r = some params' → post params' := by
    rw [hwp, fetched]
    cases ((nasSecurityFetchKeys lib params includeCounts).exec reply.serve ()).result with
    | none => simp
    | some r => simp
  rw [hresult, nasSecurityFetchKeys]
  simp only [Prog.wp_bind, Prog.wp_require]
  cases hid : params.amfUeNgapId with
  | none => exact iff_of_true trivial fun id sp h => by cases h
  | some id =>
      cases hpulls : includeCounts.pulls with
      | none =>
          refine iff_of_true (fun params' h => by cases h) fun id' sp _ hstores => ?_
          obtain ⟨pulls, hsome, _⟩ := hstores.answered
          rw [hpulls] at hsome
          cases hsome
      | some pulls =>
          have hpos : 0 < (lib.byAmfUeNgapId id [] pulls).pulls.length :=
            (NasCounts.pulls_plain hpulls).2.1
          simp only [dbAccess, if_pos hpos, Prog.wp_bind, Prog.wp_call, Prog.wp_pure,
            Prog.wp_assert, Prog.wp_require]
          show (True ∧ if reply.received.length = 17 * pulls.length then _ else True) ↔ _
          rw [true_and]
          by_cases hlength : reply.received.length = 17 * pulls.length
          · rw [if_pos hlength]
            cases hsp : params.nasSecurityParams with
            | none =>
                refine iff_of_true trivial fun id' sp _ hstores => ?_
                cases hsp.symm.trans hstores.nasSecurityParams
            | some sp =>
                have hstores : Stores params includeCounts reply sp :=
                  ⟨by rw [hid]; rfl, ⟨pulls, hpulls, hlength⟩, hsp⟩
                simp only [Option.some.injEq, forall_eq']
                constructor
                · intro hpost id' sp' hid' hstores'
                  cases hid'
                  cases hsp.symm.trans hstores'.nasSecurityParams
                  exact hpost
                · intro hall
                  exact hall id sp rfl hstores
          · rw [if_neg hlength]
            refine iff_of_true trivial fun id' sp _ hstores => ?_
            obtain ⟨pulls', hsome, hanswered⟩ := hstores.answered
            cases hpulls.symm.trans hsome
            exact absurd hanswered hlength

def storedCount (lib : OgsSecurity) (received : List UInt8) (t : ItemType) (count : UInt32) :
    UInt32 :=
  (lastSlot? received t).elim count fun k =>
    lib.asnOctetStringToUint32 (((slotPayload received k).drop 2).take 4)

theorem storedCount_eq_iff {t : ItemType} {count : UInt32} :
    storedCount lib reply.received t count = count ↔ ∀ k, lastSlot? reply.received t = some k →
      lib.asnOctetStringToUint32 (((slotPayload reply.received k).drop 2).take 4) = count := by
  rw [storedCount]
  cases lastSlot? reply.received t with
  | none => exact iff_of_true rfl fun k h => by cases h
  | some k => simp

theorem Stores.slot_le (h : Stores params includeCounts reply sp) {t : ItemType} {k : Nat}
    (hk : lastSlot? reply.received t = some k) : 17 * k + 17 ≤ reply.received.length := by
  obtain ⟨pulls, _, hlength⟩ := h.answered
  have hlt := lastSlot?_lt hk
  omega

theorem Stores.countBehind_eq (h : Stores params includeCounts reply sp) {t : ItemType}
    (hnull : lastSlot? reply.received t = none → reply.stack t = .null) (count : UInt32) :
    countBehind lib (reply.pulls t) count = some (storedCount lib reply.received t count) := by
  rw [reply.pulls_eq, storedCount]
  cases hslot : lastSlot? reply.received t with
  | none =>
      rw [Option.elim_none, Option.elim_none, hnull hslot]
      rfl
  | some k =>
      rw [Option.elim_some, Option.elim_some, ← read_slot reply (h.slot_le hslot)]
      rfl

theorem deref_pulls {t : ItemType} (hkey : (reply.pulls t).isNull ≠ true)
    (hnull : lastSlot? reply.received t = none → reply.stack t = .null) :
    ∃ mem, (reply.pulls t).deref = some mem := by
  rw [ne_eq, pulls_isNull_iff] at hkey
  rw [reply.pulls_eq]
  cases hslot : lastSlot? reply.received t with
  | none => exact absurd ⟨hslot, hnull hslot⟩ hkey
  | some k => exact ⟨_, rfl⟩

/-- With its pointers set or null, a fetch stores the counts of the answer. -/
theorem Stores.wp_storeKeys (h : Stores params includeCounts reply sp) (hkeys : ¬ LacksKey reply)
    (hnull : ∀ t ∈ storedMembers, lastSlot? reply.received t = none → reply.stack t = .null)
    (owner : UInt32) :
    ∃ kamf : List UInt8, ∀ post : NasSecurityParams → Prop,
      (nasSecurityStoreKeysInParams lib reply.pulls sp owner).wp
          (Prog.servedReading reply.serve True fun _ => True) () (fun sp' _ => post sp') ↔
        post {
          kamf := some kamf
          knasInt := some (lib.kdfNas5gs kdfNasIntAlg nasSecurityIntAlgorithm kamf)
          knasEnc := some (lib.kdfNas5gs kdfNasEncAlg nasSecurityEncAlgorithm kamf)
          dlCount := storedCount lib reply.received .epcNasSequenceNumber sp.dlCount
          ulCount := storedCount lib reply.received .ueNasSequenceNumber sp.ulCount
          owner } := by
  rw [lacksKey_iff, not_or] at hkeys
  obtain ⟨kasme1, hkasme1⟩ := deref_pulls hkeys.1 (hnull .kasme1 (by decide))
  obtain ⟨kasme2, hkasme2⟩ := deref_pulls hkeys.2 (hnull .kasme2 (by decide))
  refine ⟨kasme1.read 0 16 ++ kasme2.read 0 16, fun post => ?_⟩
  rw [Worker.wp_storeKeys, hkasme1, hkasme2,
    h.countBehind_eq (hnull .epcNasSequenceNumber (by decide)),
    h.countBehind_eq (hnull .ueNasSequenceNumber (by decide))]

/-- Every member that is read through is set by the answer, if the pointers that it does not set
were null. -/
theorem dereferenced_iff :
    (∀ t ∈ storeDereferences reply.pulls, (lastSlot? reply.received t).isSome) ↔
      LacksKey reply ∨
        ∀ t ∈ storedMembers, lastSlot? reply.received t = none → reply.stack t = .null := by
  rw [lacksKey_iff]
  by_cases hkeys : (reply.pulls .kasme1).isNull = true ∨ (reply.pulls .kasme2).isNull = true
  · rw [storeDereferences, if_pos hkeys]
    exact iff_of_true (fun t ht => by cases ht) (Or.inl hkeys)
  · rw [or_iff_right hkeys]
    refine forall_congr' fun t => ?_
    rw [mem_storeDereferences hkeys, ne_eq, pulls_isNull_iff, and_imp]
    refine imp_congr_right fun _ => ?_
    cases lastSlot? reply.received t <;> simp

theorem Stores.wp_safe (h : Stores params includeCounts reply sp)
    (hsafe : LacksKey reply ∨
      ∀ t ∈ storedMembers, lastSlot? reply.received t = none → reply.stack t = .null)
    (owner : UInt32) {post : NasSecurityParams → Prop}
    (hpost : ¬ LacksKey reply → ∀ sp',
      sp'.ulCount = storedCount lib reply.received .ueNasSequenceNumber sp.ulCount →
      sp'.dlCount = storedCount lib reply.received .epcNasSequenceNumber sp.dlCount → post sp') :
    (nasSecurityStoreKeysInParams lib reply.pulls sp owner).wp
      (Prog.servedReading reply.serve True fun _ => True) () fun sp' _ => post sp' := by
  by_cases hkeys : LacksKey reply
  · exact (storeKeys_null (lacksKey_iff.mp hkeys)).mpr trivial
  · obtain ⟨kamf, hstored⟩ :=
      @Stores.wp_storeKeys lib _ _ _ _ h hkeys (hsafe.resolve_left hkeys) owner
    exact (hstored _).mpr (hpost hkeys _ rfl rfl)

/-- A fetch keeps its frame exactly where it finds no key at all, or where the pointers that the
answer does not set were null and the answer has no other count than was asked for. -/
theorem fetchKeepsFrame_iff :
    FrameKept lib params includeCounts reply ↔ ∀ sp, Stores params includeCounts reply sp →
      LacksKey reply ∨ Harmless lib includeCounts reply sp := by
  constructor
  · intro h sp hstores
    by_cases hkeys : LacksKey reply
    · exact Or.inl hkeys
    right
    have hnull := (dereferenced_iff.mp (h.dereferenced sp hstores)).resolve_left hkeys
    obtain ⟨id, hid⟩ := Option.isSome_iff_exists.mp hstores.amfUeNgapId
    obtain ⟨kamf, hstored⟩ := @Stores.wp_storeKeys lib _ _ _ _ hstores hkeys hnull id.toUInt32
    refine ⟨hnull, fun hmode => ?_, fun hmode => ?_⟩
    · have hkept := (hstored _).mp (fetched_iff.mp (h.ulCount hmode) id sp hid hstores)
      rw [hstores.nasSecurityParams] at hkept
      exact storedCount_eq_iff.mp (Option.some.inj hkept)
    · have hkept := (hstored _).mp (fetched_iff.mp (h.dlCount hmode) id sp hid hstores)
      rw [hstores.nasSecurityParams] at hkept
      exact storedCount_eq_iff.mp (Option.some.inj hkept)
  · intro h
    have hsafe : ∀ sp, Stores params includeCounts reply sp → LacksKey reply ∨
        ∀ t ∈ storedMembers, lastSlot? reply.received t = none → reply.stack t = .null :=
      fun sp hstores => (h sp hstores).imp_right Harmless.null
    refine ⟨fun hmode => ?_, fun hmode => ?_, fun sp hstores => ?_⟩
    · refine fetched_iff.mpr fun id sp _ hstores => ?_
      refine hstores.wp_safe (hsafe sp hstores) _ fun hkeys sp' hul _ => ?_
      have hsame := ((h sp hstores).resolve_left hkeys).ulCount hmode
      rw [hstores.nasSecurityParams]
      exact congrArg some (hul.trans (storedCount_eq_iff.mpr hsame))
    · refine fetched_iff.mpr fun id sp _ hstores => ?_
      refine hstores.wp_safe (hsafe sp hstores) _ fun hkeys sp' _ hdl => ?_
      have hsame := ((h sp hstores).resolve_left hkeys).dlCount hmode
      rw [hstores.nasSecurityParams]
      exact congrArg some (hdl.trans (storedCount_eq_iff.mpr hsame))
    · exact dereferenced_iff.mpr (hsafe sp hstores)

end

/-- The three slots that were asked for, and a pointer from an earlier call on the stack. -/
def Reply.stale : Reply where
  received := [ItemType.kasme1, .kasme2, .epcNasSequenceNumber].flatMap fun t =>
    t.code :: List.replicate 16 0
  stack := Function.update (fun _ => .null) .ueNasSequenceNumber (.to fun _ => 1)
  heap := fun _ => 0

/-- The fetch of the downlink count takes the uplink count from the stale pointer. -/
theorem not_frameKept_stale :
    ¬ ∀ lib params includeCounts reply, FrameKept lib params includeCounts reply := by
  intro h
  have hkept := (h .reference .ofSubscriber .justDl .stale).ulCount rfl
  have hcount : (fetched .reference .ofSubscriber .justDl .stale).map
      (fun r => r.map fun params => params.nasSecurityParams.map NasSecurityParams.ulCount) =
      some (some (some 0x01010101)) := by decide +kernel
  obtain ⟨r, hr, hsome⟩ := Option.map_eq_some_iff.mp hcount
  obtain ⟨params, rfl, hul⟩ := Option.map_eq_some_iff.mp hsome
  rw [hkept params hr] at hul
  revert hul
  decide

end PublicCloudCore.Worker
