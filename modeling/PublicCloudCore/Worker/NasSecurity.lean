import PublicCloudCore.Worker.Pulls

/-!
# NAS security keys and counts

`nas_security.c`: a worker that needs the keys of a UE pulls the KAMF and one or both NAS counts
from the database. The database puts each one-byte counter at its own place in a zero-filled
slot; the worker reads both as four big-endian bytes from the third byte on.
-/

namespace PublicCloudCore.Worker

open Framework CorekubeDb Libck

/-- The functions of the Open5GS libraries behind `nas_security.c`. -/
structure OgsSecurity where
  asnUint32ToOctetString : UInt32 → List UInt8
  asnOctetStringToUint32 : List UInt8 → UInt32
  /-- `ogs_kdf_nas_5gs(algorithm_type_distinguishers, algorithm_identity, kamf)` -/
  kdfNas5gs : UInt8 → UInt8 → List UInt8 → List UInt8

/-- What the libraries document: an octet string holds a number with its highest byte first. -/
structure OgsSecurity.Documented (lib : OgsSecurity) : Prop where
  to_octets : ∀ u, lib.asnUint32ToOctetString u = uint32ToArray u
  of_octets : ∀ octets, lib.asnOctetStringToUint32 octets = arrayToUint32 octets

def kdfNasEncAlg : UInt8 := 0x01
def kdfNasIntAlg : UInt8 := 0x02

/-- `COREKUBE_NAS_SECURITY_ENC_ALGORITHM`, which is EEA0. -/
def nasSecurityEncAlgorithm : UInt8 := 0

/-- `COREKUBE_NAS_SECURITY_INT_ALGORITHM`, which is 128-EIA2. -/
def nasSecurityIntAlgorithm : UInt8 := 2

/-- `nas_security_params_t`; `owner` is not in the structure: the UE whose keys were stored. -/
structure NasSecurityParams where
  ulCount : UInt32
  dlCount : UInt32
  knasInt : Option (List UInt8)
  knasEnc : Option (List UInt8)
  kamf : Option (List UInt8)
  owner : UInt32

/-- A structure that `ogs_calloc` returned. -/
def NasSecurityParams.calloc : NasSecurityParams := ⟨0, 0, none, none, none, 0⟩

structure NasNgapParams where
  ranUeNgapId : Option UInt64
  amfUeNgapId : Option UInt64
  nasMessageType : UInt8
  maskedImeisv : Option (List UInt8)
  nasSecurityParams : Option NasSecurityParams

/-- The parameter `includeCounts`, an `int` of which three values have a name. -/
inductive NasCounts
  | bothUlDl
  | justUl
  | justDl
  | other
  deriving DecidableEq

/-- The items that the branches over `includeCounts` pull. -/
def NasCounts.pulls : NasCounts → Option (List ItemType)
  | .bothUlDl => some [.kasme1, .kasme2, .epcNasSequenceNumber, .ueNasSequenceNumber]
  | .justDl => some [.kasme1, .kasme2, .epcNasSequenceNumber]
  | .justUl => some [.kasme1, .kasme2, .ueNasSequenceNumber]
  | .other => none

/-- A call of `db_access` for the UE with this AMF_UE_NGAP_ID, cut down to 32 bits. -/
def OgsSecurity.byAmfUeNgapId (lib : OgsSecurity) (amfUeNgapId : UInt64) (pushes : List PushItem)
    (pulls : List ItemType) : DbCall where
  dbKey := .mmeUeS1apId
  dbKeyValue := .ofList (lib.asnUint32ToOctetString amfUeNgapId.toUInt32) 0
  key_accepted := mmeUeS1apId_identifies
  pushes
  pulls

/-- `if (db_pulls->epc_nas_sequence_number)` and its twin: the count that lies two bytes behind
the pointer, if there is a pointer. -/
def copyCount (lib : OgsSecurity) (pulled : Ptr) (count : UInt32) : Handler UInt32 :=
  match pulled with
  | .null => return count
  | pulled => do
      let mem ← deref pulled
      return lib.asnOctetStringToUint32 (mem.read 2 4)

def nasSecurityStoreKeysInParams (lib : OgsSecurity) (dbPulls : DbPulls)
    (params : NasSecurityParams) (owner : UInt32) : Handler NasSecurityParams := do
  let kasme1 ← deref (dbPulls .kasme1)
  let kasme2 ← deref (dbPulls .kasme2)
  let kamf := kasme1.read 0 16 ++ kasme2.read 0 16
  let dlCount ← copyCount lib (dbPulls .epcNasSequenceNumber) params.dlCount
  let ulCount ← copyCount lib (dbPulls .ueNasSequenceNumber) params.ulCount
  return {
    kamf := some kamf
    knasInt := some (lib.kdfNas5gs kdfNasIntAlg nasSecurityIntAlgorithm kamf)
    knasEnc := some (lib.kdfNas5gs kdfNasEncAlg nasSecurityEncAlgorithm kamf)
    dlCount
    ulCount
    owner }

/-- `none` is `OGS_ERROR`. -/
def nasSecurityFetchKeys (lib : OgsSecurity) (params : NasNgapParams) (includeCounts : NasCounts) :
    Handler (Option NasNgapParams) := do
  let amfUeNgapId ← Prog.require params.amfUeNgapId
  match includeCounts.pulls with
  | none => return none
  | some pulls =>
      let dbPulls ← dbAccess (lib.byAmfUeNgapId amfUeNgapId [] pulls)
      let securityParams ← Prog.require params.nasSecurityParams
      let securityParams ←
        nasSecurityStoreKeysInParams lib dbPulls securityParams amfUeNgapId.toUInt32
      return some { params with nasSecurityParams := some securityParams }

variable {lib : OgsSecurity}

theorem OgsSecurity.Documented.target_byAmfUeNgapId (hlib : lib.Documented) (id : UInt64)
    (pushes : List PushItem) (pulls : List ItemType) :
    (lib.byAmfUeNgapId id pushes pulls).request.target = .user id.toUInt32 := by
  have hread : (Mem.ofList (uint32ToArray id.toUInt32) 0).read 0 4 = uint32ToArray id.toUInt32 :=
    Mem.read_ofList _ _
  rw [DbCall.target_mmeUeS1apId rfl]
  simp only [OgsSecurity.byAmfUeNgapId, hlib.to_octets, mmeUeS1apIdLen, hread, hashMmeUeS1apId,
    arrayToUint32_uint32ToArray]

theorem NasCounts.pulls_plain {includeCounts : NasCounts} {pulls : List ItemType}
    (h : includeCounts.pulls = some pulls) :
    (pulls ⊆ workerItems ∧ pulls.Nodup) ∧ 0 < pulls.length ∧
      ∃ counts, pulls = .kasme1 :: .kasme2 :: counts := by
  cases includeCounts <;> cases h <;> exact ⟨by decide, by decide, _, rfl⟩

private theorem getCounter_congr {u u' : UserInfo} {f : Field} (hf : f.size = 1)
    (h : u'.get f = u.get f) : getCounter u' f = getCounter u f :=
  Mem.cell_eq_of_read_eq h (Nat.le_refl _) (by rw [hf]; exact Nat.lt_succ_self _)

private theorem read_zeroFilled {mem : Mem UInt8} {i : Nat} {value : UInt8}
    (h : ∀ j (hj : j < (zeroFilled i value).length), mem j = (zeroFilled i value)[j]) :
    mem.read 2 4 = ((zeroFilled i value).drop 2).take 4 := by
  have hlen : (zeroFilled i value).length = 16 := by simp [zeroFilled]
  apply List.ext_getElem
  · simp [hlen]
  · intro j h₁ h₂
    have hj : j < 4 := by simpa using h₁
    rw [Mem.getElem_read, h _ (by omega), List.getElem_take, List.getElem_drop]

private theorem arrayToUint32_epcSlot (value : UInt8) :
    arrayToUint32 (((zeroFilled 5 value).drop 2).take 4) = value.toUInt32 := by
  show arrayToUint32 [0, 0, 0, value] = value.toUInt32
  simp [arrayToUint32]

private theorem arrayToUint32_ueSlot (value : UInt8) :
    arrayToUint32 (((zeroFilled 0 value).drop 2).take 4) = 0 := by
  show arrayToUint32 [0, 0, 0, 0] = 0
  decide

section

variable {w : World} {c : DbCall} {key : UInt32} {u : UserInfo} {before after : List ItemType}

/-- The EPC count comes back as it is stored: its byte is the last of the four. -/
theorem Known.epcCount (h : Known w c key u) (hlib : lib.Documented) (env : Env)
    (hpushes : c.pushes = []) (hsplit : c.pulls = before ++ .epcNasSequenceNumber :: after) :
    ∃ mem, (w.serve env (.dbAccess c)).1.pulls .epcNasSequenceNumber = .to mem ∧
      lib.asnOctetStringToUint32 (mem.read 2 4) = (getUserEpcNasSequenceNumber u).toUInt32 := by
  obtain ⟨u₁, eNBs, rand, x, mem, hx, hframe, hmem, hcells⟩ := h.pulls_slot env hsplit
  have hfirst : ∀ s ∈ before, pullTouches s ≠ some .epcNasSequenceNumber := by
    intro s hs htouch
    have hnodup := h.plain.pulls_nodup
    rw [hsplit] at hnodup
    have hs' : s = .epcNasSequenceNumber := by
      cases s <;> simp [pullTouches] at htouch ⊢
    exact (List.nodup_append.mp hnodup).2.2 s hs _ (by simp) hs'
  have hsame := hframe .epcNasSequenceNumber hfirst
  rw [show c.request.pushes = [] by simp [DbCall.request, Call.request, DbCall.toCall, hpushes,
    pushValues, Call.pushSlots]] at hsame
  have hcount := getCounter_congr rfl hsame
  cases hx
  refine ⟨mem, hmem, ?_⟩
  rw [hlib.of_octets, read_zeroFilled hcells, arrayToUint32_epcSlot]
  exact congrArg UInt8.toUInt32 hcount

/-- The UE count comes back as zero: its byte lies in front of the four. -/
theorem Known.ueCount (h : Known w c key u) (hlib : lib.Documented) (env : Env)
    (hsplit : c.pulls = before ++ .ueNasSequenceNumber :: after) :
    ∃ mem, (w.serve env (.dbAccess c)).1.pulls .ueNasSequenceNumber = .to mem ∧
      lib.asnOctetStringToUint32 (mem.read 2 4) = 0 := by
  obtain ⟨u₁, eNBs, rand, x, mem, hx, _, hmem, hcells⟩ := h.pulls_slot env hsplit
  cases hx
  refine ⟨mem, hmem, ?_⟩
  rw [hlib.of_octets, read_zeroFilled hcells, arrayToUint32_ueSlot]

end

def countBehind (lib : OgsSecurity) (pulled : Ptr) (count : UInt32) : Option UInt32 :=
  match pulled with
  | .null => some count
  | .wild => none
  | .to mem => some (lib.asnOctetStringToUint32 (mem.read 2 4))

theorem copyCount_eq (pulled : Ptr) (count : UInt32) :
    copyCount lib pulled count = Prog.require (countBehind lib pulled count) := by
  cases pulled <;> rfl

/-- A fetch for a known UE: it needs the pointers to both counts, those it did not ask for
included. -/
theorem wp_nasSecurityFetchKeys (hlib : lib.Documented) (env : Env) {w : World}
    {params : NasNgapParams} {id : UInt64} {sp : NasSecurityParams} {includeCounts : NasCounts}
    {pulls : List ItemType} {u : UserInfo} (hid : params.amfUeNgapId = some id)
    (hsp : params.nasSecurityParams = some sp) (hpulls : includeCounts.pulls = some pulls)
    (hu : w.db.user? id.toUInt32 = some u) :
    let c := lib.byAmfUeNgapId id [] pulls
    ∃ kamf : List UInt8, ∀ (aborts : Prop) (allowed : Query → Prop)
      (post : Option NasNgapParams → World → Prop),
      (nasSecurityFetchKeys lib params includeCounts).wp
          (Prog.servedReading (World.serve env) aborts allowed) w post ↔
        allowed (.dbAccess c) ∧
          match countBehind lib ((w.serve env (.dbAccess c)).1.pulls .epcNasSequenceNumber) sp.dlCount,
            countBehind lib ((w.serve env (.dbAccess c)).1.pulls .ueNasSequenceNumber) sp.ulCount with
          | some dlCount, some ulCount =>
              post (some { params with nasSecurityParams := some {
                kamf := some kamf
                knasInt := some (lib.kdfNas5gs kdfNasIntAlg nasSecurityIntAlgorithm kamf)
                knasEnc := some (lib.kdfNas5gs kdfNasEncAlg nasSecurityEncAlgorithm kamf)
                dlCount
                ulCount
                owner := id.toUInt32 } }) (w.serve env (.dbAccess c)).2
          | _, _ => aborts := by
  intro c
  obtain ⟨⟨hsub, hnodup⟩, hpos, counts, hsplit⟩ := NasCounts.pulls_plain hpulls
  have hknown : Known w c id.toUInt32 u :=
    ⟨⟨hsub, hnodup⟩, hpos, hlib.target_byAmfUeNgapId id [] pulls, hu⟩
  have hfirst : c.pulls = [] ++ .kasme1 :: (.kasme2 :: counts) := hsplit
  have hsecond : c.pulls = [.kasme1] ++ .kasme2 :: counts := hsplit
  obtain ⟨_, _, _, _, kasme1, _, _, hkasme1, _⟩ := hknown.pulls_slot env hfirst
  obtain ⟨_, _, _, _, kasme2, _, _, hkasme2, _⟩ := hknown.pulls_slot env hsecond
  refine ⟨kasme1.read 0 16 ++ kasme2.read 0 16, fun aborts allowed post => ?_⟩
  simp only [nasSecurityFetchKeys, nasSecurityStoreKeysInParams, hid, hsp, hpulls, Prog.wp_bind,
    Prog.wp_pure, Prog.wp_require, deref, copyCount_eq]
  rw [hknown.wp_dbAccess]
  simp only [hkasme1, hkasme2, Ptr.deref]
  refine and_congr_right fun _ => ?_
  rcases countBehind lib ((w.serve env (.dbAccess c)).1.pulls .epcNasSequenceNumber) sp.dlCount
    with _ | dlCount
  · rfl
  · rcases countBehind lib ((w.serve env (.dbAccess c)).1.pulls .ueNasSequenceNumber) sp.ulCount
      with _ | ulCount <;> rfl

def CountsStored (includeCounts : NasCounts) (u : UserInfo) (params : NasSecurityParams) : Prop :=
  (.epcNasSequenceNumber ∈ includeCounts.pulls.getD [] →
      params.dlCount = (getUserEpcNasSequenceNumber u).toUInt32) ∧
    (.ueNasSequenceNumber ∈ includeCounts.pulls.getD [] →
      params.ulCount = (getUserUeNasSequenceNumber u).toUInt32)

/-- The fetch returns, and the counts that it asked for are the stored ones. -/
def CountsTransported (lib : OgsSecurity) (env : Env) (w : World) (params : NasNgapParams)
    (includeCounts : NasCounts) (u : UserInfo) : Prop :=
  ∃ params' sp,
    ((nasSecurityFetchKeys lib params includeCounts).exec (World.serve env) w).result =
        some (some params') ∧
      params'.nasSecurityParams = some sp ∧ CountsStored includeCounts u sp

private theorem countsTransported_wp {env : Env} {w : World} {params : NasNgapParams}
    {includeCounts : NasCounts} {u : UserInfo} :
    CountsTransported lib env w params includeCounts u ↔
      (nasSecurityFetchKeys lib params includeCounts).wp
        (Prog.servedReading (World.serve env) False fun _ => True) w
        fun r _ => ∃ params' sp, r = some params' ∧ params'.nasSecurityParams = some sp ∧
          CountsStored includeCounts u sp := by
  rw [← Prog.exists_result_iff _ _ _ fun r : Option NasNgapParams => ∃ params' sp,
    r = some params' ∧ params'.nasSecurityParams = some sp ∧ CountsStored includeCounts u sp]
  constructor
  · intro ⟨params', sp, hr, h⟩
    exact ⟨_, hr, params', sp, rfl, h⟩
  · intro ⟨_, hr, params', sp, heq, h⟩
    subst heq
    exact ⟨params', sp, hr, h⟩

/-- The counts arrive where the UE count is not asked for or is zero, and where the pointer that
the fetch did not ask for is null or leads somewhere. -/
theorem countsTransported_iff (hlib : lib.Documented) {env : Env} {w : World}
    {params : NasNgapParams} {id : UInt64} {sp : NasSecurityParams} {includeCounts : NasCounts}
    {pulls : List ItemType} {u : UserInfo} (hid : params.amfUeNgapId = some id)
    (hsp : params.nasSecurityParams = some sp) (hpulls : includeCounts.pulls = some pulls)
    (hu : w.db.user? id.toUInt32 = some u) :
    CountsTransported lib env w params includeCounts u ↔
      (.ueNasSequenceNumber ∈ pulls → getUserUeNasSequenceNumber u = 0) ∧
        (.epcNasSequenceNumber ∉ pulls →
          env.stack (lib.byAmfUeNgapId id [] pulls) .epcNasSequenceNumber ≠ .wild) ∧
        (.ueNasSequenceNumber ∉ pulls →
          env.stack (lib.byAmfUeNgapId id [] pulls) .ueNasSequenceNumber ≠ .wild) := by
  obtain ⟨⟨hsub, hnodup⟩, hpos, _⟩ := NasCounts.pulls_plain hpulls
  have hknown : Known w (lib.byAmfUeNgapId id [] pulls) id.toUInt32 u :=
    ⟨⟨hsub, hnodup⟩, hpos, hlib.target_byAmfUeNgapId id [] pulls, hu⟩
  obtain ⟨kamf, hwp⟩ := @wp_nasSecurityFetchKeys lib hlib env w _ _ _ _ _ _ hid hsp hpulls hu
  have hepc : .epcNasSequenceNumber ∈ pulls → countBehind lib
      ((w.serve env (.dbAccess (lib.byAmfUeNgapId id [] pulls))).1.pulls .epcNasSequenceNumber)
        sp.dlCount = some (getUserEpcNasSequenceNumber u).toUInt32 := by
    intro hmem
    obtain ⟨before, after, hsplit⟩ := List.append_of_mem hmem
    obtain ⟨mem, hptr, hcount⟩ := hknown.epcCount hlib env rfl hsplit
    rw [hptr, countBehind, hcount]
  have hue : .ueNasSequenceNumber ∈ pulls → countBehind lib
      ((w.serve env (.dbAccess (lib.byAmfUeNgapId id [] pulls))).1.pulls .ueNasSequenceNumber)
        sp.ulCount = some 0 := by
    intro hmem
    obtain ⟨before, after, hsplit⟩ := List.append_of_mem hmem
    obtain ⟨mem, hptr, hcount⟩ := hknown.ueCount hlib env hsplit
    rw [hptr, countBehind, hcount]
  have hother : ∀ t ∉ pulls, ∀ count, countBehind lib
      ((w.serve env (.dbAccess (lib.byAmfUeNgapId id [] pulls))).1.pulls t) count = none ↔
        env.stack (lib.byAmfUeNgapId id [] pulls) t = .wild := by
    intro t ht count
    rw [hknown.pulls_other env ht]
    cases env.stack (lib.byAmfUeNgapId id [] pulls) t <;> simp [countBehind]
  have hzero : (0 : UInt32) = (getUserUeNasSequenceNumber u).toUInt32 ↔
      getUserUeNasSequenceNumber u = 0 := by
    generalize getUserUeNasSequenceNumber u = count
    rw [← UInt32.toNat_inj, ← UInt8.toNat_inj]
    exact eq_comm
  rw [countsTransported_wp, hwp]
  cases includeCounts with
  | other => cases hpulls
  | bothUlDl =>
      cases hpulls
      simp only [hepc (by decide), hue (by decide), CountsStored, NasCounts.pulls]
      simp [hzero]
  | justUl =>
      cases hpulls
      have hnone := hother .epcNasSequenceNumber (by decide) sp.dlCount
      simp only [hue (by decide)]
      rcases hptr : countBehind lib _ sp.dlCount with _ | dlCount
      · rw [hptr] at hnone
        simp [hnone.mp rfl]
      · rw [hptr] at hnone
        simp [CountsStored, NasCounts.pulls, hzero, ← hnone]
  | justDl =>
      cases hpulls
      have hnone := hother .ueNasSequenceNumber (by decide) sp.ulCount
      simp only [hepc (by decide)]
      rcases hptr : countBehind lib _ sp.ulCount with _ | ulCount
      · rw [hptr] at hnone
        simp [hnone.mp rfl]
      · rw [hptr] at hnone
        simp [CountsStored, NasCounts.pulls, ← hnone]

/-- Libraries that do what is documented; their key derivation changes nothing. -/
def OgsSecurity.reference : OgsSecurity := ⟨uint32ToArray, arrayToUint32, fun _ _ kamf => kamf⟩

theorem OgsSecurity.reference_documented : OgsSecurity.reference.Documented :=
  ⟨fun _ => rfl, fun _ => rfl⟩

/-- Nothing but zeros where nobody has initialised. -/
def Env.zero : Env := ⟨fun _ _ => .null, fun _ _ => 0, fun _ _ => 0⟩

/-- A database with the subscriber, whose counters are these. -/
def World.counting (epcCount ueCount : UInt8) : World where
  db := .init (some (setUserUeNasSequenceNumber (setUserEpcNasSequenceNumber subscriber epcCount)
    ueCount)) fun _ => 0
  response := fun _ => 0

/-- The parameters of a worker that handles a message of the subscriber. -/
def NasNgapParams.ofSubscriber : NasNgapParams := ⟨some 1, some 1, 0, none, some .calloc⟩

theorem countsTransported_seven :
    ∃ u, (World.counting 7 0).db.user? 1 = some u ∧ getUserEpcNasSequenceNumber u = 7 ∧
      CountsTransported .reference .zero (.counting 7 0) .ofSubscriber .bothUlDl u := by
  have hcount : ((World.counting 7 0).db.user? 1).map
      (fun u => (getUserEpcNasSequenceNumber u, getUserUeNasSequenceNumber u)) = some (7, 0) := by
    decide +kernel
  obtain ⟨u, hu, hpair⟩ := Option.map_eq_some_iff.mp hcount
  simp only [Prod.mk.injEq] at hpair
  refine ⟨u, hu, hpair.1, ?_⟩
  exact (countsTransported_iff OgsSecurity.reference_documented rfl rfl rfl hu).mpr
    ⟨fun _ => hpair.2, fun _ => Ptr.noConfusion, fun _ => Ptr.noConfusion⟩

/-- A UE count of one arrives as zero. -/
theorem not_countsTransported_one :
    ∃ u, (World.counting 0 1).db.user? 1 = some u ∧ getUserUeNasSequenceNumber u = 1 ∧
      ¬ CountsTransported .reference .zero (.counting 0 1) .ofSubscriber .bothUlDl u := by
  have hcount : ((World.counting 0 1).db.user? 1).map getUserUeNasSequenceNumber = some 1 := by
    decide +kernel
  have hfetched : ((nasSecurityFetchKeys .reference .ofSubscriber .bothUlDl).exec
      (World.serve .zero) (.counting 0 1)).result.map
        (fun r => (r.bind NasNgapParams.nasSecurityParams).map NasSecurityParams.ulCount) =
      some (some 0) := by
    decide +kernel
  obtain ⟨u, hu, hone⟩ := Option.map_eq_some_iff.mp hcount
  refine ⟨u, hu, hone, ?_⟩
  intro ⟨params', sp, hr, hsp, _, hul⟩
  have hul := hul (by decide)
  rw [hr] at hfetched
  simp only [Option.map_some, Option.bind_some, hsp, Option.some.injEq] at hfetched
  rw [hfetched, hone] at hul
  exact absurd hul (by decide)

end PublicCloudCore.Worker
