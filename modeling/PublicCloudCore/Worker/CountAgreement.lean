import PublicCloudCore.Worker.NasHandlers

/-!
# The counts of a protected message

`nas_5gs_security_encode` with both of its stages and each call of the cipher and of the code. The
sequence number of the header is read off the parameters before either key is looked for, and the
fetch of a missing key stores another count into the parameters. The header carries the count of
the calls where no key is missing, or where the stored count has the low bits of the one that was
there before.
-/

namespace PublicCloudCore.Worker

open Framework CorekubeDb Libck

/-- A call of `ogs_nas_encrypt` or of `ogs_nas_mac_calculate`. -/
inductive SecurityCall
  | nasEncrypt (knasEnc : List UInt8) (count : UInt32) (message : List UInt8)
  | nasMacCalculate (p : Protection)

namespace SecurityCall

def count : SecurityCall → UInt32
  | nasEncrypt _ count _ => count
  | nasMacCalculate p => p.dlCount

/-- The bytes that a code is calculated over start with this sequence number. -/
def StartsWith (sequenceNumber : UInt8) : SecurityCall → Prop
  | nasEncrypt _ _ _ => True
  | nasMacCalculate p => p.message.head? = some sequenceNumber

/-- The sequence number is that of the call's count, and the call is about bytes that carry it. -/
def Agrees (sequenceNumber : UInt8) (c : SecurityCall) : Prop :=
  sequenceNumber = c.count.toUInt8 ∧ c.StartsWith sequenceNumber

end SecurityCall

abbrev SecurityProcessing (α : Type) := Prog Query Answer SecurityCall α

structure NasAlgorithms where
  enc : UInt8
  int : UInt8

def NasAlgorithms.configured : NasAlgorithms := ⟨nasSecurityEncAlgorithm, nasSecurityIntAlgorithm⟩

@[simp] theorem NasAlgorithms.configured_enc : NasAlgorithms.configured.enc = 0 := rfl

@[simp] theorem NasAlgorithms.configured_int : NasAlgorithms.configured.int = 2 := rfl

/-- `ogs_nas_encrypt(algorithm_identity, knas_enc, count, bearer, direction, pkbuf)` -/
abbrev NasEncrypt := UInt8 → List UInt8 → UInt32 → UInt8 → UInt8 → List UInt8 → List UInt8

inductive HeaderCase
  | plain
  | secured (integrityProtected ciphered : Bool)
  | notImplemented
  deriving DecidableEq

def headerCase (securityHeaderType : UInt8) : HeaderCase :=
  if securityHeaderType = 0 then .plain
  else if securityHeaderType = 1 then .secured true false
  else if securityHeaderType = 2 then .secured true true
  else if securityHeaderType = 3 then .secured true false
  else if securityHeaderType = 4 then .secured true true
  else .notImplemented

/-- The parameters with the keys, fetched where this one is missing. -/
def requireKey (lib : Ogs) (params : NasNgapParams)
    (key : NasSecurityParams → Option (List UInt8)) : SecurityProcessing NasNgapParams := do
  let securityParams ← Prog.require params.nasSecurityParams
  match key securityParams with
  | some _ => return params
  | none => do
      let fetched ← (nasSecurityFetchKeys lib.toOgsSecurity params .justDl).mapObservation
        SecurityCall.nasMacCalculate
      Prog.require fetched

/-- `if (ciphered)` -/
def encryptNew (lib : Ogs) (nasEncrypt : NasEncrypt) (alg : NasAlgorithms) (params : NasNgapParams)
    (new : List UInt8) : SecurityProcessing (NasNgapParams × List UInt8) := do
  let params ← requireKey lib params NasSecurityParams.knasEnc
  let securityParams ← Prog.require params.nasSecurityParams
  let knasEnc ← Prog.require securityParams.knasEnc
  Prog.observe (.nasEncrypt knasEnc securityParams.dlCount new)
  return (params, nasEncrypt alg.enc knasEnc securityParams.dlCount nasSecurityAccessType3gpp
    nasSecurityDownlinkDirection new)

/-- `if (integrity_protected)` -/
def macOfNew (lib : Ogs) (alg : NasAlgorithms) (params : NasNgapParams) (new : List UInt8) :
    SecurityProcessing (NasNgapParams × List UInt8) := do
  let params ← requireKey lib params NasSecurityParams.knasInt
  let securityParams ← Prog.require params.nasSecurityParams
  let knasInt ← Prog.require securityParams.knasInt
  Prog.observe (.nasMacCalculate ⟨securityParams.owner, knasInt, securityParams.dlCount, new⟩)
  return (params, lib.nasMacCalculate alg.int knasInt securityParams.dlCount
    nasSecurityAccessType3gpp nasSecurityDownlinkDirection new)

/-- What follows the cipher: the sequence number, the code and the header. -/
def protectNew (lib : Ogs) (alg : NasAlgorithms) (params : NasNgapParams) (message : NasMessage)
    (sequenceNumber : UInt8) (integrityProtected : Bool) (new : List UInt8) :
    SecurityProcessing (NasNgapParams × List UInt8) := do
  let new := sequenceNumber :: new
  let (params, mac) ← if integrityProtected then macOfNew lib alg params new
    else pure (params, [0, 0, 0, 0])
  return (params, message.extendedProtocolDiscriminator :: message.securityHeaderType :: mac ++ new)

def secureNew (lib : Ogs) (nasEncrypt : NasEncrypt) (alg : NasAlgorithms) (params : NasNgapParams)
    (message : NasMessage) (sequenceNumber : UInt8) (integrityProtected ciphered : Bool)
    (new : List UInt8) : SecurityProcessing (NasNgapParams × List UInt8) := do
  let (params, new) ← if ciphered then encryptNew lib nasEncrypt alg params new
    else pure (params, new)
  protectNew lib alg params message sequenceNumber integrityProtected new

/-- `nas_5gs_security_encode`; `none` is a null pointer. -/
def securityEncode (lib : Ogs) (nasEncrypt : NasEncrypt) (alg : NasAlgorithms)
    (params : NasNgapParams) (message : NasMessage) :
    SecurityProcessing (Option (NasNgapParams × List UInt8)) := do
  let securityParams ← Prog.require params.nasSecurityParams
  match headerCase message.securityHeaderType with
  | .plain => return (lib.nas5gsPlainEncode message).map (params, ·)
  | .notImplemented => return none
  | .secured integrityProtected ciphered =>
      let ciphered := ciphered && alg.enc != 0
      let integrityProtected := integrityProtected && alg.int != 0
      let sequenceNumber := securityParams.dlCount.toUInt8
      match lib.nas5gsPlainEncode message with
      | none => return none
      | some new => do
          let secured ← secureNew lib nasEncrypt alg params message sequenceNumber
            integrityProtected ciphered new
          return some secured

variable {lib : Ogs} {nasEncrypt : NasEncrypt} {alg : NasAlgorithms}

section

variable {f : SecurityCall → Observation} (hf : ∀ p, f (.nasMacCalculate p) = .protects p)
include hf

theorem requireKey_knasInt (params : NasNgapParams) :
    (requireKey lib params NasSecurityParams.knasInt).mapObservation f =
      requireKnasInt lib params .justDl := by
  simp only [requireKey, requireKnasInt, Prog.mapObservation_bind, Prog.mapObservation_require]
  congr 1
  funext securityParams
  cases securityParams.knasInt with
  | some _ => rfl
  | none =>
      simp only [Prog.mapObservation_bind, Prog.mapObservation_require, Prog.mapObservation_comp,
        hf, Handler.toProcessing]

theorem macOfNew_configured (params : NasNgapParams) (new : List UInt8) :
    (macOfNew lib .configured params new).mapObservation f = do
      let params ← requireKnasInt lib params .justDl
      let securityParams ← Prog.require params.nasSecurityParams
      let knasInt ← Prog.require securityParams.knasInt
      Prog.observe (.protects ⟨securityParams.owner, knasInt, securityParams.dlCount, new⟩)
      return (params, lib.nasMacCalculate nasSecurityIntAlgorithm knasInt securityParams.dlCount
        nasSecurityAccessType3gpp nasSecurityDownlinkDirection new) := by
  simp only [macOfNew, Prog.mapObservation_bind, Prog.mapObservation_require,
    Prog.mapObservation_observe, Prog.mapObservation_pure, requireKey_knasInt hf, hf]
  rfl

theorem securityEncode_configured (params : NasNgapParams) (message : NasMessage) :
    (securityEncode lib nasEncrypt .configured params message).mapObservation f =
      nas5gsSecurityEncode lib params message := by
  have hflags : (headerCase message.securityHeaderType = .plain ∧
        integrityProtected message.securityHeaderType = some false) ∨
      (headerCase message.securityHeaderType = .notImplemented ∧
        integrityProtected message.securityHeaderType = none) ∨
      ∃ ciphered, headerCase message.securityHeaderType = .secured true ciphered ∧
        integrityProtected message.securityHeaderType = some true := by
    simp only [headerCase, integrityProtected]
    grind
  simp only [securityEncode, nas5gsSecurityEncode, Prog.mapObservation_bind,
    Prog.mapObservation_require]
  congr 1
  funext securityParams
  rcases hflags with ⟨hcase, hprot⟩ | ⟨hcase, hprot⟩ | ⟨ciphered, hcase, hprot⟩ <;>
    simp only [hcase, hprot, Prog.mapObservation_pure]
  cases lib.nas5gsPlainEncode message with
  | none => rfl
  | some plain =>
      simp [secureNew, protectNew, macOfNew_configured hf]

end

def justDlPulls : List ItemType := [.kasme1, .kasme2, .epcNasSequenceNumber]

theorem pulls_justDl : NasCounts.justDl.pulls = some justDlPulls := rfl

/-- A worker with these parameters can fetch, and this is the count that it finds. -/
def FetchedCount (lib : Ogs) (env : Env) (w : World) (params : NasNgapParams) (count : UInt8) :
    Prop :=
  ∃ id u, params.amfUeNgapId = some id ∧ w.db.user? id.toUInt32 = some u ∧
    env.stack (lib.byAmfUeNgapId id [] justDlPulls) .ueNasSequenceNumber ≠ .wild ∧
    getUserEpcNasSequenceNumber u = count

theorem FetchedCount.unique {lib : Ogs} {env : Env} {w : World} {params : NasNgapParams}
    {count count' : UInt8} (h : FetchedCount lib env w params count)
    (h' : FetchedCount lib env w params count') : count = count' := by
  obtain ⟨id, u, hid, hu, _, rfl⟩ := h
  obtain ⟨id', u', hid', hu', _, rfl⟩ := h'
  obtain rfl := Option.some.inj (hid.symm.trans hid')
  obtain rfl := Option.some.inj (hu.symm.trans hu')
  rfl

theorem plain_justDl (lib : OgsSecurity) (id : UInt64) :
    (lib.byAmfUeNgapId id [] justDlPulls).Plain :=
  ⟨(NasCounts.pulls_plain pulls_justDl).1.1, (NasCounts.pulls_plain pulls_justDl).1.2⟩

theorem known_justDl {w : World} {id : UInt64} {u : UserInfo} {lib : OgsSecurity}
    (hlib : lib.Documented) (hu : w.db.user? id.toUInt32 = some u) :
    Known w (lib.byAmfUeNgapId id [] justDlPulls) id.toUInt32 u :=
  ⟨plain_justDl lib id, Nat.succ_pos _, hlib.target_byAmfUeNgapId id [] _, hu⟩

theorem silent_dbAccess (c : DbCall) : (dbAccess c).Silent := by
  simp only [Prog.Silent, dbAccess, Prog.ensures_bind, Prog.ensures_call, true_and]
  intro reply
  split <;> simp

theorem silent_nasSecurityFetchKeys (lib : OgsSecurity) (params : NasNgapParams)
    (includeCounts : NasCounts) : (nasSecurityFetchKeys lib params includeCounts).Silent := by
  simp only [Prog.Silent, nasSecurityFetchKeys, Prog.ensures_bind, Prog.ensures_require]
  intro id _
  cases includeCounts.pulls with
  | none => trivial
  | some pulls =>
      exact (silent_dbAccess _).bind fun dbPulls _ => by
        simp [nasSecurityStoreKeysInParams, deref, copyCount_eq]

theorem ensures_requireKey (lib : Ogs) (params : NasNgapParams)
    (key : NasSecurityParams → Option (List UInt8)) :
    (requireKey lib params key).Ensures (fun _ => True) (fun _ => True) fun _ => True := by
  simp only [requireKey, Prog.ensures_bind, Prog.ensures_require]
  intro sp _
  split
  · trivial
  · simp only [Prog.ensures_bind, Prog.ensures_require, implies_true]
    rw [Prog.ensures_mapObservation]
    exact Prog.Ensures.weaken (silent_nasSecurityFetchKeys _ _ _)

theorem wp_dbAccess_unknown {c : DbCall} (hc : c.Plain) {key : UInt32} {w : World} {env : Env}
    (hkey : c.request.target = .user key) (hu : w.db.user? key = none) (hpos : 0 < c.pulls.length)
    (aborts : Prop) (allowed : Query → Prop) (post : DbPulls → World → Prop) :
    (dbAccess c).wp (Prog.servedReading (World.serve env) aborts allowed) w post ↔
      allowed (.dbAccess c) ∧ aborts := by
  have hlen : ¬ [(0 : UInt8)].length = 17 * c.pulls.length := by
    rw [List.length_singleton]
    omega
  simp only [dbAccess, if_pos hpos, Prog.wp_bind, Prog.wp_call, Prog.wp_pure, Prog.wp_assert]
  simp only [Prog.servedReading, World.serve_unknown hc hkey hu hpos env, if_neg hlen]

section

variable {env : Env} {w : World} {params : NasNgapParams} {sp : NasSecurityParams}
  {key : NasSecurityParams → Option (List UInt8)}

abbrev recorded (env : Env) : Prog.Reading Query Answer SecurityCall (World × List SecurityCall) :=
  Prog.recordedReading (World.serve env) True

theorem wp_observe_recorded (c : SecurityCall) (cs : List SecurityCall)
    (post : Unit → World × List SecurityCall → Prop) :
    (Prog.observe c : SecurityProcessing Unit).wp (recorded env) (w, cs) post ↔
      post () (w, cs ++ [c]) := Iff.rfl

theorem wp_requireKey_some {cs : List SecurityCall}
    {post : NasNgapParams → World × List SecurityCall → Prop} {k : List UInt8}
    (hsp : params.nasSecurityParams = some sp) (hkey : key sp = some k) :
    (requireKey lib params key).wp (recorded env) (w, cs) post ↔ post params (w, cs) := by
  simp [requireKey, hsp, hkey]

theorem wp_requireKey_none {cs : List SecurityCall}
    {post : NasNgapParams → World × List SecurityCall → Prop}
    (hsp : params.nasSecurityParams = some sp) (hkey : key sp = none) :
    (requireKey lib params key).wp (recorded env) (w, cs) post ↔
      (nasSecurityFetchKeys lib.toOgsSecurity params .justDl).wp
        (Prog.servedReading (World.serve env) True fun _ => True) w fun fetched w' =>
          ∀ params', fetched = some params' → post params' (w', cs) := by
  have hend : ∀ (fetched : Option NasNgapParams) (w' : World),
      ((Prog.require fetched : SecurityProcessing NasNgapParams).wp (recorded env) (w', cs) post) =
        ∀ params', fetched = some params' → post params' (w', cs) := by
    intro fetched w'
    cases fetched <;> simp [Prog.wp_require, Prog.recordedReading]
  rw [requireKey, Prog.wp_bind, Prog.wp_require, hsp]
  simp only [hkey]
  rw [Prog.wp_bind, (silent_nasSecurityFetchKeys _ _ _).wp_mapObservation]
  simp only [hend]

/-- A fetch that finds a count goes on with it and with both keys. -/
theorem FetchedCount.wp_requireKey {count : UInt8} (h : FetchedCount lib env w params count)
    (hlib : lib.toOgsSecurity.Documented) (hsp : params.nasSecurityParams = some sp) :
    ∃ sp' w' knasInt knasEnc, sp'.dlCount = count.toUInt32 ∧ sp'.knasInt = some knasInt ∧
      sp'.knasEnc = some knasEnc ∧
      ∀ key cs (post : NasNgapParams → World × List SecurityCall → Prop), key sp = none →
        ((requireKey lib params key).wp (recorded env) (w, cs) post ↔
          post { params with nasSecurityParams := some sp' } (w', cs)) := by
  obtain ⟨id, u, hid, hu, hstack, rfl⟩ := h
  have hknown := known_justDl hlib hu
  have hsplit : (lib.byAmfUeNgapId id [] justDlPulls).pulls =
      [.kasme1, .kasme2] ++ .epcNasSequenceNumber :: [] := rfl
  obtain ⟨mem, hptr, hmem⟩ := hknown.epcCount hlib env rfl hsplit
  have hother := hknown.pulls_other env (t := .ueNasSequenceNumber)
    (by simp [OgsSecurity.byAmfUeNgapId, justDlPulls])
  have hepc : countBehind lib.toOgsSecurity
      ((w.serve env (.dbAccess (lib.byAmfUeNgapId id [] justDlPulls))).1.pulls
        .epcNasSequenceNumber) sp.dlCount = some (getUserEpcNasSequenceNumber u).toUInt32 := by
    rw [hptr, countBehind, hmem]
  obtain ⟨ulCount, hul⟩ : ∃ ulCount, countBehind lib.toOgsSecurity
      (env.stack (lib.byAmfUeNgapId id [] justDlPulls) .ueNasSequenceNumber) sp.ulCount =
        some ulCount := by
    rcases hcase : env.stack (lib.byAmfUeNgapId id [] justDlPulls) .ueNasSequenceNumber with _ | _ | mem
    · exact ⟨_, rfl⟩
    · exact absurd hcase hstack
    · exact ⟨_, rfl⟩
  rw [← hother] at hul
  obtain ⟨kamf, hwp⟩ := wp_nasSecurityFetchKeys hlib env hid hsp pulls_justDl hu
  refine ⟨{
    kamf := some kamf
    knasInt := some (lib.kdfNas5gs kdfNasIntAlg nasSecurityIntAlgorithm kamf)
    knasEnc := some (lib.kdfNas5gs kdfNasEncAlg nasSecurityEncAlgorithm kamf)
    dlCount := (getUserEpcNasSequenceNumber u).toUInt32
    ulCount
    owner := id.toUInt32 }, (w.serve env (.dbAccess (lib.byAmfUeNgapId id [] justDlPulls))).2, _, _,
    rfl, rfl, rfl, fun key cs post hkey => ?_⟩
  rw [wp_requireKey_none hsp hkey, hwp]
  simp only [hepc, hul, true_and, Option.some.injEq, forall_eq']

/-- A fetch that finds no count does not come back. -/
theorem wp_requireKey_lost (h : ∀ count, ¬ FetchedCount lib env w params count)
    (hlib : lib.toOgsSecurity.Documented) (hsp : params.nasSecurityParams = some sp)
    (hkey : key sp = none) (cs : List SecurityCall)
    (post : NasNgapParams → World × List SecurityCall → Prop) :
    (requireKey lib params key).wp (recorded env) (w, cs) post := by
  rw [wp_requireKey_none hsp hkey]
  cases hid : params.amfUeNgapId with
  | none => simp [nasSecurityFetchKeys, hid, Prog.wp_require, Prog.servedReading]
  | some id =>
      cases hu : w.db.user? id.toUInt32 with
      | none =>
          simp only [nasSecurityFetchKeys, hid, pulls_justDl, Prog.wp_bind, Prog.wp_require]
          rw [wp_dbAccess_unknown (plain_justDl _ id) (hlib.target_byAmfUeNgapId id [] _) hu
            (Nat.succ_pos _)]
          exact ⟨trivial, trivial⟩
      | some u =>
          obtain ⟨kamf, hwp⟩ := wp_nasSecurityFetchKeys hlib env hid hsp pulls_justDl hu
          have hwild : env.stack (lib.byAmfUeNgapId id [] justDlPulls) .ueNasSequenceNumber = .wild := by
            by_contra hne
            exact h _ ⟨id, u, hid, hu, hne, rfl⟩
          have hul : countBehind lib.toOgsSecurity ((w.serve env
              (.dbAccess (lib.byAmfUeNgapId id [] justDlPulls))).1.pulls .ueNasSequenceNumber)
                sp.ulCount = none := by
            rw [(known_justDl hlib hu).pulls_other env
              (by simp [OgsSecurity.byAmfUeNgapId, justDlPulls]), hwild, countBehind]
          rw [hwp, hul]
          refine ⟨trivial, ?_⟩
          split <;> trivial

def AllAgree (sequenceNumber : UInt8) (cs : List SecurityCall) : Prop :=
  ∀ c ∈ cs, c.Agrees sequenceNumber

@[simp] theorem allAgree_nil (sequenceNumber : UInt8) : AllAgree sequenceNumber [] := by
  simp [AllAgree]

@[simp] theorem allAgree_singleton (sequenceNumber : UInt8) (c : SecurityCall) :
    AllAgree sequenceNumber [c] ↔ c.Agrees sequenceNumber := by
  simp [AllAgree]

@[simp] theorem allAgree_append (sequenceNumber : UInt8) (cs : List SecurityCall)
    (c : SecurityCall) :
    AllAgree sequenceNumber (cs ++ [c]) ↔ AllAgree sequenceNumber cs ∧ c.Agrees sequenceNumber := by
  simp [AllAgree, or_imp, forall_and]

def NasSecurityParams.KeyMissing (sp : NasSecurityParams) (integrityProtected ciphered : Bool) :
    Prop :=
  (ciphered = true ∧ sp.knasEnc = none) ∨ (integrityProtected = true ∧ sp.knasInt = none)

variable {cs : List SecurityCall} {message : NasMessage} {sequenceNumber : UInt8}
  {integrityProtected ciphered : Bool} {new : List UInt8}

theorem wp_encryptNew_some {knasEnc : List UInt8} (hsp : params.nasSecurityParams = some sp)
    (hkey : sp.knasEnc = some knasEnc)
    (post : NasNgapParams × List UInt8 → World × List SecurityCall → Prop) :
    (encryptNew lib nasEncrypt alg params new).wp (recorded env) (w, cs) post ↔
      post (params, nasEncrypt alg.enc knasEnc sp.dlCount nasSecurityAccessType3gpp
        nasSecurityDownlinkDirection new) (w, cs ++ [.nasEncrypt knasEnc sp.dlCount new]) := by
  simp only [encryptNew, Prog.wp_bind]
  rw [wp_requireKey_some hsp hkey]
  simp [Prog.wp_require, hsp, hkey, Prog.recordedReading]

theorem wp_macOfNew_some {knasInt : List UInt8} (hsp : params.nasSecurityParams = some sp)
    (hkey : sp.knasInt = some knasInt)
    (post : NasNgapParams × List UInt8 → World × List SecurityCall → Prop) :
    (macOfNew lib alg params new).wp (recorded env) (w, cs) post ↔
      post (params, lib.nasMacCalculate alg.int knasInt sp.dlCount nasSecurityAccessType3gpp
          nasSecurityDownlinkDirection new)
        (w, cs ++ [.nasMacCalculate ⟨sp.owner, knasInt, sp.dlCount, new⟩]) := by
  simp only [macOfNew, Prog.wp_bind]
  rw [wp_requireKey_some hsp hkey]
  simp [Prog.wp_require, hsp, hkey, Prog.recordedReading]

theorem wp_protectNew_some (hsp : params.nasSecurityParams = some sp)
    (hkey : integrityProtected = true → sp.knasInt ≠ none) :
    (protectNew lib alg params message sequenceNumber integrityProtected new).wp (recorded env)
        (w, cs) (fun _ s => AllAgree sequenceNumber s.2) ↔
      AllAgree sequenceNumber cs ∧
        (integrityProtected = true → sequenceNumber = sp.dlCount.toUInt8) := by
  cases integrityProtected with
  | false => simp [protectNew]
  | true =>
      obtain ⟨knasInt, hint⟩ := Option.ne_none_iff_exists'.mp (hkey rfl)
      simp only [protectNew, Prog.wp_bind, if_true]
      rw [wp_macOfNew_some hsp hint]
      simp [SecurityCall.Agrees, SecurityCall.count, SecurityCall.StartsWith]

theorem FetchedCount.wp_protectNew {count : UInt8} (h : FetchedCount lib env w params count)
    (hlib : lib.toOgsSecurity.Documented) (hsp : params.nasSecurityParams = some sp)
    (hkey : sp.knasInt = none) :
    (protectNew lib alg params message sequenceNumber true new).wp (recorded env) (w, cs)
        (fun _ s => AllAgree sequenceNumber s.2) ↔
      AllAgree sequenceNumber cs ∧ sequenceNumber = count := by
  obtain ⟨sp', w', knasInt, knasEnc, hcount, hint, henc, hwp⟩ := h.wp_requireKey hlib hsp
  simp only [protectNew, macOfNew, Prog.wp_bind, if_true]
  rw [hwp _ _ _ hkey]
  simp [Prog.wp_require, hint, hcount, Prog.recordedReading, SecurityCall.Agrees,
    SecurityCall.count, SecurityCall.StartsWith]

theorem wp_protectNew_lost (h : ∀ count, ¬ FetchedCount lib env w params count)
    (hlib : lib.toOgsSecurity.Documented) (hsp : params.nasSecurityParams = some sp)
    (hkey : sp.knasInt = none)
    (post : NasNgapParams × List UInt8 → World × List SecurityCall → Prop) :
    (protectNew lib alg params message sequenceNumber true new).wp (recorded env) (w, cs) post := by
  simp only [protectNew, macOfNew, Prog.wp_bind, if_true]
  exact wp_requireKey_lost h hlib hsp hkey _ _

theorem wp_secureNew_keys (hsp : params.nasSecurityParams = some sp)
    (hkeys : ¬ sp.KeyMissing integrityProtected ciphered) :
    (secureNew lib nasEncrypt alg params message sp.dlCount.toUInt8 integrityProtected ciphered
        new).wp (recorded env) (w, []) fun _ s => AllAgree sp.dlCount.toUInt8 s.2 := by
  simp only [NasSecurityParams.KeyMissing, not_or, not_and] at hkeys
  cases ciphered with
  | false =>
      simp only [secureNew, Prog.wp_bind, Prog.wp_pure, Bool.false_eq_true, if_false]
      rw [wp_protectNew_some hsp hkeys.2]
      simp
  | true =>
      obtain ⟨knasEnc, henc⟩ := Option.ne_none_iff_exists'.mp (hkeys.1 rfl)
      simp only [secureNew, Prog.wp_bind, if_true]
      rw [wp_encryptNew_some hsp henc, wp_protectNew_some hsp hkeys.2]
      simp [SecurityCall.Agrees, SecurityCall.count, SecurityCall.StartsWith]

theorem wp_secureNew_fetched {count : UInt8} (h : FetchedCount lib env w params count)
    (hlib : lib.toOgsSecurity.Documented) (hsp : params.nasSecurityParams = some sp)
    (hkeys : sp.KeyMissing integrityProtected ciphered) :
    (secureNew lib nasEncrypt alg params message sp.dlCount.toUInt8 integrityProtected ciphered
        new).wp (recorded env) (w, []) (fun _ s => AllAgree sp.dlCount.toUInt8 s.2) ↔
      sp.dlCount.toUInt8 = count := by
  cases ciphered with
  | false =>
      obtain ⟨rfl, hint⟩ : integrityProtected = true ∧ sp.knasInt = none := by
        simpa [NasSecurityParams.KeyMissing] using hkeys
      simp only [secureNew, Prog.wp_bind, Prog.wp_pure, Bool.false_eq_true, if_false]
      rw [h.wp_protectNew hlib hsp hint]
      simp
  | true =>
      cases henc : sp.knasEnc with
      | some knasEnc =>
          obtain ⟨rfl, hint⟩ : integrityProtected = true ∧ sp.knasInt = none := by
            simpa [NasSecurityParams.KeyMissing, henc] using hkeys
          simp only [secureNew, Prog.wp_bind, if_true]
          rw [wp_encryptNew_some hsp henc, h.wp_protectNew hlib hsp hint]
          simp [SecurityCall.Agrees, SecurityCall.count, SecurityCall.StartsWith]
      | none =>
          obtain ⟨sp', w', knasInt, knasEnc, hcount, hint, henc', hwp⟩ := h.wp_requireKey hlib hsp
          simp only [secureNew, encryptNew, Prog.wp_bind, if_true]
          rw [hwp _ _ _ henc]
          simp only [Prog.wp_require, henc', Prog.wp_pure, wp_observe_recorded]
          rw [wp_protectNew_some rfl (by simp [hint])]
          simp only [List.nil_append, allAgree_singleton, SecurityCall.Agrees, SecurityCall.count,
            SecurityCall.StartsWith, hcount, UInt8.toUInt8_toUInt32, and_true]
          exact ⟨fun h => h.1, fun h => ⟨h, fun _ => h⟩⟩

theorem wp_secureNew_lost (h : ∀ count, ¬ FetchedCount lib env w params count)
    (hlib : lib.toOgsSecurity.Documented) (hsp : params.nasSecurityParams = some sp)
    (hkeys : sp.KeyMissing integrityProtected ciphered)
    (post : NasNgapParams × List UInt8 → World × List SecurityCall → Prop) :
    (secureNew lib nasEncrypt alg params message sequenceNumber integrityProtected ciphered
        new).wp (recorded env) (w, cs) post := by
  cases ciphered with
  | false =>
      obtain ⟨rfl, hint⟩ : integrityProtected = true ∧ sp.knasInt = none := by
        simpa [NasSecurityParams.KeyMissing] using hkeys
      simp only [secureNew, Prog.wp_bind, Prog.wp_pure, Bool.false_eq_true, if_false]
      exact wp_protectNew_lost h hlib hsp hint post
  | true =>
      cases henc : sp.knasEnc with
      | some knasEnc =>
          obtain ⟨rfl, hint⟩ : integrityProtected = true ∧ sp.knasInt = none := by
            simpa [NasSecurityParams.KeyMissing, henc] using hkeys
          simp only [secureNew, Prog.wp_bind, if_true]
          rw [wp_encryptNew_some hsp henc]
          exact wp_protectNew_lost h hlib hsp hint post
      | none =>
          simp only [secureNew, encryptNew, Prog.wp_bind, if_true]
          exact wp_requireKey_lost h hlib hsp henc _ _

/-- What the libraries document of the octet strings and of the length of a code. -/
structure Ogs.CountsDocumented (lib : Ogs) : Prop where
  octets : lib.toOgsSecurity.Documented
  mac_length : ∀ algorithmIdentity knasInt count bearer direction message,
    (lib.nasMacCalculate algorithmIdentity knasInt count bearer direction message).length = 4

theorem ensures_macOfNew (hlib : lib.CountsDocumented) (params : NasNgapParams) (new : List UInt8) :
    (macOfNew lib alg params new).Ensures (fun _ => True) (fun _ => True) fun r =>
      r.2.length = 4 := by
  simp only [macOfNew, Prog.ensures_bind, Prog.ensures_require, Prog.ensures_observe,
    Prog.ensures_pure, hlib.mac_length]
  exact (ensures_requireKey _ _ _).mono fun _ _ => by simp

/-- Behind the discriminator, the header type and the code comes the sequence number. -/
theorem ensures_protectNew (hlib : lib.CountsDocumented) (params : NasNgapParams)
    (new : List UInt8) :
    (protectNew lib alg params message sequenceNumber integrityProtected new).Ensures
      (fun _ => True) (fun _ => True) fun r => r.2[6]? = some sequenceNumber := by
  have hend : ∀ mac : List UInt8, mac.length = 4 →
      (message.extendedProtocolDiscriminator :: message.securityHeaderType :: mac ++
        sequenceNumber :: new)[6]? = some sequenceNumber := by
    intro mac hmac
    simp [hmac]
  cases integrityProtected with
  | false => simp [protectNew]
  | true =>
      simp only [protectNew, if_true]
      exact (ensures_macOfNew hlib _ _).bind fun r hr => hend _ hr

theorem ensures_encryptNew (params : NasNgapParams) (new : List UInt8) :
    (encryptNew lib nasEncrypt alg params new).Ensures (fun _ => True) (fun _ => True)
      fun _ => True := by
  simp only [encryptNew, Prog.ensures_bind, Prog.ensures_require, Prog.ensures_observe,
    Prog.ensures_pure]
  exact (ensures_requireKey _ _ _).mono fun _ _ => by simp

theorem ensures_secureNew (hlib : lib.CountsDocumented) :
    (secureNew lib nasEncrypt alg params message sequenceNumber integrityProtected ciphered
      new).Ensures (fun _ => True) (fun _ => True) fun r => r.2[6]? = some sequenceNumber := by
  cases ciphered with
  | false =>
      simp only [secureNew, Bool.false_eq_true, if_false, Prog.pure_bind]
      exact ensures_protectNew hlib params new
  | true =>
      simp only [secureNew, if_true]
      exact (ensures_encryptNew params new).bind fun r _ => ensures_protectNew hlib r.1 r.2

/-- A message that is returned has in its header, and in the bytes that its code is calculated
over, the low bits of the count of every call. -/
def CountsAgree (lib : Ogs) (nasEncrypt : NasEncrypt) (alg : NasAlgorithms) (env : Env) (w : World)
    (params : NasNgapParams) (message : NasMessage) : Prop :=
  let outcome := (securityEncode lib nasEncrypt alg params message).exec (World.serve env) w
  ∀ params' bytes, outcome.result = some (some (params', bytes)) →
    ∀ c ∈ outcome.emitted, bytes[6]? = some c.count.toUInt8 ∧ c.StartsWith c.count.toUInt8

/-- Where the encoding comes to a missing key, the stored count has the low bits of the one in the
parameters. -/
def CountCurrent (lib : Ogs) (alg : NasAlgorithms) (env : Env) (w : World) (params : NasNgapParams)
    (message : NasMessage) : Prop :=
  ∀ sp integrityProtected ciphered count, params.nasSecurityParams = some sp →
    headerCase message.securityHeaderType = .secured integrityProtected ciphered →
    sp.KeyMissing (integrityProtected && alg.int != 0) (ciphered && alg.enc != 0) →
    (lib.nas5gsPlainEncode message).isSome → FetchedCount lib env w params count →
    sp.dlCount.toUInt8 = count

theorem countsAgree_wp :
    CountsAgree lib nasEncrypt alg env w params message ↔
      (securityEncode lib nasEncrypt alg params message).wp (recorded env) (w, []) fun r s =>
        ∀ params' bytes, r = some (params', bytes) →
          ∀ c ∈ s.2, bytes[6]? = some c.count.toUInt8 ∧ c.StartsWith c.count.toUInt8 := by
  rw [Prog.wp_recordedReading, CountsAgree]
  cases ((securityEncode lib nasEncrypt alg params message).exec (World.serve env) w).result <;>
    simp

theorem countsAgree_secured (hlib : lib.CountsDocumented) (hsp : params.nasSecurityParams = some sp)
    (hcase : headerCase message.securityHeaderType = .secured integrityProtected ciphered)
    (hnew : lib.nas5gsPlainEncode message = some new) :
    CountsAgree lib nasEncrypt alg env w params message ↔
      (secureNew lib nasEncrypt alg params message sp.dlCount.toUInt8
        (integrityProtected && alg.int != 0) (ciphered && alg.enc != 0) new).wp (recorded env)
          (w, []) fun _ s => AllAgree sp.dlCount.toUInt8 s.2 := by
  rw [countsAgree_wp]
  simp only [securityEncode, Prog.wp_bind, Prog.wp_require, hsp, hcase, hnew, Prog.wp_pure,
    Prog.wp_recordedReading]
  generalize hp : secureNew lib nasEncrypt alg params message sp.dlCount.toUInt8
    (integrityProtected && alg.int != 0) (ciphered && alg.enc != 0) new = p
  have hbytes := ((hp ▸ ensures_secureNew hlib).exec (World.serve env) w).2.2
  cases hr : (p.exec (World.serve env) w).result with
  | none => rfl
  | some r =>
      have hseq := hbytes r hr
      simp only [AllAgree, SecurityCall.Agrees]
      constructor
      · intro h c hc
        obtain ⟨hcount, hstart⟩ := h r.1 r.2 rfl c hc
        have heq : sp.dlCount.toUInt8 = c.count.toUInt8 := Option.some.inj (hseq.symm.trans hcount)
        exact ⟨heq, heq ▸ hstart⟩
      · intro h params' bytes heq c hc
        obtain rfl : r = (params', bytes) := Option.some.inj heq
        obtain ⟨hcount, hstart⟩ := h c hc
        exact ⟨hcount ▸ hseq, hcount ▸ hstart⟩

theorem countsAgree_iff (hlib : lib.CountsDocumented) :
    CountsAgree lib nasEncrypt alg env w params message ↔
      CountCurrent lib alg env w params message := by
  cases hsp : params.nasSecurityParams with
  | none =>
      rw [countsAgree_wp]
      simp [CountCurrent, securityEncode, Prog.wp_require, hsp, Prog.recordedReading]
  | some sp =>
      simp only [CountCurrent, hsp, Option.some.injEq]
      cases hcase : headerCase message.securityHeaderType with
      | plain =>
          rw [countsAgree_wp]
          simp [securityEncode, hsp, hcase]
      | notImplemented =>
          rw [countsAgree_wp]
          simp [securityEncode, hsp, hcase]
      | secured integrityProtected ciphered =>
          cases hnew : lib.nas5gsPlainEncode message with
          | none =>
              rw [countsAgree_wp]
              simp [securityEncode, hsp, hcase, hnew]
          | some new =>
              rw [countsAgree_secured hlib hsp hcase hnew]
              by_cases hkeys : sp.KeyMissing (integrityProtected && alg.int != 0)
                (ciphered && alg.enc != 0)
              · by_cases hfetch : ∃ count, FetchedCount lib env w params count
                · obtain ⟨count, hcount⟩ := hfetch
                  rw [wp_secureNew_fetched hcount hlib.octets hsp hkeys]
                  constructor
                  · rintro heq _ _ _ count' rfl hsame - - hcount'
                    rw [heq, hcount.unique hcount']
                  · intro h
                    exact h sp _ _ count rfl rfl hkeys rfl hcount
                · rw [not_exists] at hfetch
                  refine iff_of_true (wp_secureNew_lost hfetch hlib.octets hsp hkeys _) ?_
                  exact fun _ _ _ count _ _ _ _ hcount => absurd hcount (hfetch count)
              · refine iff_of_true (wp_secureNew_keys hsp hkeys) ?_
                rintro _ _ _ _ rfl hsame hmissing
                cases hsame
                exact absurd hmissing hkeys

end

/-- EEA0 leaves a message as it is. -/
def nullEncrypt : NasEncrypt := fun _ _ _ _ _ message => message

theorem Ogs.reference_countsDocumented : Ogs.reference.CountsDocumented :=
  ⟨OgsSecurity.reference_documented, fun _ _ _ _ _ _ => rfl⟩

/-- A subscriber whose stored count is the zero of fresh parameters. -/
theorem countsAgree_zero :
    CountsAgree .reference nullEncrypt .configured .zero (.counting 0 0) .ofSubscriber
      nasBuildSecurityModeCommand := by
  have hstored : ((World.counting 0 0).db.user? 1).map getUserEpcNasSequenceNumber = some 0 := by
    decide +kernel
  refine (countsAgree_iff Ogs.reference_countsDocumented).mpr ?_
  rintro sp _ _ count hsp _ _ _ ⟨id, u, hid, hu, _, rfl⟩
  cases hsp
  cases hid
  rw [show (World.counting 0 0).db.user? 1 = some u from hu] at hstored
  exact (Option.some.inj hstored).symm

/-- A Deregistration Request arrived without protection, and the Deregistration Accept is the
eighth message that is protected: the header says zero, the code is calculated with seven. -/
theorem not_countsAgree_deregistrationAccept :
    ¬ CountsAgree .reference nullEncrypt .configured .zero (.counting 7 0) .ofSubscriber
      nasBuildDeregistrationAccept := by
  have hresult : ((securityEncode .reference nullEncrypt .configured .ofSubscriber
      nasBuildDeregistrationAccept).exec (World.serve .zero) (.counting 7 0)).result.map
        (fun r => r.map fun r => r.2[6]?) = some (some (some 0)) := by
    decide +kernel
  have hemitted : ((securityEncode .reference nullEncrypt .configured .ofSubscriber
      nasBuildDeregistrationAccept).exec (World.serve .zero) (.counting 7 0)).emitted.map
        SecurityCall.count = [7] := by
    decide +kernel
  intro h
  obtain ⟨r, hr, hmap⟩ := Option.map_eq_some_iff.mp hresult
  obtain ⟨⟨params', bytes⟩, rfl, hzero⟩ := Option.map_eq_some_iff.mp hmap
  obtain ⟨c, hc, hseven⟩ : ∃ c ∈ ((securityEncode .reference nullEncrypt .configured .ofSubscriber
      nasBuildDeregistrationAccept).exec (World.serve .zero) (.counting 7 0)).emitted,
        SecurityCall.count c = 7 := by
    rw [← List.mem_map, hemitted]
    simp
  have hcount := (h params' bytes hr c hc).1
  rw [hzero, hseven] at hcount
  exact absurd hcount (by decide)

end PublicCloudCore.Worker
