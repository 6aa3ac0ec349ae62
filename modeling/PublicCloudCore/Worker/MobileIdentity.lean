import PublicCloudCore.CorekubeDb.RoundTrip
import PublicCloudCore.Worker.Isolation

/-!
# The mobile identity in KNH_1

A Registration Request stores the mobile identity, behind its length, in the sixteen bytes of
KNH_1, and an Authentication Failure takes it from there for `nas_5gs_generate_keys`. No other
handler pushes that item. The record is found by the last nine digits of the IMSI, so a
Registration Request with another IMSI can still replace what the UE has stored.
-/

namespace PublicCloudCore.Worker

open Framework CorekubeDb Libck

/-- The arguments of `nas_5gs_generate_keys`. -/
structure KeyInput where
  mobIdent : MobileIdentity
  opc : List UInt8
  key : List UInt8
  rand : List UInt8
  sqn : List UInt8

/-- `nas_handle_authentication_failure` up to its call of `nas_5gs_generate_keys`. -/
def authenticationFailureInput (lib : Ogs) (gmmCause : UInt8) (auts : List UInt8)
    (ctx : Context) : Processing KeyInput := do
  Prog.assert (gmmCause = 21)
  let amfUeNgapId ← Prog.require ctx.params.amfUeNgapId
  let dbPulls ←
    (dbAccess (lib.byAmfUeNgapId amfUeNgapId [] [.rand, .key, .opc, .knh1])).toProcessing
  let opc ← pulled dbPulls .opc
  let key ← pulled dbPulls .key
  let rand ← pulled dbPulls .rand
  let knh1 ← pulled dbPulls .knh1
  return {
    mobIdent := ⟨(knh1 0).toUInt16 ||| ((knh1 1).toUInt16 <<< 8), knh1.shift 2⟩
    opc := opc.read 0 16
    key := key.read 0 16
    rand := rand.read 0 16
    sqn := nextSqn (lib.aucSqn (opc.read 0 16) (key.read 0 16) (rand.read 0 16) auts) }

def authenticationFailureAnswer (lib : Ogs) (ctx : Context) (input : KeyInput) :
    Processing (Option Context) := do
  let amfUeNgapId ← Prog.require ctx.params.amfUeNgapId
  let (autn, kamf) ← Prog.require
    (nas5gsGenerateKeys lib input.mobIdent input.opc input.key input.rand input.sqn)
  let _ ← (dbAccess (lib.byAmfUeNgapId amfUeNgapId (kamfPushes kamf) [.spgwIp])).toProcessing
  return some { ctx with
    response := ctx.response.single
      (.nasMessage (nasBuildAuthenticationRequest input.rand autn)) }

theorem nasHandleAuthenticationFailure_eq (lib : Ogs) (gmmCause : UInt8) (auts : List UInt8)
    (ctx : Context) :
    nasHandleAuthenticationFailure lib gmmCause auts ctx =
      authenticationFailureInput lib gmmCause auts ctx >>= authenticationFailureAnswer lib ctx := by
  simp only [nasHandleAuthenticationFailure, authenticationFailureInput,
    authenticationFailureAnswer, Prog.bind_assoc, Prog.pure_bind]
  cases ctx.params.amfUeNgapId with
  | none => rfl
  | some id => rfl

def MobileIdentity.StoredIn (mobileIdentity : MobileIdentity) (u : UserInfo) : Prop :=
  (u.get .knh1).take mobileIdentity.mobIdent.length = mobileIdentity.mobIdent

section

variable {mobileIdentity : MobileIdentity} {key : UInt32} {u : UserInfo}

theorem MobileIdentity.mobIdent_length (hlen : mobileIdentity.length ≤ 14) :
    mobileIdentity.mobIdent.length ≤ 16 := by
  have hnat := UInt16.le_iff_toNat_le.mp hlen
  have hval : (14 : UInt16).toNat = 14 := rfl
  simp only [MobileIdentity.mobIdent, List.length_append, List.length_cons, List.length_nil,
    Mem.read_length]
  omega

def Query.KeepsIds : Query → Prop
  | .dbAccess c => OwnItems c.pushes c.pulls
  | .pkbufAlloc _ => True

/-- A question that leaves the identity of the UE with this key as it is, or stores this one. -/
def Query.Respects (mobileIdentity : MobileIdentity) (key : UInt32) : Query → Prop
  | .dbAccess c => OwnItems c.pushes c.pulls ∧
      (c.request.target = .user key → StoresOnly mobileIdentity c.pushes)
  | .pkbufAlloc _ => True

/-- The call of a Registration Request that stores an identity under this key. -/
def Query.Stores (key : UInt32) : Query → Prop
  | .dbAccess c => c.request.target = .user key ∧ ∃ x ∈ c.pushes, x.type = .knh1
  | .pkbufAlloc _ => False

instance (key : UInt32) : DecidablePred (Query.Stores key)
  | .dbAccess c =>
      inferInstanceAs (Decidable (c.request.target = .user key ∧ ∃ x ∈ c.pushes, x.type = .knh1))
  | .pkbufAlloc _ => .isFalse not_false

theorem length_of_bytes {n : UInt16} (h : n ≤ 14) :
    n.toUInt8.toUInt16 ||| ((n >>> 8).toUInt8.toUInt16 <<< 8) = n := by
  have hall : ∀ k < 15, (UInt16.ofNat k).toUInt8.toUInt16 |||
      ((UInt16.ofNat k >>> 8).toUInt8.toUInt16 <<< 8) = UInt16.ofNat k := by decide
  have hlt : n.toNat < 15 := Nat.lt_succ_of_le (UInt16.le_iff_toNat_le.mp h)
  have hn := hall n.toNat hlt
  rwa [UInt16.ofNat_toNat] at hn

theorem Known.knh1 {w : World} {c : DbCall} (h : Known w c key u) (env : Env)
    (hpushes : c.pushes = []) {before after : List ItemType}
    (hsplit : c.pulls = before ++ .knh1 :: after) :
    ∃ mem, (w.serve env (.dbAccess c)).1.pulls .knh1 = .to mem ∧ mem.read 0 16 = u.get .knh1 := by
  obtain ⟨u₁, eNBs, rand, x, mem, hx, hframe, hmem, hcells⟩ := h.pulls_slot env hsplit
  have hsame := hframe .knh1 fun s _ => by cases s <;> simp [pullTouches]
  rw [show c.request.pushes = [] by simp [DbCall.request, Call.request, DbCall.toCall, hpushes,
    pushValues, Call.pushSlots]] at hsame
  cases hx
  refine ⟨mem, hmem, ?_⟩
  rw [← show u₁.get .knh1 = u.get .knh1 from hsame]
  apply List.ext_getElem
  · rw [Mem.read_length, u₁.get_length]
    rfl
  · intro j hj hj'
    rw [Mem.read_length] at hj
    rw [Mem.getElem_read, Nat.zero_add]
    exact hcells j (by rwa [UserInfo.copy, Mem.read_length])

theorem Known.exists_pulled {w : World} {c : DbCall} (h : Known w c key u) (env : Env)
    {t : ItemType} (ht : t ∈ c.pulls) :
    ∃ mem, (w.serve env (.dbAccess c)).1.pulls t = .to mem := by
  obtain ⟨before, after, hsplit⟩ := List.append_of_mem ht
  obtain ⟨_, _, _, _, mem, _, _, hmem, _⟩ := h.pulls_slot env hsplit
  exact ⟨mem, hmem⟩

theorem SessionItems.known {lib : OgsSecurity} (hlib : lib.Documented) {w : World} {id : UInt64}
    (hu : w.db.user? id.toUInt32 = some u) {pushes : List PushItem} {pulls : List ItemType}
    (h : SessionItems pushes pulls) : Known w (lib.byAmfUeNgapId id pushes pulls) id.toUInt32 u :=
  ⟨⟨h.subset, h.nodup⟩, h.pos, hlib.target_byAmfUeNgapId id pushes pulls, hu⟩

theorem wp_toProcessing {α : Type} (env : Env) (aborts : Prop) (allowed : Query → Prop)
    (p : Handler α) (w : World) (post : α → World → Prop) :
    p.toProcessing.wp (Prog.servedReading (World.serve env) aborts allowed) w post ↔
      p.wp (Prog.servedReading (World.serve env) aborts allowed) w post :=
  Prog.wp_mapObservation _ _ _ _ _

theorem MobileIdentity.StoredIn.read {mem : Mem UInt8} (h : mobileIdentity.StoredIn u)
    (hlen : mobileIdentity.length ≤ 14) (hread : mem.read 0 16 = u.get .knh1) :
    (mem 0).toUInt16 ||| ((mem 1).toUInt16 <<< 8) = mobileIdentity.length ∧
      mem.read 2 mobileIdentity.length.toNat =
        mobileIdentity.buffer.read 0 mobileIdentity.length.toNat := by
  have hcount : mobileIdentity.mobIdent.length = 2 + mobileIdentity.length.toNat := by
    simp [MobileIdentity.mobIdent]
    omega
  have hall : mem.read 0 (2 + mobileIdentity.length.toNat) = mobileIdentity.mobIdent := by
    obtain ⟨rest, hrest⟩ := Nat.exists_eq_add_of_le (MobileIdentity.mobIdent_length hlen)
    rw [StoredIn, ← hread, hrest, Mem.read_add, List.take_left' (Mem.read_length _ _ _)] at h
    rw [← hcount]
    exact h
  rw [Mem.read_add] at hall
  obtain ⟨hlength, hbytes⟩ := List.append_inj hall rfl
  constructor
  · have hcells : [mem 0, mem 1] =
        [mobileIdentity.length.toUInt8, (mobileIdentity.length >>> 8).toUInt8] := hlength
    simp only [List.cons.injEq, and_true] at hcells
    rw [hcells.1, hcells.2, length_of_bytes hlen]
  · exact hbytes

end

/-- A message on its way to a worker, with what its handling finds uninitialised and the response
array of the thread that serves the worker. -/
structure Delivery where
  message : NgapUplink
  responses : Nat → Slot
  sctpStreamId : UInt8
  env : Env
  response : Mem UInt8

namespace Delivery

def handler (lib : Ogs) (d : Delivery) : Processing Response :=
  handleNgapMessage lib d.message (.start d.responses d.sctpStreamId)

/-- The questions of the handling, each with the state that it meets. -/
def trace (lib : Ogs) (d : Delivery) (db : Db) : List (World × Query) :=
  (d.handler lib).trace (World.serve d.env) ⟨db, d.response⟩

/-- The database behind the message, whether the worker survives the message or not. -/
def after (lib : Ogs) (d : Delivery) (db : Db) : Db :=
  ((d.handler lib).exec (World.serve d.env) ⟨db, d.response⟩).state.db

def step (lib : Ogs) (db : Db) (d : Delivery) : Option Db := some (d.after lib db)

/-- The message has a Registration Request with this identity, at some level. -/
def Registers (lib : Ogs) (d : Delivery) (mobileIdentity : MobileIdentity) : Prop :=
  ∃ nasPdu, d.message.nasPdu? = some nasPdu ∧
    Encloses lib nasPdu (.registrationRequest mobileIdentity)

end Delivery

/-- The number that `hash_imsi` makes of the IMSI in a mobile identity. -/
def MobileIdentity.imsiKey (lib : Ogs) (mobileIdentity : MobileIdentity) : Option UInt32 :=
  (lib.nas5gsImsiToBcd mobileIdentity).bind fun imsi => hashImsi (imsi.read 0 15 ++ [0])

section

variable {lib : Ogs} {mobileIdentity : MobileIdentity} {key : UInt32} {d : Delivery} {db : Db}

theorem Encloses.unique {nasPdu : List UInt8} {mobileIdentity' : MobileIdentity}
    (h : Encloses lib nasPdu (.registrationRequest mobileIdentity))
    (h' : Encloses lib nasPdu (.registrationRequest mobileIdentity')) :
    mobileIdentity = mobileIdentity' := by
  generalize hm : GmmMessage.registrationRequest mobileIdentity = m at h
  induction h with
  | outer hdecodes =>
      subst hm
      cases h' with
      | outer hdecodes' => exact GmmMessage.registrationRequest.inj (hdecodes.unique hdecodes')
      | inner hdecodes' _ => cases hdecodes.unique hdecodes'
  | inner hdecodes _ ih =>
      cases h' with
      | outer hdecodes' => cases hdecodes.unique hdecodes'
      | inner hdecodes' hinner =>
          cases hdecodes.unique hdecodes'
          exact ih hinner hm

theorem target_byImsi {imsi : Mem UInt8} {pushes : List PushItem} {pulls : List ItemType}
    (h : (byImsi imsi pushes pulls).request.target = .user key) :
    hashImsi (imsi.read 0 15 ++ [0]) = some key := by
  have hnul : (0 : UInt8) ∈ (imsi.read 0 15 ++ [0]).drop 6 := by
    rw [List.drop_append_of_le_length (by rw [Mem.read_length]; decide)]
    simp
  obtain ⟨key', hkey'⟩ := Option.isSome_iff_exists.mp (atoi_isSome hnul)
  have htarget : (byImsi imsi pushes pulls).request.target = .user key' :=
    Call.target_imsi (c := (byImsi imsi pushes pulls).toCall) rfl hkey' _
  rw [h] at htarget
  cases htarget
  exact hkey'

theorem permits_keepsIds (id : Option UInt64) : Permits lib Query.KeepsIds id where
  block := fun _ => trivial
  access := fun _ _ _ _ hitems => hitems.toOwnItems

theorem permits_respects (id : Option UInt64) :
    Permits lib (Query.Respects mobileIdentity key) id where
  block := fun _ => trivial
  access := fun _ _ _ _ hitems =>
    ⟨hitems.toOwnItems, fun _ x hx hknh1 => absurd hknh1 (hitems.keepsIdentity x hx)⟩

/-- A Registration Request respects what is stored under other keys, and its own identity. -/
theorem permitsRegistration_respects {mobileIdentity' : MobileIdentity}
    (h : mobileIdentity'.imsiKey lib ≠ some key ∨ mobileIdentity' = mobileIdentity) :
    PermitsRegistration lib (Query.Respects mobileIdentity key) mobileIdentity' where
  access := by
    intro imsi pushes pulls himsi hitems honly
    refine ⟨hitems, fun hkey => ?_⟩
    rcases h with hother | rfl
    · rw [MobileIdentity.imsiKey, himsi, Option.bind_some, target_byImsi hkey] at hother
      exact absurd rfl hother
    · exact honly
  permits := fun _ => permits_respects _

namespace Delivery

theorem asked {allowed : Query → Prop} (hpermits : ∀ id, Permits lib allowed id)
    (hregisters : ∀ mobileIdentity, d.Registers lib mobileIdentity →
      PermitsRegistration lib allowed mobileIdentity) :
    ∀ q ∈ ((d.handler lib).exec (World.serve d.env) ⟨db, d.response⟩).asked, allowed q := by
  have hkeeps : Keeps allowed (d.handler lib) _ :=
    keeps_handleNgapMessage hpermits
      (fun nasPdu hnasPdu mobileIdentity henclosed =>
        hregisters mobileIdentity ⟨nasPdu, hnasPdu, henclosed⟩) _ rfl
  exact (hkeeps.exec _ _).1

/-- A message without a Registration Request for this key, or with the same identity. -/
def Spares (lib : Ogs) (mobileIdentity : MobileIdentity) (key : UInt32) (d : Delivery) : Prop :=
  ∀ mobileIdentity', d.Registers lib mobileIdentity' →
    mobileIdentity'.imsiKey lib ≠ some key ∨ mobileIdentity' = mobileIdentity

theorem Spares.asked (h : d.Spares lib mobileIdentity key) :
    ∀ q ∈ ((d.handler lib).exec (World.serve d.env) ⟨db, d.response⟩).asked,
      q.Respects mobileIdentity key :=
  Delivery.asked permits_respects fun mobileIdentity' hregisters =>
    permitsRegistration_respects (h mobileIdentity' hregisters)

end Delivery

/-- A message with a Registration Request whose identity the handler puts into the record `u`, the
one that the database has under this key. -/
structure Stored (lib : Ogs) (mobileIdentity : MobileIdentity) (key : UInt32) (u : UserInfo)
    (d : Delivery) (db : Db) : Prop where
  registers : d.Registers lib mobileIdentity
  stores : ∃ x ∈ d.trace lib db, x.2.Stores key ∧ x.1.db.user? key = some u

end

def lowDigit (b : UInt8) : UInt8 := (b &&& 15) + 0x30

def highDigit (b : UInt8) : UInt8 := (b >>> 4) + 0x30

/-- The digits of a SUCI with the null scheme and an MNC of two digits. -/
def suciDigits (mobileIdentity : MobileIdentity) : List UInt8 :=
  let buffer := mobileIdentity.buffer
  [lowDigit (buffer 1), highDigit (buffer 1), lowDigit (buffer 2), lowDigit (buffer 3),
    highDigit (buffer 3)] ++
    (buffer.read 8 (mobileIdentity.length.toNat - 8)).flatMap fun b => [lowDigit b, highDigit b]

def digitsText (digits : List UInt8) : List Char := digits.map fun b => Char.ofNat b.toNat

/-- `suci-0-MCC-MNC-0-0-0-MSIN`. -/
def suciText (digits : List UInt8) : String :=
  String.ofList ("suci-0-".toList ++ digitsText (digits.take 3) ++ '-' ::
    digitsText ((digits.drop 3).take 2) ++ "-0-0-0-".toList ++ digitsText (digits.drop 5))

/-- `imsi-` and the digits of the network and of the MSIN. -/
def supiText (suci : String) : Option String :=
  match suci.toList.splitOn '-' with
  | [_, _, mcc, mnc, _, _, _, msin] =>
      some (String.ofList ("imsi-".toList ++ mcc ++ mnc ++ msin))
  | _ => none

/-- Libraries that also decode a Registration Request with thirteen bytes of SUCI and an
Authentication Failure with its AUTS. -/
def Ogs.registering : Ogs := { Ogs.reference with
  nas5gmmDecode := fun bytes =>
    if bytes.take 6 = [0x7e, 0x00, 0x41, 0x79, 0x00, 0x0d] then
      some ⟨.registrationRequest ⟨13, .ofList (bytes.drop 6) 0⟩, trivial⟩
    else if bytes.take 6 = [0x7e, 0x00, 0x59, 0x15, 0x30, 0x0e] then
      some ⟨.authenticationFailure 21 (bytes.drop 6), trivial⟩
    else Ogs.reference.nas5gmmDecode bytes
  nas5gsPlainEncode := fun m =>
    match m.body with
    | .authenticationRequest rand autn =>
        some ([0x7e, 0x00, 0x56, 0x01, 0x02, 0x00, 0x00, 0x21] ++ rand ++ [0x20, 0x10] ++ autn)
    | _ => Ogs.reference.nas5gsPlainEncode m
  nas5gsImsiToBcd := fun mobileIdentity => some (.ofList (suciDigits mobileIdentity ++ [0]) 0)
  suciFromMobileIdentity := fun mobileIdentity => some (suciText (suciDigits mobileIdentity))
  supiFromSuci := supiText }

theorem Decodes.plain {lib : Ogs} {rest : List UInt8} {m : GmmMessage}
    (within : m.Within (0x7e :: 0x00 :: rest).length)
    (h : lib.nas5gmmDecode (0x7e :: 0x00 :: rest) = some ⟨m, within⟩) :
    Decodes lib (0x7e :: 0x00 :: rest) m := by
  have hcontent : nasContent (0x7e :: 0x00 :: rest) = 0x7e :: 0x00 :: rest := by
    simp [nasContent, integrityProtected]
  have hall : ∀ content, nasContent (0x7e :: 0x00 :: rest) = content →
      ∀ within : m.Within content.length, content.head? = some 0x7e →
        lib.nas5gmmDecode content = some ⟨m, within⟩ → Decodes lib (0x7e :: 0x00 :: rest) m := by
    intro content hcontent within hhead hdecoded
    subst hcontent
    exact ⟨within, fun b hb => Option.some.inj (hb.symm.trans hhead), hdecoded⟩
  exact hall _ hcontent within rfl h

/-- The handling gets to the call that stores the identity, and the record is that of UE 1. -/
def Delivery.stores (d : Delivery) (db : Db) : Bool :=
  (d.trace .registering db).any fun x =>
    decide (x.2.Stores 1) && (x.1.db.user? 1).any fun u => mmeUeS1apIdOf u == 1

/-- The IMSI in a mobile identity. -/
def MobileIdentity.imsi (lib : Ogs) (mobileIdentity : MobileIdentity) : Option (List UInt8) :=
  (lib.nas5gsImsiToBcd mobileIdentity).map fun imsi => imsi.read 0 15

end PublicCloudCore.Worker
