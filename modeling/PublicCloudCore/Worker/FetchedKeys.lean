import PublicCloudCore.Worker.Exchanges

/-!
# Where the codec of the worker returns

The codec fetches the keys of a UE where it needs them and does not have them. This returns for a
UE that is known, unless a count that the fetch leaves out is looked up behind a wild pointer.
-/

namespace PublicCloudCore.Worker

open Framework CorekubeDb Libck

def NasNgapParams.HasKeys (params : NasNgapParams) (keyed : Bool) : Prop :=
  ∃ sp, params.nasSecurityParams = some sp ∧ sp.knasInt.isSome = keyed ∧ sp.kamf.isSome = keyed

def KnownUe (w : World) (amfUeNgapId : Option UInt64) : Prop :=
  ∃ id, amfUeNgapId = some id ∧ (w.db.user? id.toUInt32).isSome

/-- The keys of the UE can be fetched with these items: it is known, and no count that was not
asked for is looked up behind a pointer that leads nowhere. -/
def Fetchable (lib : Ogs) (env : Env) (w : World) (pulls : List ItemType)
    (amfUeNgapId : Option UInt64) : Prop :=
  ∃ id, amfUeNgapId = some id ∧ (w.db.user? id.toUInt32).isSome ∧
    ∀ t ∈ [ItemType.epcNasSequenceNumber, .ueNasSequenceNumber], t ∉ pulls →
      env.stack (lib.byAmfUeNgapId id [] pulls) t ≠ .wild

section

variable {lib : Ogs} {env : Env} {w : World} {params : NasNgapParams} {keyed : Bool}

variable (lib env) in
theorem countBehind_ne_none_iff {c : DbCall} {key : UInt32} {u : UserInfo} (h : Known w c key u)
    (t : ItemType) (count : UInt32) :
    countBehind lib.toOgsSecurity ((w.serve env (.dbAccess c)).1.pulls t) count ≠ none ↔
      (t ∉ c.pulls → env.stack c t ≠ .wild) := by
  by_cases ht : t ∈ c.pulls
  · obtain ⟨mem, hmem⟩ := h.exists_pulled env ht
    simp [hmem, countBehind, ht]
  · rw [h.pulls_other env ht]
    cases env.stack c t <;> simp [countBehind, ht]

theorem returnsIff_nasSecurityFetchKeys (hlib : lib.Documented) {includeCounts : NasCounts}
    {pulls : List ItemType} (hpulls : includeCounts.pulls = some pulls)
    (hkeys : params.HasKeys keyed) :
    (nasSecurityFetchKeys lib.toOgsSecurity params includeCounts).ReturnsIff (World.serve env) w
      (Fetchable lib env w pulls params.amfUeNgapId) fun fetched _ =>
        ∃ params', fetched = some params' ∧ params'.HasKeys true := by
  obtain ⟨sp, hsp, _⟩ := hkeys
  obtain ⟨_, _, counts, hsplit⟩ := NasCounts.pulls_plain hpulls
  have hkasme1 : ItemType.kasme1 ∈ pulls := by simp [hsplit]
  have hkasme2 : ItemType.kasme2 ∈ pulls := by simp [hsplit]
  rw [nasSecurityFetchKeys]
  apply Prog.ReturnsIff.require_bind
  intro id hid
  rw [hpulls]
  apply (returnsIff_dbAccess (NasCounts.sessionItems hpulls).toOwnItems
    (hlib.target_byAmfUeNgapId id [] pulls) env w).bind
  rintro dbPulls w' ⟨hdbPulls, _, u, hknown⟩
  subst hdbPulls
  obtain ⟨mem1, hmem1⟩ := hknown.exists_pulled env hkasme1
  obtain ⟨mem2, hmem2⟩ := hknown.exists_pulled env hkasme2
  have hepc := countBehind_ne_none_iff lib env hknown .epcNasSequenceNumber
    sp.dlCount
  have hue := countBehind_ne_none_iff lib env hknown .ueNasSequenceNumber
    sp.ulCount
  simp only [hsp, nasSecurityStoreKeysInParams, deref, hmem1, hmem2, Ptr.deref,
    Prog.require_some_bind, copyCount_eq, Prog.bind_assoc, Prog.pure_bind]
  apply Prog.ReturnsIff.congr
  · apply Prog.ReturnsIff.require_bind
    intro dlCount _
    apply Prog.ReturnsIff.require_bind
    intro ulCount _
    exact Prog.ReturnsIff.pure ⟨_, rfl, _, rfl, rfl, rfl⟩
  · simp only [and_true, List.mem_cons, List.not_mem_nil, or_false, forall_eq_or_imp, forall_eq]
    refine Iff.trans ?_ (and_congr hepc hue)
    rw [Option.ne_none_iff_exists', Option.ne_none_iff_exists']
    simp

theorem returnsIff_session {α : Type} {p : Processing α} {C : Prop} {post : α → World → Prop}
    {value : α → Prop} (h : p.ReturnsIff (World.serve env) w C post)
    (hp : Keeps Query.OfSession p value) :
    p.ReturnsIff (World.serve env) w C
      fun a w' => (post a w' ∧ value a) ∧ SameIdentities w w' :=
  (h.and_ensures hp).and_invariant hp
    (fun s _ hq hs => hs.trans (sameIdentities_serve hq env s)) (.refl w)

structure WithKeys (params params' : NasNgapParams) (keyed : Bool) : Prop where
  rekeyed : Rekeyed params params'
  keys : params'.HasKeys keyed

theorem returnsIff_requireKnasInt (hlib : lib.Documented) {includeCounts : NasCounts}
    {pulls : List ItemType} (hpulls : includeCounts.pulls = some pulls)
    (hkeys : params.HasKeys keyed) :
    (requireKnasInt lib params includeCounts).ReturnsIff (World.serve env) w
      (keyed = true ∨ Fetchable lib env w pulls params.amfUeNgapId)
      fun params' w' => WithKeys params params' true ∧ SameIdentities w w' := by
  have hreturns : (requireKnasInt lib params includeCounts).ReturnsIff (World.serve env) w
      (keyed = true ∨ Fetchable lib env w pulls params.amfUeNgapId)
      fun params' _ => params'.HasKeys true := by
    obtain ⟨sp, hsp, hint, hkamf⟩ := hkeys
    rw [requireKnasInt, hsp, Prog.require_some_bind]
    cases hknas : sp.knasInt with
    | some knasInt =>
        rw [hknas] at hint
        obtain rfl : keyed = true := hint.symm
        exact (Prog.ReturnsIff.pure ⟨sp, hsp, by rw [hknas]; rfl, hkamf⟩).congr (by simp)
    | none =>
        rw [hknas] at hint
        obtain rfl : keyed = false := hint.symm
        have hnone : params.HasKeys false := ⟨sp, hsp, by rw [hknas]; rfl, hkamf⟩
        have hfetch : (nasSecurityFetchKeys lib.toOgsSecurity params includeCounts).ReturnsIff
            (World.serve env) w _ _ := returnsIff_nasSecurityFetchKeys hlib hpulls hnone
        apply Prog.ReturnsIff.congr
        · apply (returnsIff_toProcessing hfetch).bind
          rintro fetched w' ⟨params', rfl, hparams'⟩
          have hfetched : (Prog.require (some params') : Processing NasNgapParams).ReturnsIff
              (World.serve env) w' True fun params' _ => params'.HasKeys true := .pure hparams'
          exact hfetched
        · simp
  exact (returnsIff_session hreturns (keeps_requireKnasInt (permits_ofSession _).access _)).mono
    fun _ _ h => ⟨⟨h.1.2, h.1.1⟩, h.2⟩

theorem returnsIff_nas5gsSecurityEncode (hlib : lib.Documented) {message : NasMessage}
    {protects : Bool} (hprotects : integrityProtected message.securityHeaderType = some protects)
    (hencodes : (lib.nas5gsPlainEncode message).isSome) (hkeys : params.HasKeys keyed) :
    (nas5gsSecurityEncode lib params message).ReturnsIff (World.serve env) w
      (protects = true → keyed = true ∨
        Fetchable lib env w [.kasme1, .kasme2, .epcNasSequenceNumber] params.amfUeNgapId)
      fun encoded w' => (∃ r, encoded = some r ∧ WithKeys params r.1 (keyed || protects)) ∧
        SameIdentities w w' := by
  obtain ⟨sp, hsp, hknas, hkamf⟩ := hkeys
  obtain ⟨plain, hplain⟩ := Option.isSome_iff_exists.mp hencodes
  rw [nas5gsSecurityEncode, hsp, Prog.require_some_bind, hprotects, hplain]
  cases protects with
  | false =>
      have hkept : params.HasKeys (keyed || false) := by
        rw [Bool.or_false]
        exact ⟨sp, hsp, hknas, hkamf⟩
      refine (Prog.ReturnsIff.pure ?_).congr (by simp)
      exact ⟨⟨_, rfl, .refl params, hkept⟩, .refl w⟩
  | true =>
      apply Prog.ReturnsIff.congr
      · apply (returnsIff_requireKnasInt hlib rfl ⟨sp, hsp, hknas, hkamf⟩).bind
        rintro params' w' ⟨⟨hrekeyed, sp', hsp', hknas', hkamf'⟩, hsame⟩
        obtain ⟨knasInt, hknasInt⟩ := Option.isSome_iff_exists.mp hknas'
        simp only [hsp', hknasInt, Prog.require_some_bind]
        apply Prog.ReturnsIff.observe_bind
        refine Prog.ReturnsIff.pure ⟨⟨_, rfl, hrekeyed, ?_⟩, hsame⟩
        rw [Bool.or_true]
        exact ⟨sp', hsp', hknas', hkamf'⟩
      · simp

inductive UeMessage
  | gmm (m : GmmMessage)
  | gsm (m : GsmMessage)

def NasUplink.ueMessage {n : Nat} : NasUplink n → UeMessage
  | gmm m _ => .gmm m
  | gsm m => .gsm m

abbrev nasbufOf (env : Env) (nasPdu : List UInt8) : Pkbuf :=
  ⟨(env.pool nasPdu).write nasHeadroom nasPdu, nasHeadroom, nasPdu.length⟩

/-- Whether the security header declares protection, if it can be told. -/
def Pkbuf.declares (b : Pkbuf) : Option Bool :=
  if b.byte 0 = extendedProtocolDiscriminator5gmm then integrityProtected (b.byte 1)
  else some false

def Pkbuf.opened (lib : Ogs) (b : Pkbuf) : Option UeMessage :=
  if b.declares = none then none
  else if b.content.byte 0 = extendedProtocolDiscriminator5gmm then
    (lib.nas5gmmDecode b.content.bytes).map fun m => .gmm m.val
  else if b.content.byte 0 = extendedProtocolDiscriminator5gsm then
    (lib.nas5gsmDecode b.content.bytes).map .gsm
  else none

/-- Whether its code is calculated: the content of a session is let through. -/
def Pkbuf.needsKey (b : Pkbuf) : Bool :=
  b.declares == some true && b.content.byte 0 != extendedProtocolDiscriminator5gsm

theorem fetchable_bothUlDl_iff (amfUeNgapId : Option UInt64) :
    Fetchable lib env w [.kasme1, .kasme2, .epcNasSequenceNumber, .ueNasSequenceNumber]
        amfUeNgapId ↔ KnownUe w amfUeNgapId := by
  simp [Fetchable, KnownUe]

theorem Pkbuf.exists_push {b : Pkbuf} {n : Nat} (h : n ≤ b.data) :
    ∃ b', b.push n = some b' := ⟨_, if_pos h⟩

theorem Pkbuf.exists_pull {b : Pkbuf} {n : Nat} (h : n ≤ b.len) :
    ∃ b', b.pull n = some b' := ⟨_, dif_pos h⟩

/-- The header is put back and taken off again in the room that the PDU has in front of it. -/
theorem returnsIff_nas5gsSecurityDecode (hlib : lib.Documented) {b : Pkbuf} (hroom : 7 ≤ b.data)
    {protects : Bool} (hkeys : params.HasKeys keyed) :
    (nas5gsSecurityDecode lib params protects b).ReturnsIff (World.serve env) w
      ((protects && b.byte 0 != extendedProtocolDiscriminator5gsm) = true →
        keyed = true ∨ KnownUe w params.amfUeNgapId)
      fun decoded w' => WithKeys params decoded.1
          (keyed || protects && b.byte 0 != extendedProtocolDiscriminator5gsm) ∧
        decoded.2.val = b ∧ SameIdentities w w' := by
  have hreturns : (nas5gsSecurityDecode lib params protects b).ReturnsIff (World.serve env) w
      ((protects && b.byte 0 != extendedProtocolDiscriminator5gsm) = true →
        keyed = true ∨ KnownUe w params.amfUeNgapId)
      fun decoded _ => decoded.1.HasKeys
        (keyed || protects && b.byte 0 != extendedProtocolDiscriminator5gsm) := by
    rw [nas5gsSecurityDecode]
    split
    · next hgsm =>
      refine (Prog.ReturnsIff.pure ?_).congr (by simp [hgsm])
      simpa [hgsm] using hkeys
    · next hgsm =>
      split
      · next hprotects =>
        subst hprotects
        obtain ⟨header, hheader⟩ := Pkbuf.exists_push hroom
        obtain ⟨fromSequence, hsequence⟩ := Pkbuf.exists_pull
          (show 6 ≤ header.val.len by rw [header.property]; omega)
        obtain ⟨message, hmessage⟩ := Pkbuf.exists_pull
          (show 1 ≤ fromSequence.val.len by
            have := fromSequence.property
            have := header.property
            omega)
        rw [hheader, Prog.require_some_bind]
        simp only [hsequence, Prog.require_some_bind]
        apply Prog.ReturnsIff.congr
        · apply (returnsIff_requireKnasInt hlib rfl hkeys).bind
          rintro params' w' ⟨⟨_, sp, hsp, hknas, hkamf⟩, _⟩
          obtain ⟨knasInt, hknasInt⟩ := Option.isSome_iff_exists.mp hknas
          simp only [hsp, hknasInt, Prog.require_some_bind]
          apply Prog.ReturnsIff.observe_bind
          rw [hmessage, Prog.require_some_bind]
          refine Prog.ReturnsIff.pure ?_
          rw [show (keyed || true && b.byte 0 != extendedProtocolDiscriminator5gsm) = true by
            simp [hgsm]]
          exact ⟨sp, hsp, hknas, hkamf⟩
        · rw [fetchable_bothUlDl_iff]
          simp [hgsm]
      · next hprotects =>
        refine (Prog.ReturnsIff.pure ?_).congr (by simp [hprotects])
        simpa [hprotects] using hkeys
  exact (returnsIff_session hreturns (keeps_nas5gsSecurityDecode (permits_ofSession _).access _ _)).mono
    fun _ _ h => ⟨⟨h.1.2.1, h.1.1⟩, h.1.2.2, h.2⟩

theorem returnsIff_securityDecodeGsm (hlib : lib.Documented) {b : Pkbuf} (hroom : 7 ≤ b.data)
    (hkeys : params.HasKeys keyed) :
    (securityDecodeGsm lib params b).ReturnsIff (World.serve env) w
      (b.needsKey = true → keyed = true ∨ KnownUe w params.amfUeNgapId)
      fun decoded w' => (b.declares = none ↔ decoded = none) ∧
        (∀ r, decoded = some r → WithKeys params r.1 (keyed || b.needsKey) ∧ r.2.val = b.content) ∧
        SameIdentities w w' := by
  rw [securityDecodeGsm]
  split
  · next hgmm =>
    cases hprotects : integrityProtected (b.byte 1) with
    | none =>
        have hneeds : b.needsKey = false := by
          simp [Pkbuf.needsKey, Pkbuf.declares, hgmm, hprotects]
        rw [hneeds]
        refine (Prog.ReturnsIff.pure ⟨?_, by simp, SameIdentities.refl w⟩).congr (by simp)
        simp [Pkbuf.declares, hgmm, hprotects]
    | some protects =>
        have hcontent : (if protects then b.afterPull 7 else b.kept).val = b.content := by
          cases protects <;> simp [Pkbuf.content, hgmm, hprotects, Pkbuf.kept]
        have hbyte : (if protects then b.afterPull 7 else b.kept).val.byte 0 = b.content.byte 0 :=
          congrArg (fun b => Pkbuf.byte b 0) hcontent
        have hdata : 7 ≤ (if protects then b.afterPull 7 else b.kept).val.data := by
          cases protects
          · exact hroom
          · rw [if_pos rfl, Pkbuf.afterPull_val]
            split
            · exact Nat.le_trans hroom (Nat.le_add_right _ _)
            · exact hroom
        have hneeds : b.needsKey =
            (protects && b.content.byte 0 != extendedProtocolDiscriminator5gsm) := by
          cases protects <;> simp [Pkbuf.needsKey, Pkbuf.declares, hgmm, hprotects]
        have hdecode : (nas5gsSecurityDecode lib params protects
            (if protects then b.afterPull 7 else b.kept).val).ReturnsIff (World.serve env) w _ _ :=
          returnsIff_nas5gsSecurityDecode hlib hdata hkeys
        rw [hbyte, ← hneeds] at hdecode
        apply Prog.ReturnsIff.congr
        · apply hdecode.bind
          rintro decoded w' ⟨hkeyed, hval, hsame⟩
          refine Prog.ReturnsIff.pure ⟨?_, ?_, hsame⟩
          · simp [Pkbuf.declares, hgmm, hprotects]
          · intro r h
            cases h
            exact ⟨hkeyed, hval.trans hcontent⟩
        · simp
  · next hgmm =>
    have hneeds : b.needsKey = false := by simp [Pkbuf.needsKey, Pkbuf.declares, hgmm]
    rw [hneeds, Bool.or_false]
    refine (Prog.ReturnsIff.pure ⟨?_, ?_, SameIdentities.refl w⟩).congr (by simp)
    · simp [Pkbuf.declares, hgmm]
    · intro r h
      cases h
      exact ⟨⟨.refl params, hkeys⟩, by simp [Pkbuf.content, hgmm, Pkbuf.kept]⟩

/-- The message of a PDU: it can be told how it is protected, its content can be decoded, and its
code can be calculated. -/
theorem returnsIff_nasBytesToMessage (hlib : lib.Documented) (hkeys : params.HasKeys keyed)
    (nasPdu : List UInt8) :
    (nasBytesToMessage lib params nasPdu >>= Prog.require).ReturnsIff (World.serve env) w
      (((nasbufOf env nasPdu).opened lib).isSome ∧
        ((nasbufOf env nasPdu).needsKey = true → keyed = true ∨ KnownUe w params.amfUeNgapId))
      fun r w' => WithKeys params r.1 (keyed || (nasbufOf env nasPdu).needsKey) ∧
        (nasbufOf env nasPdu).opened lib = some r.2.ueMessage ∧ SameIdentities w w' := by
  have hdecode : (securityDecodeGsm lib params (nasbufOf env nasPdu)).ReturnsIff (World.serve env) w
      _ _ := returnsIff_securityDecodeGsm hlib (Nat.le_of_ble_eq_true rfl) hkeys
  rw [nasBytesToMessage]
  simp only [Prog.bind_assoc]
  apply Prog.ReturnsIff.call_bind
  refine (hdecode.bind ?_).congr and_comm
  rintro decoded w' ⟨hnone, hdecoded, hsame⟩
  cases decoded with
  | none =>
      have hclosed : (nasbufOf env nasPdu).opened lib = none := if_pos (hnone.mpr rfl)
      rw [hclosed]
      exact Prog.ReturnsIff.abort.congr (by simp)
  | some r =>
      obtain ⟨params', content, hlen⟩ := r
      obtain ⟨hkeyed, hcontent⟩ := hdecoded _ rfl
      simp only at hkeyed hcontent
      subst hcontent
      have hdeclares : (nasbufOf env nasPdu).declares ≠ none := fun h => by cases hnone.mp h
      simp only [Prog.require_some_bind, Pkbuf.opened, if_neg hdeclares]
      split
      · next hgmm =>
        rw [Prog.bind_assoc]
        apply Prog.ReturnsIff.congr
        · apply Prog.ReturnsIff.require_bind
          intro m hm
          exact Prog.ReturnsIff.pure ⟨hkeyed, by rw [hm]; rfl, hsame⟩
        · simp [Option.isSome_iff_exists]
      split
      · next hgsm =>
        rw [Prog.bind_assoc]
        apply Prog.ReturnsIff.congr
        · apply Prog.ReturnsIff.require_bind
          intro m hm
          exact Prog.ReturnsIff.pure ⟨hkeyed, by rw [hm]; rfl, hsame⟩
        · simp [Option.isSome_iff_exists]
      · exact Prog.ReturnsIff.abort.congr (by simp)

end

end PublicCloudCore.Worker
