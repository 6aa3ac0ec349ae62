import PublicCloudCore.CorekubeDb.ImsiLookup

/-!
# The four identities of a user

The handler finds a user by the number that an identity spells, and never looks at the identities
that the record holds. `complete_user_info` makes two of these from that number; one of them is
also a PUSH item.
-/

namespace PublicCloudCore.CorekubeDb

open Framework

/-- Every user is where its key leads, and its identities are its key. -/
structure Db.WellIndexed (db : Db) : Prop where
  indexed : db.imsiMap.Indexed
  complete : ∀ u ∈ db.imsiMap.entries, u.Complete

/-- The file's users have IMSIs of fifteen digits, and no two of them share the last nine. -/
structure Db.DistinctUsers (db : Db) : Prop where
  isImsi : ∀ u ∈ db.imsiMap.entries, IsImsi u.imsi
  distinct : (db.imsiMap.entries.map fun u => lastNine u.imsi).Nodup

theorem Db.DistinctUsers.nodup {db : Db} (h : db.DistinctUsers) : db.imsiMap.keys.flatten.Nodup := by
  have hkeys : db.imsiMap.keys.flatten = db.imsiMap.entries.map hashImsiUserInfo :=
    List.map_flatten.symm
  rw [hkeys]
  apply List.Nodup.map_on ?_ (List.Nodup.of_map _ h.distinct)
  intro u hu v hv huv
  have hsame : lastNine u.imsi = lastNine v.imsi := by
    apply (hashImsi_eq_iff (h.isImsi u hu) (h.isImsi v hv)).mp
    rw [← u.get_imsi_eq, ← v.get_imsi_eq, hashImsi_get_imsi, hashImsi_get_imsi, huv]
  exact List.inj_on_of_nodup_map h.distinct hu hv hsame

/-- What `init_db` leaves behind. -/
structure Db.Loaded (db : Db) : Prop where
  placed : db.imsiMap.Placed
  complete : ∀ u ∈ db.imsiMap.entries, u.Complete

def Push.isMmeUeS1apId (p : Push) : Bool := p.tag == ItemType.mmeUeS1apId.code

/-- The last PUSH slot for the identifier, if there is one, carries the user's own key. -/
def Received.KeepsId (db : Db) (m : Received) : Prop :=
  ∀ key, m.request.target = .user key → (db.user? key).isSome →
    ∀ p, m.request.pushes.findRev? Push.isMmeUeS1apId = some p →
      p.payload.take mmeUeS1apIdLen = uint32ToArray key

theorem Push.target?_mmeUeS1apId {p : Push} {target : PushTarget} (h : p.target? = some target) :
    Field.mmeUeS1apId = target.field ↔ p.isMmeUeS1apId = true := by
  obtain ⟨t, ht, htarget⟩ := Option.bind_eq_some_iff.mp h
  rw [isMmeUeS1apId, ItemType.ofCode_eq_some_iff.mp ht, beq_iff_eq,
    ItemType.code_injective.eq_iff]
  cases t <;> simp only [pushTarget, Option.some.injEq, reduceCtorEq] at htarget <;>
    subst htarget <;> decide

theorem applyPushes_mmeUeS1apId (pushes : List Push) (u : UserInfo) :
    (applyPushes pushes u).get .mmeUeS1apId =
      match pushes.findRev? Push.isMmeUeS1apId with
      | some p => p.payload.take mmeUeS1apIdLen
      | none => u.get .mmeUeS1apId := by
  cases hfind : pushes.findRev? Push.isMmeUeS1apId with
  | none =>
      apply applyPushes_get_other
      intro p hp target ht heq
      rw [List.findRev?_eq_find?_reverse] at hfind
      have hno := List.find?_eq_none.mp hfind p (List.mem_reverse.mpr hp)
      exact hno ((Push.target?_mmeUeS1apId ht).mp heq)
  | some p =>
      rw [List.findRev?_eq_find?_reverse] at hfind
      obtain ⟨hp, later, earlier, hsplit, hlater⟩ := List.find?_eq_some_iff_append.mp hfind
      have hpushes : pushes = earlier.reverse ++ p :: later.reverse := by
        have := congrArg List.reverse hsplit
        simpa using this
      have htag : p.tag = ItemType.mmeUeS1apId.code := beq_iff_eq.mp hp
      have htarget : p.target? = pushTarget .mmeUeS1apId := by
        rw [Push.target?, htag, ItemType.ofCode_code]
        rfl
      rw [hpushes]
      refine (applyPushes_get_last u htarget ?_).trans ?_
      · intro q hq target ht heq
        have hno := hlater q (List.mem_reverse.mp hq)
        rw [(Push.target?_mmeUeS1apId ht).mp heq] at hno
        cases hno
      · rfl

theorem not_pushed_tmsi {p : Push} {target : PushTarget} (h : p.target? = some target) :
    Field.tmsi ≠ target.field := by
  obtain ⟨t, _, htarget⟩ := Option.bind_eq_some_iff.mp h
  cases t <;> simp only [pushTarget, Option.some.injEq, reduceCtorEq] at htarget <;>
    subst htarget <;> decide

theorem not_touched_identity {p : Pull} {f : Field} (hf : f = .tmsi ∨ f = .mmeUeS1apId) :
    p.touches? ≠ some f := by
  intro h
  obtain ⟨t, _, ht⟩ := Option.bind_eq_some_iff.mp h
  rcases hf with rfl | rfl <;> cases t <;> simp [pullTouches] at ht

theorem Request.run_identities {r : Request} {w w' : Work} {u : UserInfo} (hu : w.user = some u)
    (h : r.run w = .ok w') :
    ∃ u', w'.user = some u' ∧ hashImsiUserInfo u' = hashImsiUserInfo u ∧
      u'.get .tmsi = u.get .tmsi ∧
      u'.get .mmeUeS1apId = (applyPushes r.pushes u).get .mmeUeS1apId := by
  obtain ⟨u', hu', hhash, hframe⟩ := r.run_user_frame hu h
  rw [r.run_user hu] at h
  obtain ⟨v, hv, hget, _⟩ := foldlM_pullSlot_user h rfl
  obtain rfl := Option.some.inj (hu'.symm.trans hv)
  refine ⟨u', hu', hhash, ?_, ?_⟩
  · exact hframe .tmsi (fun p _ target ht => not_pushed_tmsi ht) fun p _ =>
      not_touched_identity (Or.inl rfl)
  · exact hget .mmeUeS1apId fun p _ => not_touched_identity (Or.inr rfl)

theorem Received.exists_key {m : Received} {db : Db} {u : UserInfo} (h : m.user? db = some u) :
    ∃ key, m.request.target = .user key ∧ db.user? key = some u := by
  unfold Received.user? at h
  split at h
  · next key htarget => exact ⟨key, htarget, h⟩
  · cases h
  · cases h

/-- What a request does to the users: nothing, or it stores one user under its key. -/
theorem Db.serve_cases {db db' : Db} {m : Received} (h : db.serve m = some db') :
    db'.imsiMap = db.imsiMap ∧ (∀ key, m.request.target = .user key → db.user? key = none) ∨
      ∃ key u u', m.request.target = .user key ∧ db.user? key = some u ∧
        db'.imsiMap = hashmapStore db.imsiMap key u' ∧ hashImsiUserInfo u' = key ∧
        u'.get .tmsi = u.get .tmsi ∧
        u'.get .mmeUeS1apId = (applyPushes m.request.pushes u).get .mmeUeS1apId := by
  unfold Db.serve at h
  split at h
  · next a ha =>
    cases h
    rcases Received.handle_ok ha with ⟨hserved, w, hrun, _, _, _, _, hcommit, hnew⟩ | ⟨hno, hdb, _⟩
    · rcases hserved with htarget | hsome
      · refine Or.inl ⟨hnew htarget, fun key hkey => ?_⟩
        rw [htarget] at hkey
        cases hkey
      · obtain ⟨u, huser⟩ := Option.isSome_iff_exists.mp hsome
        obtain ⟨key, htarget, hu⟩ := Received.exists_key huser
        rw [huser] at hrun
        obtain ⟨u', hu', hhash, htmsi, hmme⟩ := m.request.run_identities rfl hrun
        refine Or.inr ⟨key, u, u', htarget, hu, ?_, hhash.trans (Db.hash_of_user? hu), htmsi, hmme⟩
        rw [hcommit key htarget, Work.commit, hu']
    · refine Or.inl ⟨by rw [hdb], fun key hkey => ?_⟩
      cases hu : db.user? key with
      | none => rfl
      | some u =>
          have hserved : m.Served db := Or.inr (by simp [Received.user?, hkey, hu])
          exact absurd hserved hno
  · cases h

theorem Db.WellIndexed.serve {db db' : Db} {m : Received} (h : db.WellIndexed)
    (hkeeps : m.KeepsId db) (hserve : db.serve m = some db') : db'.WellIndexed := by
  rcases Db.serve_cases hserve with ⟨hsame, _⟩ | ⟨key, u, u', htarget, hu, hmap, hkey, htmsi, hmme⟩
  · exact ⟨by rw [hsame]; exact h.indexed, by rw [hsame]; exact h.complete⟩
  have hcomplete := h.complete u (HashMap.get_mem_entries hu)
  have hhash := Db.hash_of_user? hu
  constructor
  · rw [hmap]
    exact h.indexed.store hkey
  · intro v hv
    rw [hmap] at hv
    rcases HashMap.mem_entries_store hv with rfl | hv
    · constructor
      · rw [hmme, applyPushes_mmeUeS1apId, hkey]
        split
        · next p hp => exact hkeeps key htarget (by rw [hu]; rfl) p hp
        · rw [hcomplete.mmeUeS1apId, hhash]
      · rw [htmsi, hcomplete.tmsi, hhash, hkey]
    · exact h.complete v hv

def loadZeroKeys (imsis : List (List UInt8)) : Except LoadFault Db :=
  initDb .unused oneList (fun _ => 0) (zeroKeyFile imsis)

theorem exists_loaded_of_check (imsis : List (List UInt8)) (p : Db → Prop) [DecidablePred p]
    (h : ((loadZeroKeys imsis).toOption.any fun db =>
      decide ((∀ u ∈ db.imsiMap.entries, u.imsi.length = 15 ∧ u.imsi.all isDigit) ∧
        (db.imsiMap.entries.map fun u => lastNine u.imsi).Nodup ∧ p db)) = true) :
    ∃ db, initDb .unused oneList (fun _ => 0) (zeroKeyFile imsis) = .ok db ∧
      db.DistinctUsers ∧ p db := by
  obtain ⟨db, hdb, hloaded⟩ := exists_ok_of_any h
  obtain ⟨himsi, hnodup, hp⟩ := of_decide_eq_true hloaded
  exact ⟨db, hdb, ⟨fun v hv => ⟨(himsi v hv).1, (himsi v hv).2⟩, hnodup⟩, hp⟩

/-- `testNetworkImsi` and the next IMSI. -/
def neighbourImsis : List (List UInt8) :=
  [testNetworkImsi, [48, 48, 49, 48, 49, 48, 48, 48, 48, 48, 48, 48, 48, 48, 50]]

end PublicCloudCore.CorekubeDb
