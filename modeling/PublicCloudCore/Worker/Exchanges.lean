import PublicCloudCore.Framework.Returning
import PublicCloudCore.Worker.MobileIdentity

/-!
# Exchanges that return

A call of `db_access` returns exactly where the database knows its user, as the answer to any other
call is too short. No question of the handlers makes a user known or unknown, and those of a
session leave everybody's identifier and mobile identity alone.
-/

namespace PublicCloudCore.Worker

open Framework CorekubeDb Libck

def SameKeys (w w' : World) : Prop :=
  ∀ key, (w'.db.user? key).isSome = (w.db.user? key).isSome

/-- The same keys lead to records with the same identifiers. -/
def SameIds (w w' : World) : Prop :=
  ∀ key, (w'.db.user? key).map mmeUeS1apIdOf = (w.db.user? key).map mmeUeS1apIdOf

/-- What tells a record apart and what the key generation takes from it. -/
def recordIdentity (u : UserInfo) : UInt64 × List UInt8 := (mmeUeS1apIdOf u, u.get .knh1)

/-- The same records are known under their keys, as far as their identities go. -/
def SameIdentities (w w' : World) : Prop :=
  ∀ key, (w'.db.user? key).map recordIdentity = (w.db.user? key).map recordIdentity

theorem SameKeys.refl (w : World) : SameKeys w w := fun _ => rfl

theorem SameKeys.trans {w w' w'' : World} (h : SameKeys w w') (h' : SameKeys w' w'') :
    SameKeys w w'' := fun key => (h' key).trans (h key)

theorem SameIdentities.refl (w : World) : SameIdentities w w := fun _ => rfl

theorem SameIdentities.trans {w w' w'' : World} (h : SameIdentities w w')
    (h' : SameIdentities w' w'') : SameIdentities w w'' := fun key => (h' key).trans (h key)

theorem SameIds.refl (w : World) : SameIds w w := fun _ => rfl

theorem SameIds.trans {w w' w'' : World} (h : SameIds w w') (h' : SameIds w' w'') :
    SameIds w w'' := fun key => (h' key).trans (h key)

theorem SameIds.sameKeys {w w' : World} (h : SameIds w w') : SameKeys w w' := by
  intro key
  have := congrArg Option.isSome (h key)
  simpa using this

theorem SameIdentities.sameIds {w w' : World} (h : SameIdentities w w') : SameIds w w' := by
  intro key
  have := congrArg (Option.map Prod.fst) (h key)
  rwa [Option.map_map, Option.map_map] at this

theorem SameIdentities.sameKeys {w w' : World} (h : SameIdentities w w') : SameKeys w w' :=
  h.sameIds.sameKeys

theorem SameIdentities.exists_user {w w' : World} (h : SameIdentities w w') {key : UInt32}
    {u : UserInfo} (hu : w.db.user? key = some u) :
    ∃ u', w'.db.user? key = some u' ∧ mmeUeS1apIdOf u' = mmeUeS1apIdOf u ∧
      u'.get .knh1 = u.get .knh1 := by
  have hkey := h key
  rw [hu, Option.map_some] at hkey
  obtain ⟨u', hu', hsame⟩ := Option.map_eq_some_iff.mp hkey
  obtain ⟨hid, hknh1⟩ := Prod.mk.inj hsame
  exact ⟨u', hu', hid, hknh1⟩

theorem SessionItems.keepsIdentity_request {c : DbCall} (h : SessionItems c.pushes c.pulls)
    (u : UserInfo) : (applyPushes c.request.pushes u).get .knh1 = u.get .knh1 := by
  apply applyPushes_get_other
  intro p hp target htarget hfield
  obtain ⟨x, hx, hpushed⟩ : ∃ x ∈ c.pushes, DbCall.PushedAs x p := by
    have hall := c.request_pushes
    generalize c.pushes = xs at hall
    generalize c.request.pushes = ps at hall hp
    induction hall with
    | nil => cases hp
    | @cons x p' xs ps hxp _ ih =>
        rcases List.mem_cons.mp hp with rfl | hp
        · exact ⟨x, List.mem_cons_self, hxp⟩
        · obtain ⟨y, hy, hpushed⟩ := ih hp
          exact ⟨y, List.mem_cons_of_mem x hy, hpushed⟩
  rw [Push.target?, hpushed.1, ItemType.ofCode_code] at htarget
  exact h.keepsIdentity x hx (pushTarget_injective htarget rfl hfield.symm)

/-- An exchange with own items, case by case: nobody is known under the key, or the record of the
user is replaced by one that differs by the request alone. -/
theorem users_serve {c : DbCall} (h : OwnItems c.pushes c.pulls) (env : Env) (w : World) :
    ∃ key, c.request.target = .user key ∧
      ((w.db.user? key = none ∧ (w.serve env (.dbAccess c)).2.db = w.db) ∨
        ∃ u u', w.db.user? key = some u ∧
          (∀ key', (w.serve env (.dbAccess c)).2.db.user? key' =
            if key' = key then some u' else w.db.user? key') ∧
          ∀ f, (∀ t ∈ c.pulls, pullTouches t ≠ some f) →
            u'.get f = (applyPushes c.request.pushes u).get f) := by
  have hplain : c.Plain := ⟨h.subset, h.nodup⟩
  obtain ⟨key, hkey⟩ := c.target_user
  refine ⟨key, hkey, ?_⟩
  cases hu : w.db.user? key with
  | none =>
      left
      rw [World.serve_unknown hplain hkey hu h.pos env]
      exact ⟨rfl, rfl⟩
  | some u =>
      right
      have hknown : Known w c key u := ⟨hplain, h.pos, hkey, hu⟩
      obtain ⟨u', husers, hfields⟩ := hknown.next env
      exact ⟨u, u', rfl, husers, hfields⟩

theorem map_user?_serve {α : Type} {f : UserInfo → α} {q : Query} (hq : q.KeepsIds) (env : Env)
    (w : World) (hf : ∀ c u u', q = .dbAccess c →
      (∀ g, (∀ t, pullTouches t ≠ some g) →
        u'.get g = (applyPushes c.request.pushes u).get g) → f u' = f u) (key : UInt32) :
    ((w.serve env q).2.db.user? key).map f = (w.db.user? key).map f := by
  cases q with
  | pkbufAlloc content => rfl
  | dbAccess c =>
      obtain ⟨key', _, ⟨_, hdb⟩ | ⟨u, u', hu, husers, hfields⟩⟩ := users_serve hq env w
      · rw [hdb]
      · rw [husers]
        split
        · next hkey =>
          rw [hkey, hu, Option.map_some, Option.map_some,
            hf c u u' rfl fun g hg => hfields g fun t _ => hg t]
        · rfl

theorem sameIds_serve {q : Query} (hq : q.KeepsIds) (env : Env) (w : World) :
    SameIds w (w.serve env q).2 := by
  apply map_user?_serve hq env w
  rintro c u u' rfl hfields
  have hid : u'.get .mmeUeS1apId = u.get .mmeUeS1apId :=
    (hfields _ pullTouches_ne_mmeUeS1apId).trans (OwnItems.keepsId_request hq u)
  rw [mmeUeS1apIdOf, mmeUeS1apIdOf, hid]

def Query.OfSession : Query → Prop
  | .dbAccess c => SessionItems c.pushes c.pulls
  | .pkbufAlloc _ => True

theorem permits_ofSession {lib : Ogs} (id : Option UInt64) : Permits lib Query.OfSession id where
  block := fun _ => trivial
  access := fun _ _ _ _ hitems => hitems

theorem pullTouches_ne_knh1 (t : ItemType) : pullTouches t ≠ some .knh1 := by
  cases t <;> simp [pullTouches]

theorem Query.OfSession.keepsIds {q : Query} (h : q.OfSession) : q.KeepsIds := by
  cases q with
  | pkbufAlloc content => trivial
  | dbAccess c => exact SessionItems.toOwnItems h

theorem sameIdentities_serve {q : Query} (hq : q.OfSession) (env : Env) (w : World) :
    SameIdentities w (w.serve env q).2 := by
  apply map_user?_serve hq.keepsIds env w
  rintro c u u' rfl hfields
  have hitems : SessionItems c.pushes c.pulls := hq
  have hid : u'.get .mmeUeS1apId = u.get .mmeUeS1apId :=
    (hfields _ pullTouches_ne_mmeUeS1apId).trans (hitems.toOwnItems.keepsId_request u)
  have hknh1 : u'.get .knh1 = u.get .knh1 :=
    (hfields _ pullTouches_ne_knh1).trans (hitems.keepsIdentity_request u)
  rw [recordIdentity, recordIdentity, mmeUeS1apIdOf, mmeUeS1apIdOf, hid, hknh1]

/-- `db_access` returns where the user is known, and then with the exchange for this user. -/
theorem returnsIff_dbAccess {c : DbCall} (h : OwnItems c.pushes c.pulls) {key : UInt32}
    (hkey : c.request.target = .user key) (env : Env) (w : World) :
    (dbAccess c).ReturnsIff (World.serve env) w (w.db.user? key).isSome
      fun dbPulls w' => dbPulls = (w.serve env (.dbAccess c)).1.pulls ∧ SameKeys w w' ∧
        ∃ u, Known w c key u := by
  have hplain : c.Plain := ⟨h.subset, h.nodup⟩
  have hsame : SameKeys w (w.serve env (.dbAccess c)).2 :=
    (sameIds_serve (q := .dbAccess c) h env w).sameKeys
  rw [dbAccess]
  apply Prog.ReturnsIff.call_bind
  rw [if_pos h.pos]
  cases hu : w.db.user? key with
  | none =>
      have hshort : ¬ [(0 : UInt8)].length = 17 * c.pulls.length := by
        have := h.pos
        rw [List.length_singleton]
        omega
      rw [World.serve_unknown hplain hkey hu h.pos env]
      refine (Prog.ReturnsIff.assert_bind (C := True) fun hlen => absurd hlen hshort).congr ?_
      simpa using hshort
  | some u =>
      have hknown : Known w c key u := ⟨hplain, h.pos, hkey, hu⟩
      apply Prog.ReturnsIff.congr
      · apply Prog.ReturnsIff.assert_bind
        intro _
        exact Prog.ReturnsIff.pure ⟨rfl, hsame, u, hknown⟩
      · simp [hknown.received_length]

theorem returnsIff_toProcessing {α : Type} {env : Env} {w : World} {p : Handler α} {C : Prop}
    {post : α → World → Prop} (h : p.ReturnsIff (World.serve env) w C post) :
    p.toProcessing.ReturnsIff (World.serve env) w C post := h.mapObservation _

theorem returnsIff_byAmfUeNgapId {lib : Ogs} (hlib : lib.Documented) {pushes : List PushItem}
    {pulls : List ItemType} (h : OwnItems pushes pulls) (id : UInt64) (env : Env) (w : World) :
    (dbAccess (lib.byAmfUeNgapId id pushes pulls)).toProcessing.ReturnsIff (World.serve env) w
      (w.db.user? id.toUInt32).isSome
      fun dbPulls w' =>
        dbPulls = (w.serve env (.dbAccess (lib.byAmfUeNgapId id pushes pulls))).1.pulls ∧
          SameKeys w w' ∧ ∃ u, Known w (lib.byAmfUeNgapId id pushes pulls) id.toUInt32 u :=
  returnsIff_toProcessing
    (returnsIff_dbAccess (c := lib.byAmfUeNgapId id pushes pulls) h
      (hlib.target_byAmfUeNgapId id pushes pulls) env w)

theorem returnsIff_consume {α β : Type} {env : Env} {w : World} {c : Consumer}
    {view : Slot → Option α} {x : Slot} {a : α} (hx : view x = some a) {f : α → Processing β}
    {C : Prop} {post : β → World → Prop} (hf : (f a).ReturnsIff (World.serve env) w C post) :
    (consume c view x >>= f).ReturnsIff (World.serve env) w C post := by
  simp only [consume, Prog.bind_assoc]
  apply Prog.ReturnsIff.observe_bind
  rw [hx]
  exact hf

theorem returnsIff_pulled {β : Type} {w w' : World} {env : Env} {c : DbCall} {key : UInt32}
    {u : UserInfo} (h : Known w c key u) {t : ItemType} (ht : t ∈ c.pulls)
    {f : Mem UInt8 → Processing β} {C : Prop} {post : β → World → Prop}
    (hf : ∀ mem, (w.serve env (.dbAccess c)).1.pulls t = .to mem →
      (f mem).ReturnsIff (World.serve env) w' C post) :
    (pulled (w.serve env (.dbAccess c)).1.pulls t >>= f).ReturnsIff (World.serve env) w' C post := by
  obtain ⟨mem, hmem⟩ := h.exists_pulled env ht
  simp only [pulled, deref, Handler.toProcessing, hmem, Ptr.deref, Prog.mapObservation_require]
  exact (Prog.ReturnsIff.require_bind (C := fun _ => C) fun a ha => by
    cases ha
    exact hf mem hmem).congr (by simp)

section

variable {w : World} {c : DbCall} {key : UInt32} {u : UserInfo}

theorem Known.mmeUeS1apId (h : Known w c key u) (hitems : OwnItems c.pushes c.pulls) (env : Env)
    (ht : .mmeUeS1apId ∈ c.pulls) :
    ∃ mem, (w.serve env (.dbAccess c)).1.pulls .mmeUeS1apId = .to mem ∧
      mem.read 0 4 = u.get .mmeUeS1apId := by
  obtain ⟨before, after, hsplit⟩ := List.append_of_mem ht
  obtain ⟨u₁, eNBs, rand, x, mem, hx, hframe, hmem, hcells⟩ := h.pulls_slot env hsplit
  have hsame : u₁.get .mmeUeS1apId = u.get .mmeUeS1apId :=
    (hframe .mmeUeS1apId fun s _ => pullTouches_ne_mmeUeS1apId s).trans (hitems.keepsId_request u)
  cases hx
  refine ⟨mem, hmem, ?_⟩
  rw [← hsame]
  apply List.ext_getElem
  · rw [Mem.read_length, u₁.get_length]
    rfl
  · intro j hj hj'
    rw [Mem.read_length] at hj
    rw [Mem.getElem_read, Nat.zero_add]
    exact hcells j (by rwa [UserInfo.copy, Mem.read_length])

theorem Known.knh1_eq (h : Known w c key u) (env : Env) (hpushes : c.pushes = [])
    {before : List ItemType} (hsplit : c.pulls = before ++ [.knh1]) :
    (w.serve env (.dbAccess c)).1.pulls .knh1 =
      .to (((env.heap c).shift (17 * before.length + 1)).write 0 (u.get .knh1)) := by
  have hpulls := h.pulls_eq env hsplit
  obtain ⟨mem, hmem, hread⟩ := h.knh1 env hpushes hsplit
  have hcount : c.pulls.length = before.length + 1 := by rw [hsplit]; simp
  have hget : (u.get .knh1).length = 16 := u.get_length _
  rw [hpulls] at hmem
  cases hmem
  rw [hpulls]
  congr 1
  funext i
  by_cases hi : i < 16
  · have hinside := ((env.heap c).shift (17 * before.length + 1)).write_inside 0 (u.get .knh1) i
      (by omega)
    rw [Nat.zero_add] at hinside
    rw [hinside, List.getElem_of_eq hread.symm, Mem.getElem_read, Nat.zero_add]
  · rw [Mem.write_outside _ _ _ _ (by omega), Mem.shift, Mem.shift,
      Mem.write_outside _ _ _ _ (by rw [h.received_length]; omega)]

end

end PublicCloudCore.Worker
