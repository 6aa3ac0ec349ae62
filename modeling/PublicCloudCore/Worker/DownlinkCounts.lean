import PublicCloudCore.Framework.Pool
import PublicCloudCore.Worker.MobileIdentity

/-!
# The downlink counts of a run

Workers handle messages at once, and each of their database requests is atomic. A fetch of the keys
draws the downlink count of its UE, which the database then advances in one byte. Without a store of
a KAMF the counts that are drawn follow one another, and 256 of them are different.
-/

namespace PublicCloudCore.Worker

open Framework CorekubeDb Libck

/-- What a question meets beside the database: what nobody has initialised, and the response array
of the thread that serves the worker. -/
structure Surroundings where
  env : Env
  response : Mem UInt8

/-- The database requests are atomic. -/
def serveDb (s : Surroundings) (db : Db) (q : Query) : Answer q × Db :=
  let answer := World.serve s.env ⟨db, s.response⟩ q
  (answer.1, answer.2.db)

/-- The messages that are being handled, over the database that they share. -/
abbrev Workers := Pool Query Answer Observation Response Db

inductive WorkerEvent
  -- a decoded message arrives, with the response that `process_message` hands over
  | receive (message : NgapUplink) (responses : Nat → Slot) (sctpStreamId : UInt8)
  | turn (i : Nat) (s : Surroundings)

def Workers.step (lib : Ogs) (x : Workers) : WorkerEvent → Option Workers
  | .receive message responses sctpStreamId =>
      some (x.add (handleNgapMessage lib message (.start responses sctpStreamId)))
  | .turn i s => x.turn serveDb i s

def Query.PullsCount (key : UInt32) : Query → Prop
  | .dbAccess c => c.request.target = .user key ∧ .epcNasSequenceNumber ∈ c.pulls
  | .pkbufAlloc _ => False

instance (key : UInt32) : DecidablePred (Query.PullsCount key)
  | .dbAccess c =>
      inferInstanceAs (Decidable (c.request.target = .user key ∧ .epcNasSequenceNumber ∈ c.pulls))
  | .pkbufAlloc _ => .isFalse not_false

def kamfItems : List ItemType := (kamfPushes []).map PushItem.type

/-- The request stores a KAMF of the UE with this key, or a part of what is stored with it. -/
def Query.StoresKamf (key : UInt32) : Query → Prop
  | .dbAccess c => c.request.target = .user key ∧ ∃ x ∈ c.pushes, x.type ∈ kamfItems
  | .pkbufAlloc _ => False

instance (key : UInt32) : DecidablePred (Query.StoresKamf key)
  | .dbAccess c =>
      inferInstanceAs (Decidable (c.request.target = .user key ∧ ∃ x ∈ c.pushes, x.type ∈ kamfItems))
  | .pkbufAlloc _ => .isFalse not_false

def drawsCount (key : UInt32) (db : Db) (q : Query) : Option UInt32 :=
  if q.PullsCount key then (db.user? key).map fun u => (getUserEpcNasSequenceNumber u).toUInt32
  else none

def Observation.protection? (key : UInt32) : Observation → Option Protection
  | .protects p => if p.owner = key then some p else none
  | _ => none

def takesCount (key : UInt32) (o : Observation) : Option UInt32 :=
  (o.protection? key).map Protection.dlCount

theorem get_epcNasSequenceNumber (u : UserInfo) :
    u.get .epcNasSequenceNumber = [getUserEpcNasSequenceNumber u] := rfl

theorem epcCount_of_get_eq {u u' : UserInfo}
    (h : u'.get .epcNasSequenceNumber = u.get .epcNasSequenceNumber) :
    getUserEpcNasSequenceNumber u' = getUserEpcNasSequenceNumber u := by
  rw [get_epcNasSequenceNumber, get_epcNasSequenceNumber] at h
  exact List.singleton_inj.mp h

theorem foldlM_pullSlot_epcCount {before after : List Pull} {p : Pull} {w w' : Work} {u : UserInfo}
    (h : (before ++ p :: after).foldlM pullSlot w = .ok w') (hu : w.user = some u)
    (hp : p.tag = ItemType.epcNasSequenceNumber.code)
    (hbefore : ∀ q ∈ before, q.touches? ≠ some .epcNasSequenceNumber)
    (hafter : ∀ q ∈ after, q.touches? ≠ some .epcNasSequenceNumber) :
    ∃ u', w'.user = some u' ∧
      getUserEpcNasSequenceNumber u' = getUserEpcNasSequenceNumber u + 1 := by
  rw [List.foldlM_append] at h
  rcases h₁ : before.foldlM pullSlot w with e | w₁
  · rw [h₁] at h
    cases h
  rw [h₁] at h
  change (p :: after).foldlM pullSlot w₁ = .ok w' at h
  rw [List.foldlM_cons] at h
  rcases h₂ : pullSlot w₁ p with e | w₂
  · rw [h₂] at h
    cases h
  rw [h₂] at h
  change after.foldlM pullSlot w₂ = .ok w' at h
  obtain ⟨u₁, hu₁, hframe₁, _⟩ := foldlM_pullSlot_user h₁ hu
  have hcount₁ := epcCount_of_get_eq (hframe₁ _ hbefore)
  obtain ⟨a, ha, _, _, hcase⟩ := pullSlot_ok h₂
  rw [hu₁, hp] at ha
  cases ha
  obtain ⟨hnone, _⟩ | ⟨x, hx, _, hu₂, _⟩ := hcase
  · cases hnone
  cases hx
  obtain ⟨u', hu', hframe, _⟩ := foldlM_pullSlot_user h hu₂
  refine ⟨u', hu', ?_⟩
  have hset : (setUserEpcNasSequenceNumber u₁ (getUserEpcNasSequenceNumber u₁ + 1)).get
      .epcNasSequenceNumber = [getUserEpcNasSequenceNumber u₁ + 1] :=
    UserInfo.get_set_same _ _ rfl
  have hcount := (hframe _ hafter).trans hset
  rw [get_epcNasSequenceNumber] at hcount
  rw [List.singleton_inj.mp hcount, hcount₁]

theorem pullTouches_epcNasSequenceNumber {t : ItemType}
    (h : pullTouches t = some .epcNasSequenceNumber) : t = .epcNasSequenceNumber := by
  cases t <;> simp [pullTouches] at h ⊢

theorem pushTarget_epcNasSequenceNumber {t : ItemType} {target : PushTarget}
    (h : pushTarget t = some target) (hfield : target.field = .epcNasSequenceNumber) :
    t = .epcNasSequenceNumber :=
  pushTarget_injective h rfl hfield

theorem applyPushes_epcCount {c : DbCall} (h : ∀ x ∈ c.pushes, x.type ≠ .epcNasSequenceNumber)
    (u : UserInfo) :
    (applyPushes c.request.pushes u).get .epcNasSequenceNumber = u.get .epcNasSequenceNumber := by
  apply applyPushes_get_other
  intro p hp target htarget heq
  obtain ⟨value, hvalue, htag⟩ := Call.mem_pushSlots hp
  obtain ⟨arg, harg, hitem⟩ := mem_pushValues hvalue
  obtain ⟨x, hx, rfl⟩ := List.mem_map.mp harg
  rw [Push.target?, htag, ItemType.ofCode_code] at htarget
  have htype := pushTarget_epcNasSequenceNumber htarget heq.symm
  exact h x hx (hitem.symm.trans htype)

theorem Known.epcCount_kept {w : World} {c : DbCall} {key : UInt32} {u : UserInfo}
    (h : Known w c key u) (hpush : ∀ x ∈ c.pushes, x.type ≠ .epcNasSequenceNumber)
    (hpull : .epcNasSequenceNumber ∉ c.pulls) (env : Env) :
    ((w.serve env (.dbAccess c)).2.db.user? key).map getUserEpcNasSequenceNumber =
      some (getUserEpcNasSequenceNumber u) := by
  obtain ⟨u', husers, hfields⟩ := h.next env
  have hget : u'.get .epcNasSequenceNumber = u.get .epcNasSequenceNumber := by
    rw [hfields .epcNasSequenceNumber, applyPushes_epcCount hpush]
    intro t ht htouches
    exact hpull (pullTouches_epcNasSequenceNumber htouches ▸ ht)
  rw [husers, if_pos rfl, Option.map_some, epcCount_of_get_eq hget]

theorem Known.epcCount_next {w : World} {c : DbCall} {key : UInt32} {u : UserInfo}
    (h : Known w c key u) (hpush : ∀ x ∈ c.pushes, x.type ≠ .epcNasSequenceNumber)
    (hpull : .epcNasSequenceNumber ∈ c.pulls) (env : Env) :
    ((w.serve env (.dbAccess c)).2.db.user? key).map getUserEpcNasSequenceNumber =
      some (getUserEpcNasSequenceNumber u + 1) := by
  obtain ⟨work, hrun, hserve⟩ := World.serve_known h.plain h.target h.user env
  obtain ⟨u', hu', hhash, _⟩ := Request.run_user_frame rfl hrun
  obtain ⟨before, after, hsplit⟩ := List.append_of_mem hpull
  have hother : ∀ t ∈ before ++ after, pullTouches t ≠ some .epcNasSequenceNumber := by
    intro t ht htouches
    have hnodup := h.plain.pulls_nodup
    rw [hsplit, List.nodup_middle, List.nodup_cons] at hnodup
    exact hnodup.1 (pullTouches_epcNasSequenceNumber htouches ▸ ht)
  have hslots : ∀ ts : List ItemType, (∀ t ∈ ts, pullTouches t ≠ some .epcNasSequenceNumber) →
      ∀ p ∈ ts.map fun t => (⟨t, fun _ => 0⟩ : PullArg).pull,
        p.touches? ≠ some .epcNasSequenceNumber := by
    intro ts hts p hp
    obtain ⟨t, ht, rfl⟩ := List.mem_map.mp hp
    show (ItemType.ofCode t.code).bind pullTouches ≠ _
    rw [ItemType.ofCode_code]
    exact hts t ht
  rw [Request.run_user _ rfl, DbCall.request_pulls, hsplit, List.map_append, List.map_cons] at hrun
  obtain ⟨u'', hu'', hcount⟩ := foldlM_pullSlot_epcCount hrun rfl rfl
    (hslots before fun t ht => hother t (List.mem_append_left _ ht))
    (hslots after fun t ht => hother t (List.mem_append_right _ ht))
  obtain rfl : u' = u'' := Option.some.inj (hu'.symm.trans hu'')
  rw [hserve, Work.commit_user? h.user hu' (hhash.trans (Db.hash_of_user? h.user)), if_pos rfl,
    Option.map_some, hcount, epcCount_of_get_eq (applyPushes_epcCount hpush u)]

section

variable {key : UInt32} {q : Query} {s : Surroundings} {db : Db}

/-- A request of the worker advances the count of its UE if it pulls it, and keeps every other
count, unless it stores a KAMF. -/
theorem epcCount_serveDb (hq : q.KeepsIds) (hstore : ¬ q.StoresKamf key) :
    ((serveDb s db q).2.user? key).map getUserEpcNasSequenceNumber =
      (db.user? key).map fun u =>
        getUserEpcNasSequenceNumber u + if q.PullsCount key then 1 else 0 := by
  cases q with
  | pkbufAlloc content =>
      have hpulls : ¬ (Query.pkbufAlloc content).PullsCount key := not_false
      simp only [if_neg hpulls, add_zero]
      rfl
  | dbAccess c =>
      obtain ⟨key', hkey'⟩ := c.target_user
      have hplain : c.Plain := ⟨hq.subset, hq.nodup⟩
      by_cases hkey : key' = key
      · subst hkey
        have hpulls : (Query.dbAccess c).PullsCount key' ↔ .epcNasSequenceNumber ∈ c.pulls :=
          and_iff_right hkey'
        cases hu : db.user? key' with
        | none =>
            simp only [serveDb]
            rw [World.serve_unknown (w := ⟨db, s.response⟩) hplain hkey' hu hq.pos s.env]
            simp [hu]
        | some u =>
            have hknown : Known ⟨db, s.response⟩ c key' u := ⟨hplain, hq.pos, hkey', hu⟩
            have hpush : ∀ x ∈ c.pushes, x.type ≠ .epcNasSequenceNumber := by
              intro x hx htype
              exact hstore ⟨hkey', x, hx, by rw [htype]; decide⟩
            by_cases hpull : .epcNasSequenceNumber ∈ c.pulls
            · rw [Option.map_some, if_pos (hpulls.mpr hpull)]
              exact hknown.epcCount_next hpush hpull s.env
            · rw [Option.map_some, if_neg (mt hpulls.mp hpull), add_zero]
              exact hknown.epcCount_kept hpush hpull s.env
      · have hpulls : ¬ (Query.dbAccess c).PullsCount key := by
          intro h
          have htarget := h.1
          rw [hkey'] at htarget
          exact hkey (Identity.user.inj htarget)
        have hsame : SameUsers key' ⟨db, s.response⟩
            (World.serve s.env ⟨db, s.response⟩ (.dbAccess c)).2 :=
          sameUsers_serve (q := .dbAccess c) ⟨hkey', hq⟩ s.env _
        simp only [if_neg hpulls, add_zero]
        exact congrArg _ (hsame.others key fun h => hkey h.symm)

end

/-- The counts that have been drawn are the first ones behind `first`, one after the other, and the
record has the next one. -/
structure Issued (key : UInt32) (first : UInt8) (x : Workers) : Prop where
  drawn : x.drawn (drawsCount key) =
    (List.range (x.drawn (drawsCount key)).length).map fun i => (first + UInt8.ofNat i).toUInt32
  next : ∀ u, x.state.user? key = some u → getUserEpcNasSequenceNumber u =
    first + UInt8.ofNat (x.drawn (drawsCount key)).length

section

variable {key : UInt32} {first : UInt8} {x y : Workers}

theorem Issued.start (db : Db) (running : List (Processing Response)) :
    Issued key (((db.user? key).map getUserEpcNasSequenceNumber).getD 0) (.start db running) where
  drawn := rfl
  next u hu := by
    have hu' : db.user? key = some u := hu
    rw [hu']
    exact (add_zero _).symm

theorem Issued.turn (h : Issued key first x) {i : Nat} {s : Surroundings}
    (hturn : x.turn serveDb i s = some y) (hallowed : ∀ q, x.question? i = some q → q.KeepsIds)
    (hstore : ∀ q, x.question? i = some q → ¬ q.StoresKamf key) : Issued key first y := by
  rcases Pool.turn_cases hturn with ⟨q, k, hi, rfl⟩ | ⟨o, p, hi, rfl⟩
  · have hquestion := Pool.question?_ask hi
    have hcount := @epcCount_serveDb key q s x.state (hallowed q hquestion) (hstore q hquestion)
    generalize hy : (⟨(serveDb s x.state q).2, _, x.asked ++ [(x.state, q)], _⟩ : Workers) = y
    have hasked : y.asked = x.asked ++ [(x.state, q)] := by rw [← hy]
    have hstate : y.state = (serveDb s x.state q).2 := by rw [← hy]
    have hdrawn : y.drawn (drawsCount key) =
        x.drawn (drawsCount key) ++ (drawsCount key x.state q).toList :=
      Pool.drawn_of_asked hasked
    rw [← hstate] at hcount
    by_cases hdraws : q.PullsCount key ∧ (x.state.user? key).isSome
    · obtain ⟨hpulls, huser⟩ := hdraws
      obtain ⟨u, hu⟩ := Option.isSome_iff_exists.mp huser
      rw [drawsCount, if_pos hpulls, hu, Option.map_some, h.next u hu, Option.toList_some]
        at hdrawn
      rw [hu, Option.map_some, if_pos hpulls, h.next u hu] at hcount
      constructor
      · rw [hdrawn, List.length_append, List.length_singleton, List.range_succ, List.map_append,
          ← h.drawn]
        rfl
      · intro u' hu'
        rw [hu', Option.map_some, Option.some.injEq] at hcount
        rw [hcount, hdrawn, List.length_append, List.length_singleton, add_assoc]
        congr 1
        exact (UInt8.ofNat_add _ 1).symm
    · have hnone : drawsCount key x.state q = none := by
        rw [drawsCount]
        split
        · next hpulls =>
          rw [Option.map_eq_none_iff, ← Option.not_isSome_iff_eq_none]
          exact fun huser => hdraws ⟨hpulls, huser⟩
        · rfl
      rw [hnone, Option.toList_none, List.append_nil] at hdrawn
      constructor
      · rw [hdrawn]
        exact h.drawn
      · intro u' hu'
        rw [hu', Option.map_some] at hcount
        obtain ⟨u, hu, hcount⟩ := Option.map_eq_some_iff.mp hcount.symm
        rw [if_neg fun hpulls => hdraws ⟨hpulls, by rw [hu]; rfl⟩, add_zero, h.next u hu] at hcount
        rw [hdrawn, hcount]
  · exact ⟨h.drawn, h.next⟩

theorem Issued.nodup (h : Issued key first x)
    (hfew : (x.drawn (drawsCount key)).length ≤ 256) : (x.drawn (drawsCount key)).Nodup := by
  rw [h.drawn]
  apply List.Nodup.map_on _ List.nodup_range
  intro i hi j hj hij
  rw [List.mem_range] at hi hj
  rw [UInt8.toUInt32_inj, add_right_inj, ← UInt8.toNat_inj, UInt8.toNat_ofNat',
    UInt8.toNat_ofNat', Nat.mod_eq_of_lt (by omega), Nat.mod_eq_of_lt (by omega)] at hij
  exact hij

end

end PublicCloudCore.Worker
