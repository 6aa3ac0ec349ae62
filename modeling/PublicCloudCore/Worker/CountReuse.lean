import PublicCloudCore.Worker.ThriftyHandlers

/-!
# No downlink count twice

Between two stores of a KAMF the workers protect no two messages of a UE with one count, as long as
the one byte that the database counts in does not come round and no protected answer goes into the
container of another one.
-/

namespace PublicCloudCore.Worker

open Framework CorekubeDb Libck

variable {lib : Ogs} {key : UInt32}

/-- No request of the run stores a KAMF of the UE. -/
def BetweenStores (key : UInt32) (x : Workers) : WorkerEvent → Prop
  | .receive _ _ _ => True
  | .turn i _ => ∀ q ∈ x.question? i, ¬ q.StoresKamf key

/-- No message protects an answer inside another one, and the count is pulled only while fewer than
256 have been drawn. -/
def KeepsCounts (lib : Ogs) (key : UInt32) (x : Workers) : WorkerEvent → Prop
  | .receive message _ _ => message.ProtectsOnce lib
  | .turn i _ => ∀ q ∈ x.question? i, q.PullsCount key → (x.drawn (drawsCount key)).length < 256

/-- The rest of a handling that neither fetches a count of the UE nor protects a message of it, such
as what follows the store of a KAMF. -/
def Resting (key : UInt32) (p : Processing Response) : Prop :=
  p.Ensures (fun q => q.KeepsIds ∧ ¬ q.PullsCount key) (fun o => o.protection? key = none)
    fun _ => True

structure Counted (key : UInt32) (first : UInt8) (x : Workers) : Prop where
  obeys : x.Obeys Query.KeepsIds fun _ => True
  covered : x.Covered serveDb (drawsCount key) (takesCount key)
  issued : Issued key first x
  few : (x.drawn (drawsCount key)).length ≤ 256

section

variable {first : UInt8} {x y : Workers}

theorem Counted.start (db : Db) {running : List (Processing Response)}
    (hrunning : ∀ p ∈ running, Resting key p) :
    Counted key (((db.user? key).map getUserEpcNasSequenceNumber).getD 0) (.start db running) where
  obeys p hp := (hrunning p hp).imp (fun _ h => h.1) fun _ _ => trivial
  covered := by
    apply Pool.Covered.start
    intro p hp
    have hidle : Idle key p fun _ => True := (hrunning p hp).imp
      (fun _ h => drawsCount_eq_none h.2) (fun o h => by rw [takesCount, h, Option.map_none])
    exact hidle.thrifty none
  issued := .start db running
  few := Nat.zero_le _

theorem Counted.receive (hlib : lib.toOgsSecurity.Documented) (h : Counted key first x)
    {message : NgapUplink} (honce : message.ProtectsOnce lib) (responses : Nat → Slot)
    (sctpStreamId : UInt8) :
    Counted key first (x.add (handleNgapMessage lib message (.start responses sctpStreamId))) where
  obeys := by
    apply h.obeys.add
    have hkeeps : Keeps Query.KeepsIds
        (handleNgapMessage lib message (.start responses sctpStreamId)) _ :=
      keeps_handleNgapMessage permits_keepsIds
        (fun _ _ _ _ => ⟨fun _ _ _ _ hitems _ => hitems, fun _ => permits_keepsIds _⟩) _ rfl
    exact (hkeeps.imp (fun _ h => h) fun _ _ => trivial).mono fun _ _ => trivial
  covered := h.covered.add (counting_handleNgapMessage hlib honce _ rfl)
  issued := ⟨h.issued.drawn, h.issued.next⟩
  few := h.few

/-- A turn draws a count at most where the guard lets it. -/
theorem drawn_length_turn {i : Nat} {s : Surroundings} (hfew : (x.drawn (drawsCount key)).length ≤ 256)
    (hguard : ∀ q ∈ x.question? i, q.PullsCount key → (x.drawn (drawsCount key)).length < 256)
    (hturn : x.turn serveDb i s = some y) : (y.drawn (drawsCount key)).length ≤ 256 := by
  rcases Pool.turn_cases hturn with ⟨q, k, hi, rfl⟩ | ⟨o, p, hi, rfl⟩
  · rw [Pool.drawn_of_asked rfl, List.length_append]
    by_cases hpulls : q.PullsCount key
    · have hlt := hguard q (Pool.question?_ask hi) hpulls
      have hone : (drawsCount key x.state q).toList.length ≤ 1 := Option.length_toList_le
      omega
    · rw [drawsCount_eq_none hpulls]
      exact hfew
  · exact hfew

theorem Counted.step (hlib : lib.toOgsSecurity.Documented) (h : Counted key first x)
    {e : WorkerEvent} (hbetween : BetweenStores key x e) (hkeeps : KeepsCounts lib key x e)
    (hstep : x.step lib e = some y) : Counted key first y := by
  cases e with
  | receive message responses sctpStreamId =>
      cases hstep
      exact h.receive hlib hkeeps responses sctpStreamId
  | turn i s =>
      have hasks : ∀ q, x.question? i = some q → q.KeepsIds := by
        intro q hq
        unfold Pool.question? at hq
        split at hq
        · next q' k hi =>
          cases hq
          exact h.obeys.asks hi
        · cases hq
      exact {
        obeys := h.obeys.turn hstep
        covered := h.covered.turn hstep
        issued := h.issued.turn hstep hasks hbetween
        few := drawn_length_turn h.few hkeeps hstep }

end

instance (key : UInt32) (x : Workers) : DecidablePred (BetweenStores key x)
  | .receive _ _ _ => .isTrue trivial
  | .turn i _ => inferInstanceAs (Decidable (∀ q ∈ x.question? i, ¬ q.StoresKamf key))

/-- A message of the subscriber with this PDU arrives. -/
def WorkerEvent.ofSubscriber (nasPdu : List UInt8) : WorkerEvent :=
  .receive (.initiatingMessage (.uplinkNasTransport
    [.amfUeNgapId 1, .ranUeNgapId 1, .nasPdu nasPdu, .userLocationInformation true]))
    (fun _ => .unset) 0

end PublicCloudCore.Worker
