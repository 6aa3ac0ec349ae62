import PublicCloudCore.CorekubeDb.Segmentation

/-!
# A pushed value comes back

The encoder of the client library, the user record and the PULL switch meet: what one request
pushes is what the next pull of the item returns, whoever asks in between. `PDN_IP` has no PUSH
case, and the two NAS counters are stored from another byte than the library fills.
-/

namespace PublicCloudCore.CorekubeDb

open Framework Libck

/-- The items that the server stores from the byte the library puts the value at. -/
def roundTripItems : List ItemType :=
  ItemType.all.filter fun t => (pushItemLen t).isSome && (pushTarget t).any fun d => d.skip == 0

example : roundTripItems =
    [.enbUeS1apId, .ueTeid, .spgwIp, .enbIp, .mmeUeS1apId, .authRes, .encKey, .intKey, .kasme1,
      .kasme2, .knh1, .knh2, .targetEnbUeS1apId, .nextHopChainingCount, .enbSourceSocket,
      .enbTargetSocket] := by decide

theorem pushTarget_injective {s t : ItemType} {a b : PushTarget} (hs : pushTarget s = some a)
    (ht : pushTarget t = some b) (h : a.field = b.field) : s = t := by
  have key : ∀ s ∈ ItemType.all, ∀ t ∈ ItemType.all, (pushTarget s).isSome →
      (pushTarget s).map PushTarget.field = (pushTarget t).map PushTarget.field → s = t := by
    decide
  exact key s (ItemType.mem_all s) t (ItemType.mem_all t) (by rw [hs]; rfl)
    (by rw [hs, ht, Option.map_some, Option.map_some, h])

private theorem copy_take (u : UserInfo) (f : Field) {n : Nat} (h : f.size ≤ n) :
    (u.copy f n).take f.size = u.get f := by
  obtain ⟨k, rfl⟩ := Nat.exists_eq_add_of_le h
  rw [UserInfo.copy, Mem.read_add, List.take_left' (Mem.read_length _ _ _)]
  rfl

/-- What the three modules say about one item of the round trip. -/
structure Carried (t : ItemType) (target : PushTarget) : Prop where
  stored : pushTarget t = some target
  skip_eq : target.skip = 0
  sent : pushItemLen t = some target.len
  answered : ∀ (u : UserInfo) eNBs rand args, ∃ x : PullAnswer,
    pullSwitch (some u) eNBs rand t.code args = .ok (some x) ∧ x.tag = t ∧
      x.bytes.take target.len = u.get target.field ∧ target.len ≤ x.bytes.length

theorem carried {t : ItemType} (ht : t ∈ roundTripItems) : ∃ target, Carried t target := by
  have hfield : ∀ (tag : ItemType) (f : Field) (n : Nat) (u : UserInfo) (rand : RandStream),
      f.size ≤ n →
      ∃ x : PullAnswer, answerField (some u) rand tag f n = .ok (some x) ∧ x.tag = tag ∧
        x.bytes.take f.size = u.get f ∧ f.size ≤ x.bytes.length := by
    intro tag f n u rand hn
    exact ⟨_, rfl, rfl, copy_take u f hn, by simpa [UserInfo.copy] using hn⟩
  cases t <;> first | (exfalso; revert ht; decide) | skip
  case nextHopChainingCount =>
    exact ⟨_, rfl, rfl, rfl, fun u eNBs rand args =>
      ⟨_, rfl, rfl, rfl, by simp [zeroFilled]⟩⟩
  all_goals
    exact ⟨_, rfl, rfl, rfl, fun u eNBs rand args => hfield _ _ _ u rand (by decide)⟩

/-- A request that asks for it. -/
def fetchValue (t : ItemType) : Call := .byImsi subscriber.mem [] [⟨t, fun _ => 0⟩]

end PublicCloudCore.CorekubeDb
