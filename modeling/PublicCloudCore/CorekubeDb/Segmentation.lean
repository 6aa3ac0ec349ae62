import PublicCloudCore.CorekubeDb.Framing

/-!
# Cutting the request stream

The thread has no buffer for the start of a request: what one `recv` returns is handled by
itself. Chunks that end where requests end are handled like single requests, in whatever groups
they arrive; a chunk that ends inside a request is not.
-/

namespace PublicCloudCore.CorekubeDb

open Framework

/-- A complete request to an existing user. -/
def Served (db : Db) (r : Request) : Prop :=
  (∃ key u, r.target = .user key ∧ db.user? key = some u) ∧ r.PullsNoEom

theorem handle_user?_isSome {db : Db} {r : Request} {response : Mem UInt8} {a : Answer}
    (h : handle db response r = .ok a) (key : UInt32) :
    (a.db.user? key).isSome = (db.user? key).isSome := by
  rcases r.target_cases db with ⟨key', u, hkey, hu⟩ | hkey | hrefused
  · obtain ⟨w, u', _, _, _, huser⟩ := handle_user_ok hkey hu h
    rw [huser key]
    split
    · next heq => rw [heq, hu]; rfl
    · rfl
  · rw [handle_newEnb hkey] at h
    rcases hrun : r.truncate.run (.start db none response) with e | w
    · rw [hrun] at h
      cases h
    rw [hrun] at h
    cases h
    rfl
  · rw [handle_refused hrefused] at h
    cases h
    rfl

theorem Served.next {db : Db} {r r' : Request} {response : Mem UInt8} {a : Answer}
    (hs : Served db r') (h : handle db response r = .ok a) : Served a.db r' := by
  obtain ⟨⟨key, u, hkey, hu⟩, heom⟩ := hs
  have hsome : (a.db.user? key).isSome := by
    rw [handle_user?_isSome h, hu]
    rfl
  obtain ⟨u', hu'⟩ := Option.isSome_iff_exists.mp hsome
  exact ⟨⟨key, u', hkey, hu'⟩, heom⟩

theorem Served.consumed {db : Db} {r : Request} {response : Mem UInt8} {a : Answer}
    (hs : Served db r) (h : handle db response r = .ok a) : a.consumed = r.encode.length := by
  obtain ⟨⟨key, u, hkey, hu⟩, heom⟩ := hs
  rw [handle_user hkey hu, Request.truncate_of_pullsNoEom heom] at h
  rcases hrun : r.run (.start db (some u) response) with e | w
  · rw [hrun] at h
    cases h
  rw [hrun] at h
  cases h
  rfl

def handleAll (db : Db) (response : Mem UInt8) :
    List Request → Except Fault (Db × Mem UInt8 × List UInt8)
  | [] => .ok (db, response, [])
  | r :: rs =>
      match handle db response r with
      | .error e => .error e
      | .ok a =>
          match handleAll a.db a.response rs with
          | .error e => .error e
          | .ok (db', response', sent) =>
              .ok (db', response', a.response.read 0 a.responseLen ++ sent)

theorem handleAll_append (db : Db) (response : Mem UInt8) (rs ss : List Request) :
    handleAll db response (rs ++ ss) =
      match handleAll db response rs with
      | .error e => .error e
      | .ok (db', response', sent) =>
          match handleAll db' response' ss with
          | .error e => .error e
          | .ok (db'', response'', sent') => .ok (db'', response'', sent ++ sent') := by
  induction rs generalizing db response with
  | nil =>
      simp only [List.nil_append, handleAll]
      split <;> rename_i h <;> rw [h]
  | cons r rs ih =>
      simp only [List.cons_append, handleAll]
      rcases handle db response r with e | a
      · rfl
      simp only [ih]
      rcases handleAll a.db a.response rs with e | ⟨db', response', sent⟩
      · rfl
      simp only
      rcases handleAll db' response' ss with e | ⟨db'', response'', sent'⟩
      · rfl
      · simp

theorem Served.handleAll {db db' : Db} {response response' : Mem UInt8} {rs : List Request}
    {sent : List UInt8} {r : Request} (hs : Served db r)
    (h : handleAll db response rs = .ok (db', response', sent)) : Served db' r := by
  induction rs generalizing db response sent with
  | nil => cases h; exact hs
  | cons q qs ih =>
      simp only [CorekubeDb.handleAll] at h
      rcases hq : handle db response q with e | a <;> simp only [hq] at h
      · cases h
      rcases hqs : CorekubeDb.handleAll a.db a.response qs with e | ⟨db₁, response₁, sent₁⟩ <;>
        simp only [hqs] at h
      · cases h
      cases h
      exact ih (hs.next hq) hqs

theorem attendLoop_served (db : Db) (response : Mem UInt8) (pre rest : List UInt8)
    {rs : List Request} (hs : ∀ r ∈ rs, Served db r) :
    (attendLoop db (pre ++ (encodeAll rs ++ rest)) (pre.length + (encodeAll rs).length)
        pre.length response).map (fun a => (a.db, a.response, a.sent)) =
      handleAll db response rs := by
  induction rs generalizing db response pre with
  | nil =>
      rw [attendLoop, if_neg (by simp [encodeAll])]
      rfl
  | cons r rs ih =>
      have hall : encodeAll (r :: rs) = r.encode ++ encodeAll rs := by simp [encodeAll]
      have hlen : (encodeAll (r :: rs)).length = r.encode.length + (encodeAll rs).length := by
        rw [hall, List.length_append]
      have hpos : 0 < r.encode.length := by rw [r.encode_length]; omega
      have hcall : analyzeRequest db ((pre ++ (encodeAll (r :: rs) ++ rest)).drop pre.length)
          (pre.length + (encodeAll (r :: rs)).length - pre.length) response =
          handle db response r := by
        rw [List.drop_left, hall, List.append_assoc]
        exact analyzeRequest_encode db r _ (by rw [List.length_append]; omega) response
      have hsplit : pre ++ (encodeAll (r :: rs) ++ rest) =
          (pre ++ r.encode) ++ (encodeAll rs ++ rest) := by simp [hall]
      have hpre : (pre ++ r.encode).length = pre.length + r.encode.length := by simp
      rw [attendLoop, if_pos (by omega), handleAll]
      split
      · next e he =>
        rw [hcall] at he
        rw [he]
        rfl
      · next a ha =>
        rw [hcall] at ha
        have hcons : a.consumed = r.encode.length := (hs r (by simp)).consumed ha
        have hnext := ih a.db a.response (pre ++ r.encode)
          fun q hq => (hs q (by simp [hq])).next ha
        rw [← hsplit, hpre, Nat.add_assoc, ← hlen] at hnext
        simp only [ha, hcons, ← hnext]
        rcases attendLoop a.db (pre ++ (encodeAll (r :: rs) ++ rest))
          (pre.length + (encodeAll (r :: rs)).length) (pre.length + r.encode.length) a.response
          with e | out
        · rfl
        · simp [Except.map, Attended.sent]

/-- Chunks of whole requests are handled like the requests one after the other. -/
theorem attendRequest_served (db : Db) (c : Connection) {groups : List (List Request)}
    (hs : ∀ g ∈ groups, ∀ r ∈ g, Served db r) :
    (attendRequest db c (groups.map encodeAll)).map (fun x => (x.1, x.2.1.response, x.2.2)) =
      handleAll db c.response groups.flatten := by
  induction groups generalizing db c with
  | nil => rfl
  | cons g gs ih =>
      have hloop := attendLoop_served db c.response [] (c.request.drop (encodeAll g).length)
        (hs g (by simp))
      simp only [List.nil_append, List.length_nil, Nat.zero_add] at hloop
      rw [List.map_cons, attendRequest, List.flatten_cons, handleAll_append, ← hloop,
        Connection.received]
      rcases hrun : attendLoop db (encodeAll g ++ c.request.drop (encodeAll g).length)
        (encodeAll g).length 0 c.response with e | a
      · rfl
      rw [hrun] at hloop
      have hnext := ih a.db ⟨encodeAll g ++ c.request.drop (encodeAll g).length, a.response⟩
        fun g' hg' r hr => (hs g' (by simp [hg']) r hr).handleAll hloop.symm
      simp only [Except.map, ← hnext]
      rcases attendRequest a.db ⟨encodeAll g ++ c.request.drop (encodeAll g).length, a.response⟩
        (gs.map encodeAll) with e | ⟨db', c', sent⟩ <;> rfl

/-- A served request whose answer fits the response array is answered. -/
theorem Served.handle_ok {db : Db} {r : Request} (hs : Served db r)
    (hfits : fits (applyEnbPushes r.pushes db.eNBs) 0 r.pulls) (response : Mem UInt8) :
    ∃ a, handle db response r = .ok a := by
  obtain ⟨⟨key, u, hkey, hu⟩, heom⟩ := hs
  obtain ⟨w, hw⟩ := (r.run_ok_iff (.start db (some u) response)).mpr
    ⟨fun h => absurd h (by simp [Work.start]), hfits⟩
  rw [handle_user hkey hu, Request.truncate_of_pullsNoEom heom, hw]
  exact ⟨_, rfl⟩

theorem handleAll_ok {db : Db} {rs : List Request} (hs : ∀ r ∈ rs, Served db r)
    (hlen : ∀ r ∈ rs, r.pulls.length ≤ 60) (response : Mem UInt8) :
    ∃ out, handleAll db response rs = .ok out := by
  induction rs generalizing db response with
  | nil => exact ⟨_, rfl⟩
  | cons r rs ih =>
      have hfits : fits (applyEnbPushes r.pushes db.eNBs) 0 r.pulls := by
        apply fits_of_length
        have := hlen r (by simp)
        simp only [bufferLen]
        omega
      obtain ⟨a, ha⟩ := (hs r (by simp)).handle_ok hfits response
      obtain ⟨out, hout⟩ := ih (fun q hq => (hs q (by simp [hq])).next ha)
        (fun q hq => hlen q (by simp [hq])) a.response
      simp only [handleAll, ha, hout]
      exact ⟨_, rfl⟩

/-- What a run of the thread leaves: the store and the bytes sent, or the fault. -/
def outcome (db : Db) (c : Connection) (chunks : List (List UInt8)) :
    Except Fault (Db × List UInt8) :=
  (attendRequest db c chunks).map fun x => (x.1, x.2.2)

/-- The bytes of requests that the library built, in a row. -/
def builtBytes (built : List (Libck.Call × Mem UInt8)) : List UInt8 :=
  built.flatMap fun c => c.1.bytes c.2

def builtRequests (built : List (Libck.Call × Mem UInt8)) : List Request :=
  built.map fun b => b.1.request b.2

theorem outcome_built (db : Db) (c : Connection)
    {groups : List (List (Libck.Call × Mem UInt8))}
    (hs : ∀ g ∈ groups, ∀ b ∈ g, Served db (b.1.request b.2)) :
    outcome db c (groups.map builtBytes) =
      (handleAll db c.response (builtRequests groups.flatten)).map fun x => (x.1, x.2.2) := by
  have hbytes : groups.map builtBytes = (groups.map builtRequests).map encodeAll := by
    simp [Function.comp_def, builtBytes, builtRequests, encodeAll, List.flatMap_map,
      Libck.Call.bytes_eq]
  have hserved : ∀ g ∈ groups.map builtRequests, ∀ r ∈ g, Served db r := by
    intro g hg r hr
    obtain ⟨g', hg', rfl⟩ := List.mem_map.mp hg
    obtain ⟨b, hb, rfl⟩ := List.mem_map.mp hr
    exact hs g' hg' b hb
  have hflat : (groups.map builtRequests).flatten = builtRequests groups.flatten := by
    rw [builtRequests, List.map_flatten]
    rfl
  have hrun := attendRequest_served db c hserved
  rw [← hbytes, hflat] at hrun
  rw [outcome, ← hrun]
  rcases attendRequest db c (groups.map builtBytes) with e | x <;> rfl

/-- Cut where requests end, the stream has the outcome that each request in a `recv` of its own
has; and if no request pulls more than sixty items there is one. -/
theorem outcome_of_groups (db : Db) (c : Connection)
    {groups : List (List (Libck.Call × Mem UInt8))}
    (hs : ∀ g ∈ groups, ∀ b ∈ g, Served db (b.1.request b.2)) :
    outcome db c (groups.map builtBytes) =
        outcome db c (groups.flatten.map fun b => builtBytes [b]) ∧
      ((∀ g ∈ groups, ∀ b ∈ g, b.1.pulls.length ≤ 60) →
        ∃ out, outcome db c (groups.map builtBytes) = .ok out) := by
  have hsingle : groups.flatten.map (fun b => builtBytes [b]) =
      (groups.flatten.map fun b => [b]).map builtBytes := by
    rw [List.map_map]
    rfl
  have hone : ∀ g ∈ groups.flatten.map (fun b => [b]), ∀ b ∈ g, Served db (b.1.request b.2) := by
    intro g hg b hb
    obtain ⟨b', hb', rfl⟩ := List.mem_map.mp hg
    obtain rfl := List.mem_singleton.mp hb
    obtain ⟨g', hg', hmem⟩ := List.mem_flatten.mp hb'
    exact hs g' hg' b hmem
  have hflat : (groups.flatten.map fun b => [b]).flatten = groups.flatten := by
    induction groups.flatten with
    | nil => rfl
    | cons b bs ih => simp [ih]
  refine ⟨?_, fun hlen => ?_⟩
  · rw [hsingle, outcome_built db c hs, outcome_built db c hone, hflat]
  · have hserved : ∀ r ∈ builtRequests groups.flatten, Served db r ∧ r.pulls.length ≤ 60 := by
      intro r hr
      obtain ⟨b, hb, rfl⟩ := List.mem_map.mp hr
      obtain ⟨g, hg, hbg⟩ := List.mem_flatten.mp hb
      exact ⟨hs g hg b hbg, by simpa [Libck.Call.request] using hlen g hg b hbg⟩
    obtain ⟨out, hout⟩ := handleAll_ok (fun r hr => (hserved r hr).1)
      (fun r hr => (hserved r hr).2) c.response
    exact ⟨_, by rw [outcome_built db c hs, hout]; rfl⟩

/-- A request for the key of the subscriber. -/
def subscriberKey : Libck.Call := .byImsi subscriber.mem [] [⟨.key, fun _ => 0⟩]

theorem served_subscriber {c : Libck.Call} (buffer : Mem UInt8)
    (hid : c.id = .imsi) (hvalue : c.idValue = subscriber.mem)
    (heom : ∀ x ∈ c.pulls, x.type ≠ .eom) (rand : RandStream) :
    Served (.init (some subscriber) rand) (c.request buffer) := by
  have huser : (Db.init (some subscriber) fun _ => 0).user? 1 = some subscriber := by rfl
  refine ⟨⟨1, subscriber, ?_, huser⟩, ?_⟩
  · exact Libck.Call.target_imsi hid (by rw [hvalue]; rfl) buffer
  · intro p hp
    obtain ⟨x, hx, rfl⟩ := List.mem_map.mp hp
    exact fun hcode => heom x hx (ItemType.code_injective hcode)

theorem outcome_of_groups_subscriberKey :
    outcome (.init (some subscriber) fun _ => 0) ⟨[], fun _ => 0⟩
        ([[(subscriberKey, fun _ => 0), (subscriberKey, fun _ => 1)]].map builtBytes) =
      outcome (.init (some subscriber) fun _ => 0) ⟨[], fun _ => 0⟩
        ([[(subscriberKey, fun _ => 0), (subscriberKey, fun _ => 1)]].flatten.map
          fun b => builtBytes [b]) :=
  (outcome_of_groups _ _ fun g hg b hb => by
    obtain rfl := List.mem_singleton.mp hg
    rcases List.mem_cons.mp hb with rfl | hb
    · exact served_subscriber _ rfl rfl (by decide) _
    · obtain rfl := List.mem_singleton.mp hb
      exact served_subscriber _ rfl rfl (by decide) _).1

/-- The stream cut before the last byte of its request. -/
def cutBeforeEom : List (List UInt8) :=
  [(subscriberKey.bytes fun _ => 0).take 19, [ItemType.eom.code]]

/-- The byte `EOM` that comes in a `recv` of its own is answered as a request. -/
theorem outcome_cutBeforeEom_ne :
    cutBeforeEom.flatten = builtBytes [(subscriberKey, fun _ => 0)] ∧
      outcome (.init (some subscriber) fun _ => 0) ⟨[], fun _ => 0⟩ cutBeforeEom ≠
        outcome (.init (some subscriber) fun _ => 0) ⟨[], fun _ => 0⟩
          [builtBytes [(subscriberKey, fun _ => 0)]] := by
  refine ⟨by decide +kernel, fun h => ?_⟩
  have hsent := congrArg (Except.map Prod.snd) h
  revert hsent
  decide +kernel

end PublicCloudCore.CorekubeDb
