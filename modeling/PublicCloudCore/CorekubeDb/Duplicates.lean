import PublicCloudCore.CorekubeDb.Records

/-!
# Keys of the chained hash map

`hashmap_add` looks for the new entry's key and for the end of the list in one loop, which ends in
front of the comparison with the last node; only the head is compared on its own. `hashmap_get`
compares every node and returns the first one that fits.
-/

namespace PublicCloudCore.CorekubeDb

variable {α : Type} {hash : α → UInt32}

/-- The nodes of a list that `hashmap_add` compares with the new entry. -/
def compared : List α → List α
  | [] => []
  | [head] => [head]
  | head :: next :: rest => head :: (next :: rest).dropLast

def uncompared : List α → Option α
  | [] => none
  | [_] => none
  | _ :: next :: rest => (next :: rest).getLast?

theorem mem_of_mem_compared {x : α} {nodes : List α} (h : x ∈ compared nodes) : x ∈ nodes := by
  cases nodes with
  | nil => simp [compared] at h
  | cons head rest =>
      cases rest with
      | nil => simpa [compared] using h
      | cons next rest =>
          simp only [compared, List.mem_cons] at h
          rcases h with rfl | h
          · simp
          · exact List.mem_cons_of_mem _ (List.mem_of_mem_dropLast h)

theorem mem_compared_or_uncompared {x : α} {nodes : List α} (h : x ∈ nodes) :
    x ∈ compared nodes ∨ uncompared nodes = some x := by
  cases nodes with
  | nil => simp at h
  | cons head rest =>
      cases rest with
      | nil => simpa [compared, uncompared] using h
      | cons next rest =>
          simp only [compared, uncompared, List.mem_cons] at h ⊢
          rcases h with h | h
          · exact Or.inl (Or.inl h)
          have hsplit := List.dropLast_append_getLast (List.cons_ne_nil next rest)
          rw [← List.mem_cons, ← hsplit, List.mem_append, List.mem_singleton] at h
          rcases h with h | h
          · exact Or.inl (Or.inr h)
          · exact Or.inr (by rw [h, List.getLast?_eq_getLast_of_ne_nil])

theorem compared_append_uncompared {x : α} {nodes : List α} (h : uncompared nodes = some x) :
    nodes = compared nodes ++ [x] := by
  cases nodes with
  | nil => simp [uncompared] at h
  | cons head rest =>
      cases rest with
      | nil => simp [uncompared] at h
      | cons next rest =>
          simp only [uncompared] at h
          simp only [compared, List.cons_append]
          rw [List.dropLast_append_getLast? _ h]

private theorem appendNode_eq (data : α) {nodes : List α} (hne : nodes ≠ []) :
    appendNode hash data nodes =
      if nodes.dropLast.any (fun node => hash node == hash data) then none
      else some (nodes ++ [data]) := by
  induction nodes with
  | nil => exact absurd rfl hne
  | cons head rest ih =>
      cases rest with
      | nil => simp [appendNode]
      | cons next rest =>
          rw [appendNode, ih (List.cons_ne_nil _ _), List.dropLast_cons_cons, List.any_cons]
          by_cases hhead : hash head = hash data
          · simp [hhead]
          · by_cases hrest : ((next :: rest).dropLast.any fun node => hash node == hash data)
            · simp [hhead, hrest]
            · simp [hhead, hrest]

theorem hashmapAdd_eq (hm : HashMap hash) (data : α) :
    hashmapAdd hm data =
      if (compared (hm.bucket (hash data))).any (fun node => hash node == hash data) then none
      else some (hm.setBucket (hash data) (hm.bucket (hash data) ++ [data])) := by
  cases hb : hm.bucket (hash data) with
  | nil => simp [hashmapAdd, hb, compared]
  | cons head rest =>
      rw [hashmapAdd, hb]
      simp only [appendNode_eq data (List.cons_ne_nil head rest)]
      by_cases hhead : hash head = hash data
      · cases rest with
        | nil => simp [compared, hhead]
        | cons next rest => simp [compared, hhead]
      · cases rest with
        | nil => simp [compared, hhead]
        | cons next rest =>
            simp only [compared, if_neg hhead, List.dropLast_cons_cons, List.any_cons,
              beq_eq_false_iff_ne.mpr hhead, Bool.false_or]
            by_cases hrest : ((next :: rest).dropLast.any fun node => hash node == hash data)
            · simp [hrest]
            · simp [hrest]

namespace HashMap

theorem keys_flatten (hm : HashMap hash) : hm.keys.flatten = hm.entries.map hash := by
  simp [keys, entries, List.map_flatten]

private theorem flatten_set_perm {x : α} {table : List (List α)} {i : Nat} (h : i < table.length) :
    (table.set i (table[i] ++ [x])).flatten.Perm (x :: table.flatten) := by
  induction table generalizing i with
  | nil => simp at h
  | cons l ls ih =>
      cases i with
      | zero => simp [List.perm_middle]
      | succ i =>
          simp only [List.set_cons_succ, List.flatten_cons, List.getElem_cons_succ]
          exact ((ih (by simpa using h)).append_left l).trans List.perm_middle

theorem entries_append_perm (hm : HashMap hash) (key : UInt32) (data : α) :
    (hm.setBucket key (hm.bucket key ++ [data])).entries.Perm (data :: hm.entries) := by
  have hlt := hm.index_lt key
  have hbucket : hm.bucket key = hm.table[hm.index key] := List.getD_eq_getElem _ _ hlt
  rw [hbucket]
  exact flatten_set_perm hlt

/-- An entry with this key is in the map. -/
def Stores (hm : HashMap hash) (key : UInt32) : Prop := ∃ x ∈ hm.entries, hash x = key

theorem Placed.mem_bucket {hm : HashMap hash} (h : hm.Placed) {x : α} (hx : x ∈ hm.entries) :
    x ∈ hm.bucket (hash x) := by
  obtain ⟨l, hl, hxl⟩ := List.mem_flatten.mp hx
  obtain ⟨i, hi⟩ := List.mem_iff_getElem?.mp hl
  have hkeys : hm.keys[i]? = some (l.map hash) := by simp [keys, hi]
  have hindex : hm.index (hash x) = i := h i _ hkeys _ (List.mem_map_of_mem hxl)
  rw [HashMap.bucket, hindex, List.getD_eq_getElem?_getD, hi]
  exact hxl

end HashMap

/-- What a call of `hashmap_add` is for: `ERROR`, with the table as it was, for a key that is
stored, and one more entry otherwise. -/
structure RefusesStored (hm : HashMap hash) (data : α) : Prop where
  refused : hm.Stores (hash data) → hashmapAdd hm data = none
  added : ¬ hm.Stores (hash data) →
    ∃ hm', hashmapAdd hm data = some hm' ∧ hm'.entries.Perm (data :: hm.entries)

/-- The node that the call does not compare has another key. -/
def Compared (hm : HashMap hash) (data : α) : Prop :=
  ∀ last, uncompared (hm.bucket (hash data)) = some last → hash last ≠ hash data

theorem hashmapAdd_of_not_stores {hm : HashMap hash} {data : α} (h : ¬ hm.Stores (hash data)) :
    hashmapAdd hm data = some (hm.setBucket (hash data) (hm.bucket (hash data) ++ [data])) := by
  rw [hashmapAdd_eq, if_neg]
  intro hany
  obtain ⟨node, hmem, hnode⟩ := List.any_eq_true.mp hany
  apply h
  refine ⟨node, ?_, by simpa using hnode⟩
  exact List.mem_flatten.mpr ⟨_, hm.bucket_mem_table _, mem_of_mem_compared hmem⟩

theorem hashmapAdd_of_compared {hm : HashMap hash} (hplaced : hm.Placed) {data : α}
    (hcompared : Compared hm data) (h : hm.Stores (hash data)) : hashmapAdd hm data = none := by
  obtain ⟨x, hx, hkey⟩ := h
  have hbucket : x ∈ hm.bucket (hash data) := by
    rw [← hkey]
    exact hplaced.mem_bucket hx
  rw [hashmapAdd_eq, if_pos]
  rcases mem_compared_or_uncompared hbucket with hmem | hlast
  · exact List.any_eq_true.mpr ⟨x, hmem, by simpa using hkey⟩
  · exact absurd hkey (hcompared x hlast)

/-- In a map without duplicates a call does what it is for exactly if the node that it leaves out
has another key. -/
theorem HashMap.Indexed.refusesStored_iff {hm : HashMap hash} (h : hm.Indexed) (data : α) :
    RefusesStored hm data ↔ Compared hm data := by
  constructor
  · intro hrefuses last hlast hkey
    have hsplit := compared_append_uncompared hlast
    have hmem : last ∈ hm.bucket (hash data) := by
      rw [hsplit]
      simp
    have hnone := hrefuses.refused
      ⟨last, List.mem_flatten.mpr ⟨_, hm.bucket_mem_table _, hmem⟩, hkey⟩
    rw [hashmapAdd_eq] at hnone
    split at hnone
    · next hany =>
      obtain ⟨node, hnode, hsame⟩ := List.any_eq_true.mp hany
      have hnodup : ((hm.bucket (hash data)).map hash).Nodup := by
        apply (List.nodup_flatten.mp h.nodup).1
        exact List.mem_map_of_mem (hm.bucket_mem_table _)
      rw [hsplit, List.map_append, List.nodup_append] at hnodup
      exact hnodup.2.2 (hash node) (List.mem_map_of_mem hnode) (hash last) (by simp)
        ((by simpa using hsame : hash node = hash data).trans hkey.symm)
    · cases hnone
  · intro hcompared
    refine ⟨hashmapAdd_of_compared h.placed hcompared, fun hnew => ?_⟩
    exact ⟨_, hashmapAdd_of_not_stores hnew, hm.entries_append_perm _ _⟩

theorem HashMap.Indexed.add {hm : HashMap hash} (h : hm.Indexed) {data : α}
    (hcompared : Compared hm data) : ((hashmapAdd hm data).getD hm).Indexed := by
  refine ⟨h.placed.add data, ?_⟩
  by_cases hstores : hm.Stores (hash data)
  · rw [hashmapAdd_of_compared h.placed hcompared hstores]
    exact h.nodup
  · rw [hashmapAdd_of_not_stores hstores, Option.getD_some, HashMap.keys_flatten]
    apply ((hm.entries_append_perm _ data).map hash).nodup_iff.mpr
    rw [List.map_cons, List.nodup_cons, ← HashMap.keys_flatten]
    exact ⟨by simpa [HashMap.Stores, HashMap.keys_flatten] using hstores, h.nodup⟩

/-- The map after a sequence of calls. -/
def hashmapAddAll (hm : HashMap hash) (adds : List α) : HashMap hash :=
  adds.foldl (fun hm data => (hashmapAdd hm data).getD hm) hm

theorem hashmapAddAll_concat (hm : HashMap hash) (before : List α) (data : α) :
    hashmapAddAll hm (before ++ [data]) =
      (hashmapAdd (hashmapAddAll hm before) data).getD (hashmapAddAll hm before) := by
  simp [hashmapAddAll]

theorem HashMap.indexed_init (n : Nat) (initval : UInt32) : (init n initval : HashMap hash).Indexed := by
  refine ⟨placed_init n initval, ?_⟩
  simp [keys_flatten, entries, init]

theorem HashMap.placed_addAll {hm : HashMap hash} (h : hm.Placed) (adds : List α) :
    (hashmapAddAll hm adds).Placed := by
  induction adds generalizing hm with
  | nil => exact h
  | cons data adds ih => exact ih (h.add data)

/-- Every call of a sequence refuses exactly the keys that are stored, and no map in between holds
a key twice. -/
structure NoDuplicateKeys (hm : HashMap hash) (adds : List α) : Prop where
  calls : ∀ before data, before ++ [data] <+: adds → RefusesStored (hashmapAddAll hm before) data
  reached : ∀ before, before <+: adds → ((hashmapAddAll hm before).entries.map hash).Nodup

/-- The map has no duplicates exactly in the sequences in which every node that a call leaves out
has another key. -/
theorem noDuplicateKeys_iff (n : Nat) (initval : UInt32) (adds : List α) :
    NoDuplicateKeys (.init n initval : HashMap hash) adds ↔
      ∀ before data, before ++ [data] <+: adds →
        Compared (hashmapAddAll (.init n initval : HashMap hash) before) data := by
  constructor
  · intro h before data hstart
    have hnodup := h.reached before ((List.prefix_append before [data]).trans hstart)
    rw [← HashMap.keys_flatten] at hnodup
    have hindexed : (hashmapAddAll (.init n initval : HashMap hash) before).Indexed :=
      ⟨HashMap.placed_addAll (HashMap.placed_init n initval) before, hnodup⟩
    exact (hindexed.refusesStored_iff data).mp (h.calls before data hstart)
  · intro h
    have hindexed : ∀ before, before <+: adds →
        (hashmapAddAll (.init n initval : HashMap hash) before).Indexed := by
      intro before
      induction before using List.reverseRecOn with
      | nil => exact fun _ => HashMap.indexed_init n initval
      | append_singleton before data ih =>
          intro hstart
          rw [hashmapAddAll_concat]
          exact (ih ((List.prefix_append before [data]).trans hstart)).add (h before data hstart)
    constructor
    · intro before data hstart
      have hbefore := hindexed before ((List.prefix_append before [data]).trans hstart)
      exact (hbefore.refusesStored_iff data).mpr (h before data hstart)
    · intro before hstart
      rw [← HashMap.keys_flatten]
      exact (hindexed before hstart).nodup

/-- Three calls for two eNBs in a table of one list: the second eNB is stored twice. -/
theorem not_noDuplicateKeys_threeCalls :
    ¬ ∀ (n : Nat) (initval : UInt32) (adds : List ENBInfo),
      NoDuplicateKeys (.init n initval : HashMap hashEnbInfo) adds := by
  intro h
  have hnodup := (h 0 0 [⟨1, [0, 0, 0, 4], rfl⟩, ⟨2, [0, 0, 0, 5], rfl⟩, ⟨2, [0, 0, 0, 6], rfl⟩]).reached
    _ (List.prefix_refl _)
  revert hnodup
  decide

def addedEntries (hm : HashMap hash) : List α → List α
  | [] => []
  | data :: adds =>
      match hashmapAdd hm data with
      | some hm' => data :: addedEntries hm' adds
      | none => addedEntries hm adds

theorem hashmapGet_init (n : Nat) (initval key : UInt32) :
    hashmapGet (.init n initval : HashMap hash) key = none := by
  have hmem := HashMap.bucket_mem_table (.init n initval : HashMap hash) key
  rw [hashmapGet, List.eq_of_mem_replicate hmem]
  rfl

theorem hashmapGet_addAll (hm : HashMap hash) (adds : List α) (key : UInt32) :
    hashmapGet (hashmapAddAll hm adds) key =
      (hashmapGet hm key).or (adds.find? fun data => hash data == key) := by
  induction adds generalizing hm with
  | nil => simp [hashmapAddAll]
  | cons data adds ih =>
      have hstep := hashmapGet_add hm data key
      simp only [hashmapAddAll, List.foldl_cons] at ih ⊢
      rw [ih, hstep, Option.or_assoc]
      congr 1
      by_cases hkey : hash data = key
      · simp [hkey]
      · simp [hkey]

theorem hashmapGet_addedEntries (hm : HashMap hash) (adds : List α) (key : UInt32) :
    hashmapGet (hashmapAddAll hm adds) key =
      (hashmapGet hm key).or ((addedEntries hm adds).find? fun data => hash data == key) := by
  induction adds generalizing hm with
  | nil => simp [hashmapAddAll, addedEntries]
  | cons data adds ih =>
      have hstep := hashmapGet_add hm data key
      simp only [hashmapAddAll, List.foldl_cons, addedEntries] at ih ⊢
      cases hadd : hashmapAdd hm data with
      | none => simpa using ih hm
      | some hm' =>
          rw [hadd, Option.getD_some] at hstep
          rw [Option.getD_some, ih, hstep, Option.or_assoc]
          congr 1
          by_cases hkey : hash data = key
          · simp [hkey]
          · simp [hkey]

/-- A lookup finds the first entry that was added with its key, and nothing exactly if no entry
with this key was ever added, whatever else lies in the same list. -/
theorem hashmapGet_firstAdded (n : Nat) (initval : UInt32) (adds : List α) (key : UInt32) :
    let hm : HashMap hash := .init n initval
    hashmapGet (hashmapAddAll hm adds) key =
        ((addedEntries hm adds).find? fun data => hash data == key) ∧
      hashmapGet (hashmapAddAll hm adds) key = (adds.find? fun data => hash data == key) ∧
      (hashmapGet (hashmapAddAll hm adds) key = none ↔
        ∀ data ∈ addedEntries hm adds, hash data ≠ key) := by
  intro hm
  have hadded := hashmapGet_addedEntries hm adds key
  have hcalls := hashmapGet_addAll hm adds key
  rw [hashmapGet_init, Option.none_or] at hadded hcalls
  refine ⟨hadded, hcalls, ?_⟩
  rw [hadded]
  simp

end PublicCloudCore.CorekubeDb
