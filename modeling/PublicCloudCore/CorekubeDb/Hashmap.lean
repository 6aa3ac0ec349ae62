import PublicCloudCore.CorekubeDb.Api

/-!
# The chained hash map

`hashmap.c`: a table of lists, indexed by the reduced Jenkins hash of the key that the map's
`hash` function computes from an entry. `hashmap_get` returns a pointer into the map, so a caller
that stores through it changes the entry in place; `hashmapStore` is that store.
-/

namespace PublicCloudCore.CorekubeDb

def rol32 (word shift : UInt32) : UInt32 :=
  (word <<< (shift &&& 31)) ||| (word >>> ((0 - shift) &&& 31))

def jhashInitval : UInt32 := 0xdeadbeef

/-- `__jhash_final`, then the third word. -/
def jhashFinal (a b c : UInt32) : UInt32 :=
  let c := (c ^^^ b) - rol32 b 14
  let a := (a ^^^ c) - rol32 c 11
  let b := (b ^^^ a) - rol32 a 25
  let c := (c ^^^ b) - rol32 b 16
  let a := (a ^^^ c) - rol32 c 4
  let b := (b ^^^ a) - rol32 a 14
  (c ^^^ b) - rol32 b 24

def jhash3words (a b c initval : UInt32) : UInt32 :=
  jhashFinal (a + jhashInitval) (b + jhashInitval) (c + initval)

def jhash (a initval : UInt32) : UInt32 := jhash3words a 0 0 initval

/-- The map's hash function is part of its type: no map is read with another one. -/
structure HashMap {α : Type} (hash : α → UInt32) where
  initval : UInt32
  table : List (List α)
  table_ne_nil : table ≠ []

namespace HashMap

variable {α : Type} {hash : α → UInt32}

def hashmapSize (hm : HashMap hash) : Nat := hm.table.length

def index (hm : HashMap hash) (key : UInt32) : Nat :=
  (jhash key hm.initval).toNat % hm.hashmapSize

def bucket (hm : HashMap hash) (key : UInt32) : List α := hm.table.getD (hm.index key) []

theorem index_lt (hm : HashMap hash) (key : UInt32) : hm.index key < hm.table.length :=
  Nat.mod_lt _ (List.length_pos_iff.mpr hm.table_ne_nil)

/-- `init_hashmap` with a table of `n + 1` entries. -/
def init (n : Nat) (initval : UInt32) : HashMap hash where
  initval
  table := List.replicate (n + 1) []
  table_ne_nil := by simp

def setBucket (hm : HashMap hash) (key : UInt32) (nodes : List α) : HashMap hash where
  initval := hm.initval
  table := hm.table.set (hm.index key) nodes
  table_ne_nil := by
    intro h
    exact hm.table_ne_nil (List.length_eq_zero_iff.mp (by simpa using congrArg List.length h))

theorem bucket_setBucket (hm : HashMap hash) (key key' : UInt32) (nodes : List α) :
    (hm.setBucket key nodes).bucket key' =
      if hm.index key' = hm.index key then nodes else hm.bucket key' := by
  have hlen : (hm.setBucket key nodes).index key' = hm.index key' := by
    simp [index, setBucket, hashmapSize]
  rw [bucket, hlen]
  by_cases h : hm.index key' = hm.index key
  · simp [setBucket, h, hm.index_lt key]
  · simp [setBucket, bucket, h, Ne.symm h]

end HashMap

variable {α : Type} {hash : α → UInt32}

/-- The walk to the end of a list that is not empty. Every node but the last is compared. -/
def appendNode (hash : α → UInt32) (data : α) : List α → Option (List α)
  | [] => some [data]
  | [last] => some [last, data]
  | node :: next :: rest =>
      if hash node = hash data then none
      else (appendNode hash data (next :: rest)).map (node :: ·)

/-- `hashmap_add`; `none` is `ERROR`. -/
def hashmapAdd (hm : HashMap hash) (data : α) : Option (HashMap hash) :=
  match hm.bucket (hash data) with
  | [] => some (hm.setBucket (hash data) [data])
  | head :: rest =>
      if hash head = hash data then none
      else (appendNode hash data (head :: rest)).map (hm.setBucket (hash data))

def hashmapGet (hm : HashMap hash) (key : UInt32) : Option α :=
  (hm.bucket key).find? fun node => hash node == key

def replaceFirst (p : α → Bool) (x : α) : List α → List α
  | [] => []
  | y :: ys => if p y then x :: ys else y :: replaceFirst p x ys

/-- A store through the pointer that `hashmap_get` returned for `key`. -/
def hashmapStore (hm : HashMap hash) (key : UInt32) (data : α) : HashMap hash :=
  hm.setBucket key (replaceFirst (fun node => hash node == key) data (hm.bucket key))

theorem find?_replaceFirst_self {p : α → Bool} {x y : α} {l : List α} (hx : p x)
    (hy : l.find? p = some y) : (replaceFirst p x l).find? p = some x := by
  induction l with
  | nil => simp at hy
  | cons z zs ih =>
      by_cases hz : p z
      · simp [replaceFirst, hz, hx]
      · rw [List.find?_cons_of_neg hz] at hy
        rw [replaceFirst, if_neg hz, List.find?_cons_of_neg hz]
        exact ih hy

theorem find?_replaceFirst_other {p q : α → Bool} {x : α} {l : List α} (hx : ¬ q x)
    (hpq : ∀ y, p y → ¬ q y) : (replaceFirst p x l).find? q = l.find? q := by
  induction l with
  | nil => rfl
  | cons z zs ih =>
      by_cases hz : p z
      · simp [replaceFirst, hz, hx, hpq z hz]
      · rw [replaceFirst, if_neg hz, List.find?_cons, List.find?_cons, ih]

theorem hashmapGet_hash {hm : HashMap hash} {key : UInt32} {data : α}
    (h : hashmapGet hm key = some data) : hash data = key := by
  simpa using List.find?_some h

theorem hashmapGet_store {hm : HashMap hash} {key : UInt32} {old data : α}
    (hold : hashmapGet hm key = some old) (hdata : hash data = key) (key' : UInt32) :
    hashmapGet (hashmapStore hm key data) key' =
      if key' = key then some data else hashmapGet hm key' := by
  have hb := hm.bucket_setBucket key key'
    (replaceFirst (fun node => hash node == key) data (hm.bucket key))
  by_cases h : key' = key
  · subst h
    rw [if_pos rfl] at hb ⊢
    simp only [hashmapGet, hashmapStore] at hold ⊢
    rw [hb]
    exact find?_replaceFirst_self (by simpa using hdata) hold
  · rw [if_neg h]
    simp only [hashmapGet, hashmapStore]
    rw [hb]
    split
    · next hi =>
      have hsame : hm.bucket key' = hm.bucket key := by simp [HashMap.bucket, hi]
      rw [hsame]
      refine find?_replaceFirst_other (by simp [hdata, Ne.symm h]) ?_
      intro y hy
      have hy : hash y = key := by simpa using hy
      simp [hy, Ne.symm h]
    · rfl

private theorem appendNode_eq_none {data : α} {nodes : List α}
    (h : appendNode hash data nodes = none) : ∃ node ∈ nodes, hash node = hash data := by
  fun_induction appendNode hash data nodes with
  | case1 => cases h
  | case2 => cases h
  | case3 node next rest hsame => exact ⟨node, by simp, hsame⟩
  | case4 node next rest _ ih =>
      obtain ⟨x, hx, hsame⟩ := ih (Option.map_eq_none_iff.mp h)
      exact ⟨x, by simp [hx], hsame⟩

private theorem appendNode_eq_some {data : α} {nodes nodes' : List α}
    (h : appendNode hash data nodes = some nodes') : nodes' = nodes ++ [data] := by
  fun_induction appendNode hash data nodes generalizing nodes' with
  | case1 => cases h; rfl
  | case2 => cases h; rfl
  | case3 => cases h
  | case4 node next rest _ ih =>
      obtain ⟨l, hl, rfl⟩ := Option.map_eq_some_iff.mp h
      rw [ih hl]
      rfl

/-- An entry whose key the map has is refused or put behind the one that is there. -/
theorem hashmapGet_add (hm : HashMap hash) (data : α) (key : UInt32) :
    hashmapGet ((hashmapAdd hm data).getD hm) key =
      (hashmapGet hm key).or (if hash data = key then some data else none) := by
  have happend : ∀ nodes, nodes = hm.bucket (hash data) ++ [data] →
      hashmapGet (hm.setBucket (hash data) nodes) key =
        (hashmapGet hm key).or (if hash data = key then some data else none) := by
    rintro nodes rfl
    simp only [hashmapGet, hm.bucket_setBucket]
    split
    · next hi =>
      have hsame : hm.bucket key = hm.bucket (hash data) := by simp [HashMap.bucket, hi]
      rw [List.find?_append, hsame]
      congr 1
      by_cases hk : hash data = key <;> simp [hk]
    · next hi =>
      have hne : hash data ≠ key := by
        rintro rfl
        exact hi rfl
      rw [if_neg hne, Option.or_none]
  have hrefused : ∀ node ∈ hm.bucket (hash data), hash node = hash data →
      hashmapGet hm key = (hashmapGet hm key).or (if hash data = key then some data else none) := by
    intro node hmem hnode
    by_cases hk : hash data = key
    · have hsome : (hashmapGet hm key).isSome := by
        rw [← hk]
        exact List.find?_isSome.mpr ⟨node, hmem, by simpa using hnode⟩
      obtain ⟨x, hx⟩ := Option.isSome_iff_exists.mp hsome
      rw [hx]
      rfl
    · rw [if_neg hk, Option.or_none]
  rcases hb : hm.bucket (hash data) with _ | ⟨head, rest⟩
  · simp only [hashmapAdd, hb, Option.getD_some]
    exact happend _ (by rw [hb]; rfl)
  rw [hashmapAdd, hb]
  by_cases hhead : hash head = hash data
  · simp only [if_pos hhead, Option.getD_none]
    exact hrefused head (by simp [hb]) hhead
  simp only [if_neg hhead]
  rcases ha : appendNode hash data (head :: rest) with _ | nodes
  · obtain ⟨node, hmem, hnode⟩ := appendNode_eq_none ha
    simp only [Option.map_none, Option.getD_none]
    exact hrefused node (by rw [hb]; exact hmem) hnode
  · simp only [Option.map_some, Option.getD_some]
    exact happend _ (by rw [hb]; exact appendNode_eq_some ha)

namespace HashMap

def entries (hm : HashMap hash) : List α := hm.table.flatten

def keys (hm : HashMap hash) : List (List UInt32) := hm.table.map (List.map hash)

/-- Every entry is in the list that a lookup of its key walks. -/
def Placed (hm : HashMap hash) : Prop :=
  ∀ (i : Nat) (ks : List UInt32), hm.keys[i]? = some ks → ∀ k ∈ ks, hm.index k = i

/-- Every entry is in its list, and no key occurs twice. -/
structure Indexed (hm : HashMap hash) : Prop where
  placed : hm.Placed
  nodup : hm.keys.flatten.Nodup

theorem bucket_mem_table (hm : HashMap hash) (key : UInt32) : hm.bucket key ∈ hm.table := by
  have hlt := hm.index_lt key
  rw [bucket, List.getD_eq_getElem _ _ hlt]
  exact List.getElem_mem hlt

theorem get_mem_entries {hm : HashMap hash} {key : UInt32} {x : α}
    (h : hashmapGet hm key = some x) : x ∈ hm.entries :=
  List.mem_flatten.mpr ⟨_, hm.bucket_mem_table key, List.mem_of_find?_eq_some h⟩

theorem placed_init (n : Nat) (initval : UInt32) : (init n initval : HashMap hash).Placed := by
  intro i ks hi k hk
  obtain ⟨l, hl, hks⟩ := List.mem_map.mp (List.mem_of_getElem? hi)
  obtain rfl := List.eq_of_mem_replicate hl
  rw [← hks] at hk
  cases hk

theorem Placed.setBucket {hm : HashMap hash} (h : hm.Placed) {key : UInt32} {nodes : List α}
    (hnodes : ∀ x ∈ nodes, hm.index (hash x) = hm.index key) : (hm.setBucket key nodes).Placed := by
  intro i ks hi k hk
  have hindex : (hm.setBucket key nodes).index k = hm.index k := by
    simp [index, hashmapSize, HashMap.setBucket]
  rw [hindex]
  have hkeys : (hm.setBucket key nodes).keys = hm.keys.set (hm.index key) (nodes.map hash) :=
    List.map_set
  rw [hkeys, List.getElem?_set] at hi
  split at hi
  · next heq =>
    split at hi
    · obtain rfl := Option.some.inj hi
      obtain ⟨x, hx, rfl⟩ := List.mem_map.mp hk
      rw [hnodes x hx, heq]
    · cases hi
  · exact h i ks hi k hk

theorem Placed.bucket {hm : HashMap hash} (h : hm.Placed) {key : UInt32} {x : α}
    (hx : x ∈ hm.bucket key) : hm.index (hash x) = hm.index key := by
  have hlt := hm.index_lt key
  rw [HashMap.bucket, List.getD_eq_getElem _ _ hlt] at hx
  refine h _ _ ?_ _ (List.mem_map_of_mem hx)
  rw [keys, List.getElem?_map, List.getElem?_eq_getElem hlt]
  rfl

end HashMap

theorem hashmapAdd_cases (hm : HashMap hash) (data : α) :
    (hashmapAdd hm data).getD hm = hm ∨
      (hashmapAdd hm data).getD hm =
        hm.setBucket (hash data) (hm.bucket (hash data) ++ [data]) := by
  rcases hb : hm.bucket (hash data) with _ | ⟨head, rest⟩
  · exact Or.inr (by rw [hashmapAdd, hb]; rfl)
  rw [hashmapAdd, hb]
  by_cases hhead : hash head = hash data
  · exact Or.inl (by simp only [if_pos hhead, Option.getD_none])
  simp only [if_neg hhead]
  rcases ha : appendNode hash data (head :: rest) with _ | nodes
  · exact Or.inl rfl
  · rw [appendNode_eq_some ha]
    exact Or.inr rfl

theorem HashMap.Placed.add {hm : HashMap hash} (h : hm.Placed) (data : α) :
    ((hashmapAdd hm data).getD hm).Placed := by
  rcases hashmapAdd_cases hm data with heq | heq
  · rw [heq]
    exact h
  · rw [heq]
    apply h.setBucket
    intro x hx
    rcases List.mem_append.mp hx with hx | hx
    · exact h.bucket hx
    · rw [List.mem_singleton.mp hx]

theorem HashMap.mem_entries_setBucket {hm : HashMap hash} {key : UInt32} {nodes : List α} {x : α}
    (h : x ∈ (hm.setBucket key nodes).entries) : x ∈ nodes ∨ x ∈ hm.entries := by
  obtain ⟨l, hl, hx⟩ := List.mem_flatten.mp h
  rcases List.mem_or_eq_of_mem_set hl with hl | rfl
  · exact Or.inr (List.mem_flatten.mpr ⟨l, hl, hx⟩)
  · exact Or.inl hx

theorem HashMap.mem_entries_add {hm : HashMap hash} {data x : α}
    (h : x ∈ ((hashmapAdd hm data).getD hm).entries) : x = data ∨ x ∈ hm.entries := by
  rcases hashmapAdd_cases hm data with heq | heq
  · rw [heq] at h
    exact Or.inr h
  · rw [heq] at h
    rcases HashMap.mem_entries_setBucket h with hx | hx
    · rcases List.mem_append.mp hx with hx | hx
      · exact Or.inr (List.mem_flatten.mpr ⟨_, hm.bucket_mem_table _, hx⟩)
      · exact Or.inl (List.mem_singleton.mp hx)
    · exact Or.inr hx

private theorem mem_replaceFirst {p : α → Bool} {x y : α} {l : List α}
    (h : y ∈ replaceFirst p x l) : y = x ∨ y ∈ l := by
  induction l with
  | nil => cases h
  | cons z zs ih =>
      by_cases hz : p z
      · rw [replaceFirst, if_pos hz] at h
        rcases List.mem_cons.mp h with rfl | h
        · exact Or.inl rfl
        · exact Or.inr (List.mem_cons_of_mem _ h)
      · rw [replaceFirst, if_neg hz] at h
        rcases List.mem_cons.mp h with rfl | h
        · exact Or.inr (List.mem_cons_self ..)
        · exact (ih h).imp_right (List.mem_cons_of_mem _)

theorem HashMap.mem_entries_store {hm : HashMap hash} {key : UInt32} {data x : α}
    (h : x ∈ (hashmapStore hm key data).entries) : x = data ∨ x ∈ hm.entries := by
  rcases HashMap.mem_entries_setBucket h with hx | hx
  · rcases mem_replaceFirst hx with rfl | hx
    · exact Or.inl rfl
    · exact Or.inr (List.mem_flatten.mpr ⟨_, hm.bucket_mem_table _, hx⟩)
  · exact Or.inr hx

private theorem map_replaceFirst {p : α → Bool} {x : α} {l : List α}
    (h : ∀ y ∈ l, p y → hash x = hash y) : (replaceFirst p x l).map hash = l.map hash := by
  induction l with
  | nil => rfl
  | cons y ys ih =>
      by_cases hy : p y
      · rw [replaceFirst, if_pos hy, List.map_cons, List.map_cons, h y (by simp) hy]
      · rw [replaceFirst, if_neg hy, List.map_cons, List.map_cons,
          ih fun z hz => h z (List.mem_cons_of_mem _ hz)]

theorem keys_store {hm : HashMap hash} {key : UInt32} {data : α} (h : hash data = key) :
    (hashmapStore hm key data).keys = hm.keys := by
  have hlt := hm.index_lt key
  have hbucket : hm.bucket key = hm.table[hm.index key] := List.getD_eq_getElem _ _ hlt
  have hsame : (replaceFirst (fun node => hash node == key) data (hm.bucket key)).map hash =
      hm.table[hm.index key].map hash := by
    rw [← hbucket]
    apply map_replaceFirst
    intro y _ hy
    rw [h]
    exact (beq_iff_eq.mp hy).symm
  simp only [HashMap.keys, hashmapStore, HashMap.setBucket, List.map_set, hsame]
  rw [← List.getElem_map (List.map hash) (h := by rw [List.length_map]; exact hlt)]
  exact List.set_getElem_self _

theorem HashMap.Indexed.store {hm : HashMap hash} (h : hm.Indexed) {key : UInt32} {data : α}
    (hdata : hash data = key) : (hashmapStore hm key data).Indexed := by
  have hkeys : (hashmapStore hm key data).keys = hm.keys := keys_store hdata
  have hindex : ∀ k, (hashmapStore hm key data).index k = hm.index k := by
    intro k
    simp [HashMap.index, HashMap.hashmapSize, hashmapStore, HashMap.setBucket]
  constructor
  · intro i ks hi k hk
    rw [hindex]
    rw [hkeys] at hi
    exact h.placed i ks hi k hk
  · rw [hkeys]
    exact h.nodup

end PublicCloudCore.CorekubeDb
