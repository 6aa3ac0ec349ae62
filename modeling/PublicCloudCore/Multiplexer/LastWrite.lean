import PublicCloudCore.Framework.Transition
import PublicCloudCore.Multiplexer.Relay

/-!
# The last write of the multiplexer's map

`hashmap_add` of the multiplexer byte by byte: an entry is copied into a block of its size, and one
with the hash value of the first node of its slot is copied over that node's block. A slot never
gets a second node, so the latest entries are found as long as no two hash values meet in a slot,
and each entry fits over the one before it.
-/

namespace PublicCloudCore.Multiplexer

open Framework (forall_steps_nil forall_steps_concat)
open CorekubeDb (HashMap hashmapGet)

/-- The bytes behind the pointer `data`, of which there are `size`. -/
abbrev Entry := List UInt8

namespace Entry

variable {hash : Entry → UInt32}

/-- The block after `memcpy` from its start. -/
def overlay (block data : Entry) : Entry := data ++ block.drop data.length

theorem overlay_of_length_eq {block data : Entry} (hlength : block.length = data.length) :
    overlay block data = data := by
  rw [overlay, ← hlength, List.drop_length, List.append_nil]

/-- `memcpy`, which must not leave the block. -/
def memcpy (block data : Entry) : Option Entry :=
  if data.length ≤ block.length then some (overlay block data) else none

/-- The loop over the list of a slot, for no more turns than that. `iter` stays on its first
node. -/
def searchLoop (hash : Entry → UInt32) (data : Entry) : Nat → List Entry → Option (List Entry)
  | _, [] => none
  | _, [iter] => some [iter]
  | 0, _ :: _ :: _ => none
  | fuel + 1, iter :: next :: rest =>
      if hash iter = hash data then (memcpy iter data).map (· :: next :: rest)
      else searchLoop hash data fuel [iter, data]

/-- `hashmap_add`, whose allocations succeed. -/
def hashmapAdd (fuel : Nat) (hm : HashMap hash) (data : Entry) : Option (HashMap hash) :=
  match hm.bucket (hash data) with
  | [] => some (hm.setBucket (hash data) [data])
  | iter :: rest =>
      if hash iter = hash data then
        (memcpy iter data).map fun block => hm.setBucket (hash data) (block :: rest)
      else (searchLoop hash data fuel (iter :: rest)).map (hm.setBucket (hash data))

/-- Among entries of one size it does what `hashmapAdd` of records does. -/
theorem hashmapGet_add {hm : HashMap hash} {data : Entry} (fuel : Nat)
    (hsize : ∀ iter ∈ hm.bucket (hash data), iter.length = data.length)
    (hsingle : (hm.bucket (hash data)).length ≤ 1) :
    (hashmapAdd fuel hm data).map hashmapGet =
      (Multiplexer.hashmapAdd hm data).map hashmapGet := by
  rw [hashmapAdd, Multiplexer.hashmapAdd]
  cases hb : hm.bucket (hash data) with
  | nil => rfl
  | cons iter rest =>
      rw [hb, List.length_cons] at hsingle
      obtain rfl := List.length_eq_zero_iff.mp (Nat.le_zero.mp (Nat.le_of_succ_le_succ hsingle))
      have hlength := hsize iter (by simp [hb])
      have hover : memcpy iter data = some data := by
        rw [memcpy, if_pos hlength.ge, overlay_of_length_eq hlength]
      by_cases hsame : hash iter = hash data
      · simp only [hsame, if_true, hover, Option.map_some]
      · simp only [hsame, if_false, if_true, searchLoop, Option.map_some, Option.some.injEq]
        funext key
        rw [hashmapGet, HashMap.bucket_setBucket, hashmapGet]
        split
        · next hi => rw [← hb, HashMap.bucket, HashMap.bucket, hi]
        · rfl

def latest (hash : Entry → UInt32) (h : UInt32) (added : List Entry) : Option Entry :=
  added.reverse.find? fun data => hash data == h

/-- A lookup returns the data of the latest entry with the hash value, and NULL when there is
none. -/
def LastWriteWins (hm : HashMap hash) (added : List Entry) : Prop :=
  ∀ h, match latest hash h added with
    | none => hashmapGet hm h = none
    | some data => ∃ block, hashmapGet hm h = some block ∧ data <+: block

/-- The calls return, and the last write wins. -/
def AddsWell (hash : Entry → UInt32) (n : Nat) (initval : UInt32) (added : List Entry) : Prop :=
  ∃ fuel hm, added.foldlM (hashmapAdd fuel) (HashMap.init n initval : HashMap hash) = some hm ∧
    LastWriteWins hm added

/-- The slot of a hash value in a table of `n + 1`. -/
def slot (n : Nat) (initval h : UInt32) : Nat := (CorekubeDb.jhash h initval).toNat % (n + 1)

/-- What entries with one hash value make of the block of the first, copied over it in turn. -/
def laid (hash : Entry → UInt32) (h : UInt32) (added : List Entry) : Option Entry :=
  added.foldl (fun block data =>
    if hash data = h then some (overlay (block.getD []) data) else block) none

/-- No other hash value is in the slot of the entry, and the block of its own hash value has room
for it and keeps the hash value with it. -/
def Fits (hash : Entry → UInt32) (n : Nat) (initval : UInt32) (added : List Entry) (data : Entry) :
    Prop :=
  (∀ other ∈ added, slot n initval (hash other) = slot n initval (hash data) →
    hash other = hash data) ∧
  ∀ block ∈ laid hash (hash data) added,
    data.length ≤ block.length ∧ hash (overlay block data) = hash data

section Latest

variable {h : UInt32} {added : List Entry} {data : Entry}

theorem latest_append : latest hash h (added ++ [data]) =
    if hash data = h then some data else latest hash h added := by
  rw [latest, List.reverse_append, List.reverse_singleton, List.singleton_append, List.find?_cons]
  by_cases hd : hash data = h
  · simp [hd]
  · rw [if_neg hd, beq_eq_false_iff_ne.mpr hd]
    rfl

theorem laid_append : laid hash h (added ++ [data]) =
    if hash data = h then some (overlay ((laid hash h added).getD []) data)
    else laid hash h added := by
  rw [laid, List.foldl_append]
  rfl

theorem laid_eq_none_iff : laid hash h added = none ↔ ∀ data ∈ added, hash data ≠ h := by
  induction added using List.reverseRecOn with
  | nil => simp [laid]
  | append_singleton added data ih =>
      rw [laid_append]
      by_cases hd : hash data = h
      · simp [hd]
      · rw [if_neg hd, ih]
        simp only [List.forall_mem_append, List.forall_mem_singleton]
        exact (and_iff_left hd).symm

/-- The block of a hash value starts with its latest entry. -/
theorem latest_laid : match latest hash h added with
    | none => laid hash h added = none
    | some data => ∃ block, laid hash h added = some block ∧ data <+: block := by
  induction added using List.reverseRecOn with
  | nil => rfl
  | append_singleton added data ih =>
      rw [latest_append, laid_append]
      by_cases hd : hash data = h
      · simp only [hd, if_true]
        exact ⟨_, rfl, List.prefix_append _ _⟩
      · simp only [hd, if_false]
        exact ih

end Latest

section Invariant

variable {n : Nat} {initval : UInt32} {hm : HashMap hash} {added : List Entry} {data : Entry}

/-- Each slot holds the block of the one hash value that came into it. -/
structure Holds (hm : HashMap hash) (n : Nat) (initval : UInt32) (added : List Entry) : Prop where
  index : ∀ h, hm.index h = slot n initval h
  own : ∀ data ∈ added, ∀ other ∈ added,
    slot n initval (hash other) = slot n initval (hash data) → hash other = hash data
  empty : ∀ h, (∀ data ∈ added, slot n initval (hash data) ≠ slot n initval h) → hm.bucket h = []
  taken : ∀ data ∈ added, ∃ block, hm.bucket (hash data) = [block] ∧
    laid hash (hash data) added = some block ∧ hash block = hash data

theorem holds_init : Holds (HashMap.init n initval : HashMap hash) n initval [] := by
  refine ⟨fun h => ?_, by simp, fun h _ => ?_, by simp⟩
  · simp [HashMap.index, HashMap.init, HashMap.hashmapSize, slot]
  · have hlt := (HashMap.init n initval : HashMap hash).index_lt h
    rw [HashMap.bucket, HashMap.init]
    simp

theorem Holds.bucket_congr (hholds : Holds hm n initval added) {h h' : UInt32}
    (hslot : slot n initval h = slot n initval h') : hm.bucket h = hm.bucket h' := by
  rw [HashMap.bucket, HashMap.bucket, hholds.index, hholds.index, hslot]

theorem Holds.hashmapGet (hholds : Holds hm n initval added) (h : UInt32) :
    CorekubeDb.hashmapGet hm h = laid hash h added := by
  rw [CorekubeDb.hashmapGet]
  by_cases hadded : ∃ data ∈ added, hash data = h
  · obtain ⟨data, hdata, rfl⟩ := hadded
    obtain ⟨block, hbucket, hlaid, hhash⟩ := hholds.taken data hdata
    rw [hbucket, hlaid, List.find?_cons_of_pos (by simpa using hhash)]
  · have hnone : ∀ data ∈ added, hash data ≠ h := fun data hdata heq => hadded ⟨data, hdata, heq⟩
    rw [laid_eq_none_iff.mpr hnone]
    by_cases hslot : ∃ data ∈ added, slot n initval (hash data) = slot n initval h
    · obtain ⟨data, hdata, hslot⟩ := hslot
      obtain ⟨block, hbucket, -, hhash⟩ := hholds.taken data hdata
      rw [← hholds.bucket_congr hslot, hbucket,
        List.find?_cons_of_neg (by simpa [hhash] using hnone data hdata)]
      rfl
    · rw [hholds.empty h fun data hdata heq => hslot ⟨data, hdata, heq⟩]
      rfl

theorem Holds.lastWriteWins (hholds : Holds hm n initval added) : LastWriteWins hm added := by
  intro h
  rw [hholds.hashmapGet]
  exact latest_laid

theorem Holds.hashmapAdd_empty (hholds : Holds hm n initval added) (fuel : Nat)
    (hempty : ∀ other ∈ added, slot n initval (hash other) ≠ slot n initval (hash data)) :
    hashmapAdd fuel hm data = some (hm.setBucket (hash data) [data]) := by
  rw [hashmapAdd, hholds.empty (hash data) hempty]

theorem Holds.hashmapAdd_same (hholds : Holds hm n initval added) (fuel : Nat) {block : Entry}
    (hlaid : laid hash (hash data) added = some block) : hashmapAdd fuel hm data =
      (memcpy block data).map fun block => hm.setBucket (hash data) [block] := by
  obtain ⟨other, hother, hsame⟩ : ∃ other ∈ added, hash other = hash data := by
    by_contra hnone
    rw [laid_eq_none_iff.mpr fun other hother heq => hnone ⟨other, hother, heq⟩] at hlaid
    cases hlaid
  obtain ⟨block', hbucket, hlaid', hhash⟩ := hholds.taken other hother
  rw [hsame] at hbucket hlaid' hhash
  rw [hlaid] at hlaid'
  cases hlaid'
  rw [hashmapAdd, hbucket]
  simp only [hhash, if_true]

/-- The step: the slots of the other hash values stay as they are. -/
theorem Holds.setBucket (hholds : Holds hm n initval added) {block : Entry}
    (hown : ∀ other ∈ added, slot n initval (hash other) = slot n initval (hash data) →
      hash other = hash data)
    (hlaid : overlay ((laid hash (hash data) added).getD []) data = block)
    (hhash : hash block = hash data) :
    Holds (hm.setBucket (hash data) [block]) n initval (added ++ [data]) := by
  have hbucket : ∀ h, (hm.setBucket (hash data) [block]).bucket h =
      if slot n initval h = slot n initval (hash data) then [block] else hm.bucket h := by
    intro h
    rw [HashMap.bucket_setBucket, hholds.index, hholds.index]
  refine ⟨fun h => ?_, ?_, fun h hnone => ?_, fun other hother => ?_⟩
  · rw [← hholds.index h]
    simp [HashMap.index, HashMap.setBucket, HashMap.hashmapSize]
  · intro e he other hother heq
    rcases List.mem_append.mp he with he | he <;> rcases List.mem_append.mp hother with ho | ho
    · exact hholds.own e he other ho heq
    · cases List.mem_singleton.mp ho
      exact (hown e he heq.symm).symm
    · cases List.mem_singleton.mp he
      exact hown other ho heq
    · cases List.mem_singleton.mp he
      cases List.mem_singleton.mp ho
      rfl
  · rw [hbucket, if_neg (Ne.symm (hnone data (by simp)))]
    exact hholds.empty h fun other hother => hnone other (by simp [hother])
  · rw [hbucket, laid_append]
    rcases List.mem_append.mp hother with ho | ho
    · by_cases hsame : hash other = hash data
      · rw [hsame, if_pos rfl, if_pos rfl, hlaid]
        exact ⟨block, rfl, rfl, hhash⟩
      · rw [if_neg fun heq => hsame (hown other ho heq), if_neg (Ne.symm hsame)]
        exact hholds.taken other ho
    · cases List.mem_singleton.mp ho
      rw [if_pos rfl, if_pos rfl, hlaid]
      exact ⟨block, rfl, rfl, hhash⟩

theorem Holds.step (hholds : Holds hm n initval added) (fuel : Nat)
    (hfits : Fits hash n initval added data) :
    ∃ hm', hashmapAdd fuel hm data = some hm' ∧ Holds hm' n initval (added ++ [data]) := by
  obtain ⟨hown, hroom⟩ := hfits
  cases hlaid : laid hash (hash data) added with
  | none =>
      have hnone := laid_eq_none_iff.mp hlaid
      refine ⟨_, hholds.hashmapAdd_empty fuel fun other hother heq =>
        hnone other hother (hown other hother heq), ?_⟩
      refine hholds.setBucket hown ?_ rfl
      simp [hlaid, overlay]
  | some block =>
      obtain ⟨hlength, hhash⟩ := hroom block hlaid
      refine ⟨hm.setBucket (hash data) [overlay block data], ?_, ?_⟩
      · rw [hholds.hashmapAdd_same fuel hlaid, memcpy, if_pos hlength, Option.map_some]
      · refine hholds.setBucket hown ?_ hhash
        rw [hlaid, Option.getD_some]

theorem Holds.fits (hholds : Holds hm n initval added) {fuel : Nat} {hm' : HashMap hash}
    (hadd : hashmapAdd fuel hm data = some hm') (hwins : LastWriteWins hm' (added ++ [data])) :
    Fits hash n initval added data := by
  have hfound : ∃ block, CorekubeDb.hashmapGet hm' (hash data) = some block := by
    have hlatest := hwins (hash data)
    rw [latest_append, if_pos rfl] at hlatest
    obtain ⟨block, hget, -⟩ := hlatest
    exact ⟨block, hget⟩
  obtain ⟨found, hfound⟩ := hfound
  rw [CorekubeDb.hashmapGet] at hfound
  refine ⟨fun other hother heq => ?_, fun block hblock => ?_⟩
  · -- the node of another hash value stays alone in its slot
    by_contra hne
    obtain ⟨block, hbucket, -, hhash⟩ := hholds.taken other hother
    rw [hholds.bucket_congr heq] at hbucket
    have hother : ¬hash block = hash data := hhash ▸ hne
    rw [hashmapAdd, hbucket] at hadd
    simp only [hother, if_false, searchLoop, Option.map_some, Option.some.injEq] at hadd
    subst hadd
    rw [HashMap.bucket_setBucket, if_pos rfl, List.find?_cons_of_neg (by simpa using hother)]
      at hfound
    cases hfound
  · rw [hholds.hashmapAdd_same fuel hblock, memcpy] at hadd
    by_cases hlength : data.length ≤ block.length
    · rw [if_pos hlength] at hadd
      cases hadd
      rw [HashMap.bucket_setBucket, if_pos rfl] at hfound
      refine ⟨hlength, ?_⟩
      by_contra hhash
      rw [List.find?_cons_of_neg (by simpa using hhash)] at hfound
      cases hfound
    · rw [if_neg hlength] at hadd
      cases hadd

theorem holds_of_fits (fuel : Nat)
    (hfits : ∀ past data, past ++ [data] <+: added → Fits hash n initval past data) :
    ∃ hm, added.foldlM (hashmapAdd fuel) (HashMap.init n initval : HashMap hash) = some hm ∧
      Holds hm n initval added := by
  induction added using List.reverseRecOn with
  | nil => exact ⟨_, rfl, holds_init⟩
  | append_singleton added data ih =>
      obtain ⟨hpast, hlast⟩ := (forall_steps_concat added data).mp hfits
      obtain ⟨hm, hrun, hholds⟩ := ih hpast
      obtain ⟨hm', hadd, hholds'⟩ := hholds.step fuel hlast
      refine ⟨hm', ?_, hholds'⟩
      rw [List.foldlM_append, hrun]
      simp [hadd]

/-- The last write wins after each of the calls if and only if each fits what came before it. -/
theorem addsWell_iff_fits (hash : Entry → UInt32) (n : Nat) (initval : UInt32)
    (added : List Entry) :
    (∀ past, past <+: added → AddsWell hash n initval past) ↔
      ∀ past data, past ++ [data] <+: added → Fits hash n initval past data := by
  constructor
  · intro hwell
    induction added using List.reverseRecOn with
    | nil => exact forall_steps_nil
    | append_singleton added data ih =>
        have hfits := ih fun past hpast => hwell past (hpast.trans (List.prefix_append _ _))
        obtain ⟨fuel, hm', hrun, hwins⟩ := hwell _ List.prefix_rfl
        obtain ⟨hm, hrun', hholds⟩ := holds_of_fits fuel hfits
        rw [List.foldlM_append, hrun'] at hrun
        exact (forall_steps_concat added data).mpr
          ⟨hfits, hholds.fits (by simpa using hrun) hwins⟩
  · intro hfits past hpast
    obtain ⟨hm, hrun, hholds⟩ := holds_of_fits 0 fun past' data hpast' =>
      hfits past' data (hpast'.trans hpast)
    exact ⟨0, hm, hrun, hholds.lastWriteWins⟩

/-- Two entries in the only slot of a table: the second is lost. -/
theorem not_addsWell : ¬∀ (hash : Entry → UInt32) (n : Nat) (initval : UInt32)
    (added : List Entry), AddsWell hash n initval added := by
  intro h
  obtain ⟨fuel, hm, hrun, hwins⟩ := h (fun data => (data.headD 0).toUInt32) 0 0 [[1], [2]]
  have hlost : hashmapGet hm 2 = none := by
    have hrun' : [[1], [2]].foldlM (hashmapAdd fuel)
        (HashMap.init 0 0 : HashMap fun data => (data.headD 0).toUInt32) =
        some ⟨0, [[[1]]], by simp⟩ := by
      cases fuel <;> rfl
    rw [hrun] at hrun'
    cases hrun'
    decide
  obtain ⟨block, hget, -⟩ : ∃ block, hashmapGet hm 2 = some block ∧ [2] <+: block := hwins 2
  rw [hlost] at hget
  cases hget

theorem laid_eq_latest {size : Nat} (hsize : ∀ data ∈ added, data.length = size) (h : UInt32) :
    laid hash h added = latest hash h added := by
  induction added using List.reverseRecOn with
  | nil => rfl
  | append_singleton added data ih =>
      have hbefore : ∀ data ∈ added, data.length = size := fun other hother =>
        hsize other (by simp [hother])
      rw [laid_append, latest_append, ih hbefore]
      by_cases hd : hash data = h
      · simp only [hd, if_true]
        cases hlatest : latest hash h added with
        | none => simp [overlay]
        | some block =>
            have hblock := hbefore block (List.mem_reverse.mp (List.mem_of_find?_eq_some hlatest))
            rw [Option.getD_some, overlay_of_length_eq (hblock.trans (hsize data (by simp)).symm)]
      · simp only [hd, if_false]

theorem fits_iff_of_size {size : Nat} (hsize : ∀ data ∈ added, data.length = size)
    (hdata : data.length = size) : Fits hash n initval added data ↔
      ∀ other ∈ added, slot n initval (hash other) = slot n initval (hash data) →
        hash other = hash data := by
  constructor
  · exact fun hfits => hfits.1
  · intro hown
    refine ⟨hown, fun block hblock => ?_⟩
    rw [laid_eq_latest hsize] at hblock
    have hlength : block.length = data.length :=
      (hsize block (List.mem_reverse.mp (List.mem_of_find?_eq_some hblock))).trans hdata.symm
    exact ⟨hlength.ge, by rw [overlay_of_length_eq hlength]⟩

end Invariant

end Entry

end PublicCloudCore.Multiplexer
