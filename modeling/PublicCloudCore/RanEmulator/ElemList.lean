import PublicCloudCore.Framework.DoublyLinked
import PublicCloudCore.RanEmulator.EnbEmulator

/-!
# The list of `list.c`

`peekElem` looks for the first element whose comparison with the key is zero. `getElem` takes the
first one whose comparison is not zero out of the list, and reads the data of its node after
`free`. A `void *` is `none` for NULL; a walk through memory without a node is `none`.
-/

namespace PublicCloudCore.RanEmulator

open Framework

/-- `struct _List` and the memory of its nodes. -/
structure ElemList (A δ : Type) where
  memory : Cells A (Option δ)
  head : Option A
  tail : Option A

/-- What `getElem` returns, with the list that it leaves, and whether it came from a freed node. -/
structure Got (A δ : Type) where
  elem : Option δ
  list : ElemList A δ
  readsFreed : Bool

namespace ElemList

variable {A δ κ : Type}

def initList (memory : Cells A (Option δ)) : ElemList A δ := ⟨memory, none, none⟩

/-- `peekElem`, for no more steps than that. -/
def peekElem (cmp : Option δ → κ → Int) (fuel : Nat) (l : ElemList A δ) (key : κ) :
    Option (Option δ) := do
  match ← l.memory.find (fun d => cmp d key == 0) fuel l.head with
  | none => some none
  | some iter => (l.memory iter).map LinkedCell.data

section Representation

variable {l : ElemList A δ} {ns ms : List (A × Option δ)}

/-- The list is these nodes with their data, linked both ways. -/
structure Holds (l : ElemList A δ) (ns : List (A × Option δ)) : Prop where
  linked : l.memory.Stretch none l.head ns l.tail none
  distinct : (Cells.places ns).Nodup

theorem Holds.unique (h : l.Holds ns) (h' : l.Holds ms) : ns = ms :=
  h.linked.unique h'.linked

theorem holds_initList (memory : Cells A (Option δ)) : (initList memory).Holds [] :=
  ⟨.nil none none, List.nodup_nil⟩

theorem Holds.head_eq_none_iff (h : l.Holds ns) : l.head = none ↔ ns = [] := by
  rw [h.linked.head_eq]
  cases ns <;> simp

theorem Holds.cell {a : A} {d : Option δ} (h : l.Holds (ns ++ (a, d) :: ms)) :
    ∃ prev next, l.memory a = some ⟨d, prev, next⟩ := by
  obtain ⟨z, q, -, ha, -⟩ := h.linked.middle
  exact ⟨z, q, ha⟩

end Representation

variable [DecidableEq A]

/-- `addElem`, the node being what `malloc` returns. -/
def addElem (l : ElemList A δ) (node : Option A) (elem : Option δ) :
    Option (Int × ElemList A δ) :=
  match node with
  | none => some (1, l)
  | some new =>
      let memory := l.memory.set new (some ⟨elem, l.tail, none⟩)
      match l.head with
      | none => some (0, ⟨memory, some new, some new⟩)
      | some head => do
          let tail ← l.tail
          let memory ← memory.setNext tail (some new)
          some (0, ⟨memory, some head, some new⟩)

/-- The four ways in which `getElem` takes a node out. -/
def unlink (l : ElemList A δ) (iter : LinkedCell A (Option δ)) : Option (ElemList A δ) :=
  match iter.prev, iter.next with
  | none, none => some ⟨l.memory, none, none⟩
  | none, some next => do
      let memory ← l.memory.setPrev next none
      some ⟨memory, some next, l.tail⟩
  | some prev, none => do
      let memory ← l.memory.setNext prev none
      some ⟨memory, l.head, some prev⟩
  | some prev, some next => do
      let memory ← l.memory.setNext prev (some next)
      let memory ← memory.setPrev next (some prev)
      some ⟨memory, l.head, l.tail⟩

def free (l : ElemList A δ) (node : A) : ElemList A δ := { l with memory := l.memory.set node none }

/-- `getElem`, for no more steps than that. A freed node holds `stale` where its data was. -/
def getElem (cmp : Option δ → κ → Int) (fuel : Nat) (l : ElemList A δ) (key : κ)
    (stale : Option δ) : Option (Got A δ) := do
  match ← l.memory.find (fun d => cmp d key != 0) fuel l.head with
  | none => some ⟨none, l, false⟩
  | some iter =>
      let node ← l.memory iter
      let unlinked ← l.unlink node
      let freed := unlinked.free iter
      -- `return iter->data`
      match freed.memory iter with
      | some node => some ⟨node.data, freed, false⟩
      | none => some ⟨stale, freed, true⟩

/-- The lists that calls of `addElem` and `getElem` make, whatever they search for; `malloc` returns
memory that nothing occupies. -/
inductive Built (cmp : Option δ → κ → Int) : ElemList A δ → Prop
  | initList (memory : Cells A (Option δ)) : Built cmp (initList memory)
  | addElem {l l' : ElemList A δ} {node : Option A} {elem : Option δ} {ret : Int} :
      Built cmp l → (∀ new ∈ node, l.memory new = none) → l.addElem node elem = some (ret, l') →
      Built cmp l'
  | getElem {l : ElemList A δ} {key : κ} {stale : Option δ} {fuel : Nat} {got : Got A δ} :
      Built cmp l → l.getElem cmp fuel key stale = some got → Built cmp got.list

/-- `getElem` returns what `peekElem` finds and takes it out, and touches no freed node. -/
def GetsPeeked (cmp : Option δ → κ → Int) (l : ElemList A δ) (key : κ) (stale : Option δ) : Prop :=
  ∃ ns, l.Holds ns ∧ ∀ fuel, ns.length ≤ fuel → ∃ found got,
    l.peekElem cmp fuel key = some found ∧ l.getElem cmp fuel key stale = some got ∧
      found = (ns.find? fun n => cmp n.2 key == 0).bind Prod.snd ∧ got.elem = found ∧
      got.readsFreed = false ∧ got.list.Holds (ns.eraseP fun n => cmp n.2 key == 0)

variable {cmp : Option δ → κ → Int} {l l' : ElemList A δ} {ns ms : List (A × Option δ)}

section AddElem

theorem addElem_spec (h : l.Holds ns) {new : A} (hnew : l.memory new = none) (elem : Option δ) :
    ∃ l', l.addElem (some new) elem = some (0, l') ∧ l'.Holds (ns ++ [(new, elem)]) := by
  have hfresh : new ∉ Cells.places ns := fun hmem => h.linked.ne_none_of_mem hmem hnew
  have hdistinct : (Cells.places (ns ++ [(new, elem)])).Nodup := by
    rw [Cells.places_append]
    refine List.Nodup.append h.distinct (List.nodup_singleton _) ?_
    simpa using hfresh
  have hset := h.linked.congr_set hfresh (some ⟨elem, l.tail, none⟩)
  rcases List.eq_nil_or_concat' ns with rfl | ⟨front, ⟨a, d⟩, rfl⟩
  · have hhead := h.head_eq_none_iff.mpr rfl
    refine ⟨⟨l.memory.set new (some ⟨elem, l.tail, none⟩), some new, some new⟩,
      by simp only [addElem, hhead], ?_, hdistinct⟩
    have htail : l.tail = none := h.linked.last_eq_of_nil
    rw [htail]
    exact .cons (Cells.set_same _ _ _) (.nil _ _)
  · obtain ⟨head, hhead⟩ : ∃ head, l.head = some head :=
      Option.ne_none_iff_exists'.mp fun hnone => by simpa using h.head_eq_none_iff.mp hnone
    obtain ⟨htail, -⟩ := Cells.Stretch.concat_iff.mp h.linked
    rw [htail] at hset
    obtain ⟨memory, hnext, hlinked, hframe⟩ :=
      hset.setNext_last (by simp) h.distinct (some new)
    refine ⟨⟨memory, some head, some new⟩, ?_, ?_, hdistinct⟩
    · simp only [addElem, hhead, htail, Option.bind_eq_bind, Option.bind_some, hnext]
    · rw [hhead] at hlinked
      refine hlinked.trans (.cons ?_ (.nil _ _))
      rw [hframe new hfresh, Cells.set_same]

end AddElem

section GetElem

theorem unlink_spec {a : A} {d : Option δ} (h : l.Holds (ns ++ (a, d) :: ms)) :
    ∃ node l', l.memory a = some node ∧ l.unlink node = some l' ∧ l'.Holds (ns ++ ms) := by
  obtain ⟨z, q, hleft, ha, hright⟩ := h.linked.middle
  have hplaces := h.distinct
  rw [Cells.places_append, Cells.places_cons, List.nodup_append] at hplaces
  obtain ⟨hns, hams, hapart⟩ := hplaces
  have hms := (List.nodup_cons.mp hams).2
  have hdisjoint : ∀ c ∈ Cells.places ns, c ∉ Cells.places ms := fun c hc hc' =>
    hapart c hc c (List.mem_cons_of_mem _ hc') rfl
  have hdistinct : (Cells.places (ns ++ ms)).Nodup := by
    rw [Cells.places_append]
    exact List.Nodup.append hns hms fun c hc hc' => hdisjoint c hc hc'
  refine ⟨⟨d, z, q⟩, ?_⟩
  cases hz : z with
  | none =>
      subst hz
      have hnil := hleft.eq_nil_of_last
      subst hnil
      cases hq : q with
      | none =>
          subst hq
          have hnil := hright.eq_nil_of_first
          subst hnil
          exact ⟨⟨l.memory, none, none⟩, ha, rfl, .nil _ _, hdistinct⟩
      | some next =>
          subst hq
          obtain ⟨memory, hprev, hlinked, -⟩ :=
            hright.setPrev_first hright.ne_nil_of_first hms none
          refine ⟨⟨memory, some next, l.tail⟩, ha, ?_, hlinked, hdistinct⟩
          simp only [unlink, Option.bind_eq_bind, hprev, Option.bind_some]
  | some prev =>
      subst hz
      have hne := hleft.ne_nil_of_last
      cases hq : q with
      | none =>
          subst hq
          have hnil := hright.eq_nil_of_first
          subst hnil
          obtain ⟨memory, hnext, hlinked, -⟩ := hleft.setNext_last hne hns none
          refine ⟨⟨memory, l.head, some prev⟩, ha, ?_, ?_, hdistinct⟩
          · simp only [unlink, Option.bind_eq_bind, hnext, Option.bind_some]
          · rw [List.append_nil]
            exact hlinked
      | some next =>
          subst hq
          obtain ⟨memory, hnext, hlinked, hframe⟩ := hleft.setNext_last hne hns (some next)
          have hright' : memory.Stretch (some a) (some next) ms l.tail none :=
            hright.congr fun c hc => hframe c fun hc' => hdisjoint c hc' hc
          obtain ⟨memory', hprev, hlinked', hframe'⟩ :=
            hright'.setPrev_first hright'.ne_nil_of_first hms (some prev)
          refine ⟨⟨memory', l.head, l.tail⟩, ha, ?_, ?_, hdistinct⟩
          · simp only [unlink, Option.bind_eq_bind, hnext, Option.bind_some, hprev]
          · exact (hlinked.congr fun c hc => hframe' c (hdisjoint c hc)).trans hlinked'

/-- What `getElem` does: the first node whose comparison is not zero goes, and what is returned was
read after its `free`; without such a node it returns NULL. -/
theorem getElem_spec (cmp : Option δ → κ → Int) (h : l.Holds ns) (key : κ) (stale : Option δ)
    {fuel : Nat} (hfuel : ns.length ≤ fuel) : ∃ got, l.getElem cmp fuel key stale = some got ∧
      got.list.Holds (ns.eraseP fun n => cmp n.2 key != 0) ∧
      got.readsFreed = ns.any (fun n => cmp n.2 key != 0) ∧
      got.elem = if got.readsFreed then stale else none := by
  have hfind := h.linked.find_eq (fun d => cmp d key != 0) hfuel
  by_cases hany : ∃ n ∈ ns, cmp n.2 key != 0
  · obtain ⟨n, hn, hncmp⟩ := hany
    obtain ⟨⟨a, d⟩, front, back, hfront, hcmp, hns, herase⟩ :=
      List.exists_of_eraseP (p := fun n => cmp n.2 key != 0) hn hncmp
    have hfirst : ns.find? (fun n => cmp n.2 key != 0) = some (a, d) := by
      rw [hns, List.find?_append, List.find?_eq_none.mpr hfront, Option.none_or]
      exact List.find?_cons_of_pos hcmp
    subst hns
    obtain ⟨node, unlinked, hnode, hunlink, hholds⟩ := unlink_spec h
    have hnew : a ∉ Cells.places (front ++ back) := by
      have hdistinct := h.distinct
      rw [Cells.places_append, Cells.places_cons, List.nodup_middle, List.nodup_cons] at hdistinct
      rw [Cells.places_append]
      exact hdistinct.1
    refine ⟨⟨stale, unlinked.free a, true⟩, ?_, ?_, ?_, rfl⟩
    · simp [getElem, hfind, hfirst, hnode, hunlink, free]
    · rw [herase]
      exact ⟨hholds.linked.congr_set hnew none, hholds.distinct⟩
    · simp [hcmp]
  · have hnone : ∀ n ∈ ns, ¬(cmp n.2 key != 0) = true := fun n hn hc => hany ⟨n, hn, hc⟩
    refine ⟨⟨none, l, false⟩, ?_, ?_, ?_, rfl⟩
    · rw [List.find?_eq_none.mpr hnone] at hfind
      simp [getElem, hfind]
    · rw [List.eraseP_of_forall_not hnone]
      exact h
    · exact (List.any_eq_false.mpr hnone).symm

omit [DecidableEq A] in
theorem peekElem_spec (h : l.Holds ns) (key : κ) {fuel : Nat} (hfuel : ns.length ≤ fuel) :
    l.peekElem cmp fuel key = some ((ns.find? fun n => cmp n.2 key == 0).bind Prod.snd) := by
  have hfind := h.linked.find_eq (fun d => cmp d key == 0) hfuel
  cases hfirst : ns.find? fun n => cmp n.2 key == 0 with
  | none =>
      rw [hfirst] at hfind
      simp [peekElem, hfind]
  | some n =>
      obtain ⟨front, back, rfl⟩ := List.append_of_mem (List.mem_of_find?_eq_some hfirst)
      obtain ⟨prev, next, hcell⟩ := h.cell
      rw [hfirst] at hfind
      simp [peekElem, hfind, hcell]

end GetElem

theorem getElem_mono {key : κ} {stale : Option δ} {fuel fuel' : Nat} {got : Got A δ}
    (h : l.getElem cmp fuel key stale = some got) (hfuel : fuel ≤ fuel') :
    l.getElem cmp fuel' key stale = some got := by
  rw [getElem, Option.bind_eq_bind, Option.bind_eq_some_iff] at h
  obtain ⟨found, hfound, hgot⟩ := h
  rw [getElem, Option.bind_eq_bind, Cells.find_mono hfound hfuel]
  exact hgot

theorem Built.holds (hl : Built cmp l) : ∃ ns, l.Holds ns := by
  induction hl with
  | initList memory => exact ⟨[], holds_initList memory⟩
  | @addElem l l' node elem ret _ hnode hadd ih =>
      obtain ⟨ns, hns⟩ := ih
      cases node with
      | none =>
          cases hadd
          exact ⟨ns, hns⟩
      | some new =>
          obtain ⟨l₂, hadd₂, hholds⟩ := addElem_spec hns (hnode new rfl) elem
          rw [hadd₂] at hadd
          cases hadd
          exact ⟨_, hholds⟩
  | @getElem l key stale fuel got _ hget ih =>
      obtain ⟨ns, hns⟩ := ih
      obtain ⟨got', hgot, hholds, -⟩ :=
        getElem_spec cmp hns key stale (Nat.le_add_left ns.length fuel)
      rw [getElem_mono hget (Nat.le_add_right fuel ns.length)] at hgot
      cases hgot
      exact ⟨_, hholds⟩

theorem GetsPeeked.head_eq_none {key : κ} {stale : Option δ}
    (hgets : GetsPeeked cmp l key stale) : l.head = none := by
  obtain ⟨ns, hns, hgets⟩ := hgets
  obtain ⟨found, got, -, hget, -, -, hread, hrest⟩ := hgets ns.length (Nat.le_refl _)
  obtain ⟨got', hget', hrest', hread', -⟩ :=
    getElem_spec cmp hns key stale (Nat.le_refl ns.length)
  rw [hget] at hget'
  cases hget'
  rw [hns.head_eq_none_iff]
  -- nothing freed was read: every element has the key, and so none was taken out
  rw [hread] at hread'
  have hequal : ∀ n ∈ ns, cmp n.2 key = 0 := by
    intro n hn
    simpa using List.any_eq_false.mp hread'.symm n hn
  have hkept := hrest.unique hrest'
  cases ns with
  | nil => rfl
  | cons n ns =>
      have hlength := congrArg List.length hkept
      rw [List.eraseP_cons_of_pos (by simp [hequal n (by simp)]),
        List.eraseP_of_forall_not (by simpa using hequal)] at hlength
      simp at hlength

theorem Holds.getsPeeked_nil (h : l.Holds []) (key : κ) (stale : Option δ) :
    GetsPeeked cmp l key stale := by
  refine ⟨[], h, fun fuel hfuel => ?_⟩
  obtain ⟨got, hget, hrest, hread, helem⟩ := getElem_spec cmp h key stale hfuel
  refine ⟨none, got, peekElem_spec h key hfuel, hget, rfl, ?_, hread, hrest⟩
  rw [helem, hread]
  rfl

/-- `getElem` takes out what `peekElem` finds on the empty list only. -/
theorem Built.getsPeeked_iff (hl : Built cmp l) (key : κ) (stale : Option δ) :
    GetsPeeked cmp l key stale ↔ l.head = none := by
  constructor
  · exact GetsPeeked.head_eq_none
  · intro hhead
    obtain ⟨ns, hns⟩ := hl.holds
    have hnil := hns.head_eq_none_iff.mp hhead
    subst hnil
    exact hns.getsPeeked_nil key stale

end ElemList

section UeCompare

open EnbEmulator

def memcmp : List UInt8 → List UInt8 → Int
  | a :: as, b :: bs => if a = b then memcmp as bs else (a.toNat : Int) - b.toNat
  | _, _ => 0

/-- `ue_compare`. The eNB lists no NULL. -/
def compareMsin (data : Option UE) (key : Mem UInt8) : Int :=
  data.elim 0 fun ue => memcmp (ue.msinString.take 10) (key.read 0 10)

theorem memcmp_eq_zero_iff : ∀ {as bs : List UInt8}, as.length = bs.length →
    (memcmp as bs = 0 ↔ as = bs)
  | [], [], _ => by simp [memcmp]
  | a :: as, b :: bs, h => by
      rw [memcmp]
      split
      · next hab =>
          subst hab
          rw [memcmp_eq_zero_iff (Nat.succ_injective h), List.cons_inj_right]
      · next hab =>
          have hne : (a.toNat : Int) - b.toNat ≠ 0 := by
            have htoNat : a.toNat ≠ b.toNat := fun he => hab (UInt8.toNat_inj.mp he)
            omega
          simp [hne, hab]

variable {list : List UE} {key : Mem UInt8}

theorem compareMsin_eq {ue : UE} (hue : ue.msinString.length = 16) :
    (compareMsin (some ue) key == 0) = (ue.msinString.take 10 == key.read 0 10) := by
  rw [Bool.eq_iff_iff, beq_iff_eq, beq_iff_eq]
  exact memcmp_eq_zero_iff (by simp [hue])

theorem peekElem_eq_find (hlist : ∀ ue ∈ list, ue.msinString.length = 16) :
    EnbEmulator.peekElem list (some key) =
      some (list.findIdx? fun ue => compareMsin (some ue) key == 0) := by
  induction list with
  | nil => rfl
  | cons ue list ih =>
      rw [EnbEmulator.peekElem, ih fun u hu => hlist u (List.mem_cons_of_mem _ hu),
        List.findIdx?_cons, compareMsin_eq (hlist ue List.mem_cons_self), EnbEmulator.ueCompare]
      by_cases h : ue.msinString.take 10 == key.read 0 10
      · simp only [h, if_true]; rfl
      · simp only [h, Bool.false_eq_true, if_false]; rfl

theorem takeElem_eq_eraseP (hlist : ∀ ue ∈ list, ue.msinString.length = 16) :
    EnbEmulator.takeElem list (some key) =
      some (list.eraseP fun ue => compareMsin (some ue) key != 0) := by
  induction list with
  | nil => rfl
  | cons ue list ih =>
      rw [EnbEmulator.takeElem, ih fun u hu => hlist u (List.mem_cons_of_mem _ hu),
        List.eraseP_cons, bne, compareMsin_eq (hlist ue List.mem_cons_self), EnbEmulator.ueCompare]
      by_cases h : ue.msinString.take 10 == key.read 0 10
      · simp [h]
      · simp [h]

/-- The calls of the eNB on a list in memory and on the list of its UEs. -/
theorem ElemList.Holds.calls {A : Type} [DecidableEq A] {l : ElemList A UE}
    {ns : List (A × Option UE)} (h : l.Holds ns) (hdata : ns.map Prod.snd = list.map some)
    (hlist : ∀ ue ∈ list, ue.msinString.length = 16) (stale : Option UE) {fuel : Nat}
    (hfuel : ns.length ≤ fuel) :
    (∃ found, EnbEmulator.peekElem list (some key) = some found ∧
      l.peekElem compareMsin fuel key = some (found.bind fun i => list[i]?)) ∧
    ∃ rest got ms, EnbEmulator.takeElem list (some key) = some rest ∧
      l.getElem compareMsin fuel key stale = some got ∧ got.list.Holds ms ∧
      ms.map Prod.snd = rest.map some := by
  constructor
  · refine ⟨_, peekElem_eq_find hlist, ?_⟩
    rw [ElemList.peekElem_spec h key hfuel]
    have hfind : ((ns.map Prod.snd).find? fun d => compareMsin d key == 0) =
        (ns.find? fun n => compareMsin n.2 key == 0).map Prod.snd := List.find?_map ..
    have hsnd : (ns.find? fun n => compareMsin n.2 key == 0).bind Prod.snd =
        ((ns.map Prod.snd).find? fun d => compareMsin d key == 0).bind id := by
      rw [hfind, Option.bind_map]
      rfl
    have hsome : ((list.map some).find? fun d => compareMsin d key == 0).bind id =
        list.find? fun ue => compareMsin (some ue) key == 0 := by
      rw [List.find?_map, Option.bind_map]
      exact Option.bind_fun_some _
    rw [hsnd, hdata, hsome, List.find?_eq_bind_findIdx?_getElem?]
  · obtain ⟨got, hget, hrest, -⟩ := ElemList.getElem_spec compareMsin h key stale hfuel
    refine ⟨_, got, _, takeElem_eq_eraseP hlist, hget, hrest, ?_⟩
    have herase : (ns.map Prod.snd).eraseP (fun d => compareMsin d key != 0) =
        (ns.eraseP fun n => compareMsin n.2 key != 0).map Prod.snd := List.eraseP_map ..
    rw [← herase, hdata, List.eraseP_map]
    rfl

theorem ElemList.getsPeeked_initList :
    ElemList.GetsPeeked compareMsin (ElemList.initList fun _ : Nat => none) (fun _ => 0x30) none :=
  (ElemList.Built.getsPeeked_iff (.initList fun _ => none) (fun _ => 0x30) none).mpr rfl

/-- The list of a single UE with the MSIN that is looked for: `getElem` returns NULL and leaves the
UE there. -/
theorem ElemList.not_getsPeeked : ¬∀ (l : ElemList Nat UE) (key : Mem UInt8) (stale : Option UE),
    ElemList.Built compareMsin l → ElemList.GetsPeeked compareMsin l key stale := by
  intro h
  let ue := UE.ofBuffer fun _ => 0x30
  have hadd : (ElemList.initList fun _ : Nat => none).addElem (some 0) (some ue) =
      some (0, ⟨Cells.set (fun _ => none) 0 (some ⟨some ue, none, none⟩), some 0, some 0⟩) := rfl
  have hinit : ElemList.Built compareMsin (ElemList.initList fun _ : Nat => none) := .initList _
  have hhead := (h _ (fun _ => 0x30) none (hinit.addElem (fun _ _ => rfl) hadd)).head_eq_none
  cases hhead

end UeCompare

end PublicCloudCore.RanEmulator
