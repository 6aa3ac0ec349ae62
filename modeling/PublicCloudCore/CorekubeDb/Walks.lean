import PublicCloudCore.CorekubeDb.Footprint

/-!
# Walks over received bytes

What the walks of a footprint do on the bytes that were received. Behind these lies anything: older
bytes of the request array, then the stack. The received bytes are either divided by the zero byte
that ends the PUSH part, or the PUSH loop leaves them.
-/

namespace PublicCloudCore.CorekubeDb

open Framework

/-- A call for the received bytes, with memory behind them. -/
def call (db : Db) (received behind : List UInt8) : Footprint :=
  footprint db (received ++ behind) received.length

/-- No slot of the PUSH part starts with zero before the bytes end. -/
inductive OpenPushes : List UInt8 → Prop
  | short {l : List UInt8} : l.length < 17 → l.head? ≠ some 0 → OpenPushes l
  | slot (p : Push) {l : List UInt8} : OpenPushes l → OpenPushes (p.bytes ++ l)

theorem divided_or_open (l : List UInt8) :
    (∃ pushes rest, l = pushBytes pushes ++ 0 :: rest) ∨ OpenPushes l := by
  induction hn : l.length using Nat.strong_induction_on generalizing l with
  | _ n ih =>
    subst hn
    cases l with
    | nil => exact Or.inr (.short (by simp) (by simp))
    | cons tag value =>
        by_cases htag : tag = 0
        · subst htag
          exact Or.inl ⟨[], value, rfl⟩
        by_cases hshort : value.length < 16
        · exact Or.inr (.short (by simp only [List.length_cons]; omega) (by simpa using htag))
        · let p : Push := ⟨⟨tag, value.take 16, by simp; omega⟩, htag⟩
          have hsplit : tag :: value = p.bytes ++ value.drop 16 := by
            simp [p, Slot.bytes]
          rw [hsplit]
          rcases ih _ (by simp) (value.drop 16) rfl with ⟨pushes, rest, hrest⟩ | hopen
          · refine Or.inl ⟨p :: pushes, rest, ?_⟩
            simp [pushBytes, hrest]
          · exact Or.inr (.slot p hopen)

section PushWalk

variable {request : List UInt8} {eNBs : HashMap hashEnbInfo} {offset : Nat}

theorem pushWalk_nil (h : request.drop offset = []) :
    pushWalk request eNBs offset = ⟨[.request offset 1], eNBs, offset⟩ := by
  rw [pushWalk]
  split
  · rfl
  · next hcons => simp [h] at hcons

theorem pushWalk_zero {rest : List UInt8} (h : request.drop offset = 0 :: rest) :
    pushWalk request eNBs offset = ⟨[.request offset 1], eNBs, offset⟩ := by
  rw [pushWalk]
  split
  · rfl
  · next hcons =>
    obtain ⟨rfl, rfl⟩ := List.cons.inj (h.symm.trans hcons)
    rw [if_pos rfl]

theorem pushWalk_cons {tag : UInt8} {value : List UInt8} (h : request.drop offset = tag :: value)
    (htag : tag ≠ 0) :
    pushWalk request eNBs offset =
      { pushWalk request (pushedEnbs eNBs tag value) (offset + 17) with
        touches := .request offset 1 :: (pushItemTouches tag offset ++
          (pushWalk request (pushedEnbs eNBs tag value) (offset + 17)).touches) } := by
  rw [pushWalk]
  split
  · next hnil => simp [h] at hnil
  · next hcons =>
    obtain ⟨rfl, rfl⟩ := List.cons.inj (h.symm.trans hcons)
    rw [if_neg htag]

theorem le_pushWalk_stop : offset ≤ (pushWalk request eNBs offset).stop := by
  fun_induction pushWalk request eNBs offset with
  | case1 => exact Nat.le_refl _
  | case2 => exact Nat.le_refl _
  | case3 =>
      rename_i ih
      exact Nat.le_of_add_right_le ih

theorem pushItemTouches_mem {tag : UInt8} {t : Touch} (h : t ∈ pushItemTouches tag offset) :
    t = .user ∨ ∃ start len, t = .request start len ∧ start + len ≤ offset + 17 := by
  unfold pushItemTouches at h
  split at h
  · simp only [List.mem_singleton] at h
    exact Or.inr ⟨_, _, h, by omega⟩
  · split at h
    · next target htarget =>
      have hfits := (pushTarget_fits htarget).1
      simp only [List.mem_cons, List.not_mem_nil, or_false] at h
      rcases h with h | h
      · exact Or.inl h
      · exact Or.inr ⟨_, _, h, by omega⟩
    · simp at h
  · simp at h

theorem user_mem_pushItemTouches {tag : UInt8} :
    .user ∈ pushItemTouches tag offset ↔ ((ItemType.ofCode tag).bind pushTarget).isSome := by
  rcases ho : ItemType.ofCode tag with _ | item
  · simp [pushItemTouches, ho]
  · cases item <;> simp [pushItemTouches, ho, pushTarget]

variable (eNBs) in
theorem pushWalk_slots {pushes : List Push} {rest : List UInt8}
    (h : request.drop offset = pushBytes pushes ++ 0 :: rest) :
    (pushWalk request eNBs offset).stop = offset + 17 * pushes.length ∧
      (.user ∈ (pushWalk request eNBs offset).touches ↔ ∃ p ∈ pushes, p.target?.isSome) ∧
      ∀ t ∈ (pushWalk request eNBs offset).touches, t = .user ∨
        ∃ start len, t = .request start len ∧ start + len ≤ offset + 17 * pushes.length + 1 := by
  induction pushes generalizing offset eNBs with
  | nil =>
      rw [pushWalk_zero h]
      refine ⟨rfl, by simp, fun t ht => Or.inr ⟨offset, 1, ?_, Nat.le_refl _⟩⟩
      simpa using ht
  | cons p ps ih =>
      have hcons : request.drop offset = p.tag :: (p.payload ++ (pushBytes ps ++ 0 :: rest)) := by
        rw [h]
        simp [pushBytes, Slot.bytes]
      have hnext : request.drop (offset + 17) = pushBytes ps ++ 0 :: rest := by
        rw [← List.drop_drop, h]
        simp [pushBytes]
      obtain ⟨hstop, huser, htouches⟩ :=
        @ih (pushedEnbs eNBs p.tag (p.payload ++ (pushBytes ps ++ 0 :: rest))) _ hnext
      rw [pushWalk_cons hcons p.tag_ne_zero]
      refine ⟨?_, ?_, fun t ht => ?_⟩
      · simp only [hstop, List.length_cons]
        omega
      · have hsplit : (∃ q ∈ p :: ps, q.target?.isSome) ↔
            p.target?.isSome ∨ ∃ q ∈ ps, q.target?.isSome := by
          simp
        rw [hsplit]
        simp only [List.mem_cons, List.mem_append, reduceCtorEq, false_or, huser,
          user_mem_pushItemTouches]
        rfl
      · simp only [List.mem_cons, List.mem_append] at ht
        simp only [List.length_cons]
        rcases ht with rfl | ht | ht
        · exact Or.inr ⟨_, _, rfl, by omega⟩
        · rcases pushItemTouches_mem ht with rfl | ⟨start, len, rfl, hle⟩
          · exact Or.inl rfl
          · exact Or.inr ⟨_, _, rfl, by omega⟩
        · rcases htouches t ht with rfl | ⟨start, len, rfl, hle⟩
          · exact Or.inl rfl
          · exact Or.inr ⟨_, _, rfl, by omega⟩

private theorem drop_slot {p : Push} {l behind : List UInt8}
    (h : request.drop offset = (p.bytes ++ l) ++ behind) :
    request.drop offset = p.tag :: (p.payload ++ (l ++ behind)) ∧
      request.drop (offset + 17) = l ++ behind := by
  constructor
  · rw [h]
    simp [Slot.bytes]
  · rw [← List.drop_drop, h]
    simp

private theorem head_of_short {l : List UInt8} (hne : l ≠ []) (hhead : l.head? ≠ some 0) :
    ∃ tag value, l = tag :: value ∧ tag ≠ 0 := by
  cases l with
  | nil => exact absurd rfl hne
  | cons tag value => exact ⟨tag, value, rfl, by simpa using hhead⟩

theorem OpenPushes.stop_le {l behind : List UInt8} (hopen : OpenPushes l)
    (h : request.drop offset = l ++ behind) :
    offset + l.length ≤ (pushWalk request eNBs offset).stop := by
  induction hopen generalizing offset eNBs with
  | @short l hlen hhead =>
      by_cases hnil : l = []
      · subst hnil
        exact le_pushWalk_stop
      obtain ⟨tag, value, rfl, htag⟩ := head_of_short hnil hhead
      rw [pushWalk_cons h htag]
      have hle : offset + 17 ≤
          (pushWalk request (pushedEnbs eNBs tag (value ++ behind)) (offset + 17)).stop :=
        le_pushWalk_stop
      exact Nat.le_trans (by omega) hle
  | slot p _ ih =>
      obtain ⟨hcons, hnext⟩ := drop_slot h
      rw [pushWalk_cons hcons p.tag_ne_zero, List.length_append, Slot.bytes_length]
      exact Nat.le_trans (by omega) (ih hnext)

variable (eNBs) in
theorem OpenPushes.reads_behind {l : List UInt8} (hopen : OpenPushes l)
    (h : request.drop offset = l) (hoffset : offset ≤ request.length) :
    ∃ start len, .request start len ∈ (pushWalk request eNBs offset).touches ∧
      request.length < start + len := by
  induction hopen generalizing offset eNBs with
  | @short l hlen hhead =>
      have hlength := congrArg List.length h
      simp only [List.length_drop] at hlength
      by_cases hnil : l = []
      · subst hnil
        simp only [List.length_nil] at hlength
        rw [pushWalk_nil h]
        exact ⟨offset, 1, by simp, by omega⟩
      obtain ⟨tag, value, rfl, htag⟩ := head_of_short hnil hhead
      have hend : request.drop (offset + 17) = [] := by
        apply List.drop_eq_nil_of_le
        omega
      rw [pushWalk_cons h htag, pushWalk_nil hend]
      exact ⟨offset + 17, 1, by simp, by omega⟩
  | @slot p l _ ih =>
      have hlength := congrArg List.length h
      simp only [List.length_drop, List.length_append, Slot.bytes_length] at hlength
      have hslot : request.drop offset = (p.bytes ++ l) ++ [] := by
        rw [List.append_nil]
        exact h
      obtain ⟨hcons, hnext⟩ := drop_slot hslot
      rw [List.append_nil] at hnext
      obtain ⟨start, len, hmem, hlt⟩ :=
        @ih (pushedEnbs eNBs p.tag (p.payload ++ (l ++ []))) _ hnext (by omega)
      rw [pushWalk_cons hcons p.tag_ne_zero]
      exact ⟨start, len, List.mem_cons_of_mem _ (List.mem_append_right _ hmem), hlt⟩

def userCode : UInt8 := ItemType.mmeUeS1apId.code

theorem pushWalk_userCode {value : List UInt8} (h : request.drop offset = userCode :: value) :
    .user ∈ (pushWalk request eNBs offset).touches := by
  rw [pushWalk_cons h (by decide)]
  have huser : Touch.user ∈ pushItemTouches userCode offset :=
    user_mem_pushItemTouches.mpr (by decide)
  simp [huser]

theorem OpenPushes.uses_user {l : List UInt8} (hopen : OpenPushes l)
    (h : request.drop offset = l ++ List.replicate 17 userCode) :
    .user ∈ (pushWalk request eNBs offset).touches := by
  induction hopen generalizing offset eNBs with
  | @short l hlen hhead =>
      by_cases hnil : l = []
      · subst hnil
        exact pushWalk_userCode h
      obtain ⟨tag, value, rfl, htag⟩ := head_of_short hnil hhead
      simp only [List.length_cons] at hlen
      have hnext : request.drop (offset + 17) =
          userCode :: List.replicate value.length userCode := by
        rw [← List.drop_drop, h, List.drop_append, List.drop_of_length_le (by simp; omega),
          List.drop_replicate, List.length_cons, List.nil_append,
          show 17 - (17 - (value.length + 1)) = value.length + 1 by omega, List.replicate_succ]
      rw [pushWalk_cons h htag]
      have huser : .user ∈ (pushWalk request
          (pushedEnbs eNBs tag (value ++ List.replicate 17 userCode)) (offset + 17)).touches :=
        pushWalk_userCode hnext
      exact List.mem_cons_of_mem _ (List.mem_append_right _ huser)
  | slot p _ ih =>
      obtain ⟨hcons, hnext⟩ := drop_slot h
      rw [pushWalk_cons hcons p.tag_ne_zero]
      exact List.mem_cons_of_mem _ (List.mem_append_right _ (ih hnext))

end PushWalk

/-- The tags of the PULL items, up to `EOM` or the end. -/
def pullTags : List UInt8 → List UInt8
  | [] => []
  | tag :: args =>
      if tag = ItemType.eom.code then [] else tag :: pullTags (args.drop (argLen tag))
termination_by l => l.length
decreasing_by simp only [List.length_drop, List.length_cons]; omega

def copiesUser (tag : UInt8) : Bool := ((ItemType.ofCode tag).bind copyLen).isSome

section PullWalk

variable {request : List UInt8} {requestLen : Nat} {eNBs : HashMap hashEnbInfo}
  {offset resOffset : Nat}

theorem copyLen_le {item : ItemType} {n : Nat} (h : copyLen item = some n) : n ≤ 16 := by
  cases item <;> simp only [copyLen, Option.some.injEq, reduceCtorEq] at h <;> subst h <;> decide

theorem pullItemTouches_mem {tag : UInt8} {args : List UInt8} {t : Touch}
    (h : t ∈ pullItemTouches eNBs tag args offset resOffset) :
    t = .user ∨ (t = .request (offset + 1) 4 ∧ argLen tag = 4) ∨
      ∃ start len, t = .response start len ∧ start + len ≤ resOffset + 17 := by
  unfold pullItemTouches at h
  split at h
  · next ho =>
    have harg : argLen tag = 4 := by
      rw [argLen, if_pos (ItemType.ofCode_eq_some_iff.mp ho)]
    simp only [List.mem_cons, List.not_mem_nil, or_false] at h
    rcases h with h | h | h
    · exact Or.inr (Or.inr ⟨_, _, h, by omega⟩)
    · exact Or.inr (Or.inl ⟨h, harg⟩)
    · refine Or.inr (Or.inr ⟨_, _, h, ?_⟩)
      split <;> omega
  · split at h
    · next n hn =>
      have hle := copyLen_le hn
      simp only [List.mem_cons, List.not_mem_nil, or_false] at h
      rcases h with h | h | h
      · exact Or.inr (Or.inr ⟨_, _, h, by omega⟩)
      · exact Or.inl h
      · exact Or.inr (Or.inr ⟨_, _, h, by omega⟩)
    · simp at h
  · simp at h

theorem user_mem_pullItemTouches {tag : UInt8} {args : List UInt8} :
    .user ∈ pullItemTouches eNBs tag args offset resOffset ↔ copiesUser tag := by
  rcases ho : ItemType.ofCode tag with _ | item
  · simp [pullItemTouches, copiesUser, ho]
  · cases item <;> simp [pullItemTouches, copiesUser, ho, copyLen]

private theorem received_cons {tag : UInt8} {args : List UInt8}
    (h : (request.take requestLen).drop offset = tag :: args) :
    offset < requestLen ∧ request.drop offset = tag :: (args ++ request.drop requestLen) ∧
      (request.take requestLen).drop (offset + 1) = args := by
  have hlen := congrArg List.length h
  simp only [List.length_drop, List.length_take, List.length_cons] at hlen
  refine ⟨by omega, ?_, ?_⟩
  · have hsplit : request.take requestLen ++ request.drop requestLen = request :=
      List.take_append_drop _ _
    rw [← List.cons_append, ← h]
    conv_lhs => rw [← hsplit]
    exact List.drop_append_of_le_length (by simp; omega)
  · rw [← List.drop_drop, h]
    rfl

theorem pullWalk_eom {args : List UInt8}
    (h : (request.take requestLen).drop offset = ItemType.eom.code :: args) :
    pullWalk request requestLen eNBs offset resOffset =
      ⟨[.request offset 1], offset, resOffset⟩ := by
  obtain ⟨hlt, hdrop, _⟩ := received_cons h
  rw [pullWalk, if_pos hlt, hdrop]
  exact if_pos rfl

variable (eNBs resOffset) in
theorem pullWalk_item {tag : UInt8} {args : List UInt8} (htag : tag ≠ ItemType.eom.code)
    (h : (request.take requestLen).drop offset = tag :: args) :
    pullWalk request requestLen eNBs offset resOffset =
        { pullWalk request requestLen eNBs (offset + argLen tag + 1) (resOffset + 17) with
          touches := .request offset 1 ::
            (pullItemTouches eNBs tag (args ++ request.drop requestLen) offset resOffset ++
              (pullWalk request requestLen eNBs (offset + argLen tag + 1)
                (resOffset + 17)).touches) } ∧
      (request.take requestLen).drop (offset + argLen tag + 1) = args.drop (argLen tag) := by
  obtain ⟨hlt, hdrop, hnext⟩ := received_cons h
  constructor
  · rw [pullWalk, if_pos hlt, hdrop]
    exact if_neg htag
  · rw [show offset + argLen tag + 1 = offset + 1 + argLen tag by omega, ← List.drop_drop, hnext]

theorem pullWalk_end (hlen : requestLen ≤ request.length)
    (h : (request.take requestLen).drop offset = []) :
    pullWalk request requestLen eNBs offset resOffset = ⟨[], offset, resOffset⟩ := by
  have hend := List.drop_eq_nil_iff.mp h
  rw [List.length_take] at hend
  rw [pullWalk, if_neg (by omega)]

variable (eNBs resOffset) in
theorem pullWalk_tags (hlen : requestLen ≤ request.length) {rest : List UInt8}
    (h : (request.take requestLen).drop offset = rest) :
    (pullWalk request requestLen eNBs offset resOffset).resOffset =
        resOffset + 17 * (pullTags rest).length ∧
      (.user ∈ (pullWalk request requestLen eNBs offset resOffset).touches ↔
        ∃ tag ∈ pullTags rest, copiesUser tag) ∧
      ∀ start len, .response start len ∈
        (pullWalk request requestLen eNBs offset resOffset).touches →
          start + len ≤ resOffset + 17 * (pullTags rest).length := by
  fun_induction pullTags rest generalizing offset resOffset with
  | case1 =>
      rw [pullWalk_end hlen h]
      simp
  | case2 args =>
      rw [pullWalk_eom h]
      simp
  | case3 tag args htag ih =>
      obtain ⟨hwalk, hnext⟩ := pullWalk_item eNBs resOffset htag h
      obtain ⟨hres, huser, hresponse⟩ := @ih _ (resOffset + 17) hnext
      rw [hwalk]
      refine ⟨?_, ?_, fun start len hmem => ?_⟩
      · simp only [hres, List.length_cons]
        omega
      · have hsplit : (∃ t ∈ tag :: pullTags (args.drop (argLen tag)), copiesUser t) ↔
            copiesUser tag ∨ ∃ t ∈ pullTags (args.drop (argLen tag)), copiesUser t := by
          simp
        rw [hsplit]
        simp only [List.mem_cons, List.mem_append, reduceCtorEq, false_or, huser,
          user_mem_pullItemTouches]
      · simp only [List.mem_cons, List.mem_append, reduceCtorEq, false_or] at hmem
        simp only [List.length_cons]
        rcases hmem with hmem | hmem
        · rcases pullItemTouches_mem hmem with ht | ⟨ht, _⟩ | ⟨s, l, ht, hle⟩
          · cases ht
          · cases ht
          · cases ht
            omega
        · have := hresponse start len hmem
          omega

variable (eNBs resOffset) in
theorem pullWalk_items {pulls : List Pull} {tail : List UInt8}
    (heom : ∀ p ∈ pulls, p.tag ≠ ItemType.eom.code)
    (h : (request.take requestLen).drop offset = pullBytes pulls ++ ItemType.eom.code :: tail) :
    (pullWalk request requestLen eNBs offset resOffset).stop =
        offset + (pullBytes pulls).length ∧
      ∀ start len, .request start len ∈
        (pullWalk request requestLen eNBs offset resOffset).touches →
          start + len ≤ offset + (pullBytes pulls).length + 1 := by
  induction pulls generalizing offset resOffset with
  | nil =>
      rw [pullWalk_eom h]
      simp [pullBytes]
  | cons p ps ih =>
      have hcons : (request.take requestLen).drop offset =
          p.tag :: (p.args ++ (pullBytes ps ++ ItemType.eom.code :: tail)) := by
        rw [h]
        simp [pullBytes, Pull.bytes]
      obtain ⟨hwalk, hnext⟩ :=
        pullWalk_item eNBs resOffset (heom p (by simp)) hcons
      rw [List.drop_append_of_le_length (Nat.le_of_eq p.args_length.symm),
        List.drop_of_length_le (Nat.le_of_eq p.args_length), List.nil_append] at hnext
      obtain ⟨hstop, hrequest⟩ :=
        @ih _ (resOffset + 17) (fun q hq => heom q (by simp [hq])) hnext
      have hlength : (pullBytes (p :: ps)).length = argLen p.tag + 1 + (pullBytes ps).length := by
        simp [pullBytes]
      rw [hwalk]
      refine ⟨?_, fun start len hmem => ?_⟩
      · simp only [hstop]
        omega
      · simp only [List.mem_cons, List.mem_append, Touch.request.injEq] at hmem
        rcases hmem with ⟨rfl, rfl⟩ | hmem | hmem
        · omega
        · rcases pullItemTouches_mem hmem with ht | ⟨ht, harg⟩ | ⟨s, l, ht, hle⟩
          · cases ht
          · cases ht
            omega
          · cases ht
        · have := hrequest start len hmem
          omega

theorem exists_items_of_stop (hlen : requestLen ≤ request.length) {rest : List UInt8}
    (h : (request.take requestLen).drop offset = rest)
    (hstop : (pullWalk request requestLen eNBs offset resOffset).stop < requestLen) :
    ∃ pulls tail, rest = pullBytes pulls ++ ItemType.eom.code :: tail ∧
      ∀ p ∈ pulls, p.tag ≠ ItemType.eom.code := by
  fun_induction pullTags rest generalizing offset resOffset with
  | case1 =>
      rw [pullWalk_end hlen h] at hstop
      have hend := List.drop_eq_nil_iff.mp h
      rw [List.length_take] at hend
      simp only at hstop
      omega
  | case2 args => exact ⟨[], args, by simp [pullBytes], by simp⟩
  | case3 tag args htag ih =>
      obtain ⟨hwalk, hnext⟩ := pullWalk_item eNBs resOffset htag h
      rw [hwalk] at hstop
      obtain ⟨pulls, tail, hdrop, heom⟩ := ih hnext hstop
      have hargs : argLen tag ≤ args.length := by
        by_contra hshort
        rw [List.drop_of_length_le (by omega)] at hdrop
        simp at hdrop
      let p : Pull := ⟨tag, args.take (argLen tag), by rw [List.length_take]; omega⟩
      refine ⟨p :: pulls, tail, ?_, ?_⟩
      · have hsplit : args.take (argLen tag) ++ args.drop (argLen tag) = args :=
          List.take_append_drop _ _
        rw [← hsplit, hdrop]
        simp [pullBytes, Pull.bytes, p]
      · intro q hq
        rcases List.mem_cons.mp hq with rfl | hq
        · exact htag
        · exact heom q hq

end PullWalk

private theorem digitsRead_append {bs : List UInt8} (more : List UInt8)
    (h : digitsRead bs ≤ bs.length) : digitsRead (bs ++ more) = digitsRead bs := by
  induction bs with
  | nil => simp [digitsRead] at h
  | cons b bs ih =>
      by_cases hb : isDigit b
      · simp only [digitsRead, hb, if_true, List.length_cons, Nat.add_le_add_iff_right] at h
        simp [digitsRead, hb, ih h]
      · simp [digitsRead, hb]

theorem atoiRead_append {bs : List UInt8} (more : List UInt8) (h : atoiRead bs ≤ bs.length) :
    atoiRead (bs ++ more) = atoiRead bs := by
  induction bs with
  | nil => simp [atoiRead] at h
  | cons b bs ih =>
      by_cases hspace : isSpace b
      · simp only [atoiRead, hspace, if_true, List.length_cons, Nat.add_le_add_iff_right] at h
        simp [atoiRead, hspace, ih h]
      by_cases hsign : b = 0x2D ∨ b = 0x2B
      · simp only [atoiRead, hspace, hsign, if_true, List.length_cons, Bool.false_eq_true, if_false,
          Nat.add_le_add_iff_right] at h
        simp [atoiRead, hspace, hsign, digitsRead_append more h]
      · simp only [atoiRead, hspace, hsign, Bool.false_eq_true, if_false] at h
        simp only [List.cons_append, atoiRead, hspace, hsign, Bool.false_eq_true, if_false]
        exact digitsRead_append more h

theorem identityTouches_append {received : List UInt8} {i : Identity}
    (h : identify received = .ok i) (behind : List UInt8) :
    identityTouches (received ++ behind) = identityTouches received ∧
      ∀ start len, .request start len ∈ identityTouches received →
        start + len ≤ received.length := by
  have hagree := identityTouches_agree received false
  rw [h] at hagree
  have hread : ∀ start len, .request start len ∈ identityTouches received →
      start + len ≤ received.length := by
    intro start len hmem
    have hnone := hagree.1 _ hmem
    by_contra hlt
    simp only [Touch.fault?, if_neg hlt, reduceCtorEq] at hnone
  refine ⟨?_, hread⟩
  cases received with
  | nil => simp [identify] at h
  | cons tag value =>
      have hstring : ∀ k, .request (k + 1) (atoiRead (value.drop k)) ∈ identityTouches (tag :: value) →
          atoiRead ((value ++ behind).drop k) = atoiRead (value.drop k) := by
        intro k hmem
        have hle := hread _ _ hmem
        have hpos := atoiRead_pos (value.drop k)
        simp only [List.length_cons] at hle
        rw [List.drop_append_of_le_length (by omega)]
        exact atoiRead_append behind (by rw [List.length_drop]; omega)
      rcases ho : ItemType.ofCode tag with _ | t
      · simp [identityTouches, ho]
      cases t
      case imsi =>
        have hsame := hstring 6 (by simp [identityTouches, ho])
        simp only [identityTouches, List.cons_append, List.head?_cons, Option.bind_some, ho,
          List.drop_succ_cons, hsame]
      case msin =>
        have hsame := hstring 1 (by simp [identityTouches, ho])
        simp only [identityTouches, List.cons_append, List.head?_cons, Option.bind_some, ho,
          List.drop_succ_cons, hsame]
      all_goals simp [identityTouches, ho]

theorem user_not_mem_identityTouches (request : List UInt8) : .user ∉ identityTouches request := by
  unfold identityTouches
  split <;> simp

theorem response_not_mem_identityTouches (request : List UInt8) (start len : Nat) :
    .response start len ∉ identityTouches request := by
  unfold identityTouches
  split <;> simp

/-- The bytes of an identity slot and PUSH slots, the zero byte, and the PULL part. -/
def Divides (received : List UInt8) (identity : Slot) (pushes : List Push) (rest : List UInt8) :
    Prop :=
  received = identity.bytes ++ (pushBytes pushes ++ 0 :: rest)

section Divides

variable {received : List UInt8} {identity : Slot} {pushes : List Push} {rest : List UInt8}

theorem Divides.exists_identify (h : Divides received identity pushes rest) :
    ∃ i, ∀ behind, identify (received ++ behind) = .ok i := by
  let r : Request := ⟨identity, pushes, []⟩
  refine ⟨r.target, fun behind => ?_⟩
  have hbody : received ++ behind = r.body ++ (rest ++ behind) := by
    rw [h]
    simp [Request.body, r, pullBytes]
  rw [hbody]
  exact r.identify_body _

theorem Divides.drop_append (h : Divides received identity pushes rest) (behind : List UInt8) :
    (received ++ behind).drop 17 = pushBytes pushes ++ 0 :: (rest ++ behind) := by
  rw [h, List.append_assoc, List.drop_append_of_le_length (by simp), List.drop_of_length_le (by simp)]
  simp

theorem Divides.length_eq (h : Divides received identity pushes rest) :
    received.length = 18 + 17 * pushes.length + rest.length := by
  rw [h]
  simp
  omega

theorem Divides.pulls (h : Divides received identity pushes rest) (behind : List UInt8) :
    ((received ++ behind).take received.length).drop (17 + 17 * pushes.length + 1) = rest := by
  have hfront : received = (identity.bytes ++ (pushBytes pushes ++ [0])) ++ rest := by
    rw [h]
    simp
  have hlen : (identity.bytes ++ (pushBytes pushes ++ [0])).length = 17 + 17 * pushes.length + 1 := by
    simp
    omega
  rw [List.take_left, hfront, ← hlen, List.drop_left]

end Divides

/-- A request is divided, or its PUSH part is open. -/
theorem divides_or_open (received : List UInt8) :
    (∃ identity pushes rest, Divides received identity pushes rest) ∨
      received.length < 17 ∨ OpenPushes (received.drop 17) := by
  by_cases hshort : received.length < 17
  · exact Or.inr (Or.inl hshort)
  obtain ⟨tag, value, rfl⟩ : ∃ tag value, received = tag :: value := by
    cases received with
    | nil => simp at hshort
    | cons tag value => exact ⟨tag, value, rfl⟩
  simp only [List.length_cons] at hshort
  rcases divided_or_open ((tag :: value).drop 17) with ⟨pushes, rest, hrest⟩ | hopen
  · let identity : Slot := ⟨tag, value.take 16, by simp; omega⟩
    refine Or.inl ⟨identity, pushes, rest, ?_⟩
    rw [Divides, ← hrest]
    simp [identity, Slot.bytes]
  · exact Or.inr (Or.inr hopen)

def Db.Serves (db : Db) : Identity → Prop
  | .newEnb => True
  | .user key => (db.user? key).isSome
  | .invalid => False

section Footprint

variable {db : Db} {request : List UInt8} {requestLen : Nat} {i : Identity}

theorem footprint_of_serves (h : identify request = .ok i) (hserves : db.Serves i) :
    footprint db request requestLen =
      { serveFootprint db.eNBs request requestLen with
        touches := identityTouches request ++
          (serveFootprint db.eNBs request requestLen).touches } := by
  unfold footprint
  rw [h]
  cases i with
  | invalid => cases hserves
  | newEnb => rfl
  | user key =>
      have hsome : (db.user? key).isSome := hserves
      simp only [hsome, if_true]

theorem footprint_of_not_serves (h : identify request = .ok i) (hserves : ¬ db.Serves i) :
    footprint db request requestLen =
      { refuseFootprint request requestLen with
        touches := identityTouches request ++ (refuseFootprint request requestLen).touches } := by
  unfold footprint
  rw [h]
  cases i with
  | invalid => rfl
  | newEnb => exact absurd trivial hserves
  | user key =>
      have hnone : ¬ (db.user? key).isSome := hserves
      simp only [hnone, Bool.false_eq_true, if_false]

theorem footprint_of_error {e : Fault} (h : identify request = .error e) :
    footprint db request requestLen = ⟨identityTouches request ++ [], 0, 0⟩ := by
  unfold footprint
  rw [h]

end Footprint

theorem Divides.serveFootprint {received : List UInt8} {identity : Slot} {pushes : List Push}
    {rest : List UInt8} (h : Divides received identity pushes rest) (behind : List UInt8)
    (eNBs : HashMap hashEnbInfo) :
    ∃ eNBs', serveFootprint eNBs (received ++ behind) received.length =
      { touches := (pushWalk (received ++ behind) eNBs 17).touches ++
          (pullWalk (received ++ behind) received.length eNBs'
            (17 + 17 * pushes.length + 1) 0).touches
        consumed := (pullWalk (received ++ behind) received.length eNBs'
          (17 + 17 * pushes.length + 1) 0).stop + 1
        responseLen := (pullWalk (received ++ behind) received.length eNBs'
          (17 + 17 * pushes.length + 1) 0).resOffset } := by
  have hstop := (pushWalk_slots eNBs (h.drop_append behind)).1
  refine ⟨(pushWalk (received ++ behind) eNBs 17).eNBs, ?_⟩
  simp only [CorekubeDb.serveFootprint, hstop]

/-- Without a divided request the PULL loop has nothing to read. -/
theorem serveFootprint_of_open {received : List UInt8}
    (h : received.length < 17 ∨ OpenPushes (received.drop 17)) (behind : List UInt8)
    (eNBs : HashMap hashEnbInfo) :
    (serveFootprint eNBs (received ++ behind) received.length).touches =
        (pushWalk (received ++ behind) eNBs 17).touches ∧
      (serveFootprint eNBs (received ++ behind) received.length).responseLen = 0 := by
  have hstop : received.length ≤ (pushWalk (received ++ behind) eNBs 17).stop := by
    rcases h with hshort | hopen
    · exact Nat.le_trans (Nat.le_of_lt hshort) le_pushWalk_stop
    · by_cases hlen : received.length < 17
      · exact Nat.le_trans (Nat.le_of_lt hlen) le_pushWalk_stop
      have hdrop : (received ++ behind).drop 17 = received.drop 17 ++ behind :=
        List.drop_append_of_le_length (by omega)
      have hle : 17 + (received.drop 17).length ≤ (pushWalk (received ++ behind) eNBs 17).stop :=
        hopen.stop_le hdrop
      rw [List.length_drop] at hle
      omega
  have hpull : ∀ eNBs', pullWalk (received ++ behind) received.length eNBs'
      ((pushWalk (received ++ behind) eNBs 17).stop + 1) 0 =
        ⟨[], (pushWalk (received ++ behind) eNBs 17).stop + 1, 0⟩ := by
    intro eNBs'
    rw [pullWalk, if_neg (by omega)]
  simp only [serveFootprint, hpull, List.append_nil, and_self]

end PublicCloudCore.CorekubeDb
