import PublicCloudCore.Framework.Transition

/-!
# Two parties that count a cell up

Each party reads the cell once and then stores the next value back. Between the two steps it
holds what it has read. The parties get different values exactly if neither reads while the other
one holds a value.
-/

namespace PublicCloudCore.Framework

inductive Side
  | left
  | right
  deriving DecidableEq, Repr

namespace Side

def other : Side → Side
  | left => right
  | right => left

@[simp] theorem other_other (i : Side) : i.other.other = i := by cases i <;> rfl

@[simp] theorem other_ne (i : Side) : i.other ≠ i := by cases i <;> decide

@[simp] theorem ne_other (i : Side) : i ≠ i.other := by cases i <;> decide

theorem eq_or_eq_other (i j : Side) : j = i ∨ j = i.other := by
  cases i <;> cases j <;> decide

end Side

inductive Stage (α : Type)
  | idle
  | holding (a : α)
  | done (a : α)

structure Cell (α : Type) where
  value : α
  stage : Side → Stage α

namespace Cell

variable {α : Type}

def start (v : α) : Cell α where
  value := v
  stage := fun _ => .idle

def move (x : Cell α) (i : Side) (g : Stage α) : Side → Stage α :=
  fun j => if j = i then g else x.stage j

@[simp] theorem move_self (x : Cell α) (i : Side) (g : Stage α) : x.move i g i = g := if_pos rfl

@[simp] theorem move_other (x : Cell α) (i : Side) (g : Stage α) :
    x.move i g i.other = x.stage i.other := if_neg i.other_ne

@[simp] theorem move_of_other (x : Cell α) (i : Side) (g : Stage α) :
    x.move i.other g i = x.stage i := if_neg i.ne_other

def step (next : α → α) (x : Cell α) (i : Side) : Option (Cell α) :=
  match x.stage i with
  | .idle => some { x with stage := x.move i (.holding x.value) }
  | .holding a => some { value := next a, stage := x.move i (.done a) }
  | .done _ => none

theorem step_idle {next : α → α} {x : Cell α} {i : Side} (h : x.stage i = .idle) :
    x.step next i = some ⟨x.value, x.move i (.holding x.value)⟩ := by
  simp only [step, h]

theorem step_holding {next : α → α} {x : Cell α} {i : Side} {a : α} (h : x.stage i = .holding a) :
    x.step next i = some ⟨next a, x.move i (.done a)⟩ := by
  simp only [step, h]

theorem step_done {next : α → α} {x : Cell α} {i : Side} {a : α} (h : x.stage i = .done a) :
    x.step next i = none := by
  simp only [step, h]

/-- A party reads the cell only while the other one holds nothing. -/
def InTurn (x : Cell α) (i : Side) : Prop :=
  x.stage i = .idle → ∀ a, x.stage i.other ≠ .holding a

/-- The cells that steps in turn lead to: `first` is the party that reads first. -/
inductive Serial (next : α → α) (v : α) (x : Cell α) : Prop
  | unread (first : Side) (h₁ : x.stage first = .idle) (h₂ : x.stage first.other = .idle)
      (hv : x.value = v)
  | read (first : Side) (h₁ : x.stage first = .holding v) (h₂ : x.stage first.other = .idle)
      (hv : x.value = v)
  | counted (first : Side) (h₁ : x.stage first = .done v) (h₂ : x.stage first.other = .idle)
      (hv : x.value = next v)
  | readAgain (first : Side) (h₁ : x.stage first = .done v)
      (h₂ : x.stage first.other = .holding (next v)) (hv : x.value = next v)
  | countedAgain (first : Side) (h₁ : x.stage first = .done v)
      (h₂ : x.stage first.other = .done (next v)) (hv : x.value = next (next v))

/-- The cells that both parties have read before either of them stored. -/
inductive Overlapped (next : α → α) (v : α) (x : Cell α) : Prop
  | bothHold (first : Side) (h₁ : x.stage first = .holding v) (h₂ : x.stage first.other = .holding v)
  | oneStored (first : Side) (h₁ : x.stage first = .done v) (h₂ : x.stage first.other = .holding v)
      (hv : x.value = next v)
  | bothStored (first : Side) (h₁ : x.stage first = .done v) (h₂ : x.stage first.other = .done v)
      (hv : x.value = next v)

variable {next : α → α} {v : α} {x y : Cell α} {i : Side}

theorem serial_start (next : α → α) (v : α) : Serial next v (start v) :=
  .unread .left rfl rfl rfl

theorem Serial.step (h : Serial next v x) (hok : InTurn x i) (hstep : x.step next i = some y) :
    Serial next v y := by
  cases h with
  | unread first h₁ h₂ hv =>
      have hidle : x.stage i = .idle ∧ x.stage i.other = .idle := by
        rcases first.eq_or_eq_other i with rfl | rfl
        · exact ⟨h₁, h₂⟩
        · exact ⟨h₂, by rw [Side.other_other]; exact h₁⟩
      rw [step_idle hidle.1] at hstep
      cases hstep
      exact .read i (by simp [hv]) (by simp [hidle.2]) hv
  | read first h₁ h₂ hv =>
      rcases first.eq_or_eq_other i with rfl | rfl
      · rw [step_holding h₁] at hstep
        cases hstep
        exact .counted i (by simp) (by simp [h₂]) rfl
      · have := hok h₂ v
        rw [Side.other_other] at this
        exact absurd h₁ this
  | counted first h₁ h₂ hv =>
      rcases first.eq_or_eq_other i with rfl | rfl
      · rw [step_done h₁] at hstep
        cases hstep
      · rw [step_idle h₂] at hstep
        cases hstep
        exact .readAgain first (by simp [h₁]) (by simp [hv]) hv
  | readAgain first h₁ h₂ hv =>
      rcases first.eq_or_eq_other i with rfl | rfl
      · rw [step_done h₁] at hstep
        cases hstep
      · rw [step_holding h₂] at hstep
        cases hstep
        exact .countedAgain first (by simp [h₁]) (by simp) rfl
  | countedAgain first h₁ h₂ hv =>
      rcases first.eq_or_eq_other i with rfl | rfl
      · rw [step_done h₁] at hstep
        cases hstep
      · rw [step_done h₂] at hstep
        cases hstep

/-- Only a read while the other party holds the value is out of turn. -/
theorem Serial.overlapped (h : Serial next v x) (hout : ¬ InTurn x i)
    (hstep : x.step next i = some y) : Overlapped next v y := by
  unfold InTurn at hout
  push Not at hout
  obtain ⟨hidle, a, hother⟩ := hout
  rw [step_idle hidle] at hstep
  cases hstep
  have hread : ∀ first, x.stage first = .holding v → x.stage first.other = .idle → x.value = v →
      Overlapped next v { x with stage := x.move i (.holding x.value) } := by
    intro first h₁ h₂ hv
    rcases first.eq_or_eq_other i with rfl | rfl
    · rw [h₁] at hidle
      cases hidle
    · exact .bothHold first (by simp [h₁]) (by simp [hv])
  cases h with
  | unread first h₁ h₂ hv =>
      rcases first.eq_or_eq_other i with rfl | rfl
      · rw [h₂] at hother
        cases hother
      · rw [Side.other_other, h₁] at hother
        cases hother
  | read first h₁ h₂ hv => exact hread first h₁ h₂ hv
  | counted first h₁ h₂ hv =>
      rcases first.eq_or_eq_other i with rfl | rfl
      · rw [h₁] at hidle
        cases hidle
      · rw [Side.other_other, h₁] at hother
        cases hother
  | readAgain first h₁ h₂ hv =>
      rcases first.eq_or_eq_other i with rfl | rfl
      · rw [h₁] at hidle
        cases hidle
      · rw [h₂] at hidle
        cases hidle
  | countedAgain first h₁ h₂ hv =>
      rcases first.eq_or_eq_other i with rfl | rfl
      · rw [h₁] at hidle
        cases hidle
      · rw [h₂] at hidle
        cases hidle

theorem Overlapped.step (h : Overlapped next v x) (hstep : x.step next i = some y) :
    Overlapped next v y := by
  cases h with
  | bothHold first h₁ h₂ =>
      have hhold : x.stage i = .holding v ∧ x.stage i.other = .holding v := by
        rcases first.eq_or_eq_other i with rfl | rfl
        · exact ⟨h₁, h₂⟩
        · exact ⟨h₂, by rw [Side.other_other]; exact h₁⟩
      rw [step_holding hhold.1] at hstep
      cases hstep
      exact .oneStored i (by simp) (by simp [hhold.2]) rfl
  | oneStored first h₁ h₂ hv =>
      rcases first.eq_or_eq_other i with rfl | rfl
      · rw [step_done h₁] at hstep
        cases hstep
      · rw [step_holding h₂] at hstep
        cases hstep
        exact .bothStored first (by simp [h₁]) (by simp) rfl
  | bothStored first h₁ h₂ hv =>
      rcases first.eq_or_eq_other i with rfl | rfl
      · rw [step_done h₁] at hstep
        cases hstep
      · rw [step_done h₂] at hstep
        cases hstep

def Finished (x : Cell α) (a b : α) : Prop := x.stage .left = .done a ∧ x.stage .right = .done b

theorem Serial.finished {a b : α} (h : Serial next v x) (hx : x.Finished a b) :
    (a = v ∧ b = next v ∨ a = next v ∧ b = v) ∧ x.value = next (next v) := by
  obtain ⟨ha, hb⟩ := hx
  cases h with
  | countedAgain first h₁ h₂ hv =>
      refine ⟨?_, hv⟩
      cases first with
      | left =>
          have h₂ : x.stage .right = .done (next v) := h₂
          rw [h₁] at ha
          rw [h₂] at hb
          cases ha
          cases hb
          exact Or.inl ⟨rfl, rfl⟩
      | right =>
          have h₂ : x.stage .left = .done (next v) := h₂
          rw [h₂] at ha
          rw [h₁] at hb
          cases ha
          cases hb
          exact Or.inr ⟨rfl, rfl⟩
  | unread first h₁ h₂ hv => cases first <;> simp_all
  | read first h₁ h₂ hv => cases first <;> simp_all
  | counted first h₁ h₂ hv => cases first <;> simp_all [Side.other]
  | readAgain first h₁ h₂ hv => cases first <;> simp_all [Side.other]

theorem Overlapped.finished {a b : α} (h : Overlapped next v x) (hx : x.Finished a b) :
    a = v ∧ b = v ∧ x.value = next v := by
  obtain ⟨ha, hb⟩ := hx
  cases h with
  | bothStored first h₁ h₂ hv =>
      cases first with
      | left =>
          have h₂ : x.stage .right = .done v := h₂
          rw [h₁] at ha
          rw [h₂] at hb
          cases ha
          cases hb
          exact ⟨rfl, rfl, hv⟩
      | right =>
          have h₂ : x.stage .left = .done v := h₂
          rw [h₂] at ha
          rw [h₁] at hb
          cases ha
          cases hb
          exact ⟨rfl, rfl, hv⟩
  | bothHold first h₁ h₂ => cases first <;> simp_all
  | oneStored first h₁ h₂ hv => cases first <;> simp_all [Side.other]

end Cell

end PublicCloudCore.Framework
