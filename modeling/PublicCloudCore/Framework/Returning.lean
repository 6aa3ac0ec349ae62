import PublicCloudCore.Framework.Program

/-!
# Where a program returns

A program with assertions returns in some states and aborts in others. `ReturnsIff` says both at
once: the run returns exactly where a condition holds, and what it ends with satisfies a
postcondition. The rules follow the program, so the condition of a program is put together from
those of its parts.
-/

namespace PublicCloudCore.Framework.Prog

variable {Q : Type} {A : Q → Type} {O α β S : Type} {serve : S → (q : Q) → A q × S}

theorem exec_bind_result (p : Prog Q A O α) (f : α → Prog Q A O β) (s : S) :
    ((p >>= f).exec serve s).result =
      (p.exec serve s).result.bind fun a => ((f a).exec serve (p.exec serve s).state).result := by
  rw [bind_eq]
  induction p generalizing s with
  | done a => rfl
  | abort => rfl
  | ask q k ih => exact ih _ _
  | emit o p ih => exact ih s

theorem exec_bind_state (p : Prog Q A O α) (f : α → Prog Q A O β) {s : S} {a : α}
    (h : (p.exec serve s).result = some a) :
    ((p >>= f).exec serve s).state = ((f a).exec serve (p.exec serve s).state).state := by
  rw [bind_eq]
  induction p generalizing s with
  | done b =>
      cases h
      rfl
  | abort => cases h
  | ask q k ih => exact ih _ h
  | emit o p ih => exact ih h

/-- The run returns exactly where `C` holds, and what it returns and the state behind it satisfy
`post`. -/
structure ReturnsIff (serve : S → (q : Q) → A q × S) (p : Prog Q A O α) (s : S) (C : Prop)
    (post : α → S → Prop) : Prop where
  returns : (p.exec serve s).result.isSome ↔ C
  leaves : ∀ a, (p.exec serve s).result = some a → post a (p.exec serve s).state

namespace ReturnsIff

variable {s : S} {p : Prog Q A O α} {f : α → Prog Q A O β} {C D : Prop} {post post' : α → S → Prop}

theorem mono (h : ReturnsIff serve p s C post) (hpost : ∀ a s', post a s' → post' a s') :
    ReturnsIff serve p s C post' :=
  ⟨h.returns, fun a ha => hpost _ _ (h.leaves a ha)⟩

theorem congr (h : ReturnsIff serve p s C post) (hC : C ↔ D) : ReturnsIff serve p s D post :=
  ⟨h.returns.trans hC, h.leaves⟩

/-- A condition that is known in each of several cases, where it does not hold in any other. -/
theorem of_cases {ι : Type} {P C : ι → Prop}
    (hcase : ∀ i, P i → ReturnsIff serve p s (C i) post)
    (hnone : (∀ i, ¬ P i) → ReturnsIff serve p s False post) :
    ReturnsIff serve p s (∃ i, P i ∧ C i) post := by
  by_cases h : ∃ i, P i
  · obtain ⟨i, hi⟩ := h
    refine ⟨⟨fun hreturns => ⟨i, hi, (hcase i hi).returns.mp hreturns⟩, ?_⟩, (hcase i hi).leaves⟩
    rintro ⟨j, hj, hC⟩
    exact (hcase j hj).returns.mpr hC
  · have hno : ∀ i, ¬ P i := fun i hi => h ⟨i, hi⟩
    exact (hnone hno).congr ⟨False.elim, fun ⟨i, hi, _⟩ => hno i hi⟩

theorem and_condition (h : ReturnsIff serve p s C post) :
    ReturnsIff serve p s C fun a s' => post a s' ∧ C :=
  ⟨h.returns, fun a ha => ⟨h.leaves a ha, h.returns.mp (Option.isSome_of_eq_some ha)⟩⟩

theorem and_ensures {allowed : Q → Prop} {seen : O → Prop} {value : α → Prop}
    (h : ReturnsIff serve p s C post) (hp : p.Ensures allowed seen value) :
    ReturnsIff serve p s C fun a s' => post a s' ∧ value a :=
  ⟨h.returns, fun a ha => ⟨h.leaves a ha, (hp.exec serve s).2.2 a ha⟩⟩

theorem and_invariant {allowed : Q → Prop} {seen : O → Prop} {value : α → Prop} {I : S → Prop}
    (h : ReturnsIff serve p s C post) (hp : p.Ensures allowed seen value)
    (hstep : ∀ s q, allowed q → I s → I (serve s q).2) (hs : I s) :
    ReturnsIff serve p s C fun a s' => post a s' ∧ I s' :=
  ⟨h.returns, fun a ha => ⟨h.leaves a ha, (trace_invariant hstep (hp.exec serve s).1 hs).2⟩⟩

theorem pure {a : α} (h : post a s) :
    ReturnsIff serve (pure a : Prog Q A O α) s True post :=
  ⟨by simp [Pure.pure, exec], fun b hb => by cases hb; exact h⟩

theorem abort : ReturnsIff serve (abort : Prog Q A O α) s False post :=
  ⟨by simp [exec], fun b hb => by cases hb⟩

theorem bind {post : β → S → Prop} {mid : α → S → Prop} (hp : ReturnsIff serve p s C mid)
    (hf : ∀ a s', mid a s' → ReturnsIff serve (f a) s' D post) :
    ReturnsIff serve (p >>= f) s (C ∧ D) post := by
  have hpart : ∀ a, (p.exec serve s).result = some a →
      ReturnsIff serve (f a) (p.exec serve s).state D post :=
    fun a ha => hf a _ (hp.leaves a ha)
  constructor
  · rw [exec_bind_result, ← hp.returns]
    cases ha : (p.exec serve s).result with
    | none => simp
    | some a => simp [(hpart a ha).returns]
  · intro b hb
    rw [exec_bind_result] at hb
    obtain ⟨a, ha, hb⟩ := Option.bind_eq_some_iff.mp hb
    rw [exec_bind_state p f ha]
    exact (hpart a ha).leaves b hb

theorem bind_of_returns {post : β → S → Prop} {mid : α → S → Prop}
    (hp : ReturnsIff serve p s True mid)
    (hf : ∀ a s', mid a s' → ReturnsIff serve (f a) s' D post) :
    ReturnsIff serve (p >>= f) s D post :=
  (hp.bind hf).congr (by simp)

theorem map {g : α → β} {post : β → S → Prop}
    (hp : ReturnsIff serve p s C fun a s' => post (g a) s') :
    ReturnsIff serve (g <$> p) s C post := by
  show ReturnsIff serve (p >>= fun a => Pure.pure (g a)) s C post
  exact (hp.bind fun a s' ha => ReturnsIff.pure ha).congr (and_iff_left trivial)

theorem assert_bind {c : Prop} [Decidable c] {f : Unit → Prog Q A O β} {post : β → S → Prop}
    (hf : c → ReturnsIff serve (f ()) s C post) :
    ReturnsIff serve (assert c >>= f) s (c ∧ C) post := by
  by_cases hc : c
  · rw [assert, if_pos hc]
    exact (hf hc).congr (by simp [hc])
  · rw [assert, if_neg hc]
    exact ReturnsIff.abort.congr (by simp [hc])

theorem require_bind {x : Option α} {C : α → Prop} {post : β → S → Prop}
    (hf : ∀ a, x = some a → ReturnsIff serve (f a) s (C a) post) :
    ReturnsIff serve (require x >>= f) s (∃ a, x = some a ∧ C a) post := by
  cases x with
  | none => exact ReturnsIff.abort.congr (by simp)
  | some a => exact (hf a rfl).congr (by simp)

theorem call_bind {q : Q} {f : A q → Prog Q A O β} {post : β → S → Prop}
    (hf : ReturnsIff serve (f (serve s q).1) (serve s q).2 C post) :
    ReturnsIff serve (call q >>= f) s C post :=
  ⟨hf.returns, hf.leaves⟩

theorem observe_bind {o : O} {f : Unit → Prog Q A O β} {post : β → S → Prop}
    (hf : ReturnsIff serve (f ()) s C post) : ReturnsIff serve (observe o >>= f) s C post :=
  ⟨hf.returns, hf.leaves⟩

theorem mapObservation {O' : Type} (g : O → O') (h : ReturnsIff serve p s C post) :
    ReturnsIff serve (p.mapObservation g) s C post := by
  have hexec : ∀ s, ((p.mapObservation g).exec serve s).result = (p.exec serve s).result ∧
      ((p.mapObservation g).exec serve s).state = (p.exec serve s).state := by
    clear h
    induction p with
    | done a => exact fun _ => ⟨rfl, rfl⟩
    | abort => exact fun _ => ⟨rfl, rfl⟩
    | ask q k ih => exact fun s => ih _ _
    | emit o p ih => exact fun s => ih s
  constructor
  · rw [(hexec s).1]
    exact h.returns
  · rw [(hexec s).1, (hexec s).2]
    exact h.leaves

/-- A loop whose turns all keep an invariant that tells where they return. -/
theorem forM {f : α → Prog Q A O PUnit} {xs : List α} {C : α → Prop} {I : S → Prop}
    (hs : I s) (hf : ∀ x s', I s' → ReturnsIff serve (f x) s' (C x) fun _ s'' => I s'') :
    ReturnsIff serve (xs.forM f) s (∀ x ∈ xs, C x) fun _ s' => I s' := by
  induction xs generalizing s with
  | nil => exact (ReturnsIff.pure hs).congr (by simp)
  | cons x xs ih =>
      show ReturnsIff serve (f x >>= fun _ => xs.forM f) s _ _
      exact ((hf x s hs).bind fun _ s' hs' => ih hs').congr (by simp)

/-- A loop whose turns all return. -/
theorem foldlM {f : β → α → Prog Q A O β} {I : β → List α → S → Prop} {xs : List α} {b : β}
    (hb : I b xs s)
    (hf : ∀ b x xs s', I b (x :: xs) s' →
      ReturnsIff serve (f b x) s' True fun b' s'' => I b' xs s'') :
    ReturnsIff serve (xs.foldlM f b) s True fun b' s' => I b' [] s' := by
  induction xs generalizing b s with
  | nil => exact ReturnsIff.pure hb
  | cons x xs ih =>
      rw [List.foldlM_cons]
      exact (hf b x xs s hb).bind_of_returns fun b' s' hb' => ih hb'

end ReturnsIff

end PublicCloudCore.Framework.Prog
