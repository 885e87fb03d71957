/-!
# Guarded runs

A system takes actions one after the other; an action that is not enabled in
a state is not taken there.  A run is *guarded* when every action it takes
also meets a condition on the state it is taken in.

`Run.invariant` is the induction: what every guarded step preserves holds in
every state that a guarded run reaches.
-/

namespace DuinoBus.Verified

universe u v w x

variable {σ : Type u} {α : Type v}

/-- Take actions one after the other, as long as they are enabled. -/
def perform (step : σ → α → Option σ) (s : σ) : List α → Option σ
  | [] => some s
  | a :: as =>
      match step s a with
      | some s' => perform step s' as
      | none => none

/-- Actions one after the other, and then others. -/
theorem perform_append {step : σ → α → Option σ} {s s' : σ} {as : List α}
    (h : perform step s as = some s') (bs : List α) :
    perform step s (as ++ bs) = perform step s' bs := by
  induction as generalizing s with
  | nil =>
      cases h
      rfl
  | cons a as ih =>
      simp only [perform, List.cons_append] at h ⊢
      cases htaken : step s a with
      | none =>
          rw [htaken] at h
          cases h
      | some s'' =>
          rw [htaken] at h
          exact ih h

/-- **Work that can always go on can be finished.**  Where an action is
enabled as long as there is work left, and does some of it, repeating it does
all of the work. -/
theorem perform_replicate {step : σ → α → Option σ} {a : α} (I : σ → Prop)
    (work : σ → Nat)
    (hstep : ∀ s, I s → 0 < work s →
      ∃ s', step s a = some s' ∧ I s' ∧ work s' + 1 = work s)
    {s : σ} (hs : I s) :
    ∃ s', perform step s (List.replicate (work s) a) = some s' ∧ I s' ∧
      work s' = 0 := by
  induction hwork : work s generalizing s with
  | zero => exact ⟨s, rfl, hs, hwork⟩
  | succ n ih =>
      obtain ⟨s₁, htaken, hs₁, hless⟩ := hstep s hs (by omega)
      obtain ⟨s₂, hrest, hs₂, hdone⟩ := ih hs₁ (by omega)
      refine ⟨s₂, ?_, hs₂, hdone⟩
      rw [List.replicate_succ, perform, htaken]
      exact hrest

/-- **Work that is used up.**  Where no action adds to the work, and every
action of one kind does some of it, there are no more actions of that kind
than there was work. -/
theorem perform_bounded {step : σ → α → Option σ} {A : α → Prop}
    (I : σ → Prop) (works : α → Bool) (work : σ → Nat)
    (hstep : ∀ s a s', I s → A a → step s a = some s' →
      I s' ∧ (if works a then 1 else 0) + work s' ≤ work s)
    {s s' : σ} {as : List α} (h : perform step s as = some s')
    (has : ∀ a ∈ as, A a) (hs : I s) :
    I s' ∧ as.countP works + work s' ≤ work s := by
  induction as generalizing s with
  | nil =>
      cases h
      exact ⟨hs, Nat.le_of_eq (Nat.zero_add _)⟩
  | cons a as ih =>
      simp only [perform] at h
      cases htaken : step s a with
      | none =>
          rw [htaken] at h
          cases h
      | some s₁ =>
          rw [htaken] at h
          obtain ⟨hs₁, hfirst⟩ := hstep s a s₁ hs (has a List.mem_cons_self)
            htaken
          obtain ⟨hs', hrest⟩ := ih h
            (fun b hb => has b (List.mem_cons_of_mem a hb)) hs₁
          refine ⟨hs', ?_⟩
          rw [List.countP_cons]
          omega

/-- A run from one state to another whose actions all meet a guard. -/
inductive Run (step : σ → α → Option σ) (Guard : σ → α → Prop) :
    σ → List α → σ → Prop
  | nil (s : σ) : Run step Guard s [] s
  | cons {s s' s'' : σ} {a : α} {as : List α} (guard : Guard s a)
      (taken : step s a = some s') (rest : Run step Guard s' as s'') :
      Run step Guard s (a :: as) s''

/-- **What every guarded step preserves, a guarded run preserves.** -/
theorem Run.invariant {step : σ → α → Option σ} {Guard : σ → α → Prop}
    (I : σ → Prop)
    (hstep : ∀ s a s', I s → Guard s a → step s a = some s' → I s')
    {s s' : σ} {as : List α} (hrun : Run step Guard s as s') (hs : I s) :
    I s' := by
  induction hrun with
  | nil s => exact hs
  | cons guard taken rest ih => exact ih (hstep _ _ _ hs guard taken)

/-- A guard that implies another, in states with an invariant that every step
under it keeps, can be replaced by the other. -/
theorem Run.mono {step : σ → α → Option σ} {Guard Guard' : σ → α → Prop}
    {s s' : σ} {as : List α} (hrun : Run step Guard s as s') (I : σ → Prop)
    (hstep : ∀ s a s', I s → Guard s a → step s a = some s' →
      Guard' s a ∧ I s') (hs : I s) : Run step Guard' s as s' := by
  induction hrun with
  | nil s => exact .nil s
  | cons guard taken rest ih =>
      have hnext := hstep _ _ _ hs guard taken
      exact .cons hnext.1 taken (ih hnext.2)

theorem Run.append {step : σ → α → Option σ} {Guard : σ → α → Prop}
    {s s' s'' : σ} {as bs : List α} (has : Run step Guard s as s')
    (hbs : Run step Guard s' bs s'') : Run step Guard s (as ++ bs) s'' := by
  induction has with
  | nil s => exact hbs
  | cons guard taken rest ih => exact .cons guard taken (ih hbs)

theorem Run.single {step : σ → α → Option σ} {Guard : σ → α → Prop}
    {s s' : σ} {a : α} (hguard : Guard s a) (htaken : step s a = some s') :
    Run step Guard s [a] s' := .cons hguard htaken (.nil s')

/-- **Refinement of whole runs.**  If every guarded step of one system can be
followed, in related states, by a guarded run of another, with no step or
several, so can every guarded run. -/
theorem Run.refine {τ : Type w} {β : Type x} {step : σ → α → Option σ}
    {Guard : σ → α → Prop} {step' : τ → β → Option τ}
    {Guard' : τ → β → Prop} (R : σ → τ → Prop)
    (hstep : ∀ s t a s', R s t → Guard s a → step s a = some s' →
      ∃ bs t', Run step' Guard' t bs t' ∧ R s' t')
    {s s' : σ} {as : List α} (hrun : Run step Guard s as s') {t : τ}
    (hst : R s t) : ∃ bs t', Run step' Guard' t bs t' ∧ R s' t' := by
  induction hrun generalizing t with
  | nil s => exact ⟨[], t, .nil t, hst⟩
  | cons guard taken rest ih =>
      obtain ⟨bs, t₁, hbs, hst₁⟩ := hstep _ _ _ _ hst guard taken
      obtain ⟨cs, t₂, hcs, hst₂⟩ := ih hst₁
      exact ⟨bs ++ cs, t₂, hbs.append hcs, hst₂⟩

/-- A guarded run is a run. -/
theorem Run.perform_eq {step : σ → α → Option σ} {Guard : σ → α → Prop}
    {s s' : σ} {as : List α} (hrun : Run step Guard s as s') :
    perform step s as = some s' := by
  induction hrun with
  | nil s => rfl
  | cons guard taken rest ih =>
      rw [perform, taken]
      exact ih

/-- The step, disabled where the guard does not hold. -/
def guarded (step : σ → α → Option σ) (Guard : σ → α → Prop)
    [∀ s, DecidablePred (Guard s)] (s : σ) (a : α) : Option σ :=
  if Guard s a then step s a else none

/-- A run of guarded steps is a guarded run. -/
theorem Run.of_perform_guarded {step : σ → α → Option σ}
    {Guard : σ → α → Prop} [∀ s, DecidablePred (Guard s)] {s s' : σ}
    {as : List α} (h : perform (guarded step Guard) s as = some s') :
    Run step Guard s as s' := by
  induction as generalizing s with
  | nil =>
      cases h
      exact .nil _
  | cons a as ih =>
      simp only [perform, guarded] at h
      by_cases hguard : Guard s a
      · rw [if_pos hguard] at h
        cases htaken : step s a with
        | none =>
            rw [htaken] at h
            cases h
        | some s'' =>
            rw [htaken] at h
            exact .cons hguard htaken (ih h)
      · rw [if_neg hguard] at h
        cases h

end DuinoBus.Verified
