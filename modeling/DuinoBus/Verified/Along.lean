import DuinoBus.Verified.Transducer

/-!
# Properties of every step of a run

`Along f P s is` says that every step of a run has the property `P`, which is
about the state before the step, the input and the outcome.  A step that fails
has an outcome too, and is the last one.

`Meets` is a condition on the inputs of a run, each seen from an abstract
state that the inputs before it lead to.  When a single step has the property
exactly if its input meets the condition, `Governs.along_iff` says the same of
whole runs: the condition can be checked without running the machine.

`feed_accepted` is about machines that refuse some inputs.  If a refusal
changes nothing, the inputs that are refused can be left out of the run.
-/

namespace DuinoBus.Verified

universe u v w x y

variable {σ : Type u} {ι : Type v} {ο : Type w} {ε : Type x} {α : Type y}

/-- Every step of the run has the property. -/
def Along (f : σ → ι → Except ε (ο × σ))
    (P : σ → ι → Except ε (ο × σ) → Prop) (s : σ) : List ι → Prop
  | [] => True
  | i :: is => P s i (f s i) ∧ ∀ o s', f s i = .ok (o, s') → Along f P s' is

/-- Every input meets the condition, up to one that nothing comes after. -/
def Meets (C : α → ι → Prop) (next : α → ι → Option α) (a : α) :
    List ι → Prop
  | [] => True
  | i :: is => C a i ∧ ∀ a', next a i = some a' → Meets C next a' is

/-! ## Conditions on the inputs -/

/-- The condition governs the property: from related states, a step has the
property exactly if its input meets the condition, and a step that meets it
goes on in related states or not at all. -/
structure Governs (C : α → ι → Prop) (next : α → ι → Option α)
    (f : σ → ι → Except ε (ο × σ)) (P : σ → ι → Except ε (ο × σ) → Prop)
    (R : σ → α → Prop) : Prop where
  iff : ∀ s a i, R s a → (P s i (f s i) ↔ C a i)
  ok : ∀ s a i o s', R s a → C a i → f s i = .ok (o, s') →
    ∃ a', next a i = some a' ∧ R s' a'
  error : ∀ s a i e, R s a → C a i → f s i = .error e → next a i = none

/-- **Whole runs**: every step has the property if and only if the inputs meet
the condition. -/
theorem Governs.along_iff {C : α → ι → Prop} {next : α → ι → Option α}
    {f : σ → ι → Except ε (ο × σ)} {P : σ → ι → Except ε (ο × σ) → Prop}
    {R : σ → α → Prop} (h : Governs C next f P R) {s : σ} {a : α}
    (hs : R s a) (is : List ι) :
    Along f P s is ↔ Meets C next a is := by
  induction is generalizing s a with
  | nil => exact Iff.rfl
  | cons i is ih =>
      rw [Along, Meets, h.iff s a i hs]
      apply and_congr_right
      intro hC
      cases hstep : f s i with
      | error e =>
          have hnone := h.error s a i e hs hC hstep
          constructor
          · intro _ a' hnext
            rw [hnone] at hnext
            cases hnext
          · intro _ o s' hok
            cases hok
      | ok r =>
          obtain ⟨a', hnext, hs'⟩ := h.ok s a i r.1 r.2 hs hC hstep
          constructor
          · intro hrest b hb
            rw [hnext] at hb
            cases hb
            exact (ih hs').mp (hrest r.1 r.2 rfl)
          · intro hrest o s' hok
            cases hok
            exact (ih hs').mpr (hrest a' hnext)

/-! ## Inputs that are refused -/

section Refusals

variable (accepted : ο → Bool)

/-- The inputs whose answers are accepting ones. -/
def acceptedInputs : List ι → List ο → List ι
  | i :: is, o :: os =>
      if accepted o then i :: acceptedInputs is os else acceptedInputs is os
  | _, _ => []

/-- A refusal leaves the state as it was. -/
def Unmoved (s : σ) (_ : ι) (r : Except ε (ο × σ)) : Prop :=
  ∀ o s', r = .ok (o, s') → accepted o = false → s' = s

/-- **Leaving out what is refused** changes neither the other answers nor the
state in the end. -/
theorem feed_accepted {f : σ → ι → Except ε (ο × σ)} {s s' : σ} {is : List ι}
    {os : List ο} (h : Along f (Unmoved accepted) s is)
    (hfeed : feed f s is = .ok (os, s')) :
    feed f s (acceptedInputs accepted is os) =
      .ok (os.filter accepted, s') := by
  induction is generalizing s os with
  | nil =>
      cases hfeed
      rfl
  | cons i is ih =>
      obtain ⟨hunmoved, hrest⟩ := h
      cases hstep : f s i with
      | error e => simp [feed, hstep] at hfeed
      | ok r =>
          obtain ⟨os', hos, hfeed'⟩ := feed_cons_ok hstep hfeed
          have ih' := ih (hrest r.1 r.2 hstep) hfeed'
          subst hos
          cases haccepted : accepted r.1 with
          | true =>
              rw [acceptedInputs, if_pos haccepted,
                List.filter_cons_of_pos haccepted]
              simp only [feed, hstep, ih']
          | false =>
              have hsame : r.2 = s := hunmoved r.1 r.2 hstep haccepted
              rw [hsame] at ih'
              rw [acceptedInputs, haccepted, if_neg Bool.false_ne_true,
                List.filter_cons_of_neg (by rw [haccepted]; decide)]
              exact ih'

end Refusals

end DuinoBus.Verified
