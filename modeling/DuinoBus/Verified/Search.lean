import Mathlib.Data.List.Basic

/-!
# Loops that search a list

A loop goes over a list with some variables.  At an element that `stop`
refuses it goes on with the next one; what it does at the others, and after
the last element, is left open.

`Inv passed s` is the invariant: what the variables are when the elements of
`passed` were gone over.  `loop_exhausted` and `loop_found` say where such a
loop arrives.
-/

namespace DuinoBus.Verified

universe u v w

variable {β : Type u} {σ : Type v} {ρ : Type w}

/-- The loop goes on at an element that is refused, and keeps its
invariant. -/
def Skips (loop : List β → σ → ρ) (stop : β → Bool)
    (Inv : List β → σ → Prop) : Prop :=
  ∀ passed x xs s, stop x = false → Inv passed s →
    ∃ s', Inv (passed ++ [x]) s' ∧ loop (x :: xs) s = loop xs s'

section

variable {loop : List β → σ → ρ} {stop : β → Bool} {Inv : List β → σ → Prop}

/-- Going over elements that are all refused. -/
theorem loop_append (hskips : Skips loop stop Inv) {xs : List β}
    (hxs : ∀ x ∈ xs, stop x = false) (rest : List β) :
    ∀ {passed : List β} {s : σ}, Inv passed s →
      ∃ s', Inv (passed ++ xs) s' ∧ loop (xs ++ rest) s = loop rest s' := by
  induction xs with
  | nil =>
      intro passed s hs
      exact ⟨s, by rwa [List.append_nil], rfl⟩
  | cons x xs ih =>
      intro passed s hs
      obtain ⟨s₁, hs₁, hstep⟩ := hskips passed x (xs ++ rest) s
        (hxs x List.mem_cons_self) hs
      obtain ⟨s', hs', hrun⟩ := ih (fun y hy =>
        hxs y (List.mem_cons_of_mem _ hy)) hs₁
      rw [List.append_assoc, List.singleton_append] at hs'
      exact ⟨s', hs', hstep.trans hrun⟩

/-- **No element is accepted.** -/
theorem loop_exhausted (hskips : Skips loop stop Inv) {xs : List β}
    (h : xs.find? stop = none) {s : σ} (hs : Inv [] s) :
    ∃ s', Inv xs s' ∧ loop xs s = loop [] s' := by
  have hxs : ∀ x ∈ xs, stop x = false := fun x hx =>
    Bool.eq_false_iff.mpr (List.find?_eq_none.mp h x hx)
  have hrun := loop_append hskips hxs [] hs
  rwa [List.nil_append, List.append_nil] at hrun

/-- **The first element that is accepted.** -/
theorem loop_found (hskips : Skips loop stop Inv) {xs : List β} {x : β}
    (h : xs.find? stop = some x) {s : σ} (hs : Inv [] s) :
    ∃ rest s', Inv (xs.takeWhile fun y => !stop y) s' ∧
      loop xs s = loop (x :: rest) s' := by
  obtain ⟨hx, before, rest, rfl, hbefore⟩ :=
    List.find?_eq_some_iff_append.mp h
  obtain ⟨s', hs', hrun⟩ := loop_append hskips (fun y hy =>
    (Bool.not_eq_true' _).mp (hbefore y hy)) (x :: rest) hs
  rw [List.takeWhile_append_of_pos hbefore,
    List.takeWhile_cons_of_neg (by rw [hx]; decide), List.append_nil]
  exact ⟨rest, s', hs', hrun⟩

end

end DuinoBus.Verified
