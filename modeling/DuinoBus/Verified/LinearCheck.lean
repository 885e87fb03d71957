import Mathlib.Algebra.Group.Hom.Basic

/-!
# Linear check symbols

A cyclic redundancy check adds each symbol to a register and turns the
register once.  When turning is additive the whole check is: the register
after a sum of inputs is the sum of the registers (`residue_add`), so whether
a damaged input passes depends on the damage alone.

When turning also loses nothing, damage that reaches the register is still
there after any number of zero symbols (`residue_ne_zero`).  Damage confined
to two neighbouring symbols is therefore caught unless the second cancels
what the turn made of the first (`residue_ne_zero_of_window`).

The symbols are any commutative group.
-/

namespace DuinoBus.Verified.LinearCheck

universe u

variable {α : Type u} [AddCommGroup α] (turn : α →+ α)

/-- The register after some symbols. -/
def residue (r : α) (xs : List α) : α := xs.foldl (fun r b => turn (r + b)) r

@[simp] theorem residue_nil (r : α) : residue turn r [] = r := rfl

@[simp] theorem residue_cons (r b : α) (xs : List α) :
    residue turn r (b :: xs) = residue turn (turn (r + b)) xs := rfl

theorem residue_append (r : α) (xs ys : List α) :
    residue turn r (xs ++ ys) = residue turn (residue turn r xs) ys :=
  List.foldl_append

/-- **The check is additive** on inputs of one length. -/
theorem residue_add (r s : α) {xs ys : List α}
    (hlen : xs.length = ys.length) :
    residue turn (r + s) (List.zipWith (· + ·) xs ys) =
      residue turn r xs + residue turn s ys := by
  induction xs generalizing r s ys with
  | nil =>
      have hys : ys = [] := List.eq_nil_of_length_eq_zero hlen.symm
      rw [hys]
      rfl
  | cons x xs ih =>
      cases ys with
      | nil => cases hlen
      | cons y ys =>
          have hturn : turn (r + s + (x + y)) = turn (r + x) + turn (s + y) := by
            rw [← map_add, add_add_add_comm]
          rw [List.zipWith_cons_cons, residue_cons, hturn,
            ih _ _ (Nat.succ.inj hlen)]
          rfl

/-- What was in the register before is turned once for each symbol. -/
theorem residue_eq_add (r : α) (xs : List α) :
    residue turn r xs = turn^[xs.length] r + residue turn 0 xs := by
  induction xs generalizing r with
  | nil => exact (add_zero r).symm
  | cons x xs ih =>
      rw [residue_cons, residue_cons, ih (turn (r + x)), ih (turn (0 + x)),
        map_add, iterate_map_add, zero_add, List.length_cons,
        Function.iterate_succ_apply, add_assoc]

section Injective

variable (hturn : ∀ r, turn r = 0 → r = 0)
include hturn

/-- **Damage stays**: zero symbols do not bring the register back to zero. -/
theorem residue_ne_zero {r : α} (hr : r ≠ 0) {xs : List α}
    (h : ∀ x ∈ xs, x = 0) : residue turn r xs ≠ 0 := by
  induction xs generalizing r with
  | nil => exact hr
  | cons x xs ih =>
      have hnext : turn (r + x) ≠ 0 := by
        intro hzero
        apply hr
        have hsum := hturn _ hzero
        rw [h x List.mem_cons_self, add_zero] at hsum
        exact hsum
      exact ih hnext (fun y hy => h y (List.mem_cons_of_mem _ hy))

/-- **Damage in two neighbouring symbols** reaches the register unless the
second cancels what the turn made of the first. -/
theorem residue_pair_ne_zero {a b : α} (hab : turn a + b ≠ 0) {post : List α}
    (hpost : ∀ x ∈ post, x = 0) : residue turn 0 (a :: b :: post) ≠ 0 := by
  rw [residue_cons, zero_add, residue_cons]
  have hturned : turn (turn a + b) ≠ 0 := fun hzero => hab (hturn _ hzero)
  exact residue_ne_zero turn hturn hturned hpost

/-- **Damage in a window of two symbols**, at any place: the zeros in front
leave the register at zero, and those behind do not bring it back there. -/
theorem residue_ne_zero_of_window {xs : List α} {k : Nat}
    (hout : ∀ i x, xs[i]? = some x → i ≠ k → i ≠ k + 1 → x = 0)
    (hpair : ∀ a b, xs[k]? = some a → xs[k + 1]? = some b →
      a ≠ 0 ∨ b ≠ 0 → turn a + b ≠ 0)
    (hne : ∃ x ∈ xs, x ≠ 0) : residue turn 0 xs ≠ 0 := by
  obtain ⟨x, hmem, hx⟩ := hne
  induction k generalizing xs with
  | zero =>
      cases xs with
      | nil => cases hmem
      | cons a xs =>
          cases xs with
          | nil =>
              rw [List.mem_singleton.mp hmem] at hx
              rw [residue_cons, zero_add, residue_nil]
              exact fun hzero => hx (hturn a hzero)
          | cons b post =>
              have hpost : ∀ y ∈ post, y = 0 := by
                intro y hy
                obtain ⟨i, hi⟩ := List.mem_iff_getElem?.mp hy
                exact hout (i + 2) y hi (by omega) (by omega)
              have hab : a ≠ 0 ∨ b ≠ 0 := by
                rcases List.mem_cons.mp hmem with ha | hmem
                · exact .inl (ha ▸ hx)
                · rcases List.mem_cons.mp hmem with hb | hmem
                  · exact .inr (hb ▸ hx)
                  · exact absurd (hpost x hmem) hx
              exact residue_pair_ne_zero turn hturn (hpair a b rfl rfl hab)
                hpost
  | succ k ih =>
      cases xs with
      | nil => cases hmem
      | cons y xs =>
          have hy : y = 0 := hout 0 y rfl (by omega) (by omega)
          have hrest : x ∈ xs := by
            rcases List.mem_cons.mp hmem with hfirst | hrest
            · exact absurd (hfirst.trans hy) hx
            · exact hrest
          rw [residue_cons, hy, add_zero, map_zero]
          apply ih _ _ hrest
          · intro i z hz hk hk'
            exact hout (i + 1) z hz (by omega) (by omega)
          · exact hpair

/-- An input passes the check of its last symbol, negated, exactly if the
register is zero after it. -/
theorem residue_concat_eq_zero (r : α) (xs : List α) (sum : α) :
    residue turn r (xs ++ [sum]) = 0 ↔ sum = -residue turn r xs := by
  rw [residue_append, residue_cons, residue_nil]
  constructor
  · intro hzero
    have hsum := hturn _ hzero
    exact (neg_eq_of_add_eq_zero_right hsum).symm
  · intro hsum
    rw [hsum, add_neg_cancel, map_zero]

end Injective

end DuinoBus.Verified.LinearCheck
