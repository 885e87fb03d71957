import Mathlib.Data.List.Basic

/-!
# Views of a buffer

A `View` is a part of a buffer of fixed size through which that part is read
and overwritten.  A view can be sliced, and bounds beyond its end are cut off
there.  Assigning to a view needs as many elements as it has, and reading or
setting one element needs an index within it.

The lemmas say what happens to a buffer that is written down as the elements
before a view, those in it and those behind it.  `foldlM_range'` is the rule
for a loop that replaces the elements of a part of the buffer one after the
other.
-/

namespace DuinoBus.Verified

universe u v

/-- Some elements of a buffer, from `start` on. -/
structure View where
  start : Nat
  len : Nat
  deriving DecidableEq

namespace View

variable {α : Type u}

/-- The part of a view from `i` up to `j`. -/
def slice (v : View) (i j : Nat) : View :=
  ⟨v.start + min i v.len, min j v.len - min i v.len⟩

/-- Overwrite all of the view. -/
def assign (v : View) (buf elems : List α) : Option (List α) :=
  if elems.length = v.len then
    some (buf.take v.start ++ elems ++ buf.drop (v.start + v.len))
  else none

def get (v : View) (buf : List α) (i : Nat) : Option α :=
  if i < v.len then buf[v.start + i]? else none

def set (v : View) (buf : List α) (i : Nat) (elem : α) : Option (List α) :=
  if i < v.len then some (buf.set (v.start + i) elem) else none

/-- A slice within the view. -/
theorem slice_eq {v : View} {i j : Nat} (hij : i ≤ j) (hj : j ≤ v.len) :
    v.slice i j = ⟨v.start + i, j - i⟩ := by
  rw [slice, Nat.min_eq_left hj, Nat.min_eq_left (Nat.le_trans hij hj)]

section Parts

variable {v : View} {front elems elems' back : List α}

theorem assign_eq (hstart : v.start = front.length)
    (hlen : v.len = elems.length) (hsize : elems'.length = elems.length) :
    v.assign (front ++ elems ++ back) elems' =
      some (front ++ elems' ++ back) := by
  have htake : (front ++ elems ++ back).take front.length = front := by
    rw [List.append_assoc, List.take_left]
  have hdrop : (front ++ elems ++ back).drop
      (front.length + elems.length) = back := by
    rw [← List.length_append, List.drop_left]
  rw [assign, if_pos (hsize.trans hlen.symm), hstart, hlen, htake, hdrop]

theorem assign_none {buf : List α} (h : elems.length ≠ v.len) :
    v.assign buf elems = none := if_neg h

theorem get_eq {x : α} {i : Nat} (hi : i < v.len)
    (hstart : v.start + i = front.length) :
    v.get (front ++ x :: back) i = some x := by
  rw [get, if_pos hi, hstart, List.getElem?_append_right (Nat.le_refl _),
    Nat.sub_self, List.getElem?_cons_zero]

theorem set_eq {x y : α} {i : Nat} (hi : i < v.len)
    (hstart : v.start + i = front.length) :
    v.set (front ++ x :: back) i y = some (front ++ y :: back) := by
  rw [set, if_pos hi, hstart, List.set_append_right _ _ (Nat.le_refl _),
    Nat.sub_self, List.set_cons_zero]

end Parts

end View

/-- **Replacing elements one by one**: a loop over the places of `elems`, which
begin at `k` when counted from `base`, each step of which replaces the element
at its place by `g` of it. -/
theorem foldlM_range' {α : Type u} {ε : Type v}
    {f : List α → Nat → Except ε (List α)} {g : α → α} {base k : Nat}
    {front elems back : List α} (hfront : front.length = base + k)
    (hf : ∀ front' x back' i, front'.length = base + i → k ≤ i →
      i < k + elems.length →
      f (front' ++ x :: back') i = .ok (front' ++ g x :: back')) :
    (List.range' k elems.length).foldlM f (front ++ elems ++ back) =
      .ok (front ++ elems.map g ++ back) := by
  induction elems generalizing front k with
  | nil => rfl
  | cons x elems ih =>
      have hstep : f (front ++ (x :: elems) ++ back) k =
          .ok (front ++ [g x] ++ elems ++ back) := by
        have hx := hf front x (elems ++ back) k hfront (Nat.le_refl k)
          (Nat.lt_add_of_pos_right (Nat.succ_pos _))
        rw [List.append_assoc, List.cons_append, hx]
        simp only [List.append_assoc, List.cons_append, List.nil_append]
      have hnext : (front ++ [g x]).length = base + (k + 1) := by
        rw [List.length_append, hfront, List.length_singleton]
        omega
      have hrest := ih hnext (by
        intro front' y back' i hfront' hk hi
        apply hf front' y back' i hfront' (by omega)
        rw [List.length_cons]
        omega)
      rw [List.length_cons, List.range'_succ, List.foldlM_cons, hstep]
      show (List.range' (k + 1) elems.length).foldlM f
        (front ++ [g x] ++ elems ++ back) = _
      rw [hrest]
      simp only [List.map_cons, List.append_assoc, List.cons_append,
        List.nil_append]

end DuinoBus.Verified
