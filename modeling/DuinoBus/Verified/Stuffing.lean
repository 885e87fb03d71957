/-!
# Byte stuffing over an arbitrary alphabet

A stuffed stream reserves one symbol, `fin`, for the ends of frames.  Inside
a frame `fin` and the escape symbol `esc` travel as two-symbol sequences.
The reader is more lenient than the writer: an escape makes any following
symbol a literal, so many stuffed forms carry the same symbols and only one
of them, `stuffAll`, is what a writer produces.

Reading is incremental.  A reader keeps one bit, whether an escape is
pending; `unstuff` and `pending` describe what it has read and in which
state it is left, and `Clean` says that it has met no bare `fin`.

## Main results

* `unstuff_append`, `pending_append`: reading composes.
* `unstuff_stuffAll`, `pending_stuffAll`, `clean_stuffAll`: reading what was
  written returns the symbols, leaves no escape pending and meets no `fin`.
* `fin_notMem_stuffAll`: a writer puts `fin` at the ends of frames only.
-/

namespace DuinoBus.Verified

universe u

/-- The four symbols of a stuffing scheme, with the distinctness that makes
the stuffed forms readable. -/
structure Stuffing (α : Type u) where
  fin : α
  esc : α
  escFin : α
  escEsc : α
  esc_ne_fin : esc ≠ fin
  escFin_ne_fin : escFin ≠ fin
  escEsc_ne_fin : escEsc ≠ fin
  escEsc_ne_escFin : escEsc ≠ escFin

namespace Stuffing

variable {α : Type u} [DecidableEq α] (S : Stuffing α)

/-! ## Writing -/

/-- The stuffed form of one symbol. -/
def stuff (b : α) : List α :=
  if b = S.fin then [S.esc, S.escFin]
  else if b = S.esc then [S.esc, S.escEsc]
  else [b]

/-- The stuffed form of a list of symbols. -/
def stuffAll : List α → List α
  | [] => []
  | b :: bs => S.stuff b ++ stuffAll bs

@[simp] theorem stuffAll_nil : S.stuffAll [] = [] := rfl

@[simp] theorem stuffAll_cons (b : α) (bs : List α) :
    S.stuffAll (b :: bs) = S.stuff b ++ S.stuffAll bs := rfl

/-- Symbols on the line: stuffed, between two end symbols. -/
def enclose (bs : List α) : List α := S.fin :: (S.stuffAll bs ++ [S.fin])

theorem stuff_fin : S.stuff S.fin = [S.esc, S.escFin] := by simp [stuff]

theorem stuff_esc : S.stuff S.esc = [S.esc, S.escEsc] := by
  simp [stuff, S.esc_ne_fin]

theorem stuff_plain {b : α} (hfin : b ≠ S.fin) (hesc : b ≠ S.esc) :
    S.stuff b = [b] := by simp [stuff, hfin, hesc]

/-- A symbol is the end of frames, the escape, or plain: the three ways it
can be stuffed. -/
theorem stuff_cases (b : α) :
    (b = S.fin ∧ S.stuff b = [S.esc, S.escFin]) ∨
      (b = S.esc ∧ S.stuff b = [S.esc, S.escEsc]) ∨
      (b ≠ S.fin ∧ b ≠ S.esc ∧ S.stuff b = [b]) := by
  by_cases hfin : b = S.fin
  · subst hfin
    exact .inl ⟨rfl, S.stuff_fin⟩
  · by_cases hesc : b = S.esc
    · subst hesc
      exact .inr (.inl ⟨rfl, S.stuff_esc⟩)
    · exact .inr (.inr ⟨hfin, hesc, S.stuff_plain hfin hesc⟩)

/-- A symbol is stuffed as an escape sequence or as itself. -/
theorem stuff_eq (b : α) :
    (∃ c, S.stuff b = [S.esc, c]) ∨ S.stuff b = [b] := by
  rcases S.stuff_cases b with ⟨_, h⟩ | ⟨_, h⟩ | ⟨_, _, h⟩
  · exact .inl ⟨_, h⟩
  · exact .inl ⟨_, h⟩
  · exact .inr h

theorem length_stuff_pos (b : α) : 0 < (S.stuff b).length := by
  rcases S.stuff_eq b with ⟨c, h⟩ | h
  · rw [h]
    exact Nat.zero_lt_two
  · rw [h]
    exact Nat.one_pos

theorem fin_notMem_stuff (b : α) : S.fin ∉ S.stuff b := by
  rcases S.stuff_cases b with ⟨_, h⟩ | ⟨_, h⟩ | ⟨hb, _, h⟩
  · simp [h, S.esc_ne_fin.symm, S.escFin_ne_fin.symm]
  · simp [h, S.esc_ne_fin.symm, S.escEsc_ne_fin.symm]
  · simp [h, hb.symm]

/-- Inside a stuffed list the end symbol never appears. -/
theorem fin_notMem_stuffAll (bs : List α) : S.fin ∉ S.stuffAll bs := by
  induction bs with
  | nil => simp
  | cons b bs ih =>
      rw [stuffAll_cons, List.mem_append]
      rintro (h | h)
      · exact S.fin_notMem_stuff b h
      · exact ih h

/-! ## Reading -/

/-- What a symbol stands for after an escape.  Symbols that no writer escapes
stand for themselves. -/
def literal (b : α) : α :=
  if b = S.escFin then S.fin
  else if b = S.escEsc then S.esc
  else b

theorem literal_escFin : S.literal S.escFin = S.fin := by simp [literal]

theorem literal_escEsc : S.literal S.escEsc = S.esc := by
  simp [literal, S.escEsc_ne_escFin]

/-- The symbols completed by reading a stuffed stream, starting with an
escape pending or not. -/
def unstuff : Bool → List α → List α
  | _, [] => []
  | true, b :: bs => S.literal b :: unstuff false bs
  | false, b :: bs =>
      if b = S.esc then unstuff true bs else b :: unstuff false bs

/-- Whether reading ends with an escape pending. -/
def pending : Bool → List α → Bool
  | e, [] => e
  | true, _ :: bs => pending false bs
  | false, b :: bs => pending (decide (b = S.esc)) bs

/-- Reading meets no bare end symbol. -/
def Clean : Bool → List α → Prop
  | _, [] => True
  | true, _ :: bs => Clean false bs
  | false, b :: bs => b ≠ S.fin ∧ Clean (decide (b = S.esc)) bs

@[simp] theorem unstuff_nil (e : Bool) : S.unstuff e [] = [] := by
  cases e <;> rfl

@[simp] theorem pending_nil (e : Bool) : S.pending e [] = e := by
  cases e <;> rfl

@[simp] theorem clean_nil (e : Bool) : S.Clean e [] := by
  cases e <;> exact trivial

/-- The escape bit after one more symbol. -/
def escapes (e : Bool) (b : α) : Bool := !e && decide (b = S.esc)

/-- The symbol completed by one more symbol, if any. -/
def completed (e : Bool) (b : α) : List α :=
  if e then [S.literal b] else if b = S.esc then [] else [b]

theorem pending_cons (e : Bool) (b : α) (bs : List α) :
    S.pending e (b :: bs) = S.pending (S.escapes e b) bs := by
  cases e <;> rfl

theorem unstuff_cons (e : Bool) (b : α) (bs : List α) :
    S.unstuff e (b :: bs) =
      S.completed e b ++ S.unstuff (S.escapes e b) bs := by
  cases e with
  | true => simp [unstuff, completed, escapes]
  | false =>
      by_cases hb : b = S.esc
      · simp [unstuff, completed, escapes, hb]
      · simp [unstuff, completed, escapes, hb]

theorem clean_cons (e : Bool) (b : α) (bs : List α) :
    S.Clean e (b :: bs) ↔
      (e = false → b ≠ S.fin) ∧ S.Clean (S.escapes e b) bs := by
  cases e with
  | true => simp [Clean, escapes]
  | false => simp [Clean, escapes]

theorem pending_append (e : Bool) (xs ys : List α) :
    S.pending e (xs ++ ys) = S.pending (S.pending e xs) ys := by
  induction xs generalizing e with
  | nil => simp
  | cons b xs ih => rw [List.cons_append, pending_cons, ih, ← pending_cons]

theorem unstuff_append (e : Bool) (xs ys : List α) :
    S.unstuff e (xs ++ ys) =
      S.unstuff e xs ++ S.unstuff (S.pending e xs) ys := by
  induction xs generalizing e with
  | nil => simp
  | cons b xs ih =>
      rw [List.cons_append, unstuff_cons, ih, unstuff_cons, pending_cons,
        List.append_assoc]

/-- A stream without the end symbol is clean, escapes or not. -/
theorem clean_of_fin_notMem (e : Bool) {bs : List α} (h : S.fin ∉ bs) :
    S.Clean e bs := by
  induction bs generalizing e with
  | nil => simp
  | cons b bs ih =>
      have hb : b ≠ S.fin := fun hb => h (by simp [hb])
      have hbs : S.fin ∉ bs := fun hbs => h (by simp [hbs])
      exact (S.clean_cons e b bs).mpr ⟨fun _ => hb, ih _ hbs⟩

/-- Reading something either completes a symbol or ends in an escape. -/
theorem unstuff_ne_nil {bs : List α} (hbs : bs ≠ [])
    (h : S.pending false bs = false) : S.unstuff false bs ≠ [] := by
  cases bs with
  | nil => exact absurd rfl hbs
  | cons b bs =>
      by_cases hb : b = S.esc
      · cases bs with
        | nil => simp [pending, hb] at h
        | cons b' bs => simp [unstuff, hb]
      · simp [unstuff, hb]

/-! ## Reading what was written -/

theorem unstuff_stuff (b : α) : S.unstuff false (S.stuff b) = [b] := by
  rcases S.stuff_cases b with ⟨hb, h⟩ | ⟨hb, h⟩ | ⟨_, hb, h⟩
  · rw [h, hb]
    simp [unstuff, literal_escFin]
  · rw [h, hb]
    simp [unstuff, literal_escEsc]
  · simp [h, hb, unstuff]

theorem pending_stuff (b : α) : S.pending false (S.stuff b) = false := by
  rcases S.stuff_cases b with ⟨_, h⟩ | ⟨_, h⟩ | ⟨_, hb, h⟩
  · simp [h, pending]
  · simp [h, pending]
  · simp [h, hb, pending]

theorem pending_stuffAll (bs : List α) :
    S.pending false (S.stuffAll bs) = false := by
  induction bs with
  | nil => simp
  | cons b bs ih => rw [stuffAll_cons, pending_append, pending_stuff, ih]

/-- A part of what is written for a symbol is an escape. -/
theorem pending_take_stuff {b : α} {m : Nat} (hpos : 0 < m)
    (hlt : m < (S.stuff b).length) :
    S.pending false ((S.stuff b).take m) = true := by
  rcases S.stuff_eq b with ⟨c, h⟩ | h
  · have hone : m = 1 := by
      rw [h] at hlt
      simp only [List.length_cons, List.length_nil] at hlt
      omega
    rw [h, hone]
    simp [pending]
  · rw [h, List.length_singleton] at hlt
    omega

theorem stuffAll_ne_nil {bs : List α} (hbs : bs ≠ []) : S.stuffAll bs ≠ [] := by
  obtain ⟨b, bs, rfl⟩ := List.exists_cons_of_ne_nil hbs
  have hb := S.length_stuff_pos b
  apply List.length_pos_iff.mp
  rw [stuffAll_cons, List.length_append]
  omega

/-- **Reading a part** of a stuffed list that begins with `b`: it completes at
most `b` and ends in no escape exactly if it is nothing or all of `b`. -/
theorem take_stuffAll_iff (b : α) {bs : List α} (hbs : bs ≠ []) (m : Nat) :
    (S.pending false ((S.stuffAll (b :: bs)).take m) = false ∧
        (S.unstuff false ((S.stuffAll (b :: bs)).take m)).length ≤ 1) ↔
      m = 0 ∨ m = (S.stuff b).length := by
  rw [stuffAll_cons]
  rcases Nat.lt_trichotomy m (S.stuff b).length with hlt | heq | hgt
  · rw [List.take_append_of_le_length (Nat.le_of_lt hlt)]
    by_cases hzero : m = 0
    · rw [hzero, List.take_zero]
      exact iff_of_true ⟨S.pending_nil false, by simp⟩ (.inl rfl)
    · rw [S.pending_take_stuff (Nat.pos_of_ne_zero hzero) hlt]
      exact iff_of_false (fun h => by cases h.1) (by omega)
  · rw [heq, List.take_left, S.pending_stuff, S.unstuff_stuff]
    exact iff_of_true ⟨rfl, Nat.le_refl 1⟩ (.inr rfl)
  · rw [List.take_append, List.take_of_length_le (Nat.le_of_lt hgt),
      pending_append, unstuff_append, S.pending_stuff, S.unstuff_stuff]
    have hrest : (S.stuffAll bs).take (m - (S.stuff b).length) ≠ [] := by
      have hpos := List.length_pos_iff.mpr (S.stuffAll_ne_nil hbs)
      apply List.length_pos_iff.mp
      rw [List.length_take]
      omega
    apply iff_of_false
    · rintro ⟨hpending, hlen⟩
      have hpos := List.length_pos_iff.mpr (S.unstuff_ne_nil hrest hpending)
      rw [List.length_append, List.length_singleton] at hlen
      omega
    · omega

/-- Reading undoes writing. -/
theorem unstuff_stuffAll (bs : List α) :
    S.unstuff false (S.stuffAll bs) = bs := by
  induction bs with
  | nil => simp
  | cons b bs ih =>
      rw [stuffAll_cons, unstuff_append, unstuff_stuff, pending_stuff, ih]
      rfl

/-- Different symbols are written differently. -/
theorem stuffAll_injective {xs ys : List α}
    (h : S.stuffAll xs = S.stuffAll ys) : xs = ys := by
  have hread := congrArg (S.unstuff false) h
  rw [unstuff_stuffAll, unstuff_stuffAll] at hread
  exact hread

theorem clean_stuffAll (e : Bool) (bs : List α) :
    S.Clean e (S.stuffAll bs) :=
  S.clean_of_fin_notMem e (S.fin_notMem_stuffAll bs)

end Stuffing

end DuinoBus.Verified
