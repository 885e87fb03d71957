import DuinoBus.Verified.Stuffing
import DuinoBus.Verified.Transducer

/-!
# Receivers of checked, stuffed frames

A frame carries a command symbol, a body and a check symbol computed from
both, stuffed and set between two end symbols.  Its length is not sent: the
receiver takes the last symbol before the closing end symbol for the check.

The receiver below has a bounded buffer, and its two ways of refusing a
frame at the closing end symbol, `afterShort` and `afterMismatch`, are
parameters.  They are what implementations disagree about, and the theorems
of this file hold whatever they are.

## Main results

* `run_command`, `run_body`: the phase after a clean stretch of input is a
  function of the symbols it carries.
* `run_content`: what a frame carries is the command and the body.
* `step_accepted_iff`: a frame is accepted at an end symbol only, and there
  exactly if what is stored ends in the check of the rest.
-/

namespace DuinoBus.Verified


universe u

/-- A stuffing scheme together with the check symbol of a frame. -/
structure Framing (α : Type u) extends Stuffing α where
  check : α → List α → α

/-- What a receiver knows between two symbols. -/
inductive Phase (α : Type u) where
  /-- Waiting for an end symbol. -/
  | idle
  /-- After an end symbol, before the command. -/
  | command (escaped : Bool)
  /-- After the command, with the symbols stored since. -/
  | body (escaped : Bool) (cmd : α) (buf : List α)
  deriving DecidableEq, Repr

/-- The answer to one symbol. -/
inductive Verdict (α : Type u) where
  | pending
  | accepted (cmd : α) (body : List α) (sum : α)
  | mismatch
  | short
  | overflow
  deriving DecidableEq, Repr

/-- A receiver: a framing, the size of the buffer, and where it goes after
refusing a frame at its closing end symbol. -/
structure Receiver (α : Type u) extends Framing α where
  capacity : Nat
  afterShort : α → Phase α
  afterMismatch : α → List α → Phase α

section Frames

variable {α : Type u} [DecidableEq α] (F : Framing α)

/-- The symbols a frame carries between its end symbols. -/
def Framing.content (cmd : α) (body : List α) : List α :=
  cmd :: (body ++ [F.check cmd body])

/-- The one frame a writer produces for a command and a body. -/
def Framing.frame (cmd : α) (body : List α) : List α :=
  F.fin :: (F.stuffAll (F.content cmd body) ++ [F.fin])

theorem Framing.length_frame_pos (cmd : α) (body : List α) :
    0 < (F.frame cmd body).length := by simp [Framing.frame]

/-- A frame before its last symbol. -/
theorem Framing.dropLast_frame (cmd : α) (body : List α) :
    (F.frame cmd body).dropLast = F.fin :: F.stuffAll (F.content cmd body) := by
  rw [Framing.frame, ← List.cons_append, List.dropLast_concat]

/-- A frame determines what it carries. -/
theorem Framing.frame_injective {cmd cmd' : α} {body body' : List α}
    (h : F.frame cmd body = F.frame cmd' body') :
    cmd = cmd' ∧ body = body' := by
  have hstuffed := (List.cons.inj h).2
  have hcontent := F.stuffAll_injective (List.append_cancel_right hstuffed)
  obtain ⟨hcmd, hrest⟩ := List.cons.inj hcontent
  exact ⟨hcmd, (List.append_inj' hrest rfl).1⟩

theorem Framing.dropLast_frame_concat (cmd : α) (body : List α) :
    (F.frame cmd body).dropLast ++ [F.fin] = F.frame cmd body := by
  rw [F.dropLast_frame]
  rfl

end Frames

namespace Receiver

variable {α : Type u} [DecidableEq α] (R : Receiver α)

/-- The closing end symbol: the last stored symbol is the check. -/
def close (cmd : α) (buf : List α) : Phase α × Verdict α :=
  match buf.getLast? with
  | none => (R.afterShort cmd, .short)
  | some sum =>
      if sum = R.check cmd buf.dropLast then
        (.idle, .accepted cmd buf.dropLast sum)
      else (R.afterMismatch cmd buf.dropLast, .mismatch)

/-- One more symbol of the body, dropped when the buffer is full. -/
def store (cmd : α) (buf : List α) (b : α) : Phase α × Verdict α :=
  if R.capacity ≤ buf.length then (.body false cmd buf, .overflow)
  else (.body false cmd (buf ++ [b]), .pending)

/-- One symbol of input. -/
def step : Phase α → α → Phase α × Verdict α
  | .idle, b => (if b = R.fin then .command false else .idle, .pending)
  | .command true, b => (.body false (R.literal b) [], .pending)
  | .command false, b =>
      if b = R.esc then (.command true, .pending)
      else if b = R.fin then (.command false, .pending)
      else (.body false b [], .pending)
  | .body true cmd buf, b => R.store cmd buf (R.literal b)
  | .body false cmd buf, b =>
      if b = R.esc then (.body true cmd buf, .pending)
      else if b = R.fin then R.close cmd buf
      else R.store cmd buf b

/-- The receiver as a transducer. -/
def machine : Transducer (Phase α) α (Verdict α) := ⟨R.step⟩

theorem next_eq (p : Phase α) (b : α) :
    R.machine.next p b = (R.step p b).1 := rfl

theorem out_eq (p : Phase α) (b : α) :
    R.machine.out p b = (R.step p b).2 := rfl

/-! ## One symbol -/

theorem close_nil (cmd : α) : R.close cmd [] = (R.afterShort cmd, .short) := rfl

theorem close_concat (cmd : α) (body : List α) (sum : α) :
    R.close cmd (body ++ [sum]) =
      if sum = R.check cmd body then (.idle, .accepted cmd body sum)
      else (R.afterMismatch cmd body, .mismatch) := by
  simp [close]

/-- Closing accepts exactly a buffer that ends in the check of what precedes
it. -/
theorem close_accepted_iff (cmd c : α) (buf body : List α) (sum : α) :
    (R.close cmd buf).2 = .accepted c body sum ↔
      c = cmd ∧ buf = body ++ [sum] ∧ sum = R.check cmd body := by
  rcases List.eq_nil_or_concat buf with rfl | ⟨init, last, rfl⟩
  · simp [close_nil]
  · rw [List.concat_eq_append, close_concat]
    by_cases h : last = R.check cmd init
    · simp only [if_pos h, Verdict.accepted.injEq, List.append_singleton_inj]
      constructor
      · rintro ⟨rfl, rfl, rfl⟩
        exact ⟨rfl, ⟨rfl, rfl⟩, h⟩
      · rintro ⟨rfl, ⟨rfl, rfl⟩, _⟩
        exact ⟨rfl, rfl, rfl⟩
    · simp only [if_neg h, reduceCtorEq, List.append_singleton_inj, false_iff]
      rintro ⟨_, ⟨rfl, rfl⟩, hsum⟩
      exact h hsum

/-- Closing never answers that more input is wanted. -/
theorem close_ne_pending (cmd : α) (buf : List α) :
    (R.close cmd buf).2 ≠ .pending := by
  unfold close
  split
  · simp
  · split <;> simp

omit [DecidableEq α] in
theorem store_ne_accepted (cmd : α) (buf : List α) (b c : α) (body : List α)
    (sum : α) : (R.store cmd buf b).2 ≠ .accepted c body sum := by
  unfold store
  split <;> simp

/-- A frame is accepted at a bare end symbol, with the body and the check
that are stored by then. -/
theorem step_accepted_iff (p : Phase α) (b cmd : α) (body : List α)
    (sum : α) :
    (R.step p b).2 = .accepted cmd body sum ↔
      b = R.fin ∧ p = .body false cmd (body ++ [sum]) ∧
        sum = R.check cmd body := by
  match p with
  | .idle => simp [step]
  | .command true => simp [step]
  | .command false =>
      simp only [step]
      split
      · simp
      · split <;> simp
  | .body true c buf => simp [step, store_ne_accepted]
  | .body false c buf =>
      simp only [step]
      by_cases hesc : b = R.esc
      · simp [hesc, R.esc_ne_fin]
      · rw [if_neg hesc]
        by_cases hfin : b = R.fin
        · rw [if_pos hfin, close_accepted_iff]
          constructor
          · rintro ⟨rfl, rfl, hsum⟩
            exact ⟨hfin, rfl, hsum⟩
          · rintro ⟨_, hp, hsum⟩
            cases hp
            exact ⟨rfl, rfl, hsum⟩
        · simp [hfin, store_ne_accepted]

omit [DecidableEq α] in
theorem store_ne_mismatch (cmd : α) (buf : List α) (b : α) :
    (R.store cmd buf b).2 ≠ .mismatch := by
  unfold store
  split <;> simp

/-- A frame is refused for its check at a bare end symbol, with the body and
the check that are stored by then. -/
theorem step_mismatch {p : Phase α} {b : α} (h : (R.step p b).2 = .mismatch) :
    b = R.fin ∧ ∃ cmd body sum, p = .body false cmd (body ++ [sum]) ∧
      sum ≠ R.check cmd body := by
  match p with
  | .idle => cases h
  | .command true => cases h
  | .command false =>
      simp only [step] at h
      split at h
      · cases h
      · split at h
        · cases h
        · cases h
  | .body true c buf => exact absurd h (R.store_ne_mismatch c buf _)
  | .body false c buf =>
      simp only [step] at h
      split at h
      · cases h
      · split at h
        · next hfin =>
            rcases List.eq_nil_or_concat buf with rfl | ⟨init, last, rfl⟩
            · cases h
            · rw [List.concat_eq_append, close_concat] at h
              split at h
              · cases h
              · next hsum =>
                  rw [List.concat_eq_append]
                  exact ⟨hfin, c, init, last, rfl, hsum⟩
        · exact absurd h (R.store_ne_mismatch c buf b)

omit [DecidableEq α] in
theorem store_phase (cmd : α) (buf : List α) (b : α)
    (hbuf : buf.length ≤ R.capacity) :
    (R.store cmd buf b).1 = .body false cmd ((buf ++ [b]).take R.capacity) := by
  unfold store
  split
  · rename_i hfull
    have hlen : buf.length = R.capacity := by omega
    simp [← hlen]
  · rename_i hroom
    rw [List.take_of_length_le (by simp; omega)]

omit [DecidableEq α] in
theorem store_verdict (cmd : α) (buf : List α) (b : α) :
    (R.store cmd buf b).2 =
      if R.capacity ≤ buf.length then .overflow else .pending := by
  unfold store
  split <;> rfl

/-- In the body, a symbol that is not a bare end symbol completes a symbol
or starts an escape. -/
theorem next_body (e : Bool) (cmd : α) (buf : List α) (b : α)
    (hbuf : buf.length ≤ R.capacity) (hb : e = false → b ≠ R.fin) :
    R.machine.next (.body e cmd buf) b =
      .body (R.escapes e b) cmd
        ((buf ++ R.completed e b).take R.capacity) := by
  cases e with
  | true =>
      simp only [next_eq, step, store_phase R cmd buf _ hbuf,
        Stuffing.escapes, Stuffing.completed, if_true]
      rfl
  | false =>
      by_cases hesc : b = R.esc
      · simp [next_eq, step, hesc, Stuffing.escapes, Stuffing.completed,
          List.take_of_length_le hbuf]
      · simp [next_eq, step, hesc, hb rfl, Stuffing.escapes,
          Stuffing.completed, store_phase R cmd buf b hbuf]

theorem out_body_of_room (e : Bool) (cmd : α) (buf : List α) (b : α)
    (hb : e = false → b ≠ R.fin)
    (hroom : buf.length + (R.completed e b).length ≤ R.capacity) :
    R.machine.out (.body e cmd buf) b = .pending := by
  cases e with
  | true =>
      simp only [Stuffing.completed, if_true, List.length_singleton] at hroom
      have hfull : ¬ R.capacity ≤ buf.length := by omega
      simp [out_eq, step, store_verdict, hfull]
  | false =>
      by_cases hesc : b = R.esc
      · simp [out_eq, step, hesc]
      · simp only [Stuffing.completed, hesc, Bool.false_eq_true, if_false,
          List.length_singleton] at hroom
        have hfull : ¬ R.capacity ≤ buf.length := by omega
        simp [out_eq, step, hesc, hb rfl, store_verdict, hfull]

/-! ## Clean stretches -/

/-- Cutting early loses nothing that cutting late would keep. -/
theorem take_append_of_take {β : Type u} (n : Nat) (xs ys : List β) :
    (xs.take n ++ ys).take n = (xs ++ ys).take n := by
  rw [List.take_append, List.take_append, List.take_take, Nat.min_self,
    List.length_take]
  congr 2
  omega

/-- The buffer after a clean stretch: what was stored and what was read,
cut at the capacity. -/
theorem run_body (e : Bool) (cmd : α) (buf xs : List α)
    (hbuf : buf.length ≤ R.capacity) (hxs : R.Clean e xs) :
    R.machine.run (.body e cmd buf) xs =
      .body (R.pending e xs) cmd
        ((buf ++ R.unstuff e xs).take R.capacity) := by
  induction xs generalizing e buf with
  | nil => simp [List.take_of_length_le hbuf]
  | cons b xs ih =>
      obtain ⟨hb, hclean⟩ := (R.clean_cons e b xs).mp hxs
      rw [Transducer.run_cons, next_body R e cmd buf b hbuf hb]
      rw [ih _ _ (List.length_take_le _ _) hclean, R.pending_cons, R.unstuff_cons,
        ← List.append_assoc]
      rw [take_append_of_take]

theorem outputs_body_of_room (e : Bool) (cmd : α) (buf xs : List α)
    (hxs : R.Clean e xs)
    (hroom : buf.length + (R.unstuff e xs).length ≤ R.capacity) :
    R.machine.outputs (.body e cmd buf) xs = List.replicate xs.length .pending := by
  induction xs generalizing e buf with
  | nil => rfl
  | cons b xs ih =>
      obtain ⟨hb, hclean⟩ := (R.clean_cons e b xs).mp hxs
      rw [R.unstuff_cons, List.length_append] at hroom
      rw [Transducer.outputs_cons,
        out_body_of_room R e cmd buf b hb (by omega),
        next_body R e cmd buf b (by omega) hb, List.take_of_length_le
          (by rw [List.length_append]; omega)]
      rw [ih _ _ hclean (by rw [List.length_append]; omega)]
      rfl

theorem completed_length_le (e : Bool) (b : α) :
    (R.completed e b).length ≤ 1 := by
  unfold Stuffing.completed
  split
  · simp
  · split <;> simp

theorem out_body_of_full (e : Bool) (cmd : α) (buf : List α) (b : α)
    (hb : e = false → b ≠ R.fin) (hcompleted : R.completed e b ≠ [])
    (hfull : R.capacity ≤ buf.length) :
    R.machine.out (.body e cmd buf) b = .overflow := by
  cases e with
  | true => simp [out_eq, step, store_verdict, hfull]
  | false =>
      have hesc : b ≠ R.esc := by
        intro hesc
        exact hcompleted (by simp [Stuffing.completed, hesc])
      simp [out_eq, step, hesc, hb rfl, store_verdict, hfull]

/-- A clean stretch with more symbols than fit overflows somewhere. -/
theorem overflow_mem_outputs_body {e : Bool} (cmd : α) {buf xs : List α}
    (hxs : R.Clean e xs) (hbuf : buf.length ≤ R.capacity)
    (hfull : R.capacity < buf.length + (R.unstuff e xs).length) :
    .overflow ∈ R.machine.outputs (.body e cmd buf) xs := by
  induction xs generalizing e buf with
  | nil => exact absurd hfull (Nat.not_lt.mpr hbuf)
  | cons b xs ih =>
      obtain ⟨hb, hclean⟩ := (R.clean_cons e b xs).mp hxs
      rw [R.unstuff_cons, List.length_append] at hfull
      rw [Transducer.outputs_cons, List.mem_cons]
      by_cases hroom : buf.length + (R.completed e b).length ≤ R.capacity
      · refine .inr ?_
        rw [next_body R e cmd buf b hbuf hb, List.take_of_length_le
          (by rw [List.length_append]; exact hroom)]
        exact ih hclean (by rw [List.length_append]; exact hroom)
          (by rw [List.length_append]; omega)
      · refine .inl (out_body_of_full R e cmd buf b hb ?_ ?_).symm
        · intro hnil
          rw [hnil] at hroom
          exact hroom hbuf
        · have hlen := completed_length_le R e b
          omega

/-- The phase of a frame that carried the symbols `ts` so far. -/
def opened (e : Bool) : List α → Phase α
  | [] => .command e
  | c :: rest => .body e c (rest.take R.capacity)

theorem next_command (e : Bool) (b : α) (hb : e = false → b ≠ R.fin) :
    R.machine.next (.command e) b =
      R.opened (R.escapes e b) (R.completed e b) := by
  cases e with
  | true => simp [next_eq, step, Stuffing.escapes, Stuffing.completed, opened]
  | false =>
      by_cases hesc : b = R.esc
      · simp [next_eq, step, hesc, Stuffing.escapes, Stuffing.completed, opened]
      · simp [next_eq, step, hesc, hb rfl, Stuffing.escapes,
          Stuffing.completed, opened]

theorem out_command (e : Bool) (b : α) :
    R.machine.out (.command e) b = .pending := by
  cases e with
  | true => rfl
  | false =>
      simp only [out_eq, step]
      split
      · rfl
      · split <;> rfl

/-- A clean stretch after an opening end symbol: its first symbol is the
command and the rest is the body, cut at the capacity. -/
theorem run_command (e : Bool) (xs : List α) (hxs : R.Clean e xs) :
    R.machine.run (.command e) xs = R.opened (R.pending e xs) (R.unstuff e xs) := by
  induction xs generalizing e with
  | nil => simp [opened]
  | cons b xs ih =>
      obtain ⟨hb, hclean⟩ := (R.clean_cons e b xs).mp hxs
      rw [Transducer.run_cons, next_command R e b hb, R.pending_cons,
        R.unstuff_cons]
      have hlen := completed_length_le R e b
      cases hc : R.completed e b with
      | nil => exact ih _ hclean
      | cons c rest =>
          cases rest with
          | nil =>
              rw [List.singleton_append, opened,
                R.run_body _ c _ xs (by simp) hclean]
              simp [opened]
          | cons c' rest => simp [hc] at hlen

/-- The symbols of a frame that is read from its command on. -/
theorem run_content (cmd : α) {buf : List α}
    (hroom : buf.length ≤ R.capacity) :
    R.machine.run (.command false) (R.stuffAll (cmd :: buf)) =
      .body false cmd buf := by
  rw [R.run_command false _ (R.clean_stuffAll false (cmd :: buf)),
    R.pending_stuffAll, R.unstuff_stuffAll, opened,
    List.take_of_length_le hroom]

theorem outputs_command_of_room (e : Bool) (xs : List α) (hxs : R.Clean e xs)
    (hroom : (R.unstuff e xs).length ≤ R.capacity + 1) :
    R.machine.outputs (.command e) xs = List.replicate xs.length .pending := by
  induction xs generalizing e with
  | nil => rfl
  | cons b xs ih =>
      obtain ⟨hb, hclean⟩ := (R.clean_cons e b xs).mp hxs
      rw [R.unstuff_cons, List.length_append] at hroom
      rw [Transducer.outputs_cons, next_command R e b hb, out_command]
      have hlen := completed_length_le R e b
      cases hc : R.completed e b with
      | nil =>
          rw [hc, List.length_nil, Nat.zero_add] at hroom
          rw [opened, ih _ hclean hroom]
          rfl
      | cons c rest =>
          cases rest with
          | nil =>
              rw [hc, List.length_singleton] at hroom
              rw [opened, List.take_nil, R.outputs_body_of_room _ c _ xs hclean
                (by rw [List.length_nil]; omega)]
              rfl
          | cons c' rest => simp [hc] at hlen

/-- Between frames everything but an end symbol is skipped. -/
theorem run_idle_of_fin_notMem {xs : List α} (h : R.fin ∉ xs) :
    R.machine.run .idle xs = .idle ∧
      R.machine.outputs .idle xs = List.replicate xs.length .pending := by
  induction xs with
  | nil => exact ⟨rfl, rfl⟩
  | cons b xs ih =>
      have hb : b ≠ R.fin := fun hb => h (by simp [hb])
      have hxs : R.fin ∉ xs := fun hxs => h (by simp [hxs])
      obtain ⟨hrun, hout⟩ := ih hxs
      have hnext : R.machine.next .idle b = .idle := by
        simp [next_eq, step, hb]
      constructor
      · rw [Transducer.run_cons, hnext]
        exact hrun
      · rw [Transducer.outputs_cons, hnext, hout]
        rfl

end Receiver

end DuinoBus.Verified
