import DuinoBus.Verified.ReceiverStream
import Mathlib.Logic.Function.Iterate

/-!
# Receivers that stay out of step

Some receivers answer a frame that they refuse and stay inside its body, with
one symbol less in the buffer.  Such a receiver takes the opening end symbol of
the next frame for another closing one, and stores that frame behind what it
has.  It leaves the body at an end symbol that it accepts, and nowhere else.

## Main results

* `run_frame_of_silent`: what a frame leaves of the buffer.
* `silent_copies_iff`: given one frame again and again, such a receiver accepts
  something soon or never.
-/

namespace DuinoBus.Verified

universe u

/-- The answer accepts a frame. -/
def Verdict.accepts {α : Type u} : Verdict α → Bool
  | .accepted _ _ _ => true
  | _ => false

/-- None of the answers accepts a frame. -/
def Silent {α : Type u} (answers : List (Verdict α)) : Prop :=
  ∀ v ∈ answers, v.accepts = false

theorem silent_append {α : Type u} {vs ws : List (Verdict α)} :
    Silent (vs ++ ws) ↔ Silent vs ∧ Silent ws := List.forall_mem_append

theorem silent_cons {α : Type u} {v : Verdict α} {vs : List (Verdict α)} :
    Silent (v :: vs) ↔ v.accepts = false ∧ Silent vs := List.forall_mem_cons

/-- What is stored fits a buffer of that size. -/
def Phase.Fits {α : Type u} (capacity : Nat) (p : Phase α) : Prop :=
  ∀ e cmd buf, p = .body e cmd buf → buf.length ≤ capacity

/-! ## What grows comes to rest -/

/-- A quantity that is bounded and never falls stays the same at some step. -/
theorem exists_same_size {β : Type u} {f : β → β} {size : β → Nat} {bound : Nat}
    (hgrows : ∀ x, size x ≤ bound → size x ≤ size (f x) ∧ size (f x) ≤ bound)
    {x : β} (hx : size x ≤ bound) :
    ∃ k ≤ bound - size x, size (f (f^[k] x)) = size (f^[k] x) := by
  induction hn : bound - size x using Nat.strongRecOn generalizing x with
  | ind n ih =>
      by_cases hsame : size (f x) = size x
      · exact ⟨0, Nat.zero_le n, hsame⟩
      · obtain ⟨hle, hbound⟩ := hgrows x hx
        obtain ⟨k, hk, hrest⟩ := ih (bound - size (f x)) (by omega) hbound rfl
        exact ⟨k + 1, by omega, hrest⟩

namespace Receiver

variable {α : Type u} [DecidableEq α] (R : Receiver α)

/-! ## Answers that accept nothing -/

/-- Without an end symbol nothing is accepted. -/
theorem silent_of_fin_notMem {xs : List α} (h : R.fin ∉ xs) (p : Phase α) :
    Silent (R.machine.outputs p xs) := by
  induction xs generalizing p with
  | nil => exact fun v hv => by cases hv
  | cons b xs ih =>
      rw [List.mem_cons, not_or] at h
      refine silent_cons.mpr ⟨?_, ih h.2 _⟩
      cases hout : R.machine.out p b with
      | accepted cmd body sum =>
          have hfin := ((R.step_accepted_iff p b cmd body sum).mp hout).1
          exact absurd hfin.symm h.1
      | _ => rfl

/-- A frame is answered by its two end symbols. -/
theorem silent_frame_iff (p : Phase α) (cmd : α) (body : List α) :
    Silent (R.machine.outputs p (R.frame cmd body)) ↔
      (R.machine.out p R.fin).accepts = false ∧
      (R.machine.out (R.machine.run p (R.frame cmd body).dropLast)
        R.fin).accepts = false := by
  rw [R.dropLast_frame, Framing.frame, Transducer.outputs_cons, silent_cons,
    Transducer.outputs_append, silent_append, Transducer.run_cons,
    Transducer.outputs_cons, silent_cons]
  have hinside := R.silent_of_fin_notMem
    (R.fin_notMem_stuffAll (R.content cmd body)) (R.machine.next p R.fin)
  constructor
  · rintro ⟨hopen, _, hclose, _⟩
    exact ⟨hopen, hclose⟩
  · rintro ⟨hopen, hclose⟩
    exact ⟨hopen, hinside, hclose, fun v hv => by cases hv⟩

/-- The symbols of a frame that is sent `n` times. -/
def copies (n : Nat) (f : α × List α) : List α := R.frames (List.replicate n f)

theorem copies_succ (n : Nat) (f : α × List α) :
    R.copies (n + 1) f = R.frame f.1 f.2 ++ R.copies n f := rfl

theorem copies_add (m n : Nat) (f : α × List α) :
    R.copies (m + n) f = R.copies m f ++ R.copies n f := by
  rw [copies, List.replicate_add, frames, List.flatMap_append]
  rfl

theorem silent_copies_of_le {p : Phase α} {f : α × List α} {m n : Nat}
    (hle : m ≤ n) (h : Silent (R.machine.outputs p (R.copies n f))) :
    Silent (R.machine.outputs p (R.copies m f)) := by
  obtain ⟨k, rfl⟩ := Nat.exists_eq_add_of_le hle
  rw [copies_add, Transducer.outputs_append, silent_append] at h
  exact h.1

/-! ## Staying inside the body -/

/-- Whatever is refused, the receiver stays inside the body, and one symbol of
it is gone. -/
structure Stays : Prop where
  short : ∀ cmd, R.afterShort cmd = .body false cmd []
  mismatch : ∀ cmd body, R.afterMismatch cmd body = .body false cmd body

/-- What is left of the buffer behind a frame with the symbols `w`, if neither
of its end symbols is accepted. -/
def kept (w buf : List α) : List α :=
  ((buf.dropLast ++ w).take R.capacity).dropLast

omit [DecidableEq α] in
theorem length_kept (w buf : List α) :
    (R.kept w buf).length = min (buf.length - 1 + w.length) R.capacity - 1 := by
  rw [kept, List.length_dropLast, List.length_take, List.length_append,
    List.length_dropLast, Nat.min_comm]

omit [DecidableEq α] in
theorem length_kept_le (w buf : List α) :
    (R.kept w buf).length ≤ R.capacity - 1 := by
  rw [length_kept]
  omega

omit [DecidableEq α] in
/-- A frame leaves no less in the buffer than was there. -/
theorem length_le_kept {w buf : List α} (hw : 2 ≤ w.length)
    (hbuf : buf.length ≤ R.capacity - 1) :
    buf.length ≤ (R.kept w buf).length := by
  rw [length_kept]
  omega

omit [DecidableEq α] in
/-- **At rest.**  When a frame leaves the buffer as long as it was, copies of
that frame change it no more. -/
theorem kept_kept {w buf : List α}
    (hsame : (R.kept w buf).length = buf.length) :
    R.kept w (R.kept w buf) = R.kept w buf := by
  have hfront : (R.kept w buf).dropLast = buf.dropLast := by
    have hlen : (R.kept w buf).dropLast.length = buf.dropLast.length := by
      rw [List.length_dropLast, List.length_dropLast, hsame]
    have hkept : (R.kept w buf).dropLast <+: buf.dropLast ++ w := by
      rw [kept]
      exact (List.dropLast_prefix _).trans
        ((List.dropLast_prefix _).trans (List.take_prefix _ _))
    have hbuf : buf.dropLast <+: buf.dropLast ++ w := List.prefix_append _ _
    exact (List.prefix_of_prefix_length_le hkept hbuf
      (Nat.le_of_eq hlen)).eq_of_length hlen
  rw [kept, hfront]
  rfl

variable {R}

/-- An end symbol that is not accepted costs the last symbol of the buffer. -/
theorem Stays.next_fin (h : R.Stays) {cmd : α} {buf : List α}
    (hrefused : (R.machine.out (.body false cmd buf) R.fin).accepts = false) :
    R.machine.next (.body false cmd buf) R.fin =
      .body false cmd buf.dropLast := by
  rw [out_eq, step_fin_body] at hrefused
  rw [next_eq, step_fin_body]
  rcases List.eq_nil_or_concat buf with rfl | ⟨body, sum, rfl⟩
  · exact h.short cmd
  · rw [List.concat_eq_append, close_concat] at hrefused ⊢
    rw [List.dropLast_concat]
    split at hrefused
    · cases hrefused
    · next hsum => rw [if_neg hsum, h.mismatch]

/-- A frame that begins inside the body, up to its closing end symbol. -/
theorem Stays.run_opening (h : R.Stays) {cmd : α} {buf : List α}
    (hbuf : buf.length ≤ R.capacity)
    (hrefused : (R.machine.out (.body false cmd buf) R.fin).accepts = false)
    (c : α) (body : List α) :
    R.machine.run (.body false cmd buf) (R.frame c body).dropLast =
      .body false cmd ((buf.dropLast ++ R.content c body).take R.capacity) := by
  rw [R.dropLast_frame, Transducer.run_cons, h.next_fin hrefused,
    R.run_body false cmd buf.dropLast _ (by rw [List.length_dropLast]; omega)
      (R.clean_stuffAll false _), R.pending_stuffAll, R.unstuff_stuffAll]

/-- **A frame that is not accepted**, at either of its end symbols, is stored
behind what the buffer holds. -/
theorem Stays.run_frame (h : R.Stays) {cmd : α} {buf : List α}
    (hbuf : buf.length ≤ R.capacity) {c : α} {body : List α}
    (hsilent : Silent (R.machine.outputs (.body false cmd buf)
      (R.frame c body))) :
    R.machine.run (.body false cmd buf) (R.frame c body) =
      .body false cmd (R.kept (R.content c body) buf) := by
  obtain ⟨hopen, hclose⟩ := (R.silent_frame_iff _ c body).mp hsilent
  rw [h.run_opening hbuf hopen] at hclose
  rw [R.run_frame_dropLast, h.run_opening hbuf hopen, h.next_fin hclose, kept]

/-- Copies of a frame that are not accepted. -/
theorem Stays.run_copies (h : R.Stays) {cmd : α} {buf : List α}
    (hbuf : buf.length ≤ R.capacity) {f : α × List α} {n : Nat}
    (hsilent : Silent (R.machine.outputs (.body false cmd buf)
      (R.copies n f))) :
    R.machine.run (.body false cmd buf) (R.copies n f) =
      .body false cmd ((R.kept (R.content f.1 f.2))^[n] buf) := by
  induction n generalizing buf with
  | zero => rfl
  | succ n ih =>
      rw [R.copies_succ, Transducer.outputs_append, silent_append] at hsilent
      have hfirst := h.run_frame hbuf hsilent.1
      have hroom := R.length_kept_le (R.content f.1 f.2) buf
      rw [hfirst] at hsilent
      rw [R.copies_succ, Transducer.run_append, hfirst, ih (by omega) hsilent.2,
        Function.iterate_succ_apply]

/-- A buffer that one copy leaves as it is, every copy leaves as it is. -/
theorem Stays.silent_at_rest (h : R.Stays) {cmd : α} {buf : List α}
    (hbuf : buf.length ≤ R.capacity) {f : α × List α}
    (hrest : R.kept (R.content f.1 f.2) buf = buf)
    (hsilent : Silent (R.machine.outputs (.body false cmd buf)
      (R.frame f.1 f.2))) (n : Nat) :
    Silent (R.machine.outputs (.body false cmd buf) (R.copies n f)) := by
  induction n with
  | zero => exact fun v hv => by cases hv
  | succ n ih =>
      rw [R.copies_succ, Transducer.outputs_append, silent_append,
        h.run_frame hbuf hsilent, hrest]
      exact ⟨hsilent, ih⟩

/-- **Nothing accepted while the buffer comes to rest**: nothing is accepted
ever. -/
theorem Stays.silent_copies_body (h : R.Stays) {cmd : α} {buf : List α}
    (hbuf : buf.length ≤ R.capacity - 1) {f : α × List α}
    (hsilent : Silent (R.machine.outputs (.body false cmd buf)
      (R.copies (R.capacity + 2) f))) (n : Nat) :
    Silent (R.machine.outputs (.body false cmd buf) (R.copies n f)) := by
  have hcontent : 2 ≤ (R.content f.1 f.2).length := by simp [Framing.content]
  obtain ⟨k, hk, hsame⟩ :=
    @exists_same_size _ (R.kept (R.content f.1 f.2)) List.length _
      (fun x hx => ⟨R.length_le_kept hcontent hx, R.length_kept_le _ x⟩) _ hbuf
  have hrest := R.kept_kept hsame
  rw [← Function.iterate_succ_apply' (R.kept (R.content f.1 f.2))] at hrest
  -- up to the copy at which the buffer is at rest, and one more
  have hcome := R.silent_copies_of_le (show k + 1 + 1 ≤ R.capacity + 2 by omega)
    hsilent
  rw [R.copies_add (k + 1) 1, Transducer.outputs_append, silent_append] at hcome
  have hrun := h.run_copies (by omega) hcome.1
  have hroom := R.length_kept_le (R.content f.1 f.2)
    ((R.kept (R.content f.1 f.2))^[k] buf)
  rw [← Function.iterate_succ_apply' (R.kept (R.content f.1 f.2))] at hroom
  rw [hrun] at hcome
  have hever := h.silent_at_rest (by omega) hrest
    (by rw [← List.append_nil (R.frame f.1 f.2)]; exact hcome.2)
  rcases Nat.le_total n (k + 1) with hle | hle
  · exact R.silent_copies_of_le (Nat.le_trans hle (by omega)) hsilent
  · obtain ⟨m, rfl⟩ := Nat.exists_eq_add_of_le hle
    rw [R.copies_add, Transducer.outputs_append, silent_append, hrun]
    exact ⟨hcome.1, hever m⟩

/-! ## Frames without a body -/

/-- A frame without a body leaves its command in the place of the last symbol
of the buffer. -/
theorem Stays.silent_empty_iff (h : R.Stays) (cmd x c : α) {body : List α}
    (hroom : body.length + 2 ≤ R.capacity) :
    (Silent (R.machine.outputs (.body false cmd (body ++ [x])) (R.frame c [])) ↔
      x ≠ R.check cmd body ∧ R.check c [] ≠ R.check cmd (body ++ [c])) ∧
    R.kept (R.content c []) (body ++ [x]) = body ++ [c] := by
  have hbuf : (body ++ [x]).length ≤ R.capacity := by
    rw [List.length_append, List.length_singleton]
    omega
  have hstored : ((body ++ [x]).dropLast ++ R.content c []).take R.capacity =
      body ++ [c] ++ [R.check c []] := by
    rw [List.dropLast_concat, Framing.content, List.nil_append,
      List.take_of_length_le (by simp; omega), List.append_assoc]
    rfl
  have haccepts : ∀ buf sum, (R.machine.out (.body false cmd (buf ++ [sum]))
      R.fin).accepts = false ↔ sum ≠ R.check cmd buf := by
    intro buf sum
    rw [out_eq, step_fin_body, close_concat]
    split
    · next hsum =>
        exact iff_of_false (fun haccepts => by cases haccepts)
          (fun hne => hne hsum)
    · next hsum => exact iff_of_true rfl hsum
  refine ⟨?_, ?_⟩
  · rw [R.silent_frame_iff, haccepts]
    refine and_congr_right fun hx => ?_
    rw [h.run_opening hbuf ((haccepts body x).mpr hx), hstored, haccepts]
  · rw [kept, hstored, List.dropLast_concat]

/-- **Frames without a body, one after the other**, from inside the body: none
is accepted if none of them, but for the last, and nothing before them is the
check of the buffer, and none has a check that is right behind the buffer. -/
theorem Stays.silent_empties_iff (h : R.Stays) (cmd x : α) {body : List α}
    (hroom : body.length + 2 ≤ R.capacity) (cs : List α) :
    Silent (R.machine.outputs (.body false cmd (body ++ [x]))
        (R.frames (cs.map fun c => (c, [])))) ↔
      R.check cmd body ∉ (x :: cs).dropLast ∧
        ∀ c ∈ cs, R.check c [] ≠ R.check cmd (body ++ [c]) := by
  induction cs generalizing x with
  | nil =>
      refine iff_of_true (fun v hv => by cases hv) ⟨?_, fun c hc => by cases hc⟩
      exact List.not_mem_nil
  | cons c cs ih =>
      obtain ⟨hfirst, hkept⟩ := h.silent_empty_iff cmd x c hroom
      have hbuf : (body ++ [x]).length ≤ R.capacity := by
        rw [List.length_append, List.length_singleton]
        omega
      rw [List.map_cons, frames, List.flatMap_cons, ← frames,
        Transducer.outputs_append, silent_append, List.dropLast_cons_cons,
        List.mem_cons, not_or, List.forall_mem_cons]
      constructor
      · rintro ⟨hsilent, hrest⟩
        obtain ⟨hx, hc⟩ := hfirst.mp hsilent
        rw [h.run_frame hbuf hsilent, hkept, ih] at hrest
        exact ⟨⟨fun he => hx he.symm, hrest.1⟩, hc, hrest.2⟩
      · rintro ⟨⟨hx, hcs⟩, hc, hall⟩
        have hsilent := hfirst.mpr ⟨fun he => hx he.symm, hc⟩
        rw [h.run_frame hbuf hsilent, hkept, ih]
        exact ⟨hsilent, hcs, hall⟩

/-! ## From any phase -/

theorem Stays.fits_close (h : R.Stays) (cmd : α) {buf : List α}
    (hbuf : buf.length ≤ R.capacity) :
    (R.close cmd buf).1.Fits R.capacity := by
  intro e c buf' hphase
  rcases List.eq_nil_or_concat buf with rfl | ⟨body, sum, rfl⟩
  · rw [close_nil, h.short] at hphase
    cases hphase
    exact Nat.zero_le _
  · rw [List.length_concat] at hbuf
    rw [List.concat_eq_append, close_concat] at hphase
    split at hphase
    · cases hphase
    · rw [h.mismatch] at hphase
      cases hphase
      omega

omit [DecidableEq α] in
theorem fits_store (cmd : α) {buf : List α} (hbuf : buf.length ≤ R.capacity)
    (b : α) : (R.store cmd buf b).1.Fits R.capacity := by
  intro e c buf' hphase
  rw [R.store_phase cmd buf b hbuf] at hphase
  cases hphase
  exact List.length_take_le _ _

/-- The buffer never holds more than fits. -/
theorem Stays.fits_next (h : R.Stays) {p : Phase α} (hp : p.Fits R.capacity)
    (b : α) : (R.machine.next p b).Fits R.capacity := by
  rw [next_eq]
  match p with
  | .idle =>
      intro e c buf hphase
      simp only [step] at hphase
      split at hphase <;> cases hphase
  | .command true =>
      intro e c buf hphase
      cases hphase
      exact Nat.zero_le _
  | .command false =>
      intro e c buf hphase
      simp only [step] at hphase
      split at hphase
      · cases hphase
      · split at hphase
        · cases hphase
        · cases hphase
          exact Nat.zero_le _
  | .body true cmd buf => exact fits_store cmd (hp _ _ _ rfl) _
  | .body false cmd buf =>
      simp only [step]
      split
      · intro e c buf' hphase
        cases hphase
        exact hp _ _ _ rfl
      · split
        · exact h.fits_close cmd (hp _ _ _ rfl)
        · exact fits_store cmd (hp _ _ _ rfl) b

theorem Stays.fits_run (h : R.Stays) {p : Phase α} (hp : p.Fits R.capacity)
    (xs : List α) : (R.machine.run p xs).Fits R.capacity := by
  induction xs generalizing p with
  | nil => exact hp
  | cons b xs ih => exact ih (h.fits_next hp b)

theorem Stays.settled_run_frame (h : R.Stays) (p : Phase α) (c : α)
    (body : List α) : (R.machine.run p (R.frame c body)).Settled :=
  R.settled_run_frame (fun cmd => .inr ⟨cmd, [], h.short cmd⟩)
    (fun cmd body => .inr ⟨cmd, body, h.mismatch cmd body⟩) p c body

/-- **Out of step.**  A frame that finds the receiver settled, and is not
accepted, leaves it inside the body. -/
theorem Stays.enters_body (h : R.Stays) {p : Phase α} (hp : p.Settled)
    (hfits : p.Fits R.capacity) {c : α} {body : List α}
    (hsilent : Silent (R.machine.outputs p (R.frame c body))) :
    ∃ cmd buf, R.machine.run p (R.frame c body) = .body false cmd buf ∧
      buf.length ≤ R.capacity - 1 := by
  rcases hp with hready | ⟨cmd, buf, rfl⟩
  · by_cases hroom : body.length + 1 ≤ R.capacity
    · rw [(R.run_frame hready c body hroom).2, Framing.reads, silent_append,
        silent_cons] at hsilent
      cases hsilent.2.1
    · have hopening : R.machine.run p (R.frame c body).dropLast =
          .body false c ((body ++ [R.check c body]).take R.capacity) := by
        rw [R.dropLast_frame, Transducer.run_cons, R.next_fin_ready hready,
          R.run_command false _ (R.clean_stuffAll false _), R.pending_stuffAll,
          R.unstuff_stuffAll, Framing.content, opened]
      have hrefused := ((R.silent_frame_iff p c body).mp hsilent).2
      rw [hopening] at hrefused
      have hrun := h.next_fin hrefused
      rw [← hopening, ← R.run_frame_dropLast] at hrun
      refine ⟨c, _, hrun, ?_⟩
      rw [List.length_dropLast, List.length_take]
      omega
  · exact ⟨cmd, _, h.run_frame (hfits _ _ _ rfl) hsilent, R.length_kept_le _ _⟩

/-- **Soon or never.**  Given one frame again and again, the receiver accepts
something by the time that its buffer has filled up, or it never does. -/
theorem Stays.silent_copies_iff (h : R.Stays) {p : Phase α}
    (hp : p.Fits R.capacity) (f : α × List α) :
    (∀ n, Silent (R.machine.outputs p (R.copies n f))) ↔
      Silent (R.machine.outputs p (R.copies (R.capacity + 4) f)) := by
  refine ⟨fun hall => hall _, fun hsilent n => ?_⟩
  have hlong : Silent (R.machine.outputs p (R.copies (n + 2) f)) := by
    rw [R.copies_succ, Transducer.outputs_append, silent_append, R.copies_succ,
      Transducer.outputs_append, silent_append] at hsilent ⊢
    obtain ⟨hfirst, hsecond, hrest⟩ := hsilent
    obtain ⟨cmd, buf, hrun, hbuf⟩ := h.enters_body
      (h.settled_run_frame p f.1 f.2) (h.fits_run hp _) hsecond
    rw [hrun] at hrest ⊢
    exact ⟨hfirst, hsecond, h.silent_copies_body hbuf hrest n⟩
  exact R.silent_copies_of_le (Nat.le_add_right n 2) hlong

end Receiver

end DuinoBus.Verified
