import DuinoBus.Verified.Receiver

/-!
# Whole streams of frames

What a receiver answers over a stream of frames, from three starting points:
between frames with noise before each frame, ready for a frame, and in an
arbitrary phase left behind by arbitrary input.

The last is resynchronisation.  A frame that finds the receiver out of step
is lost, and whether the next one is read depends only on the phase after it:
a receiver that is not ready then stands inside a body and answers the next
opening end symbol with a refusal (`outputs_frames_iff`).  A receiver whose
refusals leave it ready never stands there (`ready_run_frame`).
-/

namespace DuinoBus.Verified


universe u

/-- One frame of a stream, with the noise in front of it. -/
structure Parcel (α : Type u) where
  noise : List α
  cmd : α
  body : List α

section Streams

variable {α : Type u} [DecidableEq α] (F : Framing α)

/-- The symbols of one parcel on the line. -/
def Framing.wire (t : Parcel α) : List α := t.noise ++ F.frame t.cmd t.body

/-- The answers to one frame that is read: accepted at its last symbol. -/
def Framing.reads (cmd : α) (body : List α) : List (Verdict α) :=
  List.replicate ((F.frame cmd body).length - 1) .pending ++
    [.accepted cmd body (F.check cmd body)]

/-- The answers to a parcel that is read. -/
def Framing.readsParcel (t : Parcel α) : List (Verdict α) :=
  List.replicate t.noise.length .pending ++ F.reads t.cmd t.body

end Streams

/-- An end symbol would open a frame. -/
def Phase.Ready {α : Type u} (p : Phase α) : Prop :=
  p = .idle ∨ p = .command false

/-- No escape is pending: the receiver is ready, or inside a body. -/
def Phase.Settled {α : Type u} (p : Phase α) : Prop :=
  p.Ready ∨ ∃ cmd buf, p = .body false cmd buf

/-- No body is stored: the receiver is outside a frame, or before its
command. -/
def Phase.Between {α : Type u} (p : Phase α) : Prop :=
  p = .idle ∨ ∃ e, p = .command e

theorem Phase.not_ready_body {α : Type u} (e : Bool) (cmd : α)
    (buf : List α) : ¬ (Phase.body e cmd buf).Ready := by
  rintro (h | h) <;> cases h

namespace Receiver

variable {α : Type u} [DecidableEq α] (R : Receiver α)

/-! ## The end symbol -/

theorem step_fin_ready {p : Phase α} (hp : p.Ready) :
    R.step p R.fin = (.command false, .pending) := by
  rcases hp with rfl | rfl
  · simp [step]
  · simp [step, R.esc_ne_fin.symm]

theorem next_fin_ready {p : Phase α} (hp : p.Ready) :
    R.machine.next p R.fin = .command false := by
  rw [next_eq, step_fin_ready R hp]

theorem step_fin_body (cmd : α) (buf : List α) :
    R.step (.body false cmd buf) R.fin = R.close cmd buf := by
  simp [step, R.esc_ne_fin.symm]

/-- After a bare end symbol no escape is pending, and the receiver is ready
unless it was inside a body and refused the frame. -/
theorem settled_next_fin (hshort : ∀ c, (R.afterShort c).Settled)
    (hmismatch : ∀ c b, (R.afterMismatch c b).Settled) (p : Phase α) :
    (R.machine.next p R.fin).Settled := by
  match p with
  | .idle => exact .inl (.inr (by simp [next_eq, step]))
  | .command false =>
      exact .inl (.inr (R.next_fin_ready (.inr rfl)))
  | .command true => exact .inr ⟨R.literal R.fin, [], rfl⟩
  | .body true cmd buf =>
      refine .inr ?_
      simp only [next_eq, step, store]
      split
      · exact ⟨cmd, buf, rfl⟩
      · exact ⟨cmd, buf ++ [R.literal R.fin], rfl⟩
  | .body false cmd buf =>
      rw [next_eq, step_fin_body]
      unfold close
      split
      · exact hshort cmd
      · split
        · exact .inl (.inl rfl)
        · exact hmismatch cmd _

/-- A receiver whose refusals leave it ready is ready after every end symbol
that no escape made a literal. -/
theorem ready_next_fin (hshort : ∀ c, (R.afterShort c).Ready)
    (hmismatch : ∀ c b, (R.afterMismatch c b).Ready) {p : Phase α}
    (hp : p.Settled) : (R.machine.next p R.fin).Ready := by
  rcases hp with hp | ⟨cmd, buf, rfl⟩
  · exact .inr (R.next_fin_ready hp)
  · rw [next_eq, step_fin_body]
    unfold close
    split
    · exact hshort cmd
    · split
      · exact .inl rfl
      · exact hmismatch cmd _

/-- A receiver whose refusals do not leave it ready is ready after a closing
end symbol exactly if that did not refuse. -/
theorem ready_next_fin_iff (hshort : ∀ c, ¬ (R.afterShort c).Ready)
    (hmismatch : ∀ c b, ¬ (R.afterMismatch c b).Ready) {p : Phase α}
    (hp : p.Settled) :
    (R.machine.next p R.fin).Ready ↔
      ∀ cmd buf, p = .body false cmd buf →
        ∃ body sum, buf = body ++ [sum] ∧ sum = R.check cmd body := by
  rcases hp with hp | ⟨cmd, buf, rfl⟩
  · constructor
    · rintro _ cmd buf rfl
      exact absurd hp (Phase.not_ready_body false cmd buf)
    · intro _
      exact .inr (R.next_fin_ready hp)
  · rw [next_eq, step_fin_body]
    rcases List.eq_nil_or_concat buf with rfl | ⟨body, sum, rfl⟩
    · rw [close_nil]
      constructor
      · intro h
        exact absurd h (hshort cmd)
      · intro h
        obtain ⟨body, sum, hnil, _⟩ := h cmd [] rfl
        exact absurd hnil (by simp)
    · rw [List.concat_eq_append, close_concat]
      by_cases hsum : sum = R.check cmd body
      · rw [if_pos hsum]
        constructor
        · rintro _ c buf hbuf
          cases hbuf
          exact ⟨body, sum, rfl, hsum⟩
        · intro _
          exact .inl rfl
      · rw [if_neg hsum]
        constructor
        · intro h
          exact absurd h (hmismatch cmd body)
        · intro h
          obtain ⟨body', sum', hbuf, hsum'⟩ := h cmd (body ++ [sum]) rfl
          obtain ⟨rfl, hs⟩ := List.append_inj' hbuf rfl
          cases hs
          exact absurd hsum' hsum

/-! ## One frame -/

/-- A clean stretch moves a body only within the body. -/
theorem exists_run_body (e : Bool) (cmd : α) (buf xs : List α)
    (hxs : R.Clean e xs) :
    ∃ buf', R.machine.run (.body e cmd buf) xs =
      .body (R.pending e xs) cmd buf' := by
  induction xs generalizing e buf with
  | nil => exact ⟨buf, by simp⟩
  | cons b xs ih =>
      obtain ⟨hb, hclean⟩ := (R.clean_cons e b xs).mp hxs
      have hnext : ∃ buf', R.machine.next (.body e cmd buf) b =
          .body (R.escapes e b) cmd buf' := by
        cases e with
        | true =>
            simp only [next_eq, step, store]
            split
            · exact ⟨buf, rfl⟩
            · exact ⟨buf ++ [R.literal b], rfl⟩
        | false =>
            by_cases hesc : b = R.esc
            · exact ⟨buf, by simp [next_eq, step, hesc, Stuffing.escapes]⟩
            · simp only [next_eq, step, hesc, hb rfl, if_false, store]
              split
              · exact ⟨buf, by simp [Stuffing.escapes, hesc]⟩
              · exact ⟨buf ++ [b], by simp [Stuffing.escapes, hesc]⟩
      obtain ⟨buf₁, h₁⟩ := hnext
      obtain ⟨buf₂, h₂⟩ := ih (R.escapes e b) buf₁ hclean
      exact ⟨buf₂, by rw [Transducer.run_cons, h₁, h₂, R.pending_cons]⟩

/-- The inside of a frame keeps the receiver settled. -/
theorem settled_run_content {p : Phase α} (hp : p.Settled) (ts : List α) :
    (R.machine.run p (R.stuffAll ts)).Settled := by
  rcases hp with (rfl | rfl) | ⟨cmd, buf, rfl⟩
  · rw [(R.run_idle_of_fin_notMem (R.fin_notMem_stuffAll ts)).1]
    exact .inl (.inl rfl)
  · rw [R.run_command false _ (R.clean_stuffAll false ts),
      R.pending_stuffAll, R.unstuff_stuffAll]
    cases ts with
    | nil => exact .inl (.inr rfl)
    | cons c rest => exact .inr ⟨c, _, rfl⟩
  · obtain ⟨buf', h⟩ := R.exists_run_body false cmd buf _
      (R.clean_stuffAll false ts)
    rw [h, R.pending_stuffAll]
    exact .inr ⟨cmd, buf', rfl⟩

/-- Before its closing end symbol, a frame leaves the receiver settled. -/
theorem settled_run_opening (hshort : ∀ c, (R.afterShort c).Settled)
    (hmismatch : ∀ c b, (R.afterMismatch c b).Settled) (p : Phase α)
    (cmd : α) (body : List α) :
    (R.machine.run p (R.frame cmd body).dropLast).Settled := by
  rw [R.dropLast_frame, Transducer.run_cons]
  exact R.settled_run_content
    (R.settled_next_fin hshort hmismatch p) _

theorem run_frame_dropLast (p : Phase α) (cmd : α) (body : List α) :
    R.machine.run p (R.frame cmd body) =
      R.machine.next (R.machine.run p (R.frame cmd body).dropLast) R.fin := by
  have hrun := R.machine.run_append p (R.frame cmd body).dropLast [R.fin]
  rw [R.dropLast_frame_concat] at hrun
  exact hrun

/-- A whole frame leaves the receiver settled, wherever it found it. -/
theorem settled_run_frame (hshort : ∀ c, (R.afterShort c).Settled)
    (hmismatch : ∀ c b, (R.afterMismatch c b).Settled) (p : Phase α)
    (cmd : α) (body : List α) :
    (R.machine.run p (R.frame cmd body)).Settled := by
  rw [run_frame_dropLast]
  exact R.settled_next_fin hshort hmismatch _

/-- A whole frame leaves a receiver whose refusals leave it ready, ready. -/
theorem ready_run_frame (hshort : ∀ c, (R.afterShort c).Ready)
    (hmismatch : ∀ c b, (R.afterMismatch c b).Ready) (p : Phase α)
    (cmd : α) (body : List α) :
    (R.machine.run p (R.frame cmd body)).Ready := by
  rw [run_frame_dropLast]
  exact R.ready_next_fin hshort hmismatch
    (R.settled_run_opening (fun c => .inl (hshort c))
      (fun c b => .inl (hmismatch c b)) p cmd body)

/-- **What a ready receiver makes of enclosed symbols**, when it has room:
nothing up to the closing end symbol, and there what that makes of the command
and the buffer. -/
theorem run_enclose {p : Phase α} (hp : p.Ready) (cmd : α) (buf : List α)
    (hroom : buf.length ≤ R.capacity) :
    R.machine.run p (R.enclose (cmd :: buf)) = (R.close cmd buf).1 ∧
      R.machine.outputs p (R.enclose (cmd :: buf)) =
        List.replicate ((R.enclose (cmd :: buf)).length - 1) .pending ++
          [(R.close cmd buf).2] := by
  have hclean := R.clean_stuffAll false (cmd :: buf)
  have hrun := R.run_content cmd hroom
  have hout : R.machine.outputs (.command false) (R.stuffAll (cmd :: buf)) =
      List.replicate (R.stuffAll (cmd :: buf)).length .pending :=
    R.outputs_command_of_room false _ hclean
      (by rw [R.unstuff_stuffAll, List.length_cons]; omega)
  have hopen := R.next_fin_ready hp
  have hfirst : R.machine.out p R.fin = .pending := by
    rw [out_eq, step_fin_ready R hp]
  constructor
  · rw [Stuffing.enclose, Transducer.run_cons, hopen, Transducer.run_append,
      hrun, Transducer.run_cons, next_eq, step_fin_body, Transducer.run_nil]
  · rw [Stuffing.enclose, Transducer.outputs_cons, hfirst, hopen,
      Transducer.outputs_append, hout, hrun, Transducer.outputs_cons, out_eq,
      step_fin_body, Transducer.outputs_nil, List.length_cons,
      List.length_append, List.length_singleton, Nat.add_sub_cancel,
      List.replicate_succ, List.cons_append]

/-- **A ready receiver with room reads a frame**: it accepts at the last
symbol, answers nothing before, and is between frames again. -/
theorem run_frame {p : Phase α} (hp : p.Ready) (cmd : α) (body : List α)
    (hroom : body.length + 1 ≤ R.capacity) :
    R.machine.run p (R.frame cmd body) = .idle ∧
      R.machine.outputs p (R.frame cmd body) = R.reads cmd body := by
  have hclose : R.close cmd (body ++ [R.check cmd body]) =
      (.idle, .accepted cmd body (R.check cmd body)) := by
    rw [close_concat, if_pos rfl]
  have hread := R.run_enclose hp cmd (body ++ [R.check cmd body])
    (by rw [List.length_append, List.length_singleton]; exact hroom)
  rw [hclose] at hread
  exact hread

/-- The last symbol of a frame is the one that is accepted. -/
theorem step_last_frame {p : Phase α} (hp : p.Ready) (cmd : α)
    (body : List α) (hroom : body.length + 1 ≤ R.capacity) :
    R.step (R.machine.run p (R.frame cmd body).dropLast) R.fin =
      (.idle, .accepted cmd body (R.check cmd body)) := by
  obtain ⟨hrun, hout⟩ := R.run_frame hp cmd body hroom
  rw [R.run_frame_dropLast] at hrun
  rw [← R.dropLast_frame_concat, Transducer.outputs_append,
    Framing.reads] at hout
  have hlast := (List.append_inj' hout rfl).2
  exact Prod.ext hrun (List.cons.inj hlast).1

/-- **A frame that does not fit** overflows the buffer of a ready receiver. -/
theorem overflow_mem_outputs_frame {p : Phase α} (hp : p.Ready) (cmd : α)
    (body : List α) (hfull : R.capacity < body.length + 1) :
    .overflow ∈ R.machine.outputs p (R.frame cmd body) := by
  have hcommand : R.machine.run (.command false) (R.stuff cmd) =
      .body false cmd [] := by
    have hrun := R.run_content cmd
      (show ([] : List α).length ≤ R.capacity from Nat.zero_le _)
    rwa [Stuffing.stuffAll_cons, Stuffing.stuffAll_nil, List.append_nil] at hrun
  rw [Framing.frame, Transducer.outputs_cons, R.next_fin_ready hp,
    Framing.content, Stuffing.stuffAll_cons, List.append_assoc,
    Transducer.outputs_append, Transducer.outputs_append, hcommand]
  refine List.mem_cons_of_mem _ (List.mem_append_right _
    (List.mem_append_left _ (R.overflow_mem_outputs_body cmd
      (R.clean_stuffAll false _) (Nat.zero_le _) ?_)))
  rw [R.unstuff_stuffAll, List.length_append, List.length_nil,
    List.length_singleton]
  omega

/-! ## Inside one frame -/

/-- The receiver is reading a frame of which `rest` has still to come. -/
def Reading (cmd : α) (body : List α) (p : Phase α) (rest : List α) : Prop :=
  ∃ p₀ front, p₀.Ready ∧ R.frame cmd body = front ++ rest ∧
    p = R.machine.run p₀ front

theorem reading_frame {p : Phase α} (hp : p.Ready) (cmd : α)
    (body : List α) : R.Reading cmd body p (R.frame cmd body) :=
  ⟨p, [], hp, rfl, rfl⟩

/-- The answer in the middle of a frame is one of its answers. -/
private theorem Reading.out_eq {cmd : α} {body : List α} {p : Phase α}
    {b : α} {rest : List α} (h : R.Reading cmd body p (b :: rest))
    (hroom : body.length + 1 ≤ R.capacity) :
    R.machine.out p b :: R.machine.outputs (R.machine.next p b) rest =
      List.replicate rest.length .pending ++
        [.accepted cmd body (R.check cmd body)] := by
  obtain ⟨p₀, front, hready, hsplit, rfl⟩ := h
  have hout := (R.run_frame hready cmd body hroom).2
  have hlen : (R.frame cmd body).length - 1 = front.length + rest.length := by
    rw [hsplit, List.length_append, List.length_cons]
    omega
  rw [Framing.reads, hlen, List.replicate_add, List.append_assoc, hsplit,
    Transducer.outputs_append] at hout
  exact (List.append_inj hout (by simp)).2

/-- Before its last symbol, a frame is read on without an answer. -/
theorem Reading.pending {cmd : α} {body : List α} {p : Phase α} {b : α}
    {rest : List α} (h : R.Reading cmd body p (b :: rest))
    (hroom : body.length + 1 ≤ R.capacity) (hrest : rest ≠ []) :
    R.machine.out p b = .pending ∧
      R.Reading cmd body (R.machine.next p b) rest := by
  have hout := h.out_eq R hroom
  obtain ⟨c, rest', rfl⟩ := List.exists_cons_of_ne_nil hrest
  refine ⟨?_, ?_⟩
  · rw [List.length_cons, List.replicate_succ, List.cons_append] at hout
    exact (List.cons.inj hout).1
  · obtain ⟨p₀, front, hready, hsplit, rfl⟩ := h
    refine ⟨p₀, front ++ [b], hready, ?_, ?_⟩
    · rw [hsplit]
      simp
    · rw [Transducer.run_append]
      rfl

/-- At its last symbol, a frame is accepted. -/
theorem Reading.accepted {cmd : α} {body : List α} {p : Phase α} {b : α}
    (h : R.Reading cmd body p [b]) (hroom : body.length + 1 ≤ R.capacity) :
    R.machine.out p b = .accepted cmd body (R.check cmd body) ∧
      R.machine.next p b = .idle := by
  have hout := h.out_eq R hroom
  have hfirst : R.machine.out p b =
      .accepted cmd body (R.check cmd body) := (List.cons.inj hout).1
  refine ⟨hfirst, ?_⟩
  obtain ⟨p₀, front, hready, hsplit, rfl⟩ := h
  have hrun := (R.run_frame hready cmd body hroom).1
  rw [hsplit, Transducer.run_append] at hrun
  exact hrun

/-! ## Streams -/

/-- **Reading a stream from between frames**, with noise before each frame:
every frame is accepted at its last symbol, and there only. -/
theorem outputs_stream (ts : List (Parcel α))
    (hnoise : ∀ t ∈ ts, R.fin ∉ t.noise)
    (hroom : ∀ t ∈ ts, t.body.length + 1 ≤ R.capacity) :
    R.machine.run .idle (ts.flatMap R.wire) = .idle ∧
      R.machine.outputs .idle (ts.flatMap R.wire) =
        ts.flatMap R.readsParcel := by
  induction ts with
  | nil => exact ⟨rfl, rfl⟩
  | cons t ts ih =>
      obtain ⟨hrun, hout⟩ := ih (fun s hs => hnoise s (by simp [hs]))
        (fun s hs => hroom s (by simp [hs]))
      obtain ⟨hrunN, houtN⟩ := R.run_idle_of_fin_notMem
        (hnoise t (by simp))
      obtain ⟨hrunF, houtF⟩ := R.run_frame (.inl rfl) t.cmd t.body
        (hroom t (by simp))
      constructor
      · rw [List.flatMap_cons, Framing.wire, Transducer.run_append,
          Transducer.run_append, hrunN, hrunF, hrun]
      · rw [List.flatMap_cons, List.flatMap_cons, Framing.wire,
          Transducer.outputs_append, Transducer.outputs_append,
          Transducer.run_append, hrunN, houtN, hrunF, houtF, hout,
          Framing.readsParcel]

/-- The symbols of frames that follow each other directly. -/
def frames (fs : List (α × List α)) : List α :=
  fs.flatMap fun f => R.frame f.1 f.2

/-- The answers to frames that are all read. -/
def readsAll (fs : List (α × List α)) : List (Verdict α) :=
  fs.flatMap fun f => R.reads f.1 f.2

/-- A ready receiver reads frames that follow each other directly, and is
ready again after them. -/
theorem outputs_frames {p : Phase α} (hp : p.Ready) (fs : List (α × List α))
    (hroom : ∀ f ∈ fs, f.2.length + 1 ≤ R.capacity) :
    (R.machine.run p (R.frames fs)).Ready ∧
      R.machine.outputs p (R.frames fs) = R.readsAll fs := by
  induction fs generalizing p with
  | nil => exact ⟨hp, rfl⟩
  | cons f fs ih =>
      obtain ⟨hrun, hout⟩ := R.run_frame hp f.1 f.2 (hroom f (by simp))
      obtain ⟨hready, hrest⟩ := ih (p := .idle) (.inl rfl)
        (fun g hg => hroom g (by simp [hg]))
      rw [frames, List.flatMap_cons, readsAll, List.flatMap_cons,
        Transducer.run_append, Transducer.outputs_append, hrun, hout]
      exact ⟨hready, congrArg _ hrest⟩

/-- So does one of several frames. -/
theorem overflow_mem_outputs_frames {p : Phase α} (hp : p.Ready)
    {fs : List (α × List α)} (h : ∃ f ∈ fs, R.capacity < f.2.length + 1) :
    .overflow ∈ R.machine.outputs p (R.frames fs) := by
  induction fs generalizing p with
  | nil =>
      obtain ⟨f, hf, _⟩ := h
      cases hf
  | cons f fs ih =>
      rw [frames, List.flatMap_cons, Transducer.outputs_append,
        List.mem_append]
      by_cases hroom : f.2.length + 1 ≤ R.capacity
      · obtain ⟨hrun, _⟩ := R.run_frame hp f.1 f.2 hroom
        rw [hrun]
        refine .inr (ih (.inl rfl) ?_)
        obtain ⟨g, hg, hfull⟩ := h
        rcases List.mem_cons.mp hg with rfl | hg
        · omega
        · exact ⟨g, hg, hfull⟩
      · exact .inl (R.overflow_mem_outputs_frame hp f.1 f.2
          (Nat.lt_of_not_le hroom))

/-- **Frames are read exactly from ready phases.**  Inside a body, the first
end symbol is answered with an acceptance or a refusal, and the frame it was
meant to open is not read. -/
theorem outputs_frames_iff {p : Phase α} (hp : p.Settled)
    (fs : List (α × List α))
    (hroom : ∀ f ∈ fs, f.2.length + 1 ≤ R.capacity) :
    R.machine.outputs p (R.frames fs) = R.readsAll fs ↔
      fs = [] ∨ p.Ready := by
  constructor
  · intro h
    rcases hp with hp | ⟨cmd, buf, rfl⟩
    · exact .inr hp
    · cases fs with
      | nil => exact .inl rfl
      | cons f fs =>
          have hfirst : (R.close cmd buf).2 = .pending := by
            have := congrArg List.head? h
            simpa [frames, readsAll, Framing.frame, Framing.reads, out_eq,
              step_fin_body, List.replicate_succ] using this
          exact absurd hfirst (R.close_ne_pending cmd buf)
  · rintro (rfl | hp)
    · rfl
    · exact (R.outputs_frames hp fs hroom).2

end Receiver

end DuinoBus.Verified
