import DuinoBus.Verified.ReceiverStream

/-!
# Canonical frames

A receiver accepts many forms of a frame: noise and end symbols in front of
it, and escapes before symbols that no writer escapes.  A canonical frame has
none of these: one end symbol, and each escape followed by one of the two
symbols that a writer puts there.

Among the canonical frames each packet has one, the frame that a writer
produces: `AcceptedAtEnd.eq_frame`.
-/

namespace DuinoBus.Verified


universe u

namespace Stuffing

variable {α : Type u} [DecidableEq α] (S : Stuffing α)

/-- Every escape is followed by one of the symbols that a writer puts after
an escape. -/
def EscapesPaired : List α → Prop
  | [] => True
  | b :: bs =>
      (b = S.esc → bs.head? = some S.escFin ∨ bs.head? = some S.escEsc) ∧
        EscapesPaired bs

/-- A writer's form of some symbols, read with an escape pending or not. -/
def Canonical : Bool → List α → Prop
  | false, [] => True
  | true, [] => False
  | true, b :: bs => (b = S.escFin ∨ b = S.escEsc) ∧ Canonical false bs
  | false, b :: bs => b ≠ S.fin ∧ Canonical (decide (b = S.esc)) bs

/-- Writing undoes reading on canonical forms. -/
theorem stuffAll_unstuff {e : Bool} {xs : List α} (h : S.Canonical e xs) :
    S.stuffAll (S.unstuff e xs) = (if e then [S.esc] else []) ++ xs := by
  induction xs generalizing e with
  | nil =>
      cases e with
      | false => rfl
      | true => exact h.elim
  | cons b xs ih =>
      cases e with
      | true =>
          rw [unstuff, stuffAll_cons, ih h.2]
          rcases h.1 with hb | hb
          · rw [hb, S.literal_escFin, S.stuff_fin]
            rfl
          · rw [hb, S.literal_escEsc, S.stuff_esc]
            rfl
      | false =>
          by_cases hesc : b = S.esc
          · have hrest := h.2
            rw [decide_eq_true hesc] at hrest
            rw [unstuff, if_pos hesc, ih hrest, hesc]
            rfl
          · have hrest := h.2
            rw [decide_eq_false hesc] at hrest
            rw [unstuff, if_neg hesc, stuffAll_cons, ih hrest,
              S.stuff_plain h.1 hesc]
            rfl

/-- Between two end symbols, a clean stretch with paired escapes is
canonical. -/
theorem canonical_of_paired {e : Bool} {xs : List α} (hclean : S.Clean e xs)
    (hpaired : S.EscapesPaired (xs ++ [S.fin]))
    (hfirst : e = true → (xs ++ [S.fin]).head? = some S.escFin ∨
      (xs ++ [S.fin]).head? = some S.escEsc) : S.Canonical e xs := by
  induction xs generalizing e with
  | nil =>
      cases e with
      | false => trivial
      | true =>
          rcases hfirst rfl with hfin | hfin
          · exact S.escFin_ne_fin (Option.some.inj hfin).symm
          · exact S.escEsc_ne_fin (Option.some.inj hfin).symm
  | cons b xs ih =>
      cases e with
      | true =>
          have hrest := ih (e := false) hclean hpaired.2
            (fun hfalse => by cases hfalse)
          refine ⟨?_, hrest⟩
          rcases hfirst rfl with hb | hb
          · exact .inl (Option.some.inj hb)
          · exact .inr (Option.some.inj hb)
      | false =>
          refine ⟨hclean.1, ih hclean.2 hpaired.2 ?_⟩
          intro hesc
          exact hpaired.1 (of_decide_eq_true hesc)

end Stuffing

namespace Receiver

variable {α : Type u} [DecidableEq α] (R : Receiver α)

/-! ## Quiet stretches -/

/-- A symbol that completes nothing starts an escape. -/
theorem escapes_of_completed_nil {e : Bool} {b : α}
    (h : R.completed e b = []) : R.escapes e b = true := by
  unfold Stuffing.completed at h
  split at h
  · cases h
  · next hclear =>
      split at h
      · next hesc => simp [Stuffing.escapes, hclear, hesc]
      · cases h

/-- In the body, a symbol that is not answered is stored or starts an
escape. -/
theorem next_body_of_pending {e : Bool} {cmd : α} {buf : List α} {b : α}
    (h : R.machine.out (.body e cmd buf) b = .pending) :
    (e = false → b ≠ R.fin) ∧
      R.machine.next (.body e cmd buf) b =
        .body (R.escapes e b) cmd (buf ++ R.completed e b) := by
  have hstore : ∀ c, (R.store cmd buf c).2 = .pending →
      (R.store cmd buf c).1 = .body false cmd (buf ++ [c]) := by
    intro c hpending
    unfold store at hpending ⊢
    split at hpending
    · cases hpending
    · next hroom => rw [if_neg hroom]
  cases e with
  | true => exact ⟨(fun hfalse => by cases hfalse), hstore _ h⟩
  | false =>
      rw [out_eq, step] at h
      rw [next_eq, step]
      by_cases hesc : b = R.esc
      · rw [if_pos hesc]
        refine ⟨fun _ hfin => R.esc_ne_fin (hesc.symm.trans hfin), ?_⟩
        simp [Stuffing.escapes, Stuffing.completed, hesc]
      · rw [if_neg hesc] at h ⊢
        by_cases hfin : b = R.fin
        · rw [if_pos hfin] at h
          exact absurd h (R.close_ne_pending cmd buf)
        · rw [if_neg hfin] at h ⊢
          refine ⟨fun _ => hfin, ?_⟩
          rw [hstore b h]
          simp [Stuffing.escapes, Stuffing.completed, hesc]

/-- A stretch of the body that is not answered is clean and is stored. -/
theorem run_body_of_pending {e : Bool} {cmd : α} {buf xs : List α}
    (h : ∀ v ∈ R.machine.outputs (.body e cmd buf) xs, v = .pending) :
    R.Clean e xs ∧ R.machine.run (.body e cmd buf) xs =
      .body (R.pending e xs) cmd (buf ++ R.unstuff e xs) := by
  induction xs generalizing e buf with
  | nil => exact ⟨R.clean_nil e, by simp⟩
  | cons b xs ih =>
      have hout := h _ List.mem_cons_self
      obtain ⟨hb, hnext⟩ := R.next_body_of_pending hout
      have hrest : ∀ v ∈ R.machine.outputs (.body (R.escapes e b) cmd
          (buf ++ R.completed e b)) xs, v = .pending := by
        intro v hv
        rw [← hnext] at hv
        exact h v (List.mem_cons_of_mem _ hv)
      obtain ⟨hclean, hrun⟩ := ih hrest
      refine ⟨(R.clean_cons e b xs).mpr ⟨hb, hclean⟩, ?_⟩
      rw [Transducer.run_cons, hnext, hrun, R.pending_cons, R.unstuff_cons,
        List.append_assoc]

/-- A stretch after an opening end symbol that is not answered, and does not
begin with another end symbol, is the command and the body. -/
theorem run_command_of_pending {e : Bool} {cmd : α} {buf xs : List α}
    (hfirst : e = false → xs.head? ≠ some R.fin)
    (h : ∀ v ∈ R.machine.outputs (.command e) xs, v = .pending)
    (hrun : R.machine.run (.command e) xs = .body false cmd buf) :
    R.Clean e xs ∧ R.unstuff e xs = cmd :: buf := by
  induction xs generalizing e with
  | nil => cases hrun
  | cons b xs ih =>
      have hb : e = false → b ≠ R.fin :=
        fun he hfin => hfirst he (congrArg some hfin)
      have hnext := R.next_command e b hb
      rw [Transducer.outputs_cons, hnext] at h
      rw [Transducer.run_cons, hnext] at hrun
      have hrest := fun v hv => h v (List.mem_cons_of_mem _ hv)
      rw [R.clean_cons, R.unstuff_cons]
      have hlen := R.completed_length_le e b
      cases hc : R.completed e b with
      | nil =>
          rw [hc] at hrest hrun
          have hescapes := R.escapes_of_completed_nil hc
          have hfirst' : R.escapes e b = false → xs.head? ≠ some R.fin := by
            intro hfalse
            rw [hescapes] at hfalse
            cases hfalse
          obtain ⟨hclean, hunstuff⟩ := ih hfirst' hrest hrun
          exact ⟨⟨hb, hclean⟩, hunstuff⟩
      | cons c rest =>
          cases rest with
          | nil =>
              rw [hc, opened, List.take_nil] at hrest hrun
              obtain ⟨hclean, hbody⟩ := R.run_body_of_pending hrest
              rw [hbody, List.nil_append] at hrun
              obtain ⟨_, hcmd, hbuf⟩ := Phase.body.inj hrun
              rw [hcmd, hbuf]
              exact ⟨⟨hb, hclean⟩, rfl⟩
          | cons c' rest => simp [hc] at hlen

/-! ## The canonical frame of a packet -/

/-- The answers to an input that is accepted at its last symbol, and answered
there first. -/
def AcceptedAtEnd (w : List α) (cmd : α) (body : List α) (sum : α) : Prop :=
  R.machine.outputs .idle w =
    List.replicate (w.length - 1) .pending ++ [.accepted cmd body sum]

/-- Such an input ends in an end symbol that closes the body. -/
theorem AcceptedAtEnd.split {w : List α} {cmd sum : α} {body : List α}
    (h : R.AcceptedAtEnd w cmd body sum) :
    ∃ front, w = front ++ [R.fin] ∧
      (∀ v ∈ R.machine.outputs .idle front, v = .pending) ∧
      R.machine.run .idle front = .body false cmd (body ++ [sum]) ∧
      sum = R.check cmd body := by
  rw [AcceptedAtEnd] at h
  rcases List.eq_nil_or_concat w with rfl | ⟨front, last, rfl⟩
  · simp at h
  · rw [List.concat_eq_append, Transducer.outputs_append] at h
    obtain ⟨hfront, hlast⟩ := List.append_inj' h rfl
    have hout : R.machine.out (R.machine.run .idle front) last =
        .accepted cmd body sum := (List.cons.inj hlast).1
    rw [out_eq, step_accepted_iff] at hout
    obtain ⟨hfin, hrun, hsum⟩ := hout
    refine ⟨front, ?_, ?_, hrun, hsum⟩
    · rw [List.concat_eq_append, hfin]
    · intro v hv
      rw [hfront] at hv
      exact List.eq_of_mem_replicate hv

/-- **A canonical input that is accepted is the frame of the packet.**  It
starts with one end symbol, its escapes are paired, and the receiver answers
at its last symbol first. -/
theorem AcceptedAtEnd.eq_frame {w : List α} {cmd sum : α} {body : List α}
    (h : R.AcceptedAtEnd w cmd body sum) (hstart : w.head? = some R.fin)
    (hsecond : w[1]? ≠ some R.fin) (hpaired : R.EscapesPaired w) :
    w = R.frame cmd body := by
  obtain ⟨front, rfl, hquiet, hrun, hsum⟩ := h.split
  cases front with
  | nil => cases hrun
  | cons b mid =>
      have hb : b = R.fin := Option.some.inj hstart
      subst hb
      have hopen : R.machine.next .idle R.fin = .command false :=
        R.next_fin_ready (.inl rfl)
      rw [Transducer.outputs_cons, hopen] at hquiet
      rw [Transducer.run_cons, hopen] at hrun
      have hfirst : mid.head? ≠ some R.fin := by
        intro hmid
        apply hsecond
        cases mid with
        | nil => cases hmid
        | cons c mid => exact hmid
      obtain ⟨hclean, hread⟩ := R.run_command_of_pending (fun _ => hfirst)
        (fun v hv => hquiet v (List.mem_cons_of_mem _ hv)) hrun
      have hcanon : R.Canonical false mid :=
        R.canonical_of_paired hclean hpaired.2 (fun hfalse => by cases hfalse)
      have hwrite := R.stuffAll_unstuff hcanon
      rw [hread, hsum] at hwrite
      have hmid : R.stuffAll (R.content cmd body) = mid := hwrite
      rw [Framing.frame, hmid]
      rfl

end Receiver

end DuinoBus.Verified
