import DuinoBus.Verified.ReceiverStream

/-!
# Frames that do not arrive whole

Of each frame of a stream something arrives: the frame itself, or whatever a
line makes of it by losing, changing or adding symbols.  How much of the
stream does a receiver miss?

A receiver whose refusals leave it ready reads every whole frame behind a
whole frame (`reads_of_whole`).  So it misses a whole frame only behind a
damaged one, and each damaged frame costs at most itself and the next
(`misses_le`).
-/

namespace DuinoBus.Verified

universe u

/-- A frame that is sent, and what arrives of it. -/
structure Passage (α : Type u) where
  cmd : α
  body : List α
  arrived : List α

section Passages

variable {α : Type u} [DecidableEq α] (F : Framing α)

/-- Something else than the frame has arrived. -/
def Passage.damaged (t : Passage α) : Bool :=
  decide (t.arrived ≠ F.frame t.cmd t.body)

/-- The frame is not among what has been accepted. -/
def Passage.missed (t : Passage α) (answers : List (Verdict α)) : Bool :=
  decide (.accepted t.cmd t.body (F.check t.cmd t.body) ∉ answers)

/-- The frames of some passages that are missed. -/
def Passage.misses (ts : List (Passage α))
    (answers : List (List (Verdict α))) : Nat :=
  (ts.zip answers).countP fun t => t.1.missed F t.2

theorem Passage.misses_cons (t : Passage α) (ts : List (Passage α))
    (a : List (Verdict α)) (as : List (List (Verdict α))) :
    Passage.misses F (t :: ts) (a :: as) =
      Passage.misses F ts as + if t.missed F a then 1 else 0 := by
  rw [Passage.misses, List.zip_cons_cons, List.countP_cons]
  rfl

end Passages

namespace Receiver

variable {α : Type u} [DecidableEq α] (R : Receiver α)

/-- A frame that is read is not missed. -/
theorem missed_reads (t : Passage α) :
    t.missed R.toFraming (R.reads t.cmd t.body) = false := by
  rw [Passage.missed, decide_eq_false_iff_not, not_not, Framing.reads]
  exact List.mem_append_right _ List.mem_cons_self

section Damage

variable (hshort : ∀ c, (R.afterShort c).Ready)
  (hmismatch : ∀ c b, (R.afterMismatch c b).Ready)

include hshort hmismatch

/-- **A whole frame behind a whole frame is read**, whatever came before. -/
theorem reads_of_whole (p : Phase α) (ts : List (Passage α))
    (hroom : ∀ t ∈ ts, t.body.length + 1 ≤ R.capacity) {n : Nat}
    {t : Passage α} (ht : ts[n]? = some t)
    (hwhole : t.damaged R.toFraming = false) (hfirst : n = 0 → p.Ready)
    (hbefore : ∀ m s, n = m + 1 → ts[m]? = some s →
      s.damaged R.toFraming = false) :
    (R.machine.piecewise.outputs p (ts.map Passage.arrived))[n]? =
      some (R.reads t.cmd t.body) := by
  induction n generalizing p ts with
  | zero =>
      cases ts with
      | nil => cases ht
      | cons s ts =>
          cases ht
          have harrived : t.arrived = R.frame t.cmd t.body := by
            simpa [Passage.damaged] using hwhole
          have hread := (R.run_frame (hfirst rfl) t.cmd t.body
            (hroom t List.mem_cons_self)).2
          rw [← harrived] at hread
          exact congrArg some hread
  | succ n ih =>
      cases ts with
      | nil => cases ht
      | cons s ts =>
          refine ih (R.machine.run p s.arrived) ts
            (fun t h => hroom t (List.mem_cons_of_mem s h)) ht ?_ ?_
          · intro hn
            have hs := hbefore 0 s (by rw [hn]) rfl
            have harrived : s.arrived = R.frame s.cmd s.body := by
              simpa [Passage.damaged] using hs
            rw [harrived]
            exact R.ready_run_frame hshort hmismatch p s.cmd s.body
          · intro m r hn hr
            exact hbefore (m + 1) r (by rw [hn]) hr

/-- **A damaged frame costs at most itself and the next.**  A receiver that is
not ready at the beginning may miss one more. -/
theorem misses_le (p : Phase α) (ts : List (Passage α))
    (hroom : ∀ t ∈ ts, t.body.length + 1 ≤ R.capacity) :
    Passage.misses R.toFraming ts
        (R.machine.piecewise.outputs p (ts.map Passage.arrived)) ≤
      2 * ts.countP (Passage.damaged R.toFraming) + 1 ∧
    (p.Ready → Passage.misses R.toFraming ts
        (R.machine.piecewise.outputs p (ts.map Passage.arrived)) ≤
      2 * ts.countP (Passage.damaged R.toFraming)) := by
  induction ts generalizing p with
  | nil => exact ⟨Nat.zero_le _, fun _ => Nat.le_refl _⟩
  | cons t ts ih =>
      obtain ⟨hany, hready⟩ := ih (R.machine.run p t.arrived)
        (fun s h => hroom s (List.mem_cons_of_mem t h))
      have hone : ∀ b : Bool, (if b then 1 else 0) ≤ 1 := by decide
      have hmissed := hone (t.missed R.toFraming
        (R.machine.outputs p t.arrived))
      rw [List.map_cons, Transducer.outputs_cons, Passage.misses_cons,
        List.countP_cons]
      show Passage.misses R.toFraming ts (R.machine.piecewise.outputs
          (R.machine.run p t.arrived) (ts.map Passage.arrived)) +
            (if t.missed R.toFraming (R.machine.outputs p t.arrived) = true
              then 1 else 0) ≤ _ ∧ (p.Ready →
        Passage.misses R.toFraming ts (R.machine.piecewise.outputs
          (R.machine.run p t.arrived) (ts.map Passage.arrived)) +
            (if t.missed R.toFraming (R.machine.outputs p t.arrived) = true
              then 1 else 0) ≤ _)
      cases hdamaged : t.damaged R.toFraming with
      | true =>
          rw [if_pos rfl]
          exact ⟨by omega, fun _ => by omega⟩
      | false =>
          have harrived : t.arrived = R.frame t.cmd t.body := by
            simpa [Passage.damaged] using hdamaged
          have hrest := hready (by
            rw [harrived]
            exact R.ready_run_frame hshort hmismatch p t.cmd t.body)
          rw [if_neg Bool.false_ne_true]
          refine ⟨by omega, fun hp => ?_⟩
          have hread := (R.run_frame hp t.cmd t.body
            (hroom t List.mem_cons_self)).2
          rw [← harrived] at hread
          rw [hread, R.missed_reads, if_neg Bool.false_ne_true]
          exact hrest

end Damage

end Receiver

end DuinoBus.Verified
