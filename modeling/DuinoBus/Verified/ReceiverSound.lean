import DuinoBus.Verified.ReceiverStream

/-!
# What an accepted frame was made of

A receiver accepts at an end symbol.  This file says which input the accepted
command, body and check came from: the symbols since the nearest preceding
*delimiter*, an end symbol that no escape made a literal.

* If that delimiter opened the frame, the accepted content is what was read
  since, cut at the capacity.  It is all of it exactly when the frame fits
  (`opened_iff`).
* If the delimiter was refused and left the receiver inside the old body, the
  accepted content starts with what the refused frame had stored.  It is then
  the content since the delimiter only by coincidence, when that content
  repeats the old one round and round up to the capacity (`resumed_iff`).
-/

namespace DuinoBus.Verified


universe u

/-- Whether an escape is pending. -/
def Phase.escaped {α : Type u} : Phase α → Bool
  | .idle => false
  | .command e => e
  | .body e _ _ => e

/-- The receiver is inside a frame, with the escape bit `e`. -/
def Phase.Inside {α : Type u} (e : Bool) (p : Phase α) : Prop :=
  p = .command e ∨ ∃ cmd buf, p = .body e cmd buf

theorem Phase.Inside.escaped_eq {α : Type u} {e : Bool} {p : Phase α}
    (hp : p.Inside e) : p.escaped = e := by
  rcases hp with rfl | ⟨cmd, buf, rfl⟩ <;> rfl

theorem Phase.settled_of_escaped {α : Type u} {p : Phase α}
    (h : p.escaped = false) : p.Settled := by
  cases p with
  | idle => exact .inl (.inl rfl)
  | command e =>
      cases h
      exact .inl (.inr rfl)
  | body e cmd buf =>
      cases h
      exact .inr ⟨cmd, buf, rfl⟩

/-- `us` goes round `ring`: symbol `i` of it is symbol `i` of the ring,
counted modulo the length of the ring. -/
def GoesRound {α : Type u} (ring us : List α) : Prop :=
  ∀ i, i < us.length → us[i]? = ring[i % ring.length]?

/-- Going round a ring up to length `n` is being one's own continuation of
the ring. -/
theorem goesRound_iff {α : Type u} (ring us : List α) (n : Nat)
    (hring : ring ≠ []) :
    us = (ring ++ us).take n ↔ us.length = n ∧ GoesRound ring us := by
  have hpos : 0 < ring.length := List.length_pos_iff.mpr hring
  constructor
  · intro h
    have hlen : us.length = n := by
      have := congrArg List.length h
      rw [List.length_take, List.length_append] at this
      omega
    refine ⟨hlen, ?_⟩
    intro i
    induction i using Nat.strongRecOn with
    | _ i ih =>
        intro hi
        have hget : us[i]? = (ring ++ us)[i]? := by
          conv => lhs; rw [h]
          rw [List.getElem?_take_of_lt (by omega)]
        by_cases hlt : i < ring.length
        · rw [hget, List.getElem?_append_left hlt, Nat.mod_eq_of_lt hlt]
        · have hge : ring.length ≤ i := Nat.le_of_not_lt hlt
          rw [hget, List.getElem?_append_right hge,
            ih (i - ring.length) (by omega) (by omega),
            ← Nat.mod_eq_sub_mod hge]
  · rintro ⟨hlen, hround⟩
    refine List.ext_getElem? fun i => ?_
    by_cases hi : i < n
    · rw [List.getElem?_take_of_lt hi]
      by_cases hlt : i < ring.length
      · rw [List.getElem?_append_left hlt, hround i (by omega),
          Nat.mod_eq_of_lt hlt]
      · have hge : ring.length ≤ i := Nat.le_of_not_lt hlt
        rw [List.getElem?_append_right hge, hround i (by omega),
          hround (i - ring.length) (by omega), ← Nat.mod_eq_sub_mod hge]
    · rw [List.getElem?_eq_none (by omega),
        List.getElem?_eq_none (by rw [List.length_take]; omega)]

namespace Receiver

variable {α : Type u} [DecidableEq α] (R : Receiver α)

/-- The nearest delimiter before the end of `xs`: `xs` is `pre`, the
delimiter, and `w`, in which every end symbol is an escaped one. -/
structure LastDelimiter (xs pre w : List α) : Prop where
  split : xs = pre ++ R.fin :: w
  delimits : (R.machine.run .idle pre).escaped = false
  nearest : ∀ u v, w = u ++ R.fin :: v →
    (R.machine.run .idle (pre ++ R.fin :: u)).escaped = true

/-! ## The nearest delimiter exists -/

theorem LastDelimiter.concat {xs pre w : List α}
    (h : R.LastDelimiter xs pre w) (b : α)
    (hb : b = R.fin → (R.machine.run .idle xs).escaped = true) :
    R.LastDelimiter (xs ++ [b]) pre (w ++ [b]) := by
  refine
    { split := by rw [h.split]; simp
      delimits := h.delimits
      nearest := ?_ }
  intro u v huv
  rcases List.eq_nil_or_concat v with rfl | ⟨v', c, rfl⟩
  · obtain ⟨rfl, hfin⟩ : w = u ∧ b = R.fin := by
      simpa using List.append_inj' huv rfl
    rw [← h.split]
    exact hb hfin
  · refine h.nearest u v' ?_
    have hcons : u ++ R.fin :: v'.concat c = (u ++ R.fin :: v') ++ [c] := by
      simp
    rw [hcons] at huv
    exact (List.append_inj' huv rfl).1

/-- A receiver that is not between frames has met a delimiter. -/
theorem exists_lastDelimiter (xs : List α)
    (h : R.machine.run .idle xs ≠ .idle) :
    ∃ pre w, R.LastDelimiter xs pre w := by
  induction hn : xs.length generalizing xs with
  | zero =>
      rw [List.length_eq_zero_iff.mp hn] at h
      exact absurd rfl h
  | succ n ih =>
      rcases List.eq_nil_or_concat xs with rfl | ⟨ys, b, rfl⟩
      · exact absurd rfl h
      · rw [List.concat_eq_append] at h hn ⊢
        have hlen : ys.length = n := by simpa using hn
        by_cases hdelim :
            b = R.fin ∧ (R.machine.run .idle ys).escaped = false
        · obtain ⟨rfl, hclear⟩ := hdelim
          refine ⟨ys, [], rfl, hclear, ?_⟩
          intro u v huv
          simp at huv
        · have hb : b = R.fin → (R.machine.run .idle ys).escaped = true := by
            intro hfin
            cases he : (R.machine.run .idle ys).escaped with
            | true => rfl
            | false => exact absurd ⟨hfin, he⟩ hdelim
          by_cases hidle : R.machine.run .idle ys = .idle
          · rw [hidle] at hb
            have hne : b ≠ R.fin := fun hfin => by
              simpa [Phase.escaped] using hb hfin
            refine absurd ?_ h
            rw [Transducer.run_append, hidle]
            simp [next_eq, step, hne]
          · obtain ⟨pre, w, hlast⟩ := ih ys hidle hlen
            exact ⟨pre, w ++ [b], hlast.concat R b hb⟩

/-! ## Between the delimiter and here -/

/-- Inside a frame, a symbol that is not a bare end symbol stays inside. -/
theorem inside_next {e : Bool} {p : Phase α} (hp : p.Inside e) (b : α)
    (hb : e = false → b ≠ R.fin) :
    (R.machine.next p b).Inside (R.escapes e b) := by
  rcases hp with rfl | ⟨cmd, buf, rfl⟩
  · rw [next_command R e b hb]
    cases R.completed e b with
    | nil => exact .inl rfl
    | cons c rest => exact .inr ⟨c, _, rfl⟩
  · obtain ⟨buf', h⟩ := R.exists_run_body e cmd buf [b]
      ((R.clean_cons e b []).mpr ⟨hb, R.clean_nil _⟩)
    rw [Transducer.run_cons, Transducer.run_nil] at h
    rw [h, R.pending_cons, R.pending_nil]
    exact .inr ⟨cmd, buf', rfl⟩

/-- Inside a frame, a stretch without delimiters is a clean one. -/
theorem clean_of_no_delimiter {e : Bool} {p : Phase α} (hp : p.Inside e)
    (w : List α)
    (h : ∀ u v, w = u ++ R.fin :: v → (R.machine.run p u).escaped = true) :
    R.Clean e w := by
  induction w generalizing e p with
  | nil => simp
  | cons b w ih =>
      have hb : e = false → b ≠ R.fin := by
        rintro he rfl
        have := h [] w rfl
        rw [Transducer.run_nil, hp.escaped_eq, he] at this
        cases this
      refine (R.clean_cons e b w).mpr ⟨hb, ih (R.inside_next hp b hb) ?_⟩
      intro u v huv
      exact h (b :: u) v (by rw [huv]; rfl)

/-- Between frames, a stretch without delimiters leads nowhere. -/
theorem run_idle_of_no_delimiter (w : List α)
    (h : ∀ u v, w = u ++ R.fin :: v →
      (R.machine.run .idle u).escaped = true) :
    R.machine.run .idle w = .idle := by
  induction w with
  | nil => rfl
  | cons b w ih =>
      have hb : b ≠ R.fin := by
        rintro rfl
        have := h [] w rfl
        cases this
      have hnext : R.machine.next .idle b = .idle := by
        simp [next_eq, step, hb]
      rw [Transducer.run_cons, hnext]
      refine ih fun u v huv => ?_
      have := h (b :: u) v (by rw [huv]; rfl)
      rwa [Transducer.run_cons, hnext] at this

/-- The phase the delimiter left behind. -/
def phaseAfter (pre : List α) : Phase α :=
  R.machine.run .idle (pre ++ [R.fin])

theorem run_phaseAfter (pre u : List α) :
    R.machine.run .idle (pre ++ R.fin :: u) =
      R.machine.run (R.phaseAfter pre) u := by
  rw [phaseAfter, ← Transducer.run_append, List.append_assoc]
  rfl

theorem phaseAfter_eq (pre : List α) :
    R.phaseAfter pre = R.machine.next (R.machine.run .idle pre) R.fin := by
  rw [phaseAfter, Transducer.run_append]
  rfl

/-- **The delimiter opened the frame**: the command and the buffer are what
was read since, cut at the capacity, and they are all of it exactly when it
fits. -/
theorem LastDelimiter.opened_iff {xs pre w buf : List α} {cmd : α}
    (h : R.LastDelimiter xs pre w) (hopen : R.phaseAfter pre = .command false)
    (hrun : R.machine.run .idle xs = .body false cmd buf) :
    R.unstuff false w = cmd :: buf ↔
      (R.unstuff false w).length ≤ R.capacity + 1 := by
  have hclean : R.Clean false w :=
    R.clean_of_no_delimiter (p := R.phaseAfter pre) (.inl hopen) w
      fun u v huv => by rw [← run_phaseAfter]; exact h.nearest u v huv
  rw [h.split, run_phaseAfter, hopen, R.run_command false w hclean] at hrun
  cases hw : R.unstuff false w with
  | nil => simp [hw, opened] at hrun
  | cons c rest =>
      simp only [hw, opened, Phase.body.injEq] at hrun
      obtain ⟨_, rfl, rfl⟩ := hrun
      simp only [List.cons.injEq, true_and, List.length_cons,
        Nat.add_le_add_iff_right]
      constructor
      · intro hrest
        rw [hrest, List.length_take]
        omega
      · exact fun hle => (List.take_of_length_le hle).symm

/-- **The delimiter was refused**: the buffer starts with what the refused
frame had stored, and it is what was read since only if that goes round the
old content up to the capacity. -/
theorem LastDelimiter.resumed_iff {xs pre w buf old : List α} {cmd cmd₀ : α}
    (h : R.LastDelimiter xs pre w)
    (hopen : R.phaseAfter pre = .body false cmd₀ old)
    (hold : old.length ≤ R.capacity)
    (hrun : R.machine.run .idle xs = .body false cmd buf) :
    R.unstuff false w = cmd :: buf ↔
      (R.unstuff false w).length = R.capacity + 1 ∧
        GoesRound (cmd₀ :: old) (R.unstuff false w) := by
  have hclean : R.Clean false w :=
    R.clean_of_no_delimiter (p := R.phaseAfter pre)
      (.inr ⟨cmd₀, old, hopen⟩) w
      fun u v huv => by rw [← run_phaseAfter]; exact h.nearest u v huv
  rw [h.split, run_phaseAfter, hopen, R.run_body false cmd₀ old w hold hclean] at hrun
  simp only [Phase.body.injEq] at hrun
  obtain ⟨_, rfl, rfl⟩ := hrun
  have htake : cmd₀ :: (old ++ R.unstuff false w).take R.capacity =
      ((cmd₀ :: old) ++ R.unstuff false w).take (R.capacity + 1) := rfl
  rw [htake]
  exact goesRound_iff (cmd₀ :: old) (R.unstuff false w) (R.capacity + 1)
    (by simp)

/-- What was read since the delimiter ends without a pending escape, and the
delimiter left the receiver inside a frame. -/
theorem LastDelimiter.inside {xs pre w buf : List α} {cmd : α}
    (h : R.LastDelimiter xs pre w)
    (hset : (R.phaseAfter pre).Settled)
    (hrun : R.machine.run .idle xs = .body false cmd buf) :
    (R.phaseAfter pre).Inside false := by
  rcases hset with (hidle | hcmd) | hbody
  · refine absurd (R.run_idle_of_no_delimiter w ?_) ?_
    · intro u v huv
      rw [← hidle, ← run_phaseAfter]
      exact h.nearest u v huv
    · rw [← hidle, ← run_phaseAfter, ← h.split, hrun, hidle]
      simp
  · exact .inl hcmd
  · exact .inr hbody

/-- When refusals leave the receiver ready, every delimiter opens a frame. -/
theorem LastDelimiter.opens {xs pre w buf : List α} {cmd : α}
    (h : R.LastDelimiter xs pre w) (hshort : ∀ c, (R.afterShort c).Ready)
    (hmismatch : ∀ c b, (R.afterMismatch c b).Ready)
    (hrun : R.machine.run .idle xs = .body false cmd buf) :
    R.phaseAfter pre = .command false := by
  have hready : (R.phaseAfter pre).Ready := by
    rw [phaseAfter_eq]
    exact R.ready_next_fin hshort hmismatch
      (Phase.settled_of_escaped h.delimits)
  rcases h.inside R (.inl hready) hrun with hopen | ⟨cmd₀, old, hopen⟩
  · exact hopen
  · rw [hopen] at hready
    exact absurd hready (Phase.not_ready_body false cmd₀ old)

/-- What a stretch without delimiters after an opened frame answers: nothing,
if the frame fits. -/
theorem LastDelimiter.outputs_of_room {xs pre w : List α}
    (h : R.LastDelimiter xs pre w) (hopen : R.phaseAfter pre = .command false)
    (hroom : (R.unstuff false w).length ≤ R.capacity + 1) :
    R.machine.outputs (R.phaseAfter pre) w =
      List.replicate w.length .pending := by
  have hclean : R.Clean false w :=
    R.clean_of_no_delimiter (p := R.phaseAfter pre) (.inl hopen) w
      fun u v huv => by rw [← run_phaseAfter]; exact h.nearest u v huv
  rw [hopen]
  exact R.outputs_command_of_room false w hclean hroom

end Receiver

end DuinoBus.Verified
