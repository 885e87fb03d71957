import DuinoBus.Verified.ReceiverStream

/-!
# Sending a frame again

A writer that breaks off in the middle of a frame and then sends it again
leaves the receiver to read the beginning of the frame, and the whole frame
behind it.  The opening end symbol of the second attempt closes the first if
that has stored anything, and is stored itself if it broke off inside an
escape.

`retry_iff` is the exact condition under which the second attempt is accepted
at its last symbol, for a receiver that a short frame leaves before a command
and a mismatch leaves between frames.
-/

namespace DuinoBus.Verified

universe u

namespace Receiver

variable {α : Type u} [DecidableEq α] (R : Receiver α)

/-- The last answer to a frame accepts its command and body exactly if these
are what is stored before its last symbol. -/
theorem accepts_last_iff (p : Phase α) (cmd : α) (body : List α) :
    (∃ sum, (R.machine.outputs p (R.frame cmd body)).getLast? =
        some (.accepted cmd body sum)) ↔
      R.machine.run p (R.frame cmd body).dropLast =
        .body false cmd (body ++ [R.check cmd body]) := by
  rw [← R.dropLast_frame_concat, Transducer.outputs_append,
    List.dropLast_concat, Transducer.outputs_cons, Transducer.outputs_nil, List.getLast?_concat]
  simp only [Option.some.injEq, out_eq, step_accepted_iff]
  constructor
  · rintro ⟨sum, _, hphase, hsum⟩
    rw [hphase, hsum]
  · intro hphase
    exact ⟨R.check cmd body, True.intro, hphase, rfl⟩

/-- The receiver recovers from a beginning of a frame whose symbols after the
opening end symbol are `front`: nothing but the command was complete, or the
end symbol that was taken for a literal turns what was stored, with the frame
behind it, into the frame again. -/
def Recovers (content front : List α) : Prop :=
  if R.pending false front = false then
    (R.unstuff false front).length ≤ 1
  else
    (R.unstuff false front ++ R.fin :: content).take (R.capacity + 1) = content

section Retry

variable {cmd : α} {w front : List α}

/-- The symbols of a frame behind what is stored, in a frame that is still
open. -/
theorem run_content_body (a : α) {buf : List α}
    (hbuf : buf.length ≤ R.capacity) :
    R.machine.run (.body false a buf) (R.stuffAll (cmd :: w)) =
      .body false a ((buf ++ cmd :: w).take R.capacity) := by
  rw [R.run_body false a buf _ hbuf (R.clean_stuffAll false (cmd :: w)),
    R.pending_stuffAll, R.unstuff_stuffAll]

omit [DecidableEq α] in
/-- What is stored is a command with its symbols, cut at the capacity. -/
private theorem body_eq_iff (a : α) (buf : List α) :
    Phase.body false a (buf.take R.capacity) = .body false cmd w ↔
      (a :: buf).take (R.capacity + 1) = cmd :: w := by
  rw [List.take_succ_cons, List.cons.injEq, Phase.body.injEq]
  exact ⟨fun h => ⟨h.2.1, h.2.2⟩, fun h => ⟨rfl, h.1, h.2⟩⟩

/-- After a close that a frame with some symbols has been open for, the
receiver is between frames. -/
private theorem close_of_ne_nil (hmismatch : ∀ c b, R.afterMismatch c b = .idle)
    (a : α) {buf : List α} (hbuf : buf ≠ []) : (R.close a buf).1 = .idle := by
  rcases List.eq_nil_or_concat buf with hnil | ⟨body, sum, hconcat⟩
  · exact absurd hnil hbuf
  · rw [hconcat, List.concat_eq_append, close_concat]
    split
    · rfl
    · exact hmismatch a body

/-- The second attempt behind a beginning that ended in no escape. -/
private theorem run_retry_bare (hshort : ∀ c, R.afterShort c = .command false)
    (hmismatch : ∀ c b, R.afterMismatch c b = .idle)
    (hroom : w.length ≤ R.capacity) (hcapacity : 0 < R.capacity)
    (carried : List α) :
    R.machine.run (R.opened false carried) (R.fin :: R.stuffAll (cmd :: w)) =
        .body false cmd w ↔ carried.length ≤ 1 := by
  rw [Transducer.run_cons]
  rcases carried with _ | ⟨a, _ | ⟨b, rest⟩⟩
  · have hnext : R.machine.next (R.opened false []) R.fin = .command false := by
      exact R.next_fin_ready (.inr rfl)
    rw [hnext, R.run_content cmd hroom]
    exact iff_of_true rfl (Nat.zero_le 1)
  · have hnext : R.machine.next (R.opened false [a]) R.fin =
        .command false := by
      rw [opened, List.take_nil, next_eq, step_fin_body, close_nil]
      exact hshort a
    rw [hnext, R.run_content cmd hroom]
    exact iff_of_true rfl (Nat.le_refl 1)
  · have hstored : (b :: rest).take R.capacity ≠ [] := by
      apply List.ne_nil_of_length_pos
      rw [List.length_take, List.length_cons]
      omega
    have hnext : R.machine.next (R.opened false (a :: b :: rest)) R.fin =
        .idle := by
      rw [opened, next_eq, step_fin_body]
      exact R.close_of_ne_nil hmismatch a hstored
    rw [hnext, (R.run_idle_of_fin_notMem (R.fin_notMem_stuffAll _)).1]
    apply iff_of_false
    · intro h
      cases h
    · rw [List.length_cons, List.length_cons]
      omega

/-- The second attempt behind a beginning that ended in an escape: its opening
end symbol is stored. -/
private theorem run_retry_escaped (carried : List α) :
    R.machine.run (R.opened true carried) (R.fin :: R.stuffAll (cmd :: w)) =
        .body false cmd w ↔
      (carried ++ R.fin :: cmd :: w).take (R.capacity + 1) = cmd :: w := by
  have hliteral : R.literal R.fin = R.fin := by
    rw [Stuffing.literal, if_neg R.escFin_ne_fin.symm,
      if_neg R.escEsc_ne_fin.symm]
  rw [Transducer.run_cons]
  cases carried with
  | nil =>
      have hnext : R.machine.next (R.opened true []) R.fin =
          .body false R.fin [] := by
        rw [opened, next_eq, step, hliteral]
      rw [hnext, R.run_content_body R.fin (Nat.zero_le _), List.nil_append,
        List.nil_append]
      exact R.body_eq_iff R.fin (cmd :: w)
  | cons a rest =>
      have hnext : R.machine.next (R.opened true (a :: rest)) R.fin =
          .body false a ((rest.take R.capacity ++ [R.fin]).take
            R.capacity) := by
        rw [opened, next_eq, step, hliteral,
          R.store_phase a _ R.fin (List.length_take_le _ _)]
      rw [hnext, R.run_content_body a (List.length_take_le _ _),
        take_append_of_take, List.append_assoc, take_append_of_take]
      exact R.body_eq_iff a (rest ++ R.fin :: cmd :: w)

/-- **The second attempt.**  After the beginning of a frame, the frame up to
its last symbol leaves the receiver with its command and symbols exactly if
the receiver recovers from the beginning. -/
theorem run_retry_iff (hshort : ∀ c, R.afterShort c = .command false)
    (hmismatch : ∀ c b, R.afterMismatch c b = .idle)
    (hroom : w.length ≤ R.capacity) (hw : w ≠ []) (hfront : R.fin ∉ front) :
    R.machine.run (R.machine.run (.command false) front)
        (R.fin :: R.stuffAll (cmd :: w)) = .body false cmd w ↔
      R.Recovers (cmd :: w) front := by
  have hcapacity : 0 < R.capacity :=
    Nat.lt_of_lt_of_le (List.length_pos_of_ne_nil hw) hroom
  rw [R.run_command false front (R.clean_of_fin_notMem false hfront), Recovers]
  cases R.pending false front with
  | false =>
      rw [if_pos rfl]
      exact R.run_retry_bare hshort hmismatch hroom hcapacity _
  | true =>
      rw [if_neg (by decide)]
      exact R.run_retry_escaped _

/-- Behind the first `k` symbols of a frame, an end symbol finds the receiver
as if the opening one had come through in any case. -/
private theorem run_take_frame (cmd : α) (body : List α) {k : Nat}
    (hk : k < (R.frame cmd body).length) (xs : List α) :
    R.machine.run (R.machine.run .idle ((R.frame cmd body).take k))
        (R.fin :: xs) =
      R.machine.run (R.machine.run (.command false)
        ((R.stuffAll (R.content cmd body)).take (k - 1))) (R.fin :: xs) := by
  have hopen : ∀ p : Phase α, p.Ready → ∀ xs,
      R.machine.run p (R.fin :: xs) = R.machine.run (.command false) xs := by
    intro p hp xs
    rw [Transducer.run_cons, R.next_fin_ready hp]
  cases k with
  | zero =>
      rw [List.take_zero, List.take_zero, Transducer.run_nil,
        Transducer.run_nil, hopen .idle (.inl rfl),
        hopen (.command false) (.inr rfl)]
  | succ k =>
      have hlen : k ≤ (R.stuffAll (R.content cmd body)).length := by
        rw [Framing.frame, List.length_cons, List.length_append,
          List.length_singleton] at hk
        omega
      rw [Framing.frame, List.take_succ_cons,
        List.take_append_of_le_length hlen, hopen .idle (.inl rfl),
        Nat.add_sub_cancel]

/-- **Sending again.**  The second attempt is accepted at its last symbol
exactly if the receiver recovers from the first, of which `k` symbols came
through. -/
theorem retry_iff (hshort : ∀ c, R.afterShort c = .command false)
    (hmismatch : ∀ c b, R.afterMismatch c b = .idle) (cmd : α)
    (body : List α) (hroom : body.length + 1 ≤ R.capacity) {k : Nat}
    (hk : k < (R.frame cmd body).length) :
    (∃ sum, (R.machine.outputs
        (R.machine.run .idle ((R.frame cmd body).take k))
        (R.frame cmd body)).getLast? = some (.accepted cmd body sum)) ↔
      R.Recovers (R.content cmd body)
        ((R.stuffAll (R.content cmd body)).take (k - 1)) := by
  have hfront : R.fin ∉ (R.stuffAll (R.content cmd body)).take (k - 1) :=
    fun h => R.fin_notMem_stuffAll _ (List.mem_of_mem_take h)
  rw [accepts_last_iff, R.dropLast_frame, R.run_take_frame cmd body hk]
  exact R.run_retry_iff hshort hmismatch
    (by rw [List.length_append, List.length_singleton]; exact hroom)
    (by simp) hfront

end Retry

end Receiver

end DuinoBus.Verified
