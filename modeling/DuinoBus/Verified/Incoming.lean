import DuinoBus.Verified.ReceiverStream

/-!
# Frames on their way to a receiver

A first-in first-out channel carries frames, symbol by symbol, to a receiver
that takes the symbols one at a time.  Frames are added at one end while the
receiver is somewhere in the middle of an earlier one, in any order of adding
and taking.

`Incoming` says where the receiver stands: `todo` are the frames that it has
still to accept, `wire` the symbols on the channel.  Adding a frame keeps it
(`Incoming.append`), and a symbol that is taken either goes on with the first
frame or completes it (`Incoming.next`).  So a receiver accepts exactly the
frames that were sent, in order, however sending and receiving interleave.
-/

namespace DuinoBus.Verified.Receiver

universe u

variable {α : Type u} [DecidableEq α] (R : Receiver α)

/-- The symbols on the channel are what is left of the frames `todo`, the
first of which the receiver may have begun. -/
def Incoming (todo : List (α × List α)) (wire : List α) (p : Phase α) :
    Prop :=
  (todo = [] ∧ wire = [] ∧ p.Ready) ∨
    ∃ f todo' rest, todo = f :: todo' ∧ rest ≠ [] ∧
      wire = rest ++ R.frames todo' ∧ R.Reading f.1 f.2 p rest

/-- A ready receiver has begun none of the frames that come. -/
theorem incoming_frames {p : Phase α} (hp : p.Ready)
    (todo : List (α × List α)) : R.Incoming todo (R.frames todo) p := by
  cases todo with
  | nil => exact .inl ⟨rfl, rfl, hp⟩
  | cons f todo =>
      have hne : R.frame f.1 f.2 ≠ [] :=
        List.ne_nil_of_length_pos (R.length_frame_pos f.1 f.2)
      exact .inr ⟨f, todo, R.frame f.1 f.2, rfl, hne, rfl,
        R.reading_frame hp f.1 f.2⟩

section Channel

variable {R} {todo : List (α × List α)} {wire : List α} {p : Phase α}

/-- One more frame is sent. -/
theorem Incoming.append (h : R.Incoming todo wire p) (f : α × List α) :
    R.Incoming (todo ++ [f]) (wire ++ R.frame f.1 f.2) p := by
  rcases h with ⟨rfl, rfl, hp⟩ | ⟨g, todo', rest, rfl, hne, rfl, hreading⟩
  · have hone := R.incoming_frames hp [f]
    rw [frames, List.flatMap_singleton] at hone
    exact hone
  · refine .inr ⟨g, todo' ++ [f], rest, rfl, hne, ?_, hreading⟩
    rw [frames, frames, List.flatMap_append, List.flatMap_singleton,
      List.append_assoc]

/-- The channel is empty exactly when every frame has been accepted. -/
theorem Incoming.eq_nil_iff (h : R.Incoming todo wire p) :
    wire = [] ↔ todo = [] := by
  rcases h with ⟨rfl, rfl, _⟩ | ⟨f, todo', rest, rfl, hne, rfl, _⟩
  · exact ⟨fun _ => rfl, fun _ => rfl⟩
  · constructor
    · intro hnil
      exact absurd (List.append_eq_nil_iff.mp hnil).1 hne
    · intro hnil
      cases hnil

/-- Some of the first frame is still on the channel. -/
theorem Incoming.length_lt {f : α × List α} (h : R.Incoming (f :: todo) wire p) :
    (R.frames todo).length < wire.length := by
  rcases h with ⟨hnil, _⟩ | ⟨g, todo', rest, htodo, hne, rfl, _⟩
  · cases hnil
  · cases htodo
    have hpos := List.length_pos_of_ne_nil hne
    rw [List.length_append]
    omega

/-- What is on the channel is the end of the frames' symbols. -/
theorem Incoming.suffix (h : R.Incoming todo wire p) :
    wire <:+ R.frames todo := by
  rcases h with ⟨rfl, rfl, _⟩ | ⟨f, todo', rest, rfl, _, rfl, hreading⟩
  · exact List.suffix_refl _
  · obtain ⟨_, front, _, hframe, _⟩ := hreading
    refine ⟨front, ?_⟩
    rw [frames, frames, List.flatMap_cons, hframe, List.append_assoc]

/-- **One symbol is taken.**  Before the last symbol of the first frame it is
read without an answer; there the frame is accepted, and the others have not
begun. -/
theorem Incoming.next {b : α} (h : R.Incoming todo (b :: wire) p)
    (hroom : ∀ f ∈ todo, f.2.length + 1 ≤ R.capacity) :
    (R.machine.out p b = .pending ∧
      R.Incoming todo wire (R.machine.next p b)) ∨
    ∃ f todo', todo = f :: todo' ∧
      R.machine.out p b = .accepted f.1 f.2 (R.check f.1 f.2) ∧
      wire = R.frames todo' ∧
      R.Incoming todo' wire (R.machine.next p b) := by
  rcases h with ⟨_, hnil, _⟩ | ⟨f, todo', rest, rfl, hne, hwire, hreading⟩
  · cases hnil
  · obtain ⟨c, rest', rfl⟩ := List.exists_cons_of_ne_nil hne
    obtain ⟨rfl, rfl⟩ := List.cons.inj hwire
    have hfirst := hroom f List.mem_cons_self
    by_cases hlast : rest' = []
    · subst hlast
      obtain ⟨hout, hnext⟩ := hreading.accepted R hfirst
      refine .inr ⟨f, todo', rfl, hout, rfl, ?_⟩
      rw [hnext]
      exact R.incoming_frames (.inl rfl) todo'
    · obtain ⟨hout, hreading'⟩ := hreading.pending R hfirst hlast
      exact .inl ⟨hout, .inr ⟨f, todo', rest', rfl, hlast, rfl, hreading'⟩⟩

end Channel

end DuinoBus.Verified.Receiver
