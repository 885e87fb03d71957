import DuinoBus.Verified.Transducer

/-!
# Fields, one after the other

A writer appends the encodings of fields to what is there, and a reader takes
them off the front of what remains.  `feed_writes` and `feed_reads` carry what
one field does to a whole record: the reader meets the encodings in the order
in which they were written, each at the place where the field before it ends.
-/

namespace DuinoBus.Verified

universe u v w x y z

variable {σ : Type u} {φ : Type v} {ο : Type w} {ι : Type x} {ε : Type y}
  {α : Type z}

/-- **Writing a record.**  If every field that is written appends its
encoding, a record whose fields were all written is the encodings in order.
`Has s bs` says that `bs` is what has been written in the state `s`. -/
theorem feed_writes {f : σ → φ → Except ε (ο × σ)} {Has : σ → List α → Prop}
    {encode : φ → List α} {written : ο → Prop} {fields : List φ}
    (hfield : ∀ field ∈ fields, ∀ s bs o s', Has s bs →
      f s field = .ok (o, s') → written o → Has s' (bs ++ encode field))
    {s s' : σ} {bs : List α} {os : List ο} (hs : Has s bs)
    (hfeed : feed f s fields = .ok (os, s')) (hall : ∀ o ∈ os, written o) :
    Has s' (bs ++ fields.flatMap encode) := by
  induction fields generalizing s bs os with
  | nil =>
      cases hfeed
      rw [List.flatMap_nil, List.append_nil]
      exact hs
  | cons field fields ih =>
      cases hstep : f s field with
      | error e => simp [feed, hstep] at hfeed
      | ok r =>
          obtain ⟨os', rfl, hrest⟩ := feed_cons_ok hstep hfeed
          have hnext := hfield field List.mem_cons_self s bs r.1 r.2 hs hstep
            (hall r.1 List.mem_cons_self)
          rw [List.flatMap_cons, ← List.append_assoc]
          exact ih (fun g hg => hfield g (List.mem_cons_of_mem _ hg)) hnext
            hrest (fun o ho => hall o (List.mem_cons_of_mem _ ho))

/-- **Writing a record that fits.**  If every field that there is room for is
written, a record that there is room for is written, as the encodings in
order. -/
theorem feed_writes_room {f : σ → φ → Except ε (ο × σ)}
    {Has : σ → List α → Prop} {encode : φ → List α} {written : ο → Prop}
    {capacity : Nat} {fields : List φ}
    (hfield : ∀ field ∈ fields, ∀ s bs, Has s bs →
      bs.length + (encode field).length ≤ capacity →
        ∃ o s', f s field = .ok (o, s') ∧ written o ∧
          Has s' (bs ++ encode field))
    {s : σ} {bs : List α} (hs : Has s bs)
    (hroom : bs.length + (fields.flatMap encode).length ≤ capacity) :
    ∃ os s', feed f s fields = .ok (os, s') ∧ (∀ o ∈ os, written o) ∧
      Has s' (bs ++ fields.flatMap encode) := by
  induction fields generalizing s bs with
  | nil =>
      refine ⟨[], s, rfl, (fun o ho => by cases ho), ?_⟩
      rw [List.flatMap_nil, List.append_nil]
      exact hs
  | cons field fields ih =>
      rw [List.flatMap_cons, List.length_append] at hroom
      obtain ⟨o, s₁, hstep, hwritten, hs₁⟩ :=
        hfield field List.mem_cons_self s bs hs (by omega)
      obtain ⟨os, s₂, hfeed, hall, hs₂⟩ := ih
        (fun g hg => hfield g (List.mem_cons_of_mem _ hg)) hs₁
        (by rw [List.length_append]; omega)
      refine ⟨o :: os, s₂, by simp only [feed, hstep, hfeed], ?_, ?_⟩
      · intro o' ho'
        cases ho' with
        | head => exact hwritten
        | tail _ hrest => exact hall o' hrest
      · rw [List.flatMap_cons, ← List.append_assoc]
        exact hs₂

/-- The request `i` reads the field off the front of what remains, with an
answer that `Q` allows.  `At s bs` says that `bs` remains in the state `s`. -/
def Reads (f : σ → ι → Except ε (ο × σ)) (At : σ → List α → Prop)
    (encode : φ → List α) (Q : φ → ο → Prop) (field : φ) (i : ι) : Prop :=
  ∀ s rest, At s (encode field ++ rest) →
    ∃ o s', f s i = .ok (o, s') ∧ Q field o ∧ At s' rest

/-- **Reading a record** yields its fields in order, and the rest remains. -/
theorem feed_reads {f : σ → ι → Except ε (ο × σ)} {At : σ → List α → Prop}
    {encode : φ → List α} {Q : φ → ο → Prop} {fields : List φ}
    {requests : List ι}
    (hreads : List.Forall₂ (Reads f At encode Q) fields requests) {s : σ}
    {rest : List α} (hs : At s (fields.flatMap encode ++ rest)) :
    ∃ os s', feed f s requests = .ok (os, s') ∧ List.Forall₂ Q fields os ∧
      At s' rest := by
  induction hreads generalizing s with
  | nil => exact ⟨[], s, rfl, .nil, hs⟩
  | cons hfirst _ ih =>
      rw [List.flatMap_cons, List.append_assoc] at hs
      obtain ⟨o, s₁, hstep, hQ, hs₁⟩ := hfirst s _ hs
      obtain ⟨os, s₂, hfeed, hQs, hs₂⟩ := ih hs₁
      refine ⟨o :: os, s₂, ?_, .cons hQ hQs, hs₂⟩
      simp only [feed, hstep, hfeed]

/-- The request `i` for a field at the front of what remains fails, or is
answered and leaves the rest.  It is answered as `Q` says exactly if `P` holds
of the field. -/
def ReadsIff (f : σ → ι → Except ε (ο × σ)) (At : σ → List α → Prop)
    (encode : φ → List α) (Q : φ → ο → Prop) (P : φ → Prop) (field : φ)
    (i : ι) : Prop :=
  ∀ s rest, At s (encode field ++ rest) →
    (∃ o s', f s i = .ok (o, s') ∧ At s' rest ∧ (Q field o ↔ P field)) ∨
      ((∃ e, f s i = .error e) ∧ ¬ P field)

/-- **When a record is read.**  All fields are answered as `Q` says exactly if
`P` holds of all fields.  The state is then one in which the rest remains;
`Done` may be anything that holds there. -/
theorem feed_reads_iff {f : σ → ι → Except ε (ο × σ)}
    {At : σ → List α → Prop} {encode : φ → List α} {Q : φ → ο → Prop}
    {P : φ → Prop} {fields : List φ} {requests : List ι}
    (hreads : List.Forall₂ (ReadsIff f At encode Q P) fields requests)
    {rest : List α} {Done : σ → Prop} (hdone : ∀ s, At s rest → Done s) {s : σ}
    (hs : At s (fields.flatMap encode ++ rest)) :
    (∃ os s', feed f s requests = .ok (os, s') ∧ List.Forall₂ Q fields os ∧
      Done s') ↔ ∀ field ∈ fields, P field := by
  induction hreads generalizing s with
  | nil =>
      exact iff_of_true ⟨[], s, rfl, .nil, hdone s hs⟩ (List.forall_mem_nil P)
  | cons hfirst _ ih =>
      rw [List.flatMap_cons, List.append_assoc] at hs
      rw [List.forall_mem_cons]
      rcases hfirst s _ hs with ⟨o, s₁, hstep, hs₁, hQ⟩ | ⟨⟨e, hstep⟩, hP⟩
      · rw [← hQ, ← ih hs₁]
        constructor
        · rintro ⟨os, s', hfeed, hQs, hs'⟩
          obtain ⟨os', rfl, hrest⟩ := feed_cons_ok hstep hfeed
          cases hQs with
          | cons hQo hQs => exact ⟨hQo, os', s', hrest, hQs, hs'⟩
        · rintro ⟨hQo, os, s', hfeed, hQs, hs'⟩
          exact ⟨o :: os, s', by simp only [feed, hstep, hfeed],
            .cons hQo hQs, hs'⟩
      · constructor
        · rintro ⟨os, s', hfeed, _⟩
          simp only [feed, hstep] at hfeed
          cases hfeed
        · rintro ⟨hfield, _⟩
          exact absurd hfield hP

end DuinoBus.Verified
