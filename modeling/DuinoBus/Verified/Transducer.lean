import Mathlib.Data.List.Forall2

/-!
# Transducers: machines that answer every input

A transducer reads its input left to right and answers each symbol with
exactly one output.  Two kinds appear in this development:

* a total machine, `Transducer`, with a pure step function.  This is the
  form in which a protocol machine is specified and reasoned about;
* a fallible stepper `σ → ι → Except ε (ο × σ)`, the form in which a machine
  comes out of source code that can stop on an assertion or an exception.

`Simulates` connects the two: a fallible stepper simulates a transducer when,
on related states, it steps without failing, answers what the transducer
answers and stays related.  `Simulates.feed_eq` carries that to whole runs, so a
theorem about the outputs of the total machine is a theorem about the code.

Nothing here mentions a particular machine.
-/

namespace DuinoBus.Verified

universe u v w x y z

/-- A deterministic machine that answers each input with one output. -/
structure Transducer (σ : Type u) (ι : Type v) (ο : Type w) where
  step : σ → ι → σ × ο

variable {σ : Type u} {ι : Type v} {ο : Type w} {τ : Type x} {ε : Type y}

/-! ## Total runs -/

namespace Transducer

variable (T : Transducer σ ι ο)

/-- The state after one input. -/
def next (s : σ) (i : ι) : σ := (T.step s i).1

/-- The answer to one input. -/
def out (s : σ) (i : ι) : ο := (T.step s i).2

/-- The state after a whole input. -/
def run (s : σ) : List ι → σ
  | [] => s
  | i :: is => run (T.next s i) is

/-- The answers to a whole input, one for each symbol. -/
def outputs (s : σ) : List ι → List ο
  | [] => []
  | i :: is => T.out s i :: outputs (T.next s i) is

@[simp] theorem run_nil (s : σ) : T.run s [] = s := rfl

@[simp] theorem run_cons (s : σ) (i : ι) (is : List ι) :
    T.run s (i :: is) = T.run (T.next s i) is := rfl

@[simp] theorem outputs_nil (s : σ) : T.outputs s [] = [] := rfl

@[simp] theorem outputs_cons (s : σ) (i : ι) (is : List ι) :
    T.outputs s (i :: is) = T.out s i :: T.outputs (T.next s i) is := rfl

theorem run_append (s : σ) (xs ys : List ι) :
    T.run s (xs ++ ys) = T.run (T.run s xs) ys := by
  induction xs generalizing s with
  | nil => rfl
  | cons i xs ih => exact ih (T.next s i)

theorem outputs_append (s : σ) (xs ys : List ι) :
    T.outputs s (xs ++ ys) = T.outputs s xs ++ T.outputs (T.run s xs) ys := by
  induction xs generalizing s with
  | nil => rfl
  | cons i xs ih =>
      simp only [List.cons_append, outputs_cons, run_cons]
      rw [ih (T.next s i)]

@[simp] theorem length_outputs (s : σ) (xs : List ι) :
    (T.outputs s xs).length = xs.length := by
  induction xs generalizing s with
  | nil => rfl
  | cons i xs ih =>
      rw [outputs_cons, List.length_cons, List.length_cons, ih (T.next s i)]

/-- The machine that takes whole pieces of input. -/
def piecewise : Transducer σ (List ι) (List ο) :=
  ⟨fun s is => (T.run s is, T.outputs s is)⟩

end Transducer

/-! ## Fallible runs -/

/-- Run a fallible stepper over a whole input, collecting its answers.  The
run fails as soon as one step fails. -/
def feed (f : σ → ι → Except ε (ο × σ)) (s : σ) :
    List ι → Except ε (List ο × σ)
  | [] => .ok ([], s)
  | i :: is =>
      match f s i with
      | .error e => .error e
      | .ok (o, s') =>
          match feed f s' is with
          | .error e => .error e
          | .ok (os, s'') => .ok (o :: os, s'')

/-- A run that succeeds after its first step is that step and a run. -/
theorem feed_cons_ok {f : σ → ι → Except ε (ο × σ)} {s s₁ s' : σ} {i : ι}
    {is : List ι} {o : ο} {os : List ο} (hstep : f s i = .ok (o, s₁))
    (h : feed f s (i :: is) = .ok (os, s')) :
    ∃ os', os = o :: os' ∧ feed f s₁ is = .ok (os', s') := by
  simp only [feed, hstep] at h
  cases hrest : feed f s₁ is with
  | error e =>
      rw [hrest] at h
      cases h
  | ok r =>
      rw [hrest] at h
      cases h
      exact ⟨r.1, rfl, rfl⟩

/-- What holds of the answer to every input holds of all answers of a run. -/
theorem feed_forall {f : σ → ι → Except ε (ο × σ)} {P : ο → Prop}
    (hstep : ∀ s i o s', f s i = .ok (o, s') → P o) {s s' : σ} {is : List ι}
    {os : List ο} (h : feed f s is = .ok (os, s')) : ∀ o ∈ os, P o := by
  induction is generalizing s os with
  | nil =>
      cases h
      exact fun o ho => by cases ho
  | cons i is ih =>
      cases hfirst : f s i with
      | error e => simp [feed, hfirst] at h
      | ok r =>
          obtain ⟨os', rfl, hrest⟩ := feed_cons_ok hfirst h
          intro o ho
          rcases List.mem_cons.mp ho with rfl | ho
          · exact hstep s i _ r.2 hfirst
          · exact ih hrest o ho

/-- Two runs, one after the other. -/
theorem feed_append {f : σ → ι → Except ε (ο × σ)} {s s₁ s₂ : σ}
    {xs ys : List ι} {os ps : List ο} (hxs : feed f s xs = .ok (os, s₁))
    (hys : feed f s₁ ys = .ok (ps, s₂)) :
    feed f s (xs ++ ys) = .ok (os ++ ps, s₂) := by
  induction xs generalizing s os with
  | nil =>
      cases hxs
      exact hys
  | cons i xs ih =>
      cases hstep : f s i with
      | error e => simp [feed, hstep] at hxs
      | ok r =>
          obtain ⟨os', rfl, hrest⟩ := feed_cons_ok hstep hxs
          simp only [List.cons_append, feed, hstep, ih hrest]

/-! ## Simulation -/

/-- The stepper `f` simulates the transducer `T`: from states related by `R`
it does not fail, its answer is the transducer's under `g`, and the states
stay related. -/
structure Simulates {ο' : Type w} (f : σ → ι → Except ε (ο × σ))
    (T : Transducer τ ι ο') (R : σ → τ → Prop) (g : ο' → ο) : Prop where
  step : ∀ s t i, R s t →
    ∃ s', f s i = .ok (g (T.out t i), s') ∧ R s' (T.next t i)

/-- **Simulation of whole runs.**  The run of a simulating stepper succeeds,
its answers are the transducer's, and it ends in a related state. -/
theorem Simulates.feed_eq {ο' : Type w} {f : σ → ι → Except ε (ο × σ)}
    {T : Transducer τ ι ο'} {R : σ → τ → Prop} {g : ο' → ο}
    (h : Simulates f T R g) {s : σ} {t : τ} (hst : R s t) (xs : List ι) :
    ∃ s', feed f s xs = .ok ((T.outputs t xs).map g, s') ∧
      R s' (T.run t xs) := by
  induction xs generalizing s t with
  | nil => exact ⟨s, rfl, hst⟩
  | cons i xs ih =>
      obtain ⟨s₁, hf, hst₁⟩ := h.step s t i hst
      obtain ⟨s₂, hexec, hst₂⟩ := ih hst₁
      refine ⟨s₂, ?_, hst₂⟩
      simp only [feed, hf, hexec, Transducer.outputs_cons,
        List.map_cons]

/-- What simulates symbol by symbol simulates piece by piece. -/
theorem Simulates.piecewise {ο' : Type w} {f : σ → ι → Except ε (ο × σ)}
    {T : Transducer τ ι ο'} {R : σ → τ → Prop} {g : ο' → ο}
    (h : Simulates f T R g) :
    Simulates (feed f) T.piecewise R (List.map g) where
  step := fun _ _ is hst => h.feed_eq hst is

/-- Outcomes of two fallible steppers that are alike: answers that `g`
translates and related states, or the same error. -/
inductive Alike {ο' : Type w} (g : ο' → ο) (R : σ → τ → Prop) :
    Except ε (ο × σ) → Except ε (ο' × τ) → Prop
  | ok {s : σ} {t : τ} (o : ο') (hst : R s t) :
      Alike g R (.ok (g o, s)) (.ok (o, t))
  | error (e : ε) : Alike g R (.error e) (.error e)

/-- **Steppers that are alike** in every step are alike over whole runs. -/
theorem Alike.feed {ο' : Type w} {f : σ → ι → Except ε (ο × σ)}
    {f' : τ → ι → Except ε (ο' × τ)} {g : ο' → ο} {R : σ → τ → Prop}
    (hstep : ∀ s t i, R s t → Alike g R (f s i) (f' t i)) {s : σ} {t : τ}
    (hst : R s t) (xs : List ι) :
    Alike (List.map g) R (feed f s xs) (feed f' t xs) := by
  induction xs generalizing s t with
  | nil => exact .ok [] hst
  | cons i xs ih =>
      have hfirst := hstep s t i hst
      simp only [Verified.feed]
      generalize f s i = x at hfirst ⊢
      generalize f' t i = y at hfirst ⊢
      cases hfirst with
      | error e => exact .error e
      | @ok s₁ t₁ o hst₁ =>
          have hrest := ih hst₁
          simp only
          generalize Verified.feed f s₁ xs = x at hrest ⊢
          generalize Verified.feed f' t₁ xs = y at hrest ⊢
          cases hrest with
          | error e => exact .error e
          | ok os hst₂ => exact .ok (o :: os) hst₂

/-- The answers of outcomes that are alike. -/
theorem Alike.map_fst {ο' : Type w} {g : ο' → ο} {R : σ → τ → Prop}
    {x : Except ε (ο × σ)} {y : Except ε (ο' × τ)} (h : Alike g R x y) :
    x.map Prod.fst = y.map fun r => g r.1 := by
  cases h with
  | ok o hst => rfl
  | error e => rfl

/-- The stepper `f` drives the transducer `T`: `read` is what the transducer
sees of an input, and each answer of `f` is related by `Q` to the
transducer's. -/
structure Drives {κ : Type z} {ο' : Type w} (f : σ → κ → Except ε (ο × σ))
    (T : Transducer τ ι ο') (read : κ → ι) (R : σ → τ → Prop)
    (Q : ο' → ο → Prop) : Prop where
  step : ∀ s t i, R s t →
    ∃ o s', f s i = .ok (o, s') ∧ Q (T.out t (read i)) o ∧
      R s' (T.next t (read i))

/-- **Driving over whole runs.** -/
theorem Drives.feed_eq {κ : Type z} {ο' : Type w} {f : σ → κ → Except ε (ο × σ)}
    {T : Transducer τ ι ο'} {read : κ → ι} {R : σ → τ → Prop}
    {Q : ο' → ο → Prop} (h : Drives f T read R Q) {s : σ} {t : τ}
    (hst : R s t) (xs : List κ) :
    ∃ os s', feed f s xs = .ok (os, s') ∧
      List.Forall₂ Q (T.outputs t (xs.map read)) os ∧
      R s' (T.run t (xs.map read)) := by
  induction xs generalizing s t with
  | nil => exact ⟨[], s, rfl, .nil, hst⟩
  | cons i xs ih =>
      obtain ⟨o, s₁, hf, hQ, hst₁⟩ := h.step s t i hst
      obtain ⟨os, s₂, hexec, hQs, hst₂⟩ := ih hst₁
      refine ⟨o :: os, s₂, ?_, .cons hQ hQs, hst₂⟩
      simp only [feed, hf, hexec]

/-- The stepper `f` drives the transducer `T` while the answers are ones that
`P` allows, and fails with `e` at one that is not. -/
structure DrivesWhile {κ : Type z} {ο' : Type w} (f : σ → κ → Except ε (ο × σ))
    (T : Transducer τ ι ο') (read : κ → ι) (R : σ → τ → Prop) (P : ο' → Prop)
    (e : ε) : Prop where
  step_ok : ∀ s t i, R s t → P (T.out t (read i)) →
    ∃ o s', f s i = .ok (o, s') ∧ R s' (T.next t (read i))
  step_error : ∀ s t i, R s t → ¬ P (T.out t (read i)) → f s i = .error e

section DrivesWhile

variable {κ : Type z} {ο' : Type w} {f : σ → κ → Except ε (ο × σ)}
  {T : Transducer τ ι ο'} {read : κ → ι} {R : σ → τ → Prop} {P : ο' → Prop}
  {e : ε}

/-- The run goes through if every answer is allowed. -/
theorem DrivesWhile.feed_ok (h : DrivesWhile f T read R P e) {s : σ} {t : τ}
    (hst : R s t) {xs : List κ}
    (hallowed : ∀ o ∈ T.outputs t (xs.map read), P o) :
    ∃ os s', feed f s xs = .ok (os, s') ∧ R s' (T.run t (xs.map read)) := by
  induction xs generalizing s t with
  | nil => exact ⟨[], s, rfl, hst⟩
  | cons i xs ih =>
      have hfirst := hallowed _ List.mem_cons_self
      obtain ⟨o, s₁, hf, hst₁⟩ := h.step_ok s t i hst hfirst
      have hrest := fun o ho => hallowed o (List.mem_cons_of_mem _ ho)
      obtain ⟨os, s₂, hfeed, hst₂⟩ := ih hst₁ hrest
      exact ⟨o :: os, s₂, by simp only [feed, hf, hfeed], hst₂⟩

/-- The run fails if some answer is not allowed. -/
theorem DrivesWhile.feed_error (h : DrivesWhile f T read R P e) {s : σ} {t : τ}
    (hst : R s t) {xs : List κ}
    (hforbidden : ¬ ∀ o ∈ T.outputs t (xs.map read), P o) :
    feed f s xs = .error e := by
  induction xs generalizing s t with
  | nil => exact absurd (fun o ho => by cases ho) hforbidden
  | cons i xs ih =>
      by_cases hfirst : P (T.out t (read i))
      · obtain ⟨o, s₁, hf, hst₁⟩ := h.step_ok s t i hst hfirst
        have hrest := ih hst₁ (fun hall => hforbidden (by
          intro o ho
          rcases List.mem_cons.mp ho with rfl | ho
          · exact hfirst
          · exact hall o ho))
        simp only [feed, hf, hrest]
      · simp only [feed, h.step_error s t i hst hfirst]

end DrivesWhile

/-! ## Lockstep -/

/-- Two fallible steppers run in lockstep: from states related by `R`, given
the answers `past` that the first one gave so far, both step without failing,
their answers are related by `Q`, and unless the answer is a `stop` the states
stay related. -/
structure Lockstep {ο' : Type x} {ε' : Type z} (f : σ → ι → Except ε (ο × σ))
    (g : τ → ι → Except ε' (ο' × τ)) (R : List ο → σ → τ → Prop)
    (stop : ο → Prop) (Q : List ο → ο → ο' → Prop) : Prop where
  step : ∀ past s t i, R past s t →
    ∃ o s' p t', f s i = .ok (o, s') ∧ g t i = .ok (p, t') ∧ Q past o p ∧
      (¬ stop o → R (past ++ [o]) s' t')

/-- **Lockstep over whole runs.**  The answers at a position are related if no
answer before it is a stop. -/
theorem Lockstep.getElem? {ο' : Type x} {ε' : Type z}
    {f : σ → ι → Except ε (ο × σ)} {g : τ → ι → Except ε' (ο' × τ)}
    {R : List ο → σ → τ → Prop} {stop : ο → Prop}
    {Q : List ο → ο → ο' → Prop} (h : Lockstep f g R stop Q) {past : List ο}
    {s s' : σ} {t t' : τ} (hst : R past s t) {xs : List ι} {os : List ο}
    {ps : List ο'} (hf : feed f s xs = .ok (os, s'))
    (hg : feed g t xs = .ok (ps, t')) {n : Nat} {o : ο} {p : ο'}
    (ho : os[n]? = some o) (hp : ps[n]? = some p)
    (hgo : ∀ a ∈ os.take n, ¬ stop a) : Q (past ++ os.take n) o p := by
  induction xs generalizing past s t os ps n with
  | nil =>
      cases hf
      cases ho
  | cons i xs ih =>
      obtain ⟨o₁, s₁, p₁, t₁, hf₁, hg₁, hQ, hR⟩ := h.step past s t i hst
      obtain ⟨os₁, hos, hfs⟩ := feed_cons_ok hf₁ hf
      obtain ⟨ps₁, hps, hgs⟩ := feed_cons_ok hg₁ hg
      subst hos hps
      cases n with
      | zero =>
          cases ho
          cases hp
          rw [List.take_zero, List.append_nil]
          exact hQ
      | succ n =>
          rw [List.take_succ_cons] at hgo ⊢
          have hnext := hR (hgo o₁ List.mem_cons_self)
          have hrest := ih hnext hfs hgs ho hp
            (fun a ha => hgo a (List.mem_cons_of_mem _ ha))
          rw [List.append_assoc] at hrest
          exact hrest

/-! ## The first answer that is not quiet -/

/-- Position and value of the first answer that `quiet` does not hold of. -/
def firstLoud (quiet : ο → Bool) : List ο → Option (Nat × ο)
  | [] => none
  | o :: os =>
      if quiet o then (firstLoud quiet os).map fun r => (r.1 + 1, r.2)
      else some (0, o)

/-- Translating the answers translates the first loud one, when the
translation keeps quiet answers quiet. -/
theorem firstLoud_map {ο' : Type w} (quiet : ο → Bool) (quiet' : ο' → Bool)
    (g : ο' → ο) (hg : ∀ o, quiet (g o) = quiet' o) (os : List ο') :
    firstLoud quiet (os.map g) =
      (firstLoud quiet' os).map fun r => (r.1, g r.2) := by
  induction os with
  | nil => rfl
  | cons o os ih =>
      simp only [List.map_cons, firstLoud, hg, ih]
      split <;> simp [Function.comp_def]

end DuinoBus.Verified
