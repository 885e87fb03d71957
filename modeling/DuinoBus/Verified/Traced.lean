import DuinoBus.Verified.Transducer

/-!
# Computations that leave a trace

A `Traced` computation ends in a value or fails, and leaves a list of events
behind in either case: what it wrote to a log before an exception ended it, or
which parts of a memory it touched.

`Each P past es` says that every event of `es` is allowed by `P`, which sees
the events before it.  `Keeps` is the step rule for a stepper that never
fails: an invariant of the events so far and the state, from which every step
leaves allowed events only and establishes the invariant again.
`Keeps.feed` carries that to whole runs.

Forgetting the events gives an ordinary computation, `Traced.result`, and
forgetting them in every step of a run gives the run of `Verified.feed`.

`Instruments` is about a stepper that does what a plain one does, and shows
something about each step.  `Instruments.feed` says what it shows over a whole
run, from the answers of the plain stepper and its states.
-/

namespace DuinoBus.Verified

universe u v w x y

/-- A value or a failure, and the events up to there. -/
structure Traced (ev : Type u) (ε : Type v) (α : Type w) where
  events : List ev
  result : Except ε α

namespace Traced

variable {ev : Type u} {ε : Type v} {α β : Type w}

/-- One event. -/
def emit (e : ev) : Traced ev ε PUnit := ⟨[e], .ok ⟨⟩⟩

/-- Some events, one after the other. -/
def emitAll (es : List ev) : Traced ev ε PUnit := ⟨es, .ok ⟨⟩⟩

/-- No events. -/
def lift (r : Except ε α) : Traced ev ε α := ⟨[], r⟩

/-- Other names for the events and the failures. -/
def translate {ev' : Type u} {ε' : Type v} (f : ev → ev') (g : ε → ε')
    (c : Traced ev ε α) : Traced ev' ε' α :=
  ⟨c.events.map f, c.result.mapError g⟩

/-- What comes after a failure is not run. -/
def bind (c : Traced ev ε α) (f : α → Traced ev ε β) : Traced ev ε β :=
  match c.result with
  | .error e => ⟨c.events, .error e⟩
  | .ok a => ⟨c.events ++ (f a).events, (f a).result⟩

instance : Monad (Traced ev ε) where
  pure a := ⟨[], .ok a⟩
  bind := bind

theorem pure_eq (a : α) : (pure a : Traced ev ε α) = ⟨[], .ok a⟩ := rfl

/-- Going on after a value. -/
theorem bind_ok {c : Traced ev ε α} {es : List ev} {a : α}
    (h : c = ⟨es, .ok a⟩) (f : α → Traced ev ε β) :
    c >>= f = ⟨es ++ (f a).events, (f a).result⟩ := by
  rw [h]
  rfl

theorem emit_bind (e : ev) (f : PUnit → Traced ev ε β) :
    emit e >>= f = ⟨e :: (f ⟨⟩).events, (f ⟨⟩).result⟩ := rfl

theorem emitAll_pure (es : List ev) (a : α) :
    (emitAll es >>= fun _ => pure a : Traced ev ε α) = ⟨es, .ok a⟩ := by
  show (⟨es ++ [], .ok a⟩ : Traced ev ε α) = _
  rw [List.append_nil]

@[simp] theorem result_pure (a : α) :
    (pure a : Traced ev ε α).result = .ok a := rfl

@[simp] theorem result_bind (c : Traced ev ε α) (f : α → Traced ev ε β) :
    (c >>= f).result = c.result >>= fun a => (f a).result := by
  show (bind c f).result = _
  unfold bind
  cases c.result with
  | error e => rfl
  | ok a => rfl

end Traced

/-! ## Events that are allowed -/

section Each

variable {ev : Type u} {P : List ev → ev → Prop}

/-- Every event is allowed after those before it. -/
def Each (P : List ev → ev → Prop) (past : List ev) : List ev → Prop
  | [] => True
  | e :: es => P past e ∧ Each P (past ++ [e]) es

theorem Each.append {past es es' : List ev} (h : Each P past es)
    (h' : Each P (past ++ es) es') : Each P past (es ++ es') := by
  induction es generalizing past with
  | nil =>
      rw [List.append_nil] at h'
      exact h'
  | cons e es ih =>
      refine ⟨h.1, ih h.2 ?_⟩
      rw [List.append_assoc]
      exact h'

end Each

/-! ## Runs -/

section Runs

variable {ev : Type u} {ε : Type v} {σ : Type w} {ι : Type x} {ο : Type w}

/-- Run a traced stepper over a whole input. -/
def Traced.feed (f : σ → ι → Traced ev ε (ο × σ)) (s : σ) :
    List ι → Traced ev ε (List ο × σ)
  | [] => pure ([], s)
  | i :: is => do
      let (o, s) ← f s i
      let (os, s) ← Traced.feed f s is
      return (o :: os, s)

/-- Without the events, this is the run of the stepper without them. -/
theorem Traced.result_feed (f : σ → ι → Traced ev ε (ο × σ)) (s : σ)
    (is : List ι) :
    (Traced.feed f s is).result =
      Verified.feed (fun s i => (f s i).result) s is := by
  induction is generalizing s with
  | nil => rfl
  | cons i is ih =>
      simp only [Traced.feed, Verified.feed, Traced.result_bind, ih]
      cases (f s i).result with
      | error e => rfl
      | ok r =>
          cases hrest : Verified.feed (fun s i => (f s i).result) r.2 is with
          | error e => simp only [Bind.bind, Except.bind, hrest]
          | ok rest => simp only [Bind.bind, Except.bind, hrest, result_pure]

/-- From a state with the invariant, a step does not fail, leaves allowed
events only, answers what `Q` allows, and ends in a state with the
invariant. -/
structure Keeps (f : σ → ι → Traced ev ε (ο × σ)) (P : List ev → ev → Prop)
    (I : List ev → σ → Prop) (Q : ο → Prop) : Prop where
  step : ∀ past s i, I past s → ∃ es o s', f s i = ⟨es, .ok (o, s')⟩ ∧
    Each P past es ∧ Q o ∧ I (past ++ es) s'

/-- **Whole runs.** -/
theorem Keeps.feed {f : σ → ι → Traced ev ε (ο × σ)}
    {P : List ev → ev → Prop} {I : List ev → σ → Prop} {Q : ο → Prop}
    (h : Keeps f P I Q) {past : List ev} {s : σ} (hs : I past s)
    (is : List ι) :
    ∃ es os s', Traced.feed f s is = ⟨es, .ok (os, s')⟩ ∧
      Each P past es ∧ (∀ o ∈ os, Q o) ∧ I (past ++ es) s' := by
  induction is generalizing past s with
  | nil =>
      refine ⟨[], [], s, rfl, trivial, fun o ho => (by cases ho), ?_⟩
      rw [List.append_nil]
      exact hs
  | cons i is ih =>
      obtain ⟨es, o, s₁, hstep, heach, hQ, hs₁⟩ := h.step past s i hs
      obtain ⟨es', os, s₂, hfeed, heach', hQs, hs₂⟩ := ih hs₁
      refine ⟨es ++ es', o :: os, s₂, ?_, heach.append heach', ?_, ?_⟩
      · rw [Traced.feed, Traced.bind_ok hstep]
        simp only [Traced.bind_ok hfeed, Traced.pure_eq, List.append_nil]
      · intro o' ho'
        rcases List.mem_cons.mp ho' with rfl | ho'
        · exact hQ
        · exact hQs o' ho'
      · rw [← List.append_assoc]
        exact hs₂

/-! ## Instrumented runs -/

variable {τ : Type w} {κ : Type x} {ε' : Type v}

/-- A plain stepper whose answers tell the state after them. -/
def watch (g : σ → κ → Except ε' (ο × σ)) (s : σ) (i : κ) :
    Except ε' ((ο × σ) × σ) :=
  match g s i with
  | .error e => .error e
  | .ok (o, s') => .ok ((o, s'), s')

/-- On related states, the stepper answers what the plain one answers, and
shows what is to be seen of the input, the answer and the state after it. -/
structure Instruments (f : τ → ι → Traced ev ε (ο × τ))
    (g : σ → κ → Except ε' (ο × σ)) (input : ι → κ) (Rel : τ → σ → Prop)
    (shown : ι → ο → σ → List ev) : Prop where
  step : ∀ t s i, Rel t s → ∃ o t' s', g s (input i) = .ok (o, s') ∧
    f t i = ⟨shown i o s', .ok (o, t')⟩ ∧ Rel t' s'

/-- **Whole runs** of the two. -/
theorem Instruments.feed {f : τ → ι → Traced ev ε (ο × τ)}
    {g : σ → κ → Except ε' (ο × σ)} {input : ι → κ} {Rel : τ → σ → Prop}
    {shown : ι → ο → σ → List ev} (h : Instruments f g input Rel shown)
    {t : τ} {s : σ} (hrel : Rel t s) (is : List ι) :
    ∃ os t' s', Verified.feed (watch g) s (is.map input) = .ok (os, s') ∧
      Traced.feed f t is =
        ⟨(is.zip os).flatMap fun p => shown p.1 p.2.1 p.2.2,
          .ok (os.map Prod.fst, t')⟩ ∧ Rel t' s' := by
  induction is generalizing t s with
  | nil => exact ⟨[], t, s, rfl, rfl, hrel⟩
  | cons i is ih =>
      obtain ⟨o, t₁, s₁, hplain, hstep, hrel₁⟩ := h.step t s i hrel
      obtain ⟨os, t₂, s₂, hplains, hsteps, hrel₂⟩ := ih hrel₁
      refine ⟨(o, s₁) :: os, t₂, s₂, ?_, ?_, hrel₂⟩
      · simp only [List.map_cons, Verified.feed, watch, hplain, hplains]
      · rw [Traced.feed, Traced.bind_ok hstep]
        simp only [Traced.bind_ok hsteps, Traced.pure_eq, List.append_nil,
          List.zip_cons_cons, List.flatMap_cons, List.map_cons]

end Runs

end DuinoBus.Verified
