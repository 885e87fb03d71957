/-!
# Functions that are called back

A function whose body calls functions that call it again is given by its
body, which takes the function as an argument.  `nested` runs it with a bound
on the depth of the calls, and `Returns` says that some depth is enough.

`nested_rule` is the induction over the depth: what the body passes on from
the calls it makes holds of every run.  `nested_ne_ok` is the case of a body
that always makes another call.
-/

namespace DuinoBus.Verified

universe u v w

/-- Why there is no result: a fault, or a call beyond the bound. -/
inductive Stop (ε : Type u) where
  | fault (e : ε)
  | deep
  deriving DecidableEq

variable {α : Type u} {β : Type v} {ε : Type w}

/-- What cannot call back can only fail. -/
def Stop.lift : Except ε β → Except (Stop ε) β
  | .ok b => .ok b
  | .error e => .error (.fault e)

/-- Run a function that is given by its body, with calls nested no deeper
than a bound. -/
def nested (body : (α → Except (Stop ε) β) → α → Except (Stop ε) β) :
    Nat → α → Except (Stop ε) β
  | 0, _ => .error .deep
  | depth + 1, a => body (nested body depth) a

theorem nested_succ (body : (α → Except (Stop ε) β) → α → Except (Stop ε) β)
    (depth : Nat) :
    nested body (depth + 1) = body (nested body depth) := rfl

/-- What succeeds began with something that did. -/
theorem bind_ok {γ : Type v} {x : Except ε β} {f : β → Except ε γ} {c : γ}
    (h : (x >>= f) = .ok c) : ∃ b, x = .ok b ∧ f b = .ok c := by
  cases x with
  | error e => cases h
  | ok b => exact ⟨b, rfl, h⟩

variable {body : (α → Except (Stop ε) β) → α → Except (Stop ε) β}

/-- The function returns something of which `P` holds, at whatever depth from
some depth on. -/
def Returns (body : (α → Except (Stop ε) β) → α → Except (Stop ε) β) (a : α)
    (P : β → Prop) : Prop :=
  ∃ b, P b ∧ ∃ enough, ∀ depth, enough ≤ depth →
    nested body depth a = .ok b

/-- **Induction over the depth.**  If the body passes `Q` on from its calls
at arguments in `S`, and running out of depth satisfies it, every run at such
an argument does. -/
theorem nested_rule {S : α → Prop} {Q : Except (Stop ε) β → Prop}
    (hdeep : Q (.error .deep))
    (hbody : ∀ call, (∀ a, S a → Q (call a)) → ∀ a, S a → Q (body call a))
    (depth : Nat) {a : α} (ha : S a) : Q (nested body depth a) := by
  induction depth generalizing a with
  | zero => exact hdeep
  | succ depth ih => exact hbody _ (fun a ha => ih ha) a ha

/-- A body that calls nothing returns. -/
theorem returns_of_leaf {a : α} {b : β} {P : β → Prop}
    (h : ∀ call, body call a = .ok b) (hb : P b) : Returns body a P := by
  refine ⟨b, hb, 1, ?_⟩
  intro depth hdepth
  cases depth with
  | zero => exact absurd hdepth (Nat.not_succ_le_zero 0)
  | succ depth => exact h _

/-- **No return.**  A body that cannot return unless a call at another
argument of the same kind does never returns. -/
theorem nested_ne_ok {S : α → Prop}
    (hbody : ∀ call, (∀ a, S a → ∀ b, call a ≠ .ok b) →
      ∀ a, S a → ∀ b, body call a ≠ .ok b)
    (depth : Nat) {a : α} (ha : S a) (b : β) : nested body depth a ≠ .ok b :=
  nested_rule (Q := fun r => ∀ b, r ≠ .ok b) (fun b hb => by cases hb) hbody
    depth ha b

end DuinoBus.Verified
