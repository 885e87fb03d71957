import Mathlib.Data.List.Basic

/-!
# Words between delimiters

Words that do not contain the delimiter are written one after the other, each
with a delimiter on both sides.  Where one word ends and the next begins there
are two delimiters, and yet a reader cannot be misled: a delimited word that
occurs in such a text, at any place, is one of its words (`delimited_found`).
-/

namespace DuinoBus.Verified

universe u

variable {α : Type u} (fin : α)

/-- A word with a delimiter on both sides. -/
def delimited (w : List α) : List α := fin :: (w ++ [fin])

/-- A word that can be delimited. -/
def IsWord (w : List α) : Prop := w ≠ [] ∧ fin ∉ w

variable {fin}

/-- The first delimiter behind two words is behind both. -/
private theorem eq_of_append {w v after rest : List α} (hw : fin ∉ w)
    (hv : fin ∉ v) (h : w ++ fin :: after = v ++ fin :: rest) :
    w = v ∧ after = rest := by
  rcases List.append_eq_append_iff.mp h with ⟨a, hva, hrest⟩ | ⟨a, hwa, hrest⟩
  · cases a with
    | nil =>
        rw [List.append_nil] at hva
        exact ⟨hva.symm, (List.cons.inj hrest).2⟩
    | cons b a =>
        obtain ⟨rfl, _⟩ := List.cons.inj hrest
        exact absurd (hva ▸ List.mem_append_right w List.mem_cons_self) hv
  · cases a with
    | nil =>
        rw [List.append_nil] at hwa
        exact ⟨hwa, (List.cons.inj hrest).2.symm⟩
    | cons b a =>
        obtain ⟨rfl, _⟩ := List.cons.inj hrest
        exact absurd (hwa ▸ List.mem_append_right v List.mem_cons_self) hw

/-- A text of delimited words does not begin with a word. -/
private theorem ne_of_word {w : List α} (hw : IsWord fin w) (ws : List (List α))
    (after : List α) : ws.flatMap (delimited fin) ≠ w ++ after := by
  obtain ⟨b, w, rfl⟩ := List.exists_cons_of_ne_nil hw.1
  intro h
  cases ws with
  | nil => cases h
  | cons v ws =>
      obtain ⟨rfl, _⟩ := List.cons.inj h
      exact hw.2 List.mem_cons_self

/-- **A delimited word in a text of delimited words is one of them**, wherever
it is found. -/
theorem delimited_found {w : List α} (hw : IsWord fin w) {ws : List (List α)}
    (hws : ∀ v ∈ ws, IsWord fin v) {before after : List α} :
    ws.flatMap (delimited fin) = before ++ delimited fin w ++ after ↔
      ∃ ws₁ ws₂, ws = ws₁ ++ w :: ws₂ ∧
        before = ws₁.flatMap (delimited fin) ∧
        after = ws₂.flatMap (delimited fin) := by
  constructor
  · intro h
    induction ws generalizing before with
    | nil =>
        have hlength := congrArg List.length h
        simp [delimited] at hlength
    | cons v ws ih =>
        have hv := hws v List.mem_cons_self
        have hrest : ∀ u ∈ ws, IsWord fin u :=
          fun u hu => hws u (List.mem_cons_of_mem v hu)
        have hsplit : ∀ u rest : List α, delimited fin u ++ rest =
            fin :: (u ++ fin :: rest) := by simp [delimited]
        rw [List.flatMap_cons, List.append_assoc, hsplit, hsplit] at h
        cases before with
        | nil =>
            obtain ⟨rfl, rfl⟩ :=
              eq_of_append hv.2 hw.2 (List.cons.inj h).2
            exact ⟨[], ws, rfl, rfl, rfl⟩
        | cons b before =>
            obtain ⟨rfl, htail⟩ := List.cons.inj h
            -- the delimiter in front of the word is not inside `v`
            rcases List.append_eq_append_iff.mp htail with
              ⟨c, hbefore, hc⟩ | ⟨c, hvc, hc⟩
            · cases c with
              | nil => exact absurd (List.cons.inj hc).2 (ne_of_word hw ws _)
              | cons d c =>
                  obtain ⟨rfl, hfound⟩ := List.cons.inj hc
                  have hwords : ws.flatMap (delimited fin) =
                      c ++ delimited fin w ++ after := by
                    rw [List.append_assoc, hsplit]
                    exact hfound
                  obtain ⟨ws₁, ws₂, rfl, rfl, rfl⟩ := ih hrest hwords
                  refine ⟨v :: ws₁, ws₂, rfl, ?_, rfl⟩
                  rw [hbefore, List.flatMap_cons, hsplit]
            · cases c with
              | nil =>
                  exact absurd (List.cons.inj hc).2.symm (ne_of_word hw ws _)
              | cons d c =>
                  obtain ⟨rfl, _⟩ := List.cons.inj hc
                  exact absurd (hvc ▸ List.mem_append_right before
                    List.mem_cons_self) hv.2
  · rintro ⟨ws₁, ws₂, rfl, rfl, rfl⟩
    rw [List.flatMap_append, List.flatMap_cons, List.append_assoc]

end DuinoBus.Verified
