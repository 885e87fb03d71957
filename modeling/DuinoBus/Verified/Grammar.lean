import DuinoBus.Verified.ReceiverStream

/-!
# A reference parser for one frame

The receiver of `DuinoBus.Verified.Receiver` decides symbol by symbol.  This
file states what it decides as a grammar over the whole input: skip to the
first end symbol and over the end symbols that follow it directly, read
tokens up to the first bare end symbol, and judge the tokens.

`firstLoud_outputs` is the agreement: the first answer other than `pending`,
and the position it comes at, are the reference parser's.
-/

namespace DuinoBus.Verified.Grammar

open DuinoBus.Verified
open DuinoBus.Verified.Receiver

universe u

variable {α : Type u} [DecidableEq α]

/-! ## The grammar -/

section Tokens

variable (S : Stuffing α)

/-- What precedes the first token: the input up to the first end symbol, and
the end symbols from there on. -/
def lead (xs : List α) : List α :=
  xs.takeWhile (fun x => decide (x ≠ S.fin)) ++
    (xs.dropWhile (fun x => decide (x ≠ S.fin))).takeWhile
      (fun x => decide (x = S.fin))

/-- The input from the first token on. -/
def afterLead (xs : List α) : List α :=
  (xs.dropWhile (fun x => decide (x ≠ S.fin))).dropWhile
    (fun x => decide (x = S.fin))

/-- The tokens up to the first bare end symbol, each with the number of
symbols it is written with.  A trailing escape completes no token. -/
def tokens : List α → List (α × Nat)
  | [] => []
  | x :: xs =>
      if x = S.fin then []
      else if x = S.esc then
        match xs with
        | [] => []
        | y :: ys => (S.literal y, 2) :: tokens ys
      else (x, 1) :: tokens xs

/-- A bare end symbol follows the tokens. -/
def ended : List α → Bool
  | [] => false
  | x :: xs =>
      if x = S.fin then true
      else if x = S.esc then
        match xs with
        | [] => false
        | _ :: ys => ended ys
      else ended xs

end Tokens

/-- The number of symbols some tokens are written with. -/
def width : List (α × Nat) → Nat
  | [] => 0
  | t :: ts => t.2 + width ts

/-- The judgement on the tokens of a whole frame: the first is the command,
the last the check, and there have to be two of them. -/
def verdict (F : Framing α) : List α → Verdict α
  | [] => .short
  | cmd :: rest =>
      match rest.getLast? with
      | none => .short
      | some sum =>
          if sum = F.check cmd rest.dropLast then
            .accepted cmd rest.dropLast sum
          else .mismatch

/-- The reference parser from the first token on: position and judgement. -/
def parseFrame (R : Receiver α) (xs : List α) : Option (Nat × Verdict α) :=
  if R.capacity + 2 ≤ (tokens R.toStuffing xs).length then
    some (width ((tokens R.toStuffing xs).take (R.capacity + 2)) - 1, .overflow)
  else if ended R.toStuffing xs then
    some (width (tokens R.toStuffing xs),
      verdict R.toFraming ((tokens R.toStuffing xs).map Prod.fst))
  else none

/-- The reference parser: position and judgement of the first decision. -/
def parse (R : Receiver α) (xs : List α) : Option (Nat × Verdict α) :=
  (parseFrame R (afterLead R.toStuffing xs)).map
    fun r => ((lead R.toStuffing xs).length + r.1, r.2)

/-! ### The equations of the grammar -/

section Equations

variable (S : Stuffing α)

@[simp] theorem tokens_nil : tokens S [] = [] := rfl

@[simp] theorem tokens_fin (xs : List α) : tokens S (S.fin :: xs) = [] := by
  cases xs <;> simp [tokens]

@[simp] theorem tokens_esc_nil : tokens S [S.esc] = [] := by
  simp [tokens]

@[simp] theorem tokens_esc_cons (y : α) (ys : List α) :
    tokens S (S.esc :: y :: ys) = (S.literal y, 2) :: tokens S ys := by
  simp [tokens, S.esc_ne_fin]

theorem tokens_plain {x : α} (hfin : x ≠ S.fin) (hesc : x ≠ S.esc)
    (xs : List α) : tokens S (x :: xs) = (x, 1) :: tokens S xs := by
  cases xs <;> simp [tokens, hfin, hesc]

@[simp] theorem ended_nil : ended S [] = false := rfl

@[simp] theorem ended_fin (xs : List α) : ended S (S.fin :: xs) = true := by
  cases xs <;> simp [ended]

@[simp] theorem ended_esc_nil : ended S [S.esc] = false := by
  simp [ended, S.esc_ne_fin]

@[simp] theorem ended_esc_cons (y : α) (ys : List α) :
    ended S (S.esc :: y :: ys) = ended S ys := by
  simp [ended, S.esc_ne_fin]

theorem ended_plain {x : α} (hfin : x ≠ S.fin) (hesc : x ≠ S.esc)
    (xs : List α) : ended S (x :: xs) = ended S xs := by
  cases xs <;> simp [ended, hfin, hesc]

end Equations

theorem verdict_cons (R : Receiver α) (cmd : α) (rest : List α) :
    verdict R.toFraming (cmd :: rest) = (R.close cmd rest).2 := by
  rw [verdict, close]
  cases rest.getLast? with
  | none => rfl
  | some sum =>
      dsimp only
      split <;> rfl

/-! ## Agreement -/

/-- The receiver wants more input. -/
def quiet : Verdict α → Bool
  | .pending => true
  | _ => false

omit [DecidableEq α] in
@[simp] theorem quiet_pending : quiet (.pending : Verdict α) = true := rfl

omit [DecidableEq α] in
@[simp] theorem quiet_overflow : quiet (.overflow : Verdict α) = false := rfl

omit [DecidableEq α] in
theorem quiet_eq_true_iff (v : Verdict α) : quiet v = true ↔ v = .pending := by
  cases v <;> simp [quiet]

theorem quiet_close (R : Receiver α) (cmd : α) (buf : List α) :
    quiet (R.close cmd buf).2 = false := by
  cases h : quiet (R.close cmd buf).2 with
  | false => rfl
  | true => exact absurd ((quiet_eq_true_iff _).mp h) (R.close_ne_pending cmd buf)

omit [DecidableEq α] in
private theorem width_take_pos (ts : List (α × Nat)) (k : Nat)
    (hts : ∀ t ∈ ts, 0 < t.2) (hk : 0 < k) (hlen : k ≤ ts.length) :
    0 < width (ts.take k) := by
  cases ts with
  | nil => simp at hlen; omega
  | cons t ts =>
      obtain ⟨k, rfl⟩ := Nat.exists_eq_succ_of_ne_zero (Nat.ne_of_gt hk)
      have := hts t (by simp)
      simp only [List.take_succ_cons, width]
      omega

theorem tokens_width_pos (S : Stuffing α) (xs : List α) :
    ∀ t ∈ tokens S xs, 0 < t.2 := by
  fun_induction tokens S xs with
  | case1 => simp
  | case2 => simp
  | case3 => simp
  | case4 y ys _ ih =>
      intro t ht
      rcases List.mem_cons.mp ht with rfl | ht
      · simp
      · exact ih t ht
  | case5 _ _ _ _ ih =>
      intro t ht
      rcases List.mem_cons.mp ht with rfl | ht
      · simp
      · exact ih t ht

/-- The reference parser inside a body, with `buf` stored already. -/
private def parseBody (R : Receiver α) (cmd : α) (buf xs : List α) :
    Option (Nat × Verdict α) :=
  if R.capacity + 1 ≤ buf.length + (tokens R.toStuffing xs).length then
    some (width ((tokens R.toStuffing xs).take
      (R.capacity + 1 - buf.length)) - 1, .overflow)
  else if ended R.toStuffing xs then
    some (width (tokens R.toStuffing xs),
      (R.close cmd (buf ++ (tokens R.toStuffing xs).map Prod.fst)).2)
  else none

/-- One token more in the body shifts the decision by its width. -/
private theorem parseBody_token (R : Receiver α) (cmd : α) (buf xs ys : List α)
    (t : α) (n : Nat) (hn : 0 < n)
    (htok : tokens R.toStuffing xs = (t, n) :: tokens R.toStuffing ys)
    (hend : ended R.toStuffing xs = ended R.toStuffing ys) :
    (buf.length < R.capacity →
      parseBody R cmd buf xs =
        (parseBody R cmd (buf ++ [t]) ys).map fun r => (n + r.1, r.2)) ∧
    (buf.length = R.capacity →
      parseBody R cmd buf xs = some (n - 1, .overflow)) := by
  constructor
  · intro hroom
    unfold parseBody
    rw [htok, hend]
    simp only [List.length_append, List.length_cons, List.length_nil,
      Nat.zero_add, List.map_cons, List.append_assoc, List.singleton_append]
    by_cases hover :
        R.capacity + 1 ≤ buf.length + ((tokens R.toStuffing ys).length + 1)
    · have hover' : R.capacity + 1 ≤
          buf.length + 1 + (tokens R.toStuffing ys).length := by omega
      have hsplit : R.capacity + 1 - buf.length =
          (R.capacity + 1 - (buf.length + 1)) + 1 := by omega
      have hpos := width_take_pos (tokens R.toStuffing ys)
        (R.capacity + 1 - (buf.length + 1)) (tokens_width_pos _ ys)
        (by omega) (by omega)
      rw [if_pos hover, if_pos hover', hsplit, List.take_succ_cons]
      simp only [width, Option.map_some, Option.some.injEq, Prod.mk.injEq,
        and_true]
      omega
    · have hover' : ¬ R.capacity + 1 ≤
          buf.length + 1 + (tokens R.toStuffing ys).length := by omega
      rw [if_neg hover, if_neg hover']
      split
      · rfl
      · rfl
  · intro hfull
    unfold parseBody
    have hover : R.capacity + 1 ≤
        buf.length + (tokens R.toStuffing xs).length := by
      rw [htok, List.length_cons]
      omega
    rw [if_pos hover, htok, hfull, Nat.add_sub_cancel_left]
    rfl

/-- Inside a body the receiver decides what the reference parser decides. -/
private theorem firstLoud_body (R : Receiver α) (cmd : α) (buf xs : List α)
    (hbuf : buf.length ≤ R.capacity) :
    firstLoud quiet (R.machine.outputs (.body false cmd buf) xs) =
      parseBody R cmd buf xs := by
  have hstored : ∀ (b : α), buf.length < R.capacity →
      R.store cmd buf b = (.body false cmd (buf ++ [b]), .pending) := by
    intro b hroom
    rw [store, if_neg (by omega)]
  have hdropped : ∀ (b : α), buf.length = R.capacity →
      R.store cmd buf b = (.body false cmd buf, .overflow) := by
    intro b hfull
    rw [store, if_pos (by omega)]
  fun_induction tokens R.toStuffing xs generalizing buf with
  | case1 =>
      have hno : ¬ R.capacity + 1 ≤ buf.length := by omega
      simp [parseBody, hno, firstLoud]
  | case2 xs =>
      have hno : ¬ R.capacity + 1 ≤ buf.length := by omega
      simp [parseBody, hno, width, firstLoud, out_eq, step_fin_body,
        quiet_close]
  | case3 hx =>
      have hno : ¬ R.capacity + 1 ≤ buf.length := by omega
      simp [parseBody, hno, firstLoud, out_eq, step]
  | case4 y ys hx ih =>
      obtain ⟨hroom, hfull⟩ := parseBody_token R cmd buf _ ys (R.literal y) 2
        (by omega) (tokens_esc_cons _ y ys) (ended_esc_cons _ y ys)
      rcases Nat.lt_or_eq_of_le hbuf with hlt | heq
      · rw [hroom hlt, ← ih (buf ++ [R.literal y]) (by simp; omega)
          (fun b h => by rw [store, if_neg (by omega)])
          (fun b h => by rw [store, if_pos (by omega)])]
        simp only [Transducer.outputs_cons, out_eq, next_eq, step, if_true,
          hstored _ hlt, firstLoud, quiet_pending, Option.map_map]
        congr 1
        funext r
        simp only [Function.comp_apply, Prod.mk.injEq, and_true]
        omega
      · rw [hfull heq]
        simp [out_eq, next_eq, step, hdropped _ heq, firstLoud]
  | case5 x xs hx hesc ih =>
      obtain ⟨hroom, hfull⟩ := parseBody_token R cmd buf _ xs x 1
        (by omega) (tokens_plain _ hx hesc xs) (ended_plain _ hx hesc xs)
      rcases Nat.lt_or_eq_of_le hbuf with hlt | heq
      · rw [hroom hlt, ← ih (buf ++ [x]) (by simp; omega)
          (fun b h => by rw [store, if_neg (by omega)])
          (fun b h => by rw [store, if_pos (by omega)])]
        simp only [Transducer.outputs_cons, out_eq, next_eq, step, hx, hesc,
          if_false, hstored _ hlt, firstLoud, quiet_pending, if_true]
        congr 1
        funext r
        rw [Nat.add_comm]
      · rw [hfull heq]
        simp [out_eq, next_eq, step, hx, hesc, hdropped _ heq, firstLoud]

/-- A frame's first token is its command; what follows is its body. -/
private theorem parseFrame_token (R : Receiver α) (cmd : α) (n : Nat)
    (hn : 0 < n) (xs ys : List α)
    (htok : tokens R.toStuffing xs = (cmd, n) :: tokens R.toStuffing ys)
    (hend : ended R.toStuffing xs = ended R.toStuffing ys) :
    parseFrame R xs =
      (parseBody R cmd [] ys).map fun r => (n + r.1, r.2) := by
  unfold parseFrame parseBody
  rw [htok, hend]
  simp only [List.length_cons, List.length_nil, Nat.zero_add, List.map_cons,
    List.nil_append, verdict_cons, Nat.sub_zero]
  by_cases hover : R.capacity + 1 ≤ (tokens R.toStuffing ys).length
  · have hpos := width_take_pos (tokens R.toStuffing ys) (R.capacity + 1)
      (tokens_width_pos _ ys) (by omega) hover
    rw [if_pos (by omega), if_pos hover, List.take_succ_cons]
    simp only [width, Option.map_some, Option.some.injEq, Prod.mk.injEq,
      and_true]
    omega
  · rw [if_neg (by omega), if_neg hover]
    split <;> rfl

/-- After an opening end symbol the receiver decides what the reference
parser decides from the first token on. -/
theorem firstLoud_command (R : Receiver α) (xs : List α)
    (hxs : ∀ x ∈ xs.head?, x ≠ R.fin) :
    firstLoud quiet (R.machine.outputs (.command false) xs) =
      parseFrame R xs := by
  cases xs with
  | nil => simp [parseFrame, firstLoud]
  | cons x xs =>
      have hx : x ≠ R.fin := hxs x (by simp)
      by_cases hesc : x = R.esc
      · subst hesc
        cases xs with
        | nil => simp [parseFrame, firstLoud, out_eq, step]
        | cons y ys =>
            rw [parseFrame_token R (R.literal y) 2 (by omega) _ ys
              (tokens_esc_cons _ y ys) (ended_esc_cons _ y ys),
              ← firstLoud_body R (R.literal y) [] ys (by simp)]
            simp only [Transducer.outputs_cons, out_eq, next_eq, step, if_true,
              firstLoud, quiet_pending, Option.map_map]
            congr 1
            funext r
            simp only [Function.comp_apply, Prod.mk.injEq, and_true]
            omega
      · rw [parseFrame_token R x 1 (by omega) _ xs (tokens_plain _ hx hesc xs)
          (ended_plain _ hx hesc xs), ← firstLoud_body R x [] xs (by simp)]
        simp only [Transducer.outputs_cons, out_eq, next_eq, step, hx, hesc,
          if_false, firstLoud, quiet_pending, if_true]
        congr 1
        funext r
        rw [Nat.add_comm]

/-- Between frames the receiver skips to the first end symbol. -/
private theorem firstLoud_idle (R : Receiver α) (xs : List α) :
    firstLoud quiet (R.machine.outputs .idle xs) =
      (firstLoud quiet (R.machine.outputs .idle
        (xs.dropWhile fun x => decide (x ≠ R.fin)))).map
        fun r => ((xs.takeWhile fun x => decide (x ≠ R.fin)).length + r.1,
          r.2) := by
  induction xs with
  | nil => rfl
  | cons x xs ih =>
      by_cases hx : x = R.fin
      · simp [hx]
      · have hnext : R.machine.next .idle x = .idle := by
          simp [next_eq, step, hx]
        have hout : R.machine.out .idle x = .pending := by
          simp [out_eq, step]
        simp only [Transducer.outputs_cons, hnext, hout, firstLoud, quiet,
          if_true, List.dropWhile_cons, List.takeWhile_cons, hx, ne_eq,
          not_false_eq_true, decide_true, List.length_cons]
        rw [ih, Option.map_map]
        congr 1
        funext r
        simp only [Function.comp_apply, ne_eq, decide_not, Prod.mk.injEq,
          and_true]
        omega

/-- The receiver skips end symbols that follow each other directly. -/
private theorem firstLoud_fins (R : Receiver α) {p : Phase α} (hp : p.Ready)
    (xs : List α) (hxs : xs ≠ [] → xs.head? = some R.fin ∨ p = .command false) :
    firstLoud quiet (R.machine.outputs p xs) =
      (firstLoud quiet (R.machine.outputs (.command false)
        (xs.dropWhile fun x => decide (x = R.fin)))).map
        fun r => ((xs.takeWhile fun x => decide (x = R.fin)).length + r.1,
          r.2) := by
  induction xs generalizing p with
  | nil => rfl
  | cons x xs ih =>
      by_cases hx : x = R.fin
      · subst hx
        simp only [Transducer.outputs_cons, out_eq, next_eq,
          step_fin_ready R hp, firstLoud, quiet_pending, if_true,
          List.dropWhile_cons, List.takeWhile_cons, decide_true,
          List.length_cons]
        rw [ih (p := .command false) (.inr rfl) (fun _ => .inr rfl),
          Option.map_map]
        congr 1
        funext r
        simp only [Function.comp_apply, Prod.mk.injEq, and_true]
        omega
      · rcases hxs (by simp) with h | rfl
        · simp only [List.head?_cons, Option.some.injEq] at h
          exact absurd h hx
        · simp [hx]

/-- **The receiver decides what the grammar says**: the first answer that is
not `pending`, and its position, are the reference parser's. -/
theorem firstLoud_outputs (R : Receiver α) (xs : List α) :
    firstLoud quiet (R.machine.outputs .idle xs) = parse R xs := by
  have hhead : (xs.dropWhile fun x => decide (x ≠ R.fin)) ≠ [] →
      (xs.dropWhile fun x => decide (x ≠ R.fin)).head? = some R.fin ∨
        Phase.idle (α := α) = .command false := by
    intro hne
    left
    have h := List.head?_dropWhile_not (fun x => decide (x ≠ R.fin)) xs
    cases hd : (xs.dropWhile fun x => decide (x ≠ R.fin)).head? with
    | none => exact absurd (List.head?_eq_none_iff.mp hd) hne
    | some x =>
        rw [hd] at h
        simpa using h
  have hrest : ∀ x ∈ (afterLead R.toStuffing xs).head?, x ≠ R.fin := by
    intro x hx
    have h := List.head?_dropWhile_not (fun x => decide (x = R.fin))
      (xs.dropWhile fun x => decide (x ≠ R.fin))
    rw [Option.mem_def, afterLead] at hx
    rw [hx] at h
    simpa using h
  rw [firstLoud_idle, firstLoud_fins R (.inl rfl) _ hhead]
  rw [show ((xs.dropWhile fun x => decide (x ≠ R.fin)).dropWhile
      fun x => decide (x = R.fin)) = afterLead R.toStuffing xs from rfl,
    firstLoud_command R _ hrest, parse, Option.map_map]
  congr 1
  funext r
  simp only [Function.comp_apply, lead, List.length_append, Prod.mk.injEq,
    and_true]
  omega

end DuinoBus.Verified.Grammar
