import Mathlib.Data.List.Basic
import Mathlib.Data.List.Nodup
import Mathlib.Data.Option.Basic

/-!
# Tables of open sockets

A `SocketTable` is what a process knows of its descriptors: which are open,
and to whom each is connected.  It also keeps the peers that a connection was
tried to, and every value that was closed without being an open descriptor: a
descriptor closed before, a negative number, or the `none` of a variable that
was never set.

Obtaining a descriptor takes a number that is not open.  Which one is up to
the system: `fresh` replaces a pick that is taken, so that every number that
is not open can be picked, and no other.

`close_add` and `close_below` say that closing gives back what was obtained,
and `misuses_close` that closing anything else is recorded.
-/

namespace DuinoBus.Verified

universe u

/-- The open descriptors with their peers, the latest first. -/
@[ext]
structure SocketTable (α : Type u) where
  entries : List (Nat × Option α)
  nodup : (entries.map Prod.fst).Nodup
  tried : List α
  misuses : List (Option Int)
  deriving DecidableEq

namespace SocketTable

variable {α : Type u}

def empty : SocketTable α := ⟨[], List.nodup_nil, [], []⟩

/-- The open descriptors. -/
def fds (t : SocketTable α) : List Nat := t.entries.map Prod.fst

/-- The pick, unless it is open. -/
def fresh (t : SocketTable α) (pick : Nat) : Nat :=
  if pick ∈ t.fds then t.fds.foldr max 0 + 1 else pick

theorem le_foldr_max {fds : List Nat} {fd : Nat} (h : fd ∈ fds) :
    fd ≤ fds.foldr max 0 := by
  induction fds with
  | nil => cases h
  | cons fd' fds ih =>
      rw [List.foldr_cons]
      rcases List.mem_cons.mp h with rfl | h
      · exact Nat.le_max_left _ _
      · exact Nat.le_trans (ih h) (Nat.le_max_right _ _)

theorem fresh_notMem (t : SocketTable α) (pick : Nat) :
    t.fresh pick ∉ t.fds := by
  rw [fresh]
  split
  · intro hmem
    have hle := le_foldr_max hmem
    omega
  · assumption

/-- Every number that is not open can be picked. -/
theorem fresh_of_notMem {t : SocketTable α} {fd : Nat} (h : fd ∉ t.fds) :
    t.fresh fd = fd := if_neg h

/-- A new descriptor. -/
def add (t : SocketTable α) (pick : Nat) (peer : Option α) : SocketTable α :=
  { t with
    entries := (t.fresh pick, peer) :: t.entries
    nodup := List.nodup_cons.mpr ⟨t.fresh_notMem pick, t.nodup⟩ }

theorem entries_add (t : SocketTable α) (pick : Nat) (peer : Option α) :
    (t.add pick peer).entries = (t.fresh pick, peer) :: t.entries := rfl

/-- Obtain a descriptor; the answer `none` is a failure. -/
def obtain (t : SocketTable α) (answer : Option (Nat × Option α)) :
    Int × SocketTable α :=
  match answer with
  | none => (-1, t)
  | some (pick, peer) => (t.fresh pick, t.add pick peer)

/-- `socket`. -/
def socket (t : SocketTable α) (answer : Option Nat) : Int × SocketTable α :=
  t.obtain (answer.map fun pick => (pick, none))

theorem socket_some (t : SocketTable α) (pick : Nat) :
    t.socket (some pick) = (↑(t.fresh pick), t.add pick none) := rfl

/-- `accept`. -/
def accept (t : SocketTable α) (answer : Option (Nat × α)) :
    Int × SocketTable α :=
  t.obtain (answer.map fun client => (client.1, some client.2))

theorem accept_none (t : SocketTable α) : t.accept none = (-1, t) := rfl

theorem accept_some (t : SocketTable α) (client : Nat × α) :
    t.accept (some client) =
      (↑(t.fresh client.1), t.add client.1 (some client.2)) := rfl

/-- Connections were tried to some peers. -/
def trying (t : SocketTable α) (peers : List α) : SocketTable α :=
  { t with tried := t.tried ++ peers }

/-- The entry of a descriptor that got connected. -/
def link (skt : Int) (peer : α) (e : Nat × Option α) : Nat × Option α :=
  if (e.1 : Int) = skt then (e.1, some peer) else e

theorem map_fst_link (skt : Int) (peer : α) (entries : List (Nat × Option α)) :
    (entries.map (link skt peer)).map Prod.fst = entries.map Prod.fst := by
  rw [List.map_map]
  refine List.map_congr_left fun e _ => ?_
  rw [Function.comp_apply, link]
  split <;> rfl

/-- `connect`. -/
def connect (t : SocketTable α) (skt : Int) (peer : α) (accepted : Bool) :
    SocketTable α :=
  if accepted then
    { t.trying [peer] with
      entries := t.entries.map (link skt peer)
      nodup := by rw [map_fst_link]; exact t.nodup }
  else t.trying [peer]

/-- The value is an open descriptor. -/
def isOpen (t : SocketTable α) (value : Option Int) : Bool :=
  t.fds.any fun fd => decide (value = some (fd : Int))

/-- `close`. -/
def close (t : SocketTable α) (value : Option Int) : SocketTable α :=
  if t.isOpen value then
    { t with
      entries := t.entries.filter fun e => decide (value ≠ some (e.1 : Int))
      nodup := t.nodup.sublist (List.filter_sublist.map Prod.fst) }
  else { t with misuses := t.misuses ++ [value] }

/-- To whom a descriptor is connected. -/
def peerOf (t : SocketTable α) (skt : Int) : Option α :=
  (t.entries.find? fun e => decide ((e.1 : Int) = skt)).bind Prod.snd

variable {t : SocketTable α} {fd pick : Nat} {peer : Option α}

theorem fd_ne_of_mem {e : Nat × Option α} (h : fd ∉ t.fds)
    (he : e ∈ t.entries) : (e.1 : Int) ≠ fd := by
  intro heq
  have hfd : e.1 = fd := Int.ofNat.inj heq
  exact h (hfd ▸ List.mem_map_of_mem he)

/-! ## Closing -/

theorem isOpen_iff (value : Option Int) :
    t.isOpen value = true ↔ ∃ fd ∈ t.fds, value = some (fd : Int) := by
  rw [isOpen, List.any_eq_true]
  exact exists_congr fun fd => and_congr_right fun _ => decide_eq_true_iff

theorem not_isOpen_none : ¬ t.isOpen none = true := by
  rw [isOpen_iff]
  rintro ⟨fd, _, hfd⟩
  cases hfd

theorem not_isOpen_negative : ¬ t.isOpen (some (-1)) = true := by
  rw [isOpen_iff]
  rintro ⟨fd, _, hfd⟩
  have h : (-1 : Int) = fd := Option.some.inj hfd
  omega

theorem not_isOpen_of_notMem (h : fd ∉ t.fds) :
    ¬ t.isOpen (some (fd : Int)) = true := by
  rw [isOpen_iff]
  rintro ⟨fd', hmem, hfd⟩
  have heq : fd = fd' := Int.ofNat.inj (Option.some.inj hfd)
  exact h (heq ▸ hmem)

theorem filter_entries (h : fd ∉ t.fds) :
    t.entries.filter
        (fun e => decide (some (fd : Int) ≠ some (e.1 : Int))) =
      t.entries := by
  rw [List.filter_eq_self]
  intro e he
  have hne : (e.1 : Int) ≠ fd := fd_ne_of_mem h he
  exact decide_eq_true fun heq => hne (Option.some.inj heq).symm

theorem entries_close {value : Option Int} (h : t.isOpen value = true) :
    (t.close value).entries =
      t.entries.filter fun e => decide (value ≠ some (e.1 : Int)) := by
  rw [close, if_pos h]

theorem misuses_close_of_isOpen {value : Option Int}
    (h : t.isOpen value = true) : (t.close value).misuses = t.misuses := by
  rw [close, if_pos h]

@[simp] theorem tried_close (t : SocketTable α) (value : Option Int) :
    (t.close value).tried = t.tried := by
  rw [close]
  split <;> rfl

/-- Closing a new descriptor undoes obtaining it. -/
theorem close_add : (t.add pick peer).close (some (t.fresh pick : Int)) = t := by
  have hopen : (t.add pick peer).isOpen (some (t.fresh pick : Int)) = true :=
    (isOpen_iff _).mpr ⟨t.fresh pick, List.mem_cons_self, rfl⟩
  ext1
  · rw [entries_close hopen, entries_add, List.filter_cons_of_neg (by simp),
      filter_entries (t.fresh_notMem pick)]
  · exact tried_close _ _
  · exact misuses_close_of_isOpen hopen

/-- Closing it below one that was obtained later. -/
theorem close_below {pick' : Nat} {peer' : Option α} :
    ((t.add pick peer).add pick' peer').close (some (t.fresh pick : Int)) =
      t.add ((t.add pick peer).fresh pick') peer' := by
  have hnot := (t.add pick peer).fresh_notMem pick'
  generalize hfd' : (t.add pick peer).fresh pick' = fd' at hnot ⊢
  have hne : t.fresh pick ≠ fd' := fun heq => hnot (heq ▸ List.mem_cons_self)
  have hfresh : t.fresh fd' = fd' :=
    fresh_of_notMem fun hmem => hnot (List.mem_cons_of_mem _ hmem)
  have hopen : ((t.add pick peer).add pick' peer').isOpen
      (some (t.fresh pick : Int)) = true :=
    (isOpen_iff _).mpr
      ⟨t.fresh pick, List.mem_cons_of_mem _ List.mem_cons_self, rfl⟩
  ext1
  · rw [entries_close hopen, entries_add, entries_add, entries_add, hfd',
      hfresh, List.filter_cons_of_pos (by simp; omega),
      List.filter_cons_of_neg (by simp), filter_entries (t.fresh_notMem pick)]
  · exact tried_close _ _
  · exact misuses_close_of_isOpen hopen

/-- Closing anything else is recorded. -/
theorem misuses_close {value : Option Int} (h : ¬ t.isOpen value = true) :
    (t.close value).misuses ≠ t.misuses := by
  rw [close, if_neg h]
  intro heq
  have hlen := congrArg List.length heq
  rw [List.length_append, List.length_singleton] at hlen
  omega

theorem close_of_not_isOpen {value : Option Int}
    (h : ¬ t.isOpen value = true) :
    t.close value = { t with misuses := t.misuses ++ [value] } := by
  rw [close, if_neg h]

/-- Closing an open descriptor leaves one less open. -/
theorem length_close {value : Option Int} (h : t.isOpen value = true) :
    (t.close value).entries.length + 1 = t.entries.length := by
  obtain ⟨fd, hfd, rfl⟩ := (isOpen_iff value).mp h
  obtain ⟨e, he, rfl⟩ := List.mem_map.mp hfd
  obtain ⟨before, after, hsplit⟩ := List.append_of_mem he
  have hnodup := t.nodup
  rw [hsplit, List.map_append, List.map_cons, List.nodup_middle,
    List.nodup_cons, ← List.map_append] at hnodup
  -- no other entry has this descriptor
  have hkept : (before ++ after).filter
      (fun e' => decide (some (e.1 : Int) ≠ some (e'.1 : Int))) =
        before ++ after := by
    rw [List.filter_eq_self]
    intro e' he'
    refine decide_eq_true fun hsame => hnodup.1 ?_
    have hfst : e.1 = e'.1 := Int.ofNat.inj (Option.some.inj hsame)
    exact hfst ▸ List.mem_map_of_mem he'
  rw [List.filter_append] at hkept
  rw [entries_close h, hsplit, List.filter_append,
    List.filter_cons_of_neg (by simp), hkept, List.length_append,
    List.length_append, List.length_cons]
  omega

/-- What is open stays open when descriptors are obtained. -/
theorem isOpen_of_suffix {t' : SocketTable α} {value : Option Int}
    (hsuffix : t.entries <:+ t'.entries) (h : t.isOpen value = true) :
    t'.isOpen value = true := by
  obtain ⟨fd, hfd, hvalue⟩ := (isOpen_iff value).mp h
  exact (isOpen_iff value).mpr
    ⟨fd, List.map_subset Prod.fst hsuffix.subset hfd, hvalue⟩

/-! ## Connecting -/

@[simp] theorem trying_nil (t : SocketTable α) : t.trying [] = t := by
  ext1
  · rfl
  · exact List.append_nil _
  · rfl

theorem trying_trying (t : SocketTable α) (peers peers' : List α) :
    (t.trying peers).trying peers' = t.trying (peers ++ peers') := by
  ext1
  · rfl
  · exact List.append_assoc _ _ _
  · rfl

theorem close_trying (t : SocketTable α) (peers : List α)
    (value : Option Int) :
    (t.trying peers).close value = (t.close value).trying peers := by
  by_cases hopen : t.isOpen value = true
  · rw [close, close, if_pos hopen]
    exact if_pos hopen
  · rw [close, close, if_neg hopen]
    exact if_neg hopen

theorem map_link (h : fd ∉ t.fds) (peer : α) :
    t.entries.map (link fd peer) = t.entries := by
  have hid : ∀ e ∈ t.entries, link (fd : Int) peer e = id e :=
    fun e he => if_neg (fd_ne_of_mem h he)
  rw [List.map_congr_left hid, List.map_id]

/-- A new socket whose connection is accepted. -/
theorem connect_accepted (peer : α) :
    (t.add pick none).connect (t.fresh pick) peer true =
      (t.add pick (some peer)).trying [peer] := by
  ext1
  · show link _ peer (t.fresh pick, none) :: t.entries.map (link _ peer) = _
    rw [map_link (t.fresh_notMem pick), link, if_pos rfl]
    rfl
  · rfl
  · rfl

/-- A new socket is closed when its connection is not accepted. -/
theorem connect_close (t : SocketTable α) (pick : Nat) (peer : α) :
    ((t.add pick none).connect (t.fresh pick) peer false).close
        (some (t.fresh pick : Int)) = t.trying [peer] := by
  show ((t.add pick none).trying [peer]).close _ = _
  rw [close_trying, close_add]

theorem peerOf_add (peers : List α) :
    ((t.add pick peer).trying peers).peerOf (t.fresh pick : Int) = peer := by
  show (List.find? _ ((t.fresh pick, peer) :: t.entries)).bind Prod.snd = peer
  rw [List.find?_cons_of_pos (by simp)]
  rfl

end SocketTable

end DuinoBus.Verified
