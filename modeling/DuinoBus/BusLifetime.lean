import DuinoBus.Cpp.LinuxSerialBus
import DuinoBus.Cpp.SocketBus

/-!
# Descriptors over the life of a bus

A bus keeps one descriptor, and its destructor closes that one.  Setting up a
socket or opening a port once more puts another number in its place, and
nothing closes the one before.

`bus_lives` counts, for every sequence of calls with any answers of the
system, the descriptors that are open when the bus is gone, and what it has
closed that was not open.
-/

namespace DuinoBus.BusLifetime

open DuinoBus.Wire
open DuinoBus.Verified
open DuinoBus.Cpp
open DuinoBus.Cpp.SocketBus

universe u

variable {α : Type u}

/-! ## Sockets -/

/-- A call that sets up the socket of a bus, with what the system answers. -/
inductive SetUp (α : Type u) where
  | server (calls : ServerCalls α)
  | client (calls : ClientCalls α)

def SetUp.run : SetUp α → SocketBus × SocketTable α →
    SocketBus × SocketTable α
  | .server calls, (bus, t) => (setupServer calls bus t).2
  | .client calls, (bus, t) => (connectToServer calls bus t).2

/-- A bus is constructed, set up any number of times, and destroyed. -/
def socketLife (calls : List (SetUp α)) (t : SocketTable α) : SocketTable α :=
  match calls.foldl (fun s c => c.run s) ({}, t) with
  | (bus, t) => bus.destroy t

/-- No address ends the loop of the call. -/
def exhausts : SetUp α → Bool
  | .server calls => calls.serverInfo.any fun infos =>
      (infos.find? endsAt).isNone
  | .client calls => calls.serverInfo.any fun infos =>
      (infos.find? connects).isNone

/-- The server accepts a client. -/
def accepts (calls : ServerCalls α) : Bool :=
  calls.serverInfo.any fun infos =>
    (infos.find? endsAt).any fun info =>
      info.setsockopt && calls.listen && calls.accept.isSome

/-- The bus has a new socket after the call. -/
def settles : SetUp α → Bool
  | .server calls => accepts calls && calls.fcntl.sets
  | .client calls =>
      (calls.serverInfo.any fun infos => (infos.find? connects).isSome) &&
        calls.fcntl.sets

/-- The server accepts a client that cannot be made non-blocking. -/
def strands : SetUp α → Bool
  | .server calls => accepts calls && !calls.fcntl.sets
  | .client _ => false

/-- What a call does to the bus and to the table. -/
structure Does (c : SetUp α) (bus bus' : SocketBus) (t t' : SocketTable α) :
    Prop where
  suffix : t.entries <:+ t'.entries
  length : t'.entries.length = t.entries.length +
    (if settles c then 1 else 0) + 2 * if strands c then 1 else 0
  misuses : t'.misuses.length = t.misuses.length + if exhausts c then 1 else 0
  kept : settles c = false → bus' = bus
  settled : settles c = true → t'.isOpen (some bus'.socket) = true

section Calls

variable {c : SetUp α} {bus : SocketBus} {t t' : SocketTable α}

theorem does_failed (hsettles : settles c = false) (hstrands : strands c = false)
    (hexhausts : exhausts c = false) (hentries : t'.entries = t.entries)
    (hmisuses : t'.misuses = t.misuses) : Does c bus bus t t' where
  suffix := ⟨[], hentries.symm⟩
  length := by simp [hentries, hsettles, hstrands]
  misuses := by simp [hmisuses, hexhausts]
  kept := fun _ => rfl
  settled := fun h => by
    rw [hsettles] at h
    cases h

/-- After the last address, what the variable holds is closed again. -/
theorem does_exhausted (hsettles : settles c = false)
    (hstrands : strands c = false) (hexhausts : exhausts c = true)
    {value : Option Int} (hvalue : ¬ t'.isOpen value = true)
    (hentries : t'.entries = t.entries) (hmisuses : t'.misuses = t.misuses) :
    Does c bus bus t (t'.close value) := by
  rw [SocketTable.close_of_not_isOpen hvalue]
  exact
    { suffix := by simp [hentries]
      length := by simp [hentries, hsettles, hstrands]
      misuses := by simp [hmisuses, hexhausts]
      kept := fun _ => rfl
      settled := fun h => by
        rw [hsettles] at h
        cases h }

theorem does_settled (hsettles : settles c = true) (hstrands : strands c = false)
    (hexhausts : exhausts c = false) {fd : Nat} {peer : Option α}
    (hentries : t'.entries = (fd, peer) :: t.entries)
    (hmisuses : t'.misuses = t.misuses) : Does c bus ⟨fd⟩ t t' where
  suffix := by
    rw [hentries]
    exact List.suffix_cons _ _
  length := by simp [hentries, hsettles, hstrands]
  misuses := by simp [hmisuses, hexhausts]
  kept := fun h => by
    rw [hsettles] at h
    cases h
  settled := fun _ => (SocketTable.isOpen_iff _).mpr
    ⟨fd, by rw [SocketTable.fds, hentries]; exact List.mem_cons_self, rfl⟩

theorem does_stranded (hsettles : settles c = false) (hstrands : strands c = true)
    (hexhausts : exhausts c = false) {pick pick' : Nat}
    {peer peer' : Option α} :
    Does c bus bus t ((t.add pick peer).add pick' peer') where
  suffix := by
    rw [SocketTable.entries_add, SocketTable.entries_add]
    exact (List.suffix_cons _ _).trans (List.suffix_cons _ _)
  length := by simp [SocketTable.entries_add, hsettles, hstrands]
  misuses := by simp [SocketTable.add, hexhausts]
  kept := fun _ => rfl
  settled := fun h => by
    rw [hsettles] at h
    cases h

/-- An address got bound. -/
private theorem does_bound {calls : ServerCalls α} {infos : List BindInfo}
    {info : BindInfo} (hinfos : calls.serverInfo = some infos)
    (hfound : infos.find? endsAt = some info) (hopt : info.setsockopt = true)
    (bus : SocketBus) (t : SocketTable α) :
    Does (.server calls) bus (setupServer calls bus t).2.1 t
      (setupServer calls bus t).2.2 := by
  have haccepts : accepts calls = (calls.listen && calls.accept.isSome) := by
    simp [accepts, hinfos, hfound, hopt]
  have hexhausts : exhausts (.server calls) = false := by
    simp [exhausts, hinfos, hfound]
  obtain ⟨pick, hsetup⟩ := setupServer_bound hinfos hfound hopt bus t
  rw [hsetup]
  cases hlisten : calls.listen with
  | false =>
      exact does_failed (by simp [settles, haccepts, hlisten])
        (by simp [strands, haccepts, hlisten]) hexhausts rfl rfl
  | true =>
      cases haccept : calls.accept with
      | none =>
          exact does_failed (by simp [settles, haccepts, haccept])
            (by simp [strands, haccepts, haccept]) hexhausts rfl rfl
      | some client =>
          cases hsets : calls.fcntl.sets with
          | false =>
              exact does_stranded (by simp [settles, hsets])
                (by simp [strands, haccepts, hlisten, haccept, hsets]) hexhausts
          | true =>
              have hfd : (t.add pick none).fresh client.1 ∉ t.fds := fun hmem =>
                (t.add pick none).fresh_notMem client.1
                  (List.mem_cons_of_mem _ hmem)
              have hentries := t.entries_add ((t.add pick none).fresh client.1)
                (some client.2)
              rw [SocketTable.fresh_of_notMem hfd] at hentries
              exact does_settled
                (by simp [settles, haccepts, hlisten, haccept, hsets])
                (by simp [strands, hsets]) hexhausts hentries rfl

theorem does_server (calls : ServerCalls α) (bus : SocketBus)
    (t : SocketTable α) :
    Does (.server calls) bus (setupServer calls bus t).2.1 t
      (setupServer calls bus t).2.2 := by
  cases hinfos : calls.serverInfo with
  | none =>
      have hsetup : setupServer calls bus t = (.os, bus, t) := by
        rw [setupServer, hinfos]
      rw [hsetup]
      exact does_failed (by simp [settles, accepts, hinfos])
        (by simp [strands, accepts, hinfos]) (by simp [exhausts, hinfos])
        rfl rfl
  | some infos =>
      cases hfound : infos.find? endsAt with
      | none =>
          obtain ⟨value, hvalue, hsetup⟩ :=
            setupServer_exhausted hinfos hfound bus t
          rw [hsetup]
          exact does_exhausted (by simp [settles, accepts, hinfos, hfound])
            (by simp [strands, accepts, hinfos, hfound])
            (by simp [exhausts, hinfos, hfound]) hvalue rfl rfl
      | some info =>
          cases hopt : info.setsockopt with
          | false =>
              rw [setupServer_failed hinfos hfound hopt]
              exact does_failed
                (by simp [settles, accepts, hinfos, hfound, hopt])
                (by simp [strands, accepts, hinfos, hfound, hopt])
                (by simp [exhausts, hinfos, hfound]) rfl rfl
          | true => exact does_bound hinfos hfound hopt bus t

theorem does_client (calls : ClientCalls α) (bus : SocketBus)
    (t : SocketTable α) :
    Does (.client calls) bus (connectToServer calls bus t).2.1 t
      (connectToServer calls bus t).2.2 := by
  cases hinfos : calls.serverInfo with
  | none =>
      have hconnect : connectToServer calls bus t = (.os, bus, t) := by
        rw [connectToServer, hinfos]
      rw [hconnect]
      exact does_failed (by simp [settles, hinfos]) rfl
        (by simp [exhausts, hinfos]) rfl rfl
  | some infos =>
      cases hfound : infos.find? connects with
      | none =>
          obtain ⟨value, hvalue, hconnect⟩ :=
            connectToServer_exhausted hinfos hfound bus t
          rw [hconnect]
          exact does_exhausted (by simp [settles, hinfos, hfound]) rfl
            (by simp [exhausts, hinfos, hfound]) hvalue rfl rfl
      | some info =>
          have hexhausts : exhausts (.client calls) = false := by
            simp [exhausts, hinfos, hfound]
          obtain ⟨pick, hconnect⟩ := connectToServer_found hinfos hfound bus t
          rw [hconnect]
          cases hsets : calls.fcntl.sets with
          | false =>
              exact does_failed (by simp [settles, hsets]) rfl hexhausts rfl rfl
          | true =>
              exact does_settled (by simp [settles, hinfos, hfound, hsets]) rfl
                hexhausts rfl rfl

theorem does_run (c : SetUp α) (s : SocketBus × SocketTable α) :
    Does c s.1 (c.run s).1 s.2 (c.run s).2 := by
  cases c with
  | server calls => exact does_server calls s.1 s.2
  | client calls => exact does_client calls s.1 s.2

end Calls

/-- The calls so far: `n` gave the bus a new socket. -/
structure Owns (n : Nat) (s : SocketBus × SocketTable α) : Prop where
  new : n = 0 → s.1.socket = -1
  owns : 0 < n → s.2.isOpen (some s.1.socket) = true

/-- **Every call** adds what it adds. -/
theorem owns_run {n : Nat} {s : SocketBus × SocketTable α} (h : Owns n s)
    (c : SetUp α) : Owns (n + if settles c then 1 else 0) (c.run s) := by
  have hdoes := does_run c s
  cases hsettles : settles c with
  | true =>
      exact ⟨fun hzero => absurd hzero (by simp),
        fun _ => hdoes.settled hsettles⟩
  | false =>
      rw [if_neg Bool.false_ne_true, Nat.add_zero]
      constructor
      · intro hzero
        rw [hdoes.kept hsettles]
        exact h.new hzero
      · intro hpos
        rw [hdoes.kept hsettles]
        exact SocketTable.isOpen_of_suffix hdoes.suffix (h.owns hpos)

/-- Any number of calls. -/
theorem owns_calls (calls : List (SetUp α)) {n : Nat}
    {s : SocketBus × SocketTable α} (h : Owns n s) :
    Owns (n + calls.countP settles) (calls.foldl (fun s c => c.run s) s) ∧
      (calls.foldl (fun s c => c.run s) s).2.entries.length =
        s.2.entries.length + calls.countP settles +
          2 * calls.countP strands ∧
      (calls.foldl (fun s c => c.run s) s).2.misuses.length =
        s.2.misuses.length + calls.countP exhausts := by
  induction calls generalizing n s with
  | nil => exact ⟨h, rfl, rfl⟩
  | cons c calls ih =>
      have hdoes := does_run c s
      obtain ⟨howns, hlength, hmisuses⟩ := ih (owns_run h c)
      rw [List.foldl_cons, List.countP_cons, List.countP_cons,
        List.countP_cons, hlength, hmisuses, hdoes.length, hdoes.misuses]
      rw [Nat.add_assoc, Nat.add_comm _ (calls.countP settles)] at howns
      exact ⟨howns, by omega, by omega⟩

/-- A socket bus when it is gone. -/
theorem socketLife_eq (calls : List (SetUp α)) (t : SocketTable α) :
    (socketLife calls t).entries.length = t.entries.length +
        (calls.countP settles - 1) + 2 * calls.countP strands ∧
      (socketLife calls t).misuses.length = t.misuses.length +
        calls.countP exhausts + if calls.countP settles = 0 then 1 else 0 := by
  have hnew : Owns 0 (({} : SocketBus), t) :=
    ⟨fun _ => rfl, fun h => absurd h (Nat.lt_irrefl 0)⟩
  obtain ⟨howns, hlength, hmisuses⟩ := owns_calls calls hnew
  rw [Nat.zero_add] at howns
  dsimp only at hlength hmisuses
  show (SocketTable.close _ _).entries.length = _ ∧
    (SocketTable.close _ _).misuses.length = _
  rcases Nat.eq_zero_or_pos (calls.countP settles) with hnone | hsome
  · rw [howns.new hnone,
      SocketTable.close_of_not_isOpen SocketTable.not_isOpen_negative,
      if_pos hnone, hnone]
    simp only [List.length_append, List.length_singleton]
    rw [hnone] at hlength
    exact ⟨hlength, congrArg (· + 1) hmisuses⟩
  · have hopen := howns.owns hsome
    have hclose := SocketTable.length_close hopen
    rw [SocketTable.misuses_close_of_isOpen hopen, if_neg (by omega)]
    exact ⟨by omega, hmisuses⟩

/-! ## Serial ports -/

/-- A bus is constructed, opened any number of times, and destroyed. -/
def serialLife (calls : List SerialCalls) (t : SocketTable α) :
    SocketTable α :=
  match calls.foldl (fun s c => (LinuxSerialBus.openPort c s.2).2) ({}, t) with
  | (bus, t) => bus.destroy t

/-- `::open` succeeds. -/
def opens (calls : SerialCalls) : Bool := calls.port.isSome

/-- The bus has the port of its last call, if that succeeded. -/
structure Keeps (last : Option SerialCalls)
    (s : LinuxSerialBus × SocketTable α) : Prop where
  closed : last.any opens = false → s.1.serial = -1
  opened : last.any opens = true →
    0 ≤ s.1.serial ∧ s.2.isOpen (some s.1.serial) = true

theorem keeps_openPort (c : SerialCalls) (t : SocketTable α) :
    Keeps (some c) (LinuxSerialBus.openPort c t).2 ∧
      (LinuxSerialBus.openPort c t).2.2.entries.length =
        t.entries.length + (if opens c then 1 else 0) ∧
      (LinuxSerialBus.openPort c t).2.2.misuses = t.misuses := by
  cases hport : c.port with
  | none =>
      have hopens : opens c = false := by rw [opens, hport]; rfl
      rw [LinuxSerialBus.openPort_none hport, hopens]
      exact ⟨⟨fun _ => rfl, fun h => by simp [hopens] at h⟩, rfl, rfl⟩
  | some pick =>
      have hopens : opens c = true := by rw [opens, hport]; rfl
      rw [LinuxSerialBus.openPort_some hport, hopens]
      refine ⟨⟨fun h => by simp [hopens] at h, fun _ => ?_⟩, rfl, rfl⟩
      exact ⟨Int.natCast_nonneg _, (SocketTable.isOpen_iff _).mpr
        ⟨t.fresh pick, List.mem_cons_self, rfl⟩⟩

theorem keeps_calls (calls : List SerialCalls) {last : Option SerialCalls}
    {s : LinuxSerialBus × SocketTable α} (h : Keeps last s) :
    Keeps (calls.getLast?.or last) (calls.foldl
        (fun s c => (LinuxSerialBus.openPort c s.2).2) s) ∧
      (calls.foldl (fun s c => (LinuxSerialBus.openPort c s.2).2)
        s).2.entries.length = s.2.entries.length + calls.countP opens ∧
      (calls.foldl (fun s c => (LinuxSerialBus.openPort c s.2).2)
        s).2.misuses = s.2.misuses := by
  induction calls generalizing last s with
  | nil => exact ⟨h, rfl, rfl⟩
  | cons c calls ih =>
      obtain ⟨hkeeps, hlength, hmisuses⟩ := keeps_openPort c s.2
      obtain ⟨hkeeps', hlength', hmisuses'⟩ := ih hkeeps
      rw [List.foldl_cons, List.countP_cons, hlength', hmisuses', hlength,
        hmisuses]
      refine ⟨?_, by omega, rfl⟩
      rw [List.getLast?_cons, Option.some_or]
      cases hlast : calls.getLast? with
      | none =>
          rw [hlast] at hkeeps'
          exact hkeeps'
      | some d =>
          rw [hlast] at hkeeps'
          exact hkeeps'

/-- A serial bus when it is gone. -/
theorem serialLife_eq (calls : List SerialCalls) (t : SocketTable α) :
    (serialLife calls t).entries.length +
        (if calls.getLast?.any opens then 1 else 0) =
      t.entries.length + calls.countP opens ∧
      (serialLife calls t).misuses = t.misuses := by
  have hnew : Keeps none (({} : LinuxSerialBus), t) :=
    ⟨fun _ => rfl, fun h => by cases h⟩
  obtain ⟨hkeeps, hlength, hmisuses⟩ := keeps_calls calls hnew
  rw [Option.or_none] at hkeeps
  show (LinuxSerialBus.destroy _ _).entries.length + _ = _ ∧
    (LinuxSerialBus.destroy _ _).misuses = _
  cases hlast : calls.getLast?.any opens with
  | false =>
      have hserial := hkeeps.closed hlast
      rw [LinuxSerialBus.destroy, if_neg (by omega), if_neg Bool.false_ne_true]
      exact ⟨hlength, hmisuses⟩
  | true =>
      obtain ⟨hserial, hopen⟩ := hkeeps.opened hlast
      have hclose := SocketTable.length_close hopen
      rw [LinuxSerialBus.destroy, if_pos hserial, if_pos rfl,
        SocketTable.misuses_close_of_isOpen hopen]
      exact ⟨hclose.trans hlength, hmisuses⟩

/-- **The descriptors over the life of a bus**, whatever the system answers.
Of a socket bus, one descriptor stays open for every call after the first that
gives it a new socket, and two for every client that the server accepts and
cannot make non-blocking; it closes what is not open once for every call that
passes all its addresses, and once more when it never had a socket.  Of a
serial bus, one descriptor stays open for every call that opened the port, but
for the last call of all; it closes nothing that is not open. -/
theorem bus_lives :
    (∀ (calls : List (SetUp α)) (t : SocketTable α),
      (socketLife calls t).entries.length = t.entries.length +
          (calls.countP settles - 1) + 2 * calls.countP strands ∧
        (socketLife calls t).misuses.length = t.misuses.length +
          calls.countP exhausts +
            if calls.countP settles = 0 then 1 else 0) ∧
    (∀ (calls : List SerialCalls) (t : SocketTable α),
      (serialLife calls t).entries.length +
          (if calls.getLast?.any opens then 1 else 0) =
        t.entries.length + calls.countP opens ∧
        (serialLife calls t).misuses = t.misuses) :=
  ⟨socketLife_eq, serialLife_eq⟩

/-- The server accepts a client, and cannot make the next one non-blocking;
the bus connects, and connects again to nobody. -/
example : (socketLife [.server ⟨some [⟨some 3, true, true⟩], true,
      some (4, "client"), ⟨2, fun _ => true⟩⟩,
    .server ⟨some [⟨some 5, true, true⟩], true, some (6, "client"),
      ⟨2, fun _ => false⟩⟩,
    .client ⟨some [⟨"server", some 7, true⟩], ⟨2, fun _ => true⟩⟩,
    .client ⟨some [], ⟨2, fun _ => true⟩⟩] .empty).fds = [6, 5, 4] := by
  decide

end DuinoBus.BusLifetime
