import DuinoBus.Cpp.SocketBus

/-!
# What setting up a socket closes

`setupServer` and `connectToServer` obtain descriptors and can fail after
that.  `tidy_iff`: they close what they obtained, and nothing else, if and
only if their loop over the addresses ends at one of them, and, for the
server, a client that it accepted can be made non-blocking.

When a loop ends after the last address, what its variable holds is closed
once more: a descriptor that the loop closed before, the `-1` of a socket that
was not created, or a value that was never set.  When the client cannot be
made non-blocking, `setupServer` leaves two descriptors open, where
`connectToServer` closes its own.
-/

namespace DuinoBus.SocketCleanup

open DuinoBus.Wire
open DuinoBus.Verified
open DuinoBus.Cpp
open DuinoBus.Cpp.SocketBus

universe u

variable {α : Type u}

/-- Every value that was closed was an open descriptor.  After an error the
same descriptors are open as before, and the bus has the same socket; else
there is one more, which is connected, and it is the socket of the bus. -/
structure Tidy (bus : SocketBus) (t : SocketTable α)
    (r : ErrorCode × SocketBus × SocketTable α) : Prop where
  misuses : r.2.2.misuses = t.misuses
  error : r.1 ≠ .none → r.2.2.entries = t.entries ∧ r.2.1 = bus
  success : r.1 = .none → ∃ fd peer, fd ∉ t.fds ∧
    r.2.2.entries = (fd, some peer) :: t.entries ∧ r.2.1.socket = (fd : Int)

/-- The loop of the server ends at an address; if that gets bound and a client
is accepted, the client's socket can be made non-blocking. -/
def ServerSettles (calls : ServerCalls α) : Prop :=
  ∀ infos, calls.serverInfo = some infos → ∃ info,
    infos.find? endsAt = some info ∧
      (info.setsockopt = true → calls.listen = true →
        calls.accept.isSome = true → calls.fcntl.sets = true)

/-- Some address accepts a connection. -/
def ClientSettles (calls : ClientCalls α) : Prop :=
  ∀ infos, calls.serverInfo = some infos →
    ∃ info ∈ infos, connects info = true

section

variable {bus : SocketBus} {t t' : SocketTable α}

theorem tidy_failed (hentries : t'.entries = t.entries)
    (hmisuses : t'.misuses = t.misuses) : Tidy bus t (.os, bus, t') where
  misuses := hmisuses
  error := fun _ => ⟨hentries, rfl⟩
  success := fun h => by cases h

theorem tidy_connected {fd : Nat} {peer : α} (hfd : fd ∉ t.fds)
    (hentries : t'.entries = (fd, some peer) :: t.entries)
    (hmisuses : t'.misuses = t.misuses) :
    Tidy bus t (.none, ⟨fd⟩, t') where
  misuses := hmisuses
  error := fun h => absurd rfl h
  success := fun _ => ⟨fd, peer, hfd, hentries, rfl⟩

/-- Closing what is not open is not tidy. -/
theorem not_tidy_close {value : Option Int} (h : ¬ t'.isOpen value = true)
    (hmisuses : t'.misuses = t.misuses) :
    ¬ Tidy bus t (.os, bus, t'.close value) := fun htidy =>
  SocketTable.misuses_close h (htidy.misuses.trans hmisuses.symm)

/-- Leaving descriptors open after an error is not tidy. -/
theorem not_tidy_leak {pick pick' : Nat} {peer peer' : Option α} :
    ¬ Tidy bus t (.os, bus, (t.add pick peer).add pick' peer') := by
  intro htidy
  have hentries := (htidy.error fun h => by cases h).1
  rw [SocketTable.entries_add, SocketTable.entries_add] at hentries
  have hlen := congrArg List.length hentries
  rw [List.length_cons, List.length_cons] at hlen
  omega

end

/-! ## The server -/

/-- An address got bound. -/
theorem tidy_bound_iff {calls : ServerCalls α} {infos : List BindInfo}
    {info : BindInfo} (hinfos : calls.serverInfo = some infos)
    (h : infos.find? endsAt = some info) (hopt : info.setsockopt = true)
    (bus : SocketBus) (t : SocketTable α) :
    Tidy bus t (setupServer calls bus t) ↔
      (calls.listen = true → calls.accept.isSome = true →
        calls.fcntl.sets = true) := by
  obtain ⟨pick, hsetup⟩ := setupServer_bound hinfos h hopt bus t
  rw [hsetup]
  cases calls.listen with
  | false => exact iff_of_true (tidy_failed rfl rfl) (fun h => by cases h)
  | true =>
      cases calls.accept with
      | none => exact iff_of_true (tidy_failed rfl rfl) (fun _ h => by cases h)
      | some client =>
          cases calls.fcntl.sets with
          | false =>
              exact iff_of_false not_tidy_leak fun h => by cases h rfl rfl
          | true =>
              have hfd : (t.add pick none).fresh client.1 ∉ t.fds := fun hmem =>
                (t.add pick none).fresh_notMem client.1
                  (List.mem_cons_of_mem _ hmem)
              have hentries : (t.add _ (some client.2)).entries = _ :=
                t.entries_add ((t.add pick none).fresh client.1) _
              rw [SocketTable.fresh_of_notMem hfd] at hentries
              exact iff_of_true (tidy_connected hfd hentries rfl)
                fun _ _ => rfl

theorem setupServer_tidy_iff (calls : ServerCalls α) (bus : SocketBus)
    (t : SocketTable α) :
    Tidy bus t (setupServer calls bus t) ↔ ServerSettles calls := by
  unfold ServerSettles
  cases hinfos : calls.serverInfo with
  | none =>
      rw [setupServer, hinfos]
      exact iff_of_true (tidy_failed rfl rfl) fun infos h => by cases h
  | some infos =>
      simp only [Option.some.injEq, forall_eq']
      cases h : infos.find? endsAt with
      | none =>
          obtain ⟨value, hvalue, hsetup⟩ := setupServer_exhausted hinfos h bus t
          rw [hsetup]
          refine iff_of_false (not_tidy_close hvalue rfl) ?_
          rintro ⟨_, hnone, _⟩
          cases hnone
      | some info =>
          simp only [Option.some.injEq, exists_eq_left']
          cases hopt : info.setsockopt with
          | false =>
              rw [setupServer_failed hinfos h hopt]
              exact iff_of_true (tidy_failed rfl rfl) fun h => by cases h
          | true =>
              rw [tidy_bound_iff hinfos h hopt]
              exact ⟨fun h _ => h, fun h => h rfl⟩

/-! ## The client -/

theorem connectToServer_tidy_iff (calls : ClientCalls α) (bus : SocketBus)
    (t : SocketTable α) :
    Tidy bus t (connectToServer calls bus t) ↔ ClientSettles calls := by
  unfold ClientSettles
  cases hinfos : calls.serverInfo with
  | none =>
      rw [connectToServer, hinfos]
      exact iff_of_true (tidy_failed rfl rfl) fun infos h => by cases h
  | some infos =>
      simp only [Option.some.injEq, forall_eq', ← List.find?_isSome]
      cases h : infos.find? connects with
      | none =>
          obtain ⟨value, hvalue, hconnect⟩ :=
            connectToServer_exhausted hinfos h bus t
          rw [hconnect]
          exact iff_of_false (not_tidy_close hvalue rfl) fun h => by cases h
      | some info =>
          obtain ⟨pick, hconnect⟩ := connectToServer_found hinfos h bus t
          rw [hconnect]
          refine iff_of_true ?_ rfl
          cases calls.fcntl.sets with
          | false => exact tidy_failed rfl rfl
          | true => exact tidy_connected (t.fresh_notMem pick) rfl rfl

/-- **When the sockets are closed right.**  For all answers of the system,
over address lists of any length, and from any state, `setupServer` is tidy if
and only if `ServerSettles`, and `connectToServer` is if and only if
`ClientSettles`. -/
theorem tidy_iff :
    (∀ (calls : ServerCalls α) (bus : SocketBus) (t : SocketTable α),
      Tidy bus t (setupServer calls bus t) ↔ ServerSettles calls) ∧
    (∀ (calls : ClientCalls α) (bus : SocketBus) (t : SocketTable α),
      Tidy bus t (connectToServer calls bus t) ↔ ClientSettles calls) :=
  ⟨setupServer_tidy_iff, connectToServer_tidy_iff⟩

/-- One address, whose socket is `3` and cannot be bound. -/
def unbound : ServerCalls String :=
  ⟨some [⟨some 3, true, false⟩], true, some (4, "client"), ⟨2, fun _ => true⟩⟩

/-- The address gets bound, and the client's flags cannot be set. -/
def blocking : ServerCalls String :=
  ⟨some [⟨some 3, true, true⟩], true, some (4, "client"), ⟨2, fun _ => false⟩⟩

/-- One address, whose socket is `3` and which refuses. -/
def refusing : ClientCalls String :=
  ⟨some [⟨"server", some 3, false⟩], ⟨2, fun _ => true⟩⟩

/-- The descriptor `3` is closed twice, by either function, and `3` and `4`
stay open after an error of the server. -/
theorem not_tidy :
    (¬ Tidy {} .empty (setupServer unbound {} .empty) ∧
      (setupServer unbound {} .empty).2.2.misuses = [some 3]) ∧
    (¬ Tidy {} .empty (connectToServer refusing {} .empty) ∧
      (connectToServer refusing {} .empty).2.2.misuses = [some 3]) ∧
    (¬ Tidy {} .empty (setupServer blocking {} .empty) ∧
      (setupServer blocking {} .empty).1 = .os ∧
      (setupServer blocking {} .empty).2.2.fds = [4, 3]) := by
  refine ⟨⟨fun h => ?_, by decide⟩, ⟨fun h => ?_, by decide⟩,
    ⟨fun h => ?_, by decide, by decide⟩⟩
  · exact absurd h.misuses (by decide)
  · exact absurd h.misuses (by decide)
  · exact absurd (h.error (by decide)).1 (by decide)

end DuinoBus.SocketCleanup
