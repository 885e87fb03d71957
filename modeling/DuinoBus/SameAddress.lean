import DuinoBus.Cpp.SocketBus
import DuinoBus.Py.SocketBus
import Mathlib.Data.List.TakeWhile

/-!
# The address that device and host connect to

Both ends have a `connectToServer` that goes over the addresses of a server.
`same_address_iff`: both try the addresses in order up to the first that
accepts, and use that one, if and only if no address refuses before it.

The device goes on after every failure.  The host goes on after a timeout; an
address that refuses raises an exception that is not caught.
-/

namespace DuinoBus.SameAddress

open DuinoBus.Wire
open DuinoBus.Verified
open DuinoBus.Py (Outcome)

universe u

variable {α : Type u}

/-- An address of the server, what comes of a connection to it, and the
numbers that its sockets get on the device and on the host. -/
structure Resolved (α : Type u) where
  addr : α
  outcome : Outcome
  deviceFd : Nat
  hostFd : Nat
  deriving DecidableEq, Repr

namespace Resolved

def accepts (r : Resolved α) : Bool := r.outcome = .connected

/-- On the device, `connect` fails unless the address accepts. -/
def device (r : Resolved α) : Cpp.ConnectInfo α :=
  ⟨r.addr, some r.deviceFd, r.accepts⟩

def host (r : Resolved α) : Py.AddrInfo α := ⟨r.addr, r.hostFd, r.outcome⟩

end Resolved

open Resolved

/-- The addresses before the first that accepts. -/
def before (rs : List (Resolved α)) : List (Resolved α) :=
  rs.takeWhile fun r => !r.accepts

/-- The first address that accepts is connected, and no address after it was
tried; when there is none, the result is `OS` after all were tried. -/
structure UsesFirst (rs : List (Resolved α)) (t : SocketTable α)
    (err : ErrorCode) (socket : Option Int) (t' : SocketTable α) : Prop where
  tried : t'.tried = t.tried ++ (before rs).map addr ++
    ((rs.find? accepts).map addr).toList
  accepted : ∀ r, rs.find? accepts = some r → err = .none ∧
    ∃ skt, socket = some skt ∧ t'.peerOf skt = some r.addr
  exhausted : rs.find? accepts = none → err = .os

/-- The device's calls; a socket can be made non-blocking. -/
def deviceCalls (getfl : BitVec 32) (rs : List (Resolved α)) :
    Cpp.ClientCalls α :=
  ⟨some (rs.map device), ⟨getfl, fun _ => true⟩⟩

/-- The device's `connectToServer`. -/
def deviceConnect (getfl : BitVec 32) (rs : List (Resolved α))
    (bus : Cpp.SocketBus) (t : SocketTable α) :
    ErrorCode × Cpp.SocketBus × SocketTable α :=
  Cpp.SocketBus.connectToServer (deviceCalls getfl rs) bus t

/-- The host's `connect_to_server`. -/
def hostConnect (rs : List (Resolved α)) (bus : Py.SocketBus)
    (t : SocketTable α) :
    Except Py.SocketError (ErrorCode × Py.SocketBus × SocketTable α) :=
  Py.SocketBus.connectToServer (.ok (rs.map host)) bus t

/-- The device uses the first address that accepts. -/
def DeviceAgrees (getfl : BitVec 32) (rs : List (Resolved α))
    (bus : Cpp.SocketBus) (t : SocketTable α) : Prop :=
  let r := deviceConnect getfl rs bus t
  UsesFirst rs t r.1 (some r.2.1.socket) r.2.2

/-- The host returns, and uses the first address that accepts. -/
def HostAgrees (rs : List (Resolved α)) (bus : Py.SocketBus)
    (t : SocketTable α) : Prop :=
  ∃ r, hostConnect rs bus t = .ok r ∧ UsesFirst rs t r.1 r.2.1.socket r.2.2

section

variable {rs : List (Resolved α)} {t : SocketTable α}

theorem usesFirst_exhausted (h : rs.find? accepts = none)
    {t' : SocketTable α} (htried : t'.tried = t.tried ++ rs.map addr)
    (socket : Option Int) : UsesFirst rs t .os socket t' where
  tried := by
    have hbefore : before rs = rs := List.takeWhile_eq_self_iff.mpr
      fun r hr => by simpa using List.find?_eq_none.mp h r hr
    rw [hbefore, h, htried]
    exact (List.append_nil _).symm
  accepted := fun r hr => by rw [h] at hr; cases hr
  exhausted := fun _ => rfl

theorem usesFirst_found {r : Resolved α} (h : rs.find? accepts = some r)
    (pick : Nat) :
    UsesFirst rs t .none (some (t.fresh pick : Int))
      ((t.add pick (some r.addr)).trying
        ((before rs).map addr ++ [r.addr])) where
  tried := by
    rw [h, List.append_assoc]
    rfl
  accepted := fun r' hr' => by
    obtain rfl : r = r' := Option.some.inj (h.symm.trans hr')
    exact ⟨rfl, _, rfl, SocketTable.peerOf_add _⟩
  exhausted := fun hnone => by rw [h] at hnone; cases hnone

end

/-! ## The device -/

theorem flatMap_tries (rs : List (Resolved α)) :
    (rs.map device).flatMap Cpp.SocketBus.tries = rs.map addr := by
  rw [List.flatMap_map, List.map_eq_flatMap]
  rfl

theorem find?_device (rs : List (Resolved α)) :
    (rs.map device).find? Cpp.SocketBus.connects =
      (rs.find? accepts).map device := by
  rw [List.find?_map]
  rfl

theorem triedFor_device (rs : List (Resolved α)) (a : α) :
    Cpp.SocketBus.triedFor (rs.map device) a = (before rs).map addr ++ [a] := by
  rw [Cpp.SocketBus.triedFor, List.takeWhile_map, flatMap_tries]
  rfl

/-- **The device** uses the first address that accepts. -/
theorem deviceAgrees (getfl : BitVec 32) (rs : List (Resolved α))
    (bus : Cpp.SocketBus) (t : SocketTable α) :
    DeviceAgrees getfl rs bus t := by
  have hinfos : (deviceCalls getfl rs).serverInfo = some (rs.map device) := rfl
  have hfind := find?_device rs
  cases h : rs.find? accepts with
  | none =>
      rw [h] at hfind
      obtain ⟨value, _, hrun⟩ :=
        Cpp.SocketBus.connectToServer_exhausted hinfos hfind bus t
      rw [DeviceAgrees, deviceConnect, hrun]
      refine usesFirst_exhausted h ?_ _
      rw [SocketTable.tried_close, flatMap_tries]
      rfl
  | some r =>
      rw [h] at hfind
      obtain ⟨pick, hrun⟩ :=
        Cpp.SocketBus.connectToServer_found hinfos hfind bus t
      rw [triedFor_device] at hrun
      rw [DeviceAgrees, deviceConnect, hrun]
      exact usesFirst_found h pick

/-! ## The host -/

/-- No address refuses before the first that accepts. -/
def NoneRefuses (rs : List (Resolved α)) : Prop :=
  ∀ r ∈ before rs, r.outcome ≠ .refused

theorem before_cons_of_accepts {r : Resolved α} (h : r.accepts = true)
    (rs : List (Resolved α)) : before (r :: rs) = [] :=
  List.takeWhile_cons_of_neg (by rw [h]; decide)

theorem before_cons {r : Resolved α} (h : r.accepts = false)
    (rs : List (Resolved α)) : before (r :: rs) = r :: before rs :=
  List.takeWhile_cons_of_pos (by rw [h]; decide)

theorem accepts_eq_false {r : Resolved α} (h : r.outcome ≠ .connected) :
    r.accepts = false := decide_eq_false h

theorem stops_eq_true {r : Resolved α} (h : r.outcome ≠ .timedOut) :
    Py.SocketBus.stops r.host = true := decide_eq_true h

theorem stops_eq_false {r : Resolved α} (h : r.outcome = .timedOut) :
    Py.SocketBus.stops r.host = false := decide_eq_false (not_not_intro h)

/-- Then the host stops where the device does. -/
theorem stops_host {rs : List (Resolved α)} (h : NoneRefuses rs) :
    (rs.map host).find? Py.SocketBus.stops = (rs.find? accepts).map host ∧
      ((rs.map host).takeWhile fun info => !Py.SocketBus.stops info) =
        (before rs).map host := by
  induction rs with
  | nil => exact ⟨rfl, rfl⟩
  | cons r rs ih =>
      rw [List.map_cons]
      by_cases hconnected : r.outcome = .connected
      · have haccepts : r.accepts = true := decide_eq_true hconnected
        have hstops := stops_eq_true (r := r) (by rw [hconnected]; decide)
        rw [List.find?_cons_of_pos hstops, List.find?_cons_of_pos haccepts,
          List.takeWhile_cons_of_neg (by rw [hstops]; decide),
          before_cons_of_accepts haccepts]
        exact ⟨rfl, rfl⟩
      · have haccepts := accepts_eq_false hconnected
        rw [NoneRefuses, before_cons haccepts] at h
        have hrefused := h r List.mem_cons_self
        have hstops : Py.SocketBus.stops r.host = false := stops_eq_false (by
          cases houtcome : r.outcome with
          | connected => exact absurd houtcome hconnected
          | timedOut => rfl
          | refused => exact absurd houtcome hrefused)
        obtain ⟨hfind, htake⟩ := ih fun r' hr' =>
          h r' (List.mem_cons_of_mem _ hr')
        rw [List.find?_cons_of_neg (by rw [hstops]; decide),
          List.find?_cons_of_neg (by rw [haccepts]; decide),
          List.takeWhile_cons_of_pos (by rw [hstops]; rfl), htake,
          before_cons haccepts]
        exact ⟨hfind, rfl⟩

/-- Else it stops at an address that refuses. -/
theorem stops_refused {rs : List (Resolved α)} (h : ¬ NoneRefuses rs) :
    ∃ info, (rs.map host).find? Py.SocketBus.stops = some info ∧
      info.outcome = .refused := by
  induction rs with
  | nil => exact absurd (fun r hr => by cases hr) h
  | cons r rs ih =>
      rw [List.map_cons]
      cases houtcome : r.outcome with
      | connected =>
          have haccepts : r.accepts = true := decide_eq_true houtcome
          rw [NoneRefuses, before_cons_of_accepts haccepts] at h
          exact absurd (fun r hr => by cases hr) h
      | timedOut =>
          have hstops := stops_eq_false houtcome
          have haccepts := accepts_eq_false (r := r) (by rw [houtcome]; decide)
          rw [List.find?_cons_of_neg (by rw [hstops]; decide)]
          refine ih fun hnone => h ?_
          rw [NoneRefuses, before_cons haccepts]
          refine List.forall_mem_cons.mpr ⟨?_, hnone⟩
          rw [houtcome]
          decide
      | refused =>
          have hstops := stops_eq_true (r := r) (by rw [houtcome]; decide)
          exact ⟨r.host, List.find?_cons_of_pos hstops, houtcome⟩

/-- **The host** uses the first address that accepts, unless an address
before it refuses. -/
theorem hostAgrees_iff (rs : List (Resolved α)) (bus : Py.SocketBus)
    (t : SocketTable α) : HostAgrees rs bus t ↔ NoneRefuses rs := by
  by_cases hnone : NoneRefuses rs
  · refine iff_of_true ?_ hnone
    obtain ⟨hfind, htake⟩ := stops_host hnone
    cases h : rs.find? accepts with
    | none =>
        rw [h] at hfind
        refine ⟨_, Py.SocketBus.connectToServer_exhausted hfind bus t,
          usesFirst_exhausted h ?_ _⟩
        rw [List.map_map]
        rfl
    | some r =>
        rw [h] at hfind
        have haccepts : r.accepts = true := List.find?_some h
        have hrun := Py.SocketBus.connectToServer_connected hfind
          (of_decide_eq_true haccepts) bus t
        rw [htake, List.map_map] at hrun
        exact ⟨_, hrun, usesFirst_found h r.hostFd⟩
  · refine iff_of_false ?_ hnone
    rintro ⟨r, hok, _⟩
    obtain ⟨info, hfind, hrefused⟩ := stops_refused hnone
    rw [hostConnect,
      Py.SocketBus.connectToServer_refused hfind hrefused bus t] at hok
    cases hok

/-- **The same address.**  For every list of addresses and every outcome of
each, from any state of either end: device and host both try the addresses in
order, use the first that accepts, and return `OS` when none does, if and only
if no address refuses before the first that accepts. -/
theorem same_address_iff (rs : List (Resolved α)) (getfl : BitVec 32)
    (deviceBus : Cpp.SocketBus) (hostBus : Py.SocketBus)
    (deviceTable hostTable : SocketTable α) :
    (DeviceAgrees getfl rs deviceBus deviceTable ∧
        HostAgrees rs hostBus hostTable) ↔
      ∀ r ∈ before rs, r.outcome ≠ .refused := by
  rw [hostAgrees_iff]
  exact and_iff_right (deviceAgrees getfl rs deviceBus deviceTable)

/-- The server listens on the second of its addresses. -/
def localhost : List (Resolved String) :=
  [⟨"::1", .refused, 3, 3⟩, ⟨"127.0.0.1", .connected, 3, 4⟩]

/-- The device connects to it; the host raises an exception at the first. -/
theorem host_raises :
    ¬ (∀ (rs : List (Resolved String)) (getfl : BitVec 32),
      DeviceAgrees getfl rs {} .empty ∧ HostAgrees rs ⟨none⟩ .empty) ∧
    (deviceConnect 2 localhost {} .empty).1 = .none ∧
    (deviceConnect 2 localhost {} .empty).2.2.peerOf 3 = some "127.0.0.1" ∧
    hostConnect localhost ⟨none⟩ .empty = .error .osError := by
  refine ⟨fun h => ?_, by decide, by decide, rfl⟩
  obtain ⟨r, hok, _⟩ := (h localhost 2).2
  cases hok

end DuinoBus.SameAddress
