import DuinoBus.Verified.Search
import DuinoBus.Verified.Sockets
import DuinoBus.Wire

/-!
# Connecting the host's socket

`connect_to_server` goes over the addresses that `getaddrinfo` found and
catches one kind of exception, `socket.timeout`.  Any other ends the search
and the call.

The answers of the system are data here, and the open sockets are a
`SocketTable`; a socket object is its descriptor.  The messages are left out.
-/

namespace DuinoBus.Py

open DuinoBus.Wire
open DuinoBus.Verified

universe u

/-- What comes of a connection; an address that is unreachable counts as one
that refuses. -/
inductive Outcome where
  | connected
  | timedOut
  | refused
  deriving DecidableEq, Repr

/-- The exceptions of the `socket` module; the first two are `OSError`s of
their own. -/
inductive SocketError where
  | gaierror
  | timeout
  | osError
  deriving DecidableEq, Repr

/-- An address that was found, the number that its socket gets, and what comes
of connecting it. -/
structure AddrInfo (α : Type u) where
  sockaddr : α
  socket : Nat
  outcome : Outcome
  deriving DecidableEq, Repr

/-- `connect` returns or raises an exception. -/
def Outcome.connect : Outcome → Except SocketError Unit
  | .connected => .ok ()
  | .timedOut => .error .timeout
  | .refused => .error .osError

/-- The variables of the search. -/
structure SocketBus.Search (α : Type u) where
  connected : Bool
  serverSkt : Option Int
  info : Option (AddrInfo α)

structure SocketBus where
  socket : Option Int
  deriving DecidableEq, Repr

namespace SocketBus

variable {α : Type u}

/-- `setblocking` does not fail. -/
def makeSocketNonBlocking : ErrorCode := .none

/-- The loop of `connect_to_server`. -/
def connectLoop : List (AddrInfo α) → Search α → SocketTable α →
    Except SocketError (Search α × SocketTable α)
  | [], s, t => .ok (s, t)
  | info :: infos, s, t =>
      match t.socket (some info.socket) with
      | (serverSkt, t) =>
          let t := t.connect serverSkt info.sockaddr
            (info.outcome = .connected)
          match info.outcome.connect with
          | .ok () => .ok (⟨true, some serverSkt, some info⟩, t)
          | .error .timeout =>
              connectLoop infos ⟨s.connected, some serverSkt, some info⟩
                (t.close (some serverSkt))
          -- no other exception is caught
          | .error e => .error e

/-- `connect_to_server`. -/
def connectToServer (getaddrinfo : Except SocketError (List (AddrInfo α)))
    (bus : SocketBus) (t : SocketTable α) :
    Except SocketError (ErrorCode × SocketBus × SocketTable α) := do
  let addrinfo ← getaddrinfo
  let (s, t) ← connectLoop addrinfo ⟨false, none, none⟩ t
  if !s.connected || s.serverSkt.isNone || s.info.isNone then
    return (.os, bus, t)
  else
    match makeSocketNonBlocking with
    | .none => return (.none, ⟨s.serverSkt⟩, t)
    | err => return (err, bus, t)

/-- The search does not go on after the address. -/
def stops (info : AddrInfo α) : Bool := info.outcome ≠ .timedOut

section Step

variable {info : AddrInfo α} (infos : List (AddrInfo α)) (s : Search α)
  (t : SocketTable α)

theorem connectLoop_connected (h : info.outcome = .connected) :
    connectLoop (info :: infos) s t =
      .ok (⟨true, some (t.fresh info.socket), some info⟩,
        (t.add info.socket (some info.sockaddr)).trying [info.sockaddr]) := by
  rw [connectLoop, SocketTable.socket_some, h,
    ← SocketTable.connect_accepted]
  rfl

theorem connectLoop_timedOut (h : info.outcome = .timedOut) :
    connectLoop (info :: infos) s t =
      connectLoop infos
        ⟨s.connected, some (t.fresh info.socket), some info⟩
        (t.trying [info.sockaddr]) := by
  rw [connectLoop, SocketTable.socket_some, h,
    ← SocketTable.connect_close t info.socket]
  rfl

theorem connectLoop_refused (h : info.outcome = .refused) :
    connectLoop (info :: infos) s t = .error .osError := by
  rw [connectLoop, SocketTable.socket_some, h]
  rfl

end Step

/-- When addresses timed out, the search has not connected. -/
def Passed (t : SocketTable α) (passed : List (AddrInfo α))
    (s : Search α × SocketTable α) : Prop :=
  s.1.connected = false ∧ s.2 = t.trying (passed.map AddrInfo.sockaddr)

theorem connectLoop_skips (t : SocketTable α) :
    Skips (fun infos s => connectLoop infos s.1 s.2) stops (Passed t) := by
  rintro passed info infos ⟨s, t'⟩ hstop ⟨hs, heq⟩
  obtain rfl : t' = t.trying (passed.map AddrInfo.sockaddr) := heq
  have houtcome : info.outcome = .timedOut :=
    Decidable.of_not_not (of_decide_eq_false hstop)
  refine ⟨(⟨s.connected, some (t.fresh info.socket), some info⟩,
    (t.trying (passed.map AddrInfo.sockaddr)).trying [info.sockaddr]),
    ⟨hs, ?_⟩, connectLoop_timedOut infos s _ houtcome⟩
  rw [SocketTable.trying_trying, List.map_append]
  rfl

theorem passed_nil (t : SocketTable α) :
    Passed t [] (⟨false, none, none⟩, t) :=
  ⟨rfl, (SocketTable.trying_nil t).symm⟩

/-- All addresses time out. -/
theorem connectToServer_exhausted {infos : List (AddrInfo α)}
    (h : infos.find? stops = none) (bus : SocketBus) (t : SocketTable α) :
    connectToServer (.ok infos) bus t =
      .ok (.os, bus, t.trying (infos.map AddrInfo.sockaddr)) := by
  obtain ⟨⟨s, t'⟩, ⟨hs, heq⟩, hrun⟩ :=
    loop_exhausted (connectLoop_skips t) h (passed_nil t)
  obtain rfl : t' = t.trying (infos.map AddrInfo.sockaddr) := heq
  have hloop : connectLoop infos ⟨false, none, none⟩ t = .ok (s, _) := hrun
  show (connectLoop infos ⟨false, none, none⟩ t >>= _) = _
  rw [hloop]
  show (if !s.connected || _ || _ then _ else _) = _
  rw [hs]
  rfl

/-- An address accepts after others timed out. -/
theorem connectToServer_connected {infos : List (AddrInfo α)}
    {info : AddrInfo α} (h : infos.find? stops = some info)
    (houtcome : info.outcome = .connected) (bus : SocketBus)
    (t : SocketTable α) :
    connectToServer (.ok infos) bus t =
      .ok (.none, ⟨some (t.fresh info.socket)⟩,
        (t.add info.socket (some info.sockaddr)).trying
          ((infos.takeWhile fun info => !stops info).map AddrInfo.sockaddr ++
            [info.sockaddr])) := by
  obtain ⟨rest, ⟨s, t'⟩, ⟨hs, heq⟩, hrun⟩ :=
    loop_found (connectLoop_skips t) h (passed_nil t)
  obtain rfl : t' = t.trying _ := heq
  have hloop := hrun.trans (connectLoop_connected rest s _ houtcome)
  rw [← SocketTable.trying_trying]
  show (connectLoop infos ⟨false, none, none⟩ t >>= _) = _
  simp only [hloop]
  rfl

/-- An address refuses after others timed out. -/
theorem connectToServer_refused {infos : List (AddrInfo α)}
    {info : AddrInfo α} (h : infos.find? stops = some info)
    (houtcome : info.outcome = .refused) (bus : SocketBus)
    (t : SocketTable α) :
    connectToServer (.ok infos) bus t = .error .osError := by
  obtain ⟨rest, ⟨s, t'⟩, _, hrun⟩ :=
    loop_found (connectLoop_skips t) h (passed_nil t)
  have hloop : connectLoop infos ⟨false, none, none⟩ t = .error .osError :=
    hrun.trans (connectLoop_refused rest s t' houtcome)
  show (connectLoop infos ⟨false, none, none⟩ t >>= _) = _
  rw [hloop]
  rfl

end SocketBus

end DuinoBus.Py
