import DuinoBus.Verified.Search
import DuinoBus.Verified.Sockets
import DuinoBus.Wire

/-!
# Setting up the device's sockets

`SocketBus` opens its socket as a server or as a client: both go over the
addresses that `getaddrinfo` found, and then through calls that can fail.  The
answers of the system are data here, and the open sockets are a
`SocketTable`.

The address list is gone over by recursion.  The variable for the socket is
not initialized, which is `none`; `LoopEnd` says how a loop was left.

The log messages and the addresses in them are left out, and the freeing of
the address list.

`bindLoop_cons` and `connectLoop_cons` say what is done for one address.  Each
function has a lemma for each way in which its loop can end.
-/

namespace DuinoBus.Cpp

open DuinoBus.Wire
open DuinoBus.Verified

universe u

/-- What the calls for one address of a server answer: which number `socket`
picks, and whether the others succeed. -/
structure BindInfo where
  socket : Option Nat
  setsockopt : Bool
  bind : Bool
  deriving DecidableEq, Repr

/-- What the calls for one address of a client answer. -/
structure ConnectInfo (α : Type u) where
  addr : α
  socket : Option Nat
  connect : Bool
  deriving DecidableEq, Repr

/-- What `fcntl` answers: the flags, and whether it sets some flags. -/
structure Fcntl where
  getfl : BitVec 32
  setfl : BitVec 32 → Bool

/-- The flag that Linux uses. -/
def O_NONBLOCK : BitVec 32 := 0x800

/-- The flag can be set. -/
def Fcntl.sets (fcntl : Fcntl) : Bool :=
  fcntl.setfl (fcntl.getfl ||| O_NONBLOCK)

/-- What the system answers to `setupServer`; `accept` gives a descriptor and
the client. -/
structure ServerCalls (α : Type u) where
  serverInfo : Option (List BindInfo)
  listen : Bool
  accept : Option (Nat × α)
  fcntl : Fcntl

/-- What the system answers to `connectToServer`. -/
structure ClientCalls (α : Type u) where
  serverInfo : Option (List (ConnectInfo α))
  fcntl : Fcntl

/-- How the loop over the addresses is left: after the last one, at one whose
socket is used, or by returning an error. -/
inductive LoopEnd where
  | exhausted (skt : Option Int)
  | found (skt : Int)
  | failed
  deriving DecidableEq, Repr

/-- The bus, with the socket that it reads and writes; `-1` is
`INVALID_SOCKET`. -/
structure SocketBus where
  socket : Int := -1
  deriving DecidableEq, Repr

namespace SocketBus

variable {α : Type u}

def makeSocketNonBlocking (fcntl : Fcntl) : ErrorCode :=
  if fcntl.setfl (fcntl.getfl ||| O_NONBLOCK) then .none else .os

/-- The loop of `setupServer`. -/
def bindLoop : List BindInfo → Option Int → SocketTable α →
    LoopEnd × SocketTable α
  | [], listenSocket, t => (.exhausted listenSocket, t)
  | info :: infos, _, t =>
      match t.socket info.socket with
      | (listenSocket, t) =>
          if listenSocket < 0 then
            bindLoop infos (some listenSocket) t
          else if !info.setsockopt then
            (.failed, t.close (some listenSocket))
          else if !info.bind then
            bindLoop infos (some listenSocket) (t.close (some listenSocket))
          else (.found listenSocket, t)

def setupServer (calls : ServerCalls α) (bus : SocketBus)
    (t : SocketTable α) : ErrorCode × SocketBus × SocketTable α :=
  match calls.serverInfo with
  | none => (.os, bus, t)
  | some infos =>
      match bindLoop infos none t with
      | (.failed, t) => (.os, bus, t)
      -- the loop has closed it, or it was never opened
      | (.exhausted listenSocket, t) => (.os, bus, t.close listenSocket)
      | (.found listenSocket, t) =>
          if !calls.listen then (.os, bus, t.close (some listenSocket))
          else
            match t.accept calls.accept with
            | (clientSocket, t) =>
                if clientSocket < 0 then
                  (.os, bus, t.close (some listenSocket))
                else
                  match makeSocketNonBlocking calls.fcntl with
                  | .none =>
                      (.none, ⟨clientSocket⟩, t.close (some listenSocket))
                  -- both sockets stay open
                  | rc => (rc, bus, t)

/-- The loop of `connectToServer`. -/
def connectLoop : List (ConnectInfo α) → Option Int → SocketTable α →
    LoopEnd × SocketTable α
  | [], serverSocket, t => (.exhausted serverSocket, t)
  | info :: infos, _, t =>
      match t.socket info.socket with
      | (serverSocket, t) =>
          if serverSocket < 0 then
            connectLoop infos (some serverSocket) t
          else
            let t := t.connect serverSocket info.addr info.connect
            if !info.connect then
              connectLoop infos (some serverSocket)
                (t.close (some serverSocket))
            else (.found serverSocket, t)

def connectToServer (calls : ClientCalls α) (bus : SocketBus)
    (t : SocketTable α) : ErrorCode × SocketBus × SocketTable α :=
  match calls.serverInfo with
  | none => (.os, bus, t)
  | some infos =>
      match connectLoop infos none t with
      | (.failed, t) => (.os, bus, t)
      | (.exhausted serverSocket, t) => (.os, bus, t.close serverSocket)
      | (.found serverSocket, t) =>
          match makeSocketNonBlocking calls.fcntl with
          | .none => (.none, ⟨serverSocket⟩, t)
          | rc => (rc, bus, t.close (some serverSocket))

/-- `SocketBus::~SocketBus`. -/
def destroy (bus : SocketBus) (t : SocketTable α) : SocketTable α :=
  t.close (some bus.socket)

theorem makeSocketNonBlocking_eq (fcntl : Fcntl) :
    makeSocketNonBlocking fcntl = if fcntl.sets then .none else .os := rfl

theorem fresh_not_neg (t : SocketTable α) (pick : Nat) :
    ¬ (t.fresh pick : Int) < 0 := by omega

/-- When addresses were passed, the variable for the socket is not an open
descriptor, and nothing has changed but which connections were tried. -/
def Passed (t : SocketTable α) (addrs : List α)
    (s : Option Int × SocketTable α) : Prop :=
  ¬ t.isOpen s.1 = true ∧ s.2 = t.trying addrs

theorem passed_nil {t : SocketTable α} : Passed t [] (none, t) :=
  ⟨SocketTable.not_isOpen_none, (SocketTable.trying_nil t).symm⟩

/-! ## The server -/

/-- The loop of `setupServer` ends at the address. -/
def endsAt (info : BindInfo) : Bool :=
  info.socket.isSome && (!info.setsockopt || info.bind)

/-- An address whose socket is created. -/
theorem bindLoop_cons (pick : Nat) (setsockopt bind : Bool)
    (infos : List BindInfo) (value : Option Int) (t : SocketTable α) :
    bindLoop (⟨some pick, setsockopt, bind⟩ :: infos) value t =
      if !setsockopt then (.failed, t)
      else if !bind then bindLoop infos (some (t.fresh pick)) t
      else (.found (t.fresh pick), t.add pick none) := by
  rw [bindLoop, SocketTable.socket_some]
  simp only [if_neg (fresh_not_neg t pick), SocketTable.close_add]

theorem bindLoop_skips (t₀ : SocketTable α) :
    Skips (fun infos s => bindLoop infos s.1 s.2) endsAt
      (fun _ => Passed t₀ []) := by
  rintro _ ⟨pick, setsockopt, bind⟩ infos ⟨value, t⟩ hstop ⟨_, heq⟩
  obtain rfl : t = t₀ := heq.trans (SocketTable.trying_nil t₀)
  cases pick with
  | none => exact ⟨(some (-1), t), ⟨SocketTable.not_isOpen_negative, heq⟩, rfl⟩
  | some pick =>
      obtain ⟨rfl, rfl⟩ : setsockopt = true ∧ bind = false := by
        cases setsockopt <;> cases bind <;> simp [endsAt] at hstop ⊢
      refine ⟨(some (t.fresh pick), t),
        ⟨SocketTable.not_isOpen_of_notMem (t.fresh_notMem pick), heq⟩, ?_⟩
      exact bindLoop_cons pick true false infos value t

theorem bindLoop_exhausted {infos : List BindInfo}
    (h : infos.find? endsAt = none) (t : SocketTable α) :
    ∃ value, ¬ t.isOpen value = true ∧
      bindLoop infos none t = (.exhausted value, t) := by
  obtain ⟨⟨value, t'⟩, ⟨hvalue, heq⟩, hrun⟩ :=
    loop_exhausted (bindLoop_skips t) h passed_nil
  obtain rfl : t' = t := heq.trans (SocketTable.trying_nil t)
  exact ⟨value, hvalue, hrun⟩

theorem bindLoop_found {infos : List BindInfo} {info : BindInfo}
    (h : infos.find? endsAt = some info) (t : SocketTable α) :
    ∃ pick, bindLoop infos none t =
      if info.setsockopt then (.found (t.fresh pick), t.add pick none)
      else (.failed, t) := by
  obtain ⟨rest, ⟨value, t'⟩, ⟨_, heq⟩, hrun⟩ :=
    loop_found (bindLoop_skips t) h passed_nil
  obtain rfl : t' = t := heq.trans (SocketTable.trying_nil t)
  obtain ⟨pick, setsockopt, bind⟩ := info
  have hends := List.find?_some h
  cases pick with
  | none => cases hends
  | some pick =>
      refine ⟨pick, hrun.trans ((bindLoop_cons ..).trans ?_)⟩
      cases setsockopt <;> cases bind <;> first | rfl | cases hends

/-- No address can be bound. -/
theorem setupServer_exhausted {calls : ServerCalls α} {infos : List BindInfo}
    (hinfos : calls.serverInfo = some infos)
    (h : infos.find? endsAt = none) (bus : SocketBus) (t : SocketTable α) :
    ∃ value, ¬ t.isOpen value = true ∧
      setupServer calls bus t = (.os, bus, t.close value) := by
  obtain ⟨value, hvalue, hloop⟩ := bindLoop_exhausted h t
  refine ⟨value, hvalue, ?_⟩
  rw [setupServer, hinfos]
  simp only [hloop]

/-- An address whose socket option cannot be set. -/
theorem setupServer_failed {calls : ServerCalls α} {infos : List BindInfo}
    {info : BindInfo} (hinfos : calls.serverInfo = some infos)
    (h : infos.find? endsAt = some info) (hopt : info.setsockopt = false)
    (bus : SocketBus) (t : SocketTable α) :
    setupServer calls bus t = (.os, bus, t) := by
  obtain ⟨pick, hloop⟩ := bindLoop_found h t
  rw [hopt, if_neg (by decide)] at hloop
  rw [setupServer, hinfos]
  simp only [hloop]

/-- What follows when an address is bound. -/
theorem setupServer_bound {calls : ServerCalls α} {infos : List BindInfo}
    {info : BindInfo} (hinfos : calls.serverInfo = some infos)
    (h : infos.find? endsAt = some info) (hopt : info.setsockopt = true)
    (bus : SocketBus) (t : SocketTable α) :
    ∃ pick, setupServer calls bus t =
      match calls.listen, calls.accept with
      | false, _ => (.os, bus, t)
      | true, none => (.os, bus, t)
      | true, some (pick', client) =>
          let fd := (t.add pick none).fresh pick'
          if calls.fcntl.sets then (.none, ⟨fd⟩, t.add fd (some client))
          else (.os, bus, (t.add pick none).add pick' (some client)) := by
  obtain ⟨pick, hloop⟩ := bindLoop_found h t
  rw [hopt, if_pos rfl] at hloop
  refine ⟨pick, ?_⟩
  rw [setupServer, hinfos]
  simp only [hloop, SocketTable.close_add]
  cases calls.listen with
  | false => rfl
  | true =>
      cases calls.accept with
      | none =>
          rw [SocketTable.accept_none]
          simp only [SocketTable.close_add]
          rfl
      | some client =>
          rw [SocketTable.accept_some]
          simp only [if_neg (fresh_not_neg _ _), makeSocketNonBlocking_eq]
          cases calls.fcntl.sets with
          | false => rfl
          | true =>
              show (ErrorCode.none, _, SocketTable.close _ _) = _
              rw [SocketTable.close_below]
              rfl

/-! ## The client -/

/-- `connectToServer` connects to the address. -/
def connects (info : ConnectInfo α) : Bool :=
  info.socket.isSome && info.connect

/-- The connections that are tried for an address. -/
def tries (info : ConnectInfo α) : List α :=
  if info.socket.isSome then [info.addr] else []

/-- An address whose socket is created. -/
theorem connectLoop_cons (addr : α) (pick : Nat) (connect : Bool)
    (infos : List (ConnectInfo α)) (value : Option Int) (t : SocketTable α) :
    connectLoop (⟨addr, some pick, connect⟩ :: infos) value t =
      if connect then
        (.found (t.fresh pick), (t.add pick (some addr)).trying [addr])
      else connectLoop infos (some (t.fresh pick)) (t.trying [addr]) := by
  rw [connectLoop, SocketTable.socket_some]
  simp only [if_neg (fresh_not_neg t pick)]
  cases connect with
  | false =>
      rw [SocketTable.connect_close]
      rfl
  | true =>
      rw [SocketTable.connect_accepted]
      rfl

theorem connectLoop_skips (t : SocketTable α) :
    Skips (fun infos s => connectLoop infos s.1 s.2) connects
      (fun passed => Passed t (passed.flatMap tries)) := by
  rintro passed ⟨addr, pick, connect⟩ infos ⟨value, t'⟩ hstop ⟨_, heq⟩
  obtain rfl : t' = t.trying (passed.flatMap tries) := heq
  cases pick with
  | none =>
      refine ⟨(some (-1), t.trying (passed.flatMap tries)),
        ⟨SocketTable.not_isOpen_negative, ?_⟩, rfl⟩
      simp [tries]
  | some pick =>
      obtain rfl : connect = false := hstop
      refine ⟨(some (t.fresh pick), t.trying (passed.flatMap tries ++ [addr])),
        ⟨SocketTable.not_isOpen_of_notMem (t.fresh_notMem pick), ?_⟩, ?_⟩
      · simp [tries]
      · rw [← SocketTable.trying_trying]
        exact connectLoop_cons addr pick false infos value _

/-- The connections that are tried up to the first that is made. -/
def triedFor (infos : List (ConnectInfo α)) (addr : α) : List α :=
  (infos.takeWhile fun info => !connects info).flatMap tries ++ [addr]

theorem connectLoop_exhausted {infos : List (ConnectInfo α)}
    (h : infos.find? connects = none) (t : SocketTable α) :
    ∃ value, ¬ t.isOpen value = true ∧
      connectLoop infos none t =
        (.exhausted value, t.trying (infos.flatMap tries)) := by
  obtain ⟨⟨value, t'⟩, ⟨hvalue, heq⟩, hrun⟩ :=
    loop_exhausted (connectLoop_skips t) h passed_nil
  obtain rfl : t' = t.trying (infos.flatMap tries) := heq
  exact ⟨value, hvalue, hrun⟩

theorem connectLoop_found {infos : List (ConnectInfo α)}
    {info : ConnectInfo α} (h : infos.find? connects = some info)
    (t : SocketTable α) :
    ∃ pick, connectLoop infos none t =
      (.found (t.fresh pick),
        (t.add pick (some info.addr)).trying (triedFor infos info.addr)) := by
  obtain ⟨rest, ⟨value, t'⟩, ⟨_, heq⟩, hrun⟩ :=
    loop_found (connectLoop_skips t) h passed_nil
  obtain rfl : t' = t.trying _ := heq
  obtain ⟨addr, pick, connect⟩ := info
  have hconnects := List.find?_some h
  cases pick with
  | none => cases hconnects
  | some pick =>
      obtain rfl : connect = true := hconnects
      refine ⟨pick, hrun.trans ((connectLoop_cons ..).trans ?_)⟩
      rw [if_pos rfl, triedFor, ← SocketTable.trying_trying]
      rfl

/-- No address accepts. -/
theorem connectToServer_exhausted {calls : ClientCalls α}
    {infos : List (ConnectInfo α)} (hinfos : calls.serverInfo = some infos)
    (h : infos.find? connects = none) (bus : SocketBus)
    (t : SocketTable α) :
    ∃ value, ¬ t.isOpen value = true ∧
      connectToServer calls bus t =
        (.os, bus, (t.trying (infos.flatMap tries)).close value) := by
  obtain ⟨value, hvalue, hloop⟩ := connectLoop_exhausted h t
  refine ⟨value, hvalue, ?_⟩
  rw [connectToServer, hinfos]
  simp only [hloop]

/-- What follows when an address accepts. -/
theorem connectToServer_found {calls : ClientCalls α}
    {infos : List (ConnectInfo α)} {info : ConnectInfo α}
    (hinfos : calls.serverInfo = some infos)
    (h : infos.find? connects = some info) (bus : SocketBus)
    (t : SocketTable α) :
    ∃ pick, connectToServer calls bus t =
      if calls.fcntl.sets then
        (.none, ⟨t.fresh pick⟩,
          (t.add pick (some info.addr)).trying (triedFor infos info.addr))
      else (.os, bus, t.trying (triedFor infos info.addr)) := by
  obtain ⟨pick, hloop⟩ := connectLoop_found h t
  refine ⟨pick, ?_⟩
  rw [connectToServer, hinfos]
  simp only [hloop, makeSocketNonBlocking_eq]
  cases calls.fcntl.sets with
  | false =>
      show (ErrorCode.os, bus, SocketTable.close _ _) = _
      rw [SocketTable.close_trying, SocketTable.close_add]
      rfl
  | true => rfl

end SocketBus

end DuinoBus.Cpp
