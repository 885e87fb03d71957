import DuinoBus.Cpp.CorePacketHandler
import DuinoBus.Py.Bus
import DuinoBus.Verified.Guarded
import DuinoBus.Verified.Incoming

/-!
# The whole link

A host and a device, joined by two lines.  The host calls
`send_command_get_response`, its receive thread polls the line from the
device, and the device runs its loop, with the core handler, on the line from
the host.  The three take turns in any order, and both lines may hold any
number of bytes.

Writing a packet is one step: to the other side, a byte that is not written
yet is one that has not arrived.

`link_conserves` says that on the lines no command and no response is lost,
doubled or reordered, and that neither side ever fails, in any run.  All
responses are received into the one packet of the host's decoder, so the queue
counts them, but its packet is that of the last one.  `link_completes` says
that the responses to all commands arrive as long as the device and the
receive thread go on.
-/

namespace DuinoBus.WholeLink

open DuinoBus.Wire
open DuinoBus.Verified
open DuinoBus.Cpp (Surroundings)
open DuinoBus.Cpp.CorePacketHandler

/-- Host, device and the two lines between them.  Calls are numbered from
`0`; `waiting` is the number of the call that waits for the queue.  `sent`,
`surroundings`, `written` and `returned` keep the history of the run. -/
structure State where
  host : Py.Bus
  alive : Bool
  device : Except Fault (Cpp.Bus Surroundings)
  /-- The bytes on their way to the device. -/
  up : List UInt8
  /-- The bytes on their way to the host. -/
  down : List UInt8
  /-- The commands of the calls. -/
  sent : List (UInt8 × List UInt8)
  waiting : Option Nat
  /-- What surrounded the device at each byte that it has processed. -/
  surroundings : List Surroundings
  /-- All that the device has written. -/
  written : List UInt8
  /-- What the calls have returned with `NONE`. -/
  returned : List (Nat × Py.Packet)

inductive Action where
  /-- A call writes its command. -/
  | call (cmdPkt : Py.Packet)
  /-- The device loop processes the next byte, in some surroundings. -/
  | serve (env : Surroundings) (uninit : UInt8)
  /-- The receive thread polls the next byte. -/
  | deliver
  /-- The call that waits returns: with a packet if there is one, else
  because its time is up. -/
  | finish
  deriving DecidableEq

/-- One step. -/
def step (crc8 : UInt8 → UInt8 → UInt8) (s : State) :
    Action → Option State
  | .call cmdPkt =>
      match s.waiting, s.host.sendCommand crc8 cmdPkt [] with
      | none, .ok (.none, bytes, host) => some { s with
          host
          up := s.up ++ bytes
          sent := s.sent ++ [(cmdPkt.cmd, cmdPkt.data)]
          waiting := some s.sent.length }
      | _, _ => none
  | .serve env uninit =>
      match s.device, s.up with
      | .ok device, byte :: bytes =>
          match device.serve crc8 ⟨byte, env, uninit⟩ with
          | .ok (written, device) => some { s with
              device := .ok device
              up := bytes
              down := s.down ++ written
              surroundings := s.surroundings ++ [env]
              written := s.written ++ written }
          | .error f => some { s with device := .error f, up := bytes }
      | _, _ => none
  | .deliver =>
      match s.alive, s.down with
      | true, byte :: bytes =>
          let (result, host) := s.host.receive crc8 (some byte)
          some { s with host, alive := result.isOk, down := bytes }
      | _, _ => none
  | .finish =>
      match s.waiting, s.host.getResponse with
      | some k, ((_, some pkt), host) => some { s with
          host
          waiting := none
          returned := s.returned ++ [(k, s.host.store pkt)] }
      | some _, ((_, none), host) => some { s with host, waiting := none }
      | none, _ => none

/-- A new bus at either end, the device's with the core handler. -/
def start (cmdPacket rspPacket : Cpp.Packet) (escapeChar : UInt8) : State :=
  ⟨.new, true, .ok ((Cpp.Bus.new cmdPacket rspPacket escapeChar).add
    handlePacket), [], [], [], none, [], [], []⟩

/-- The command fits into the packets of both sides. -/
def Fits (capacity : Nat) (f : UInt8 × List UInt8) : Prop :=
  f.2.length + 1 ≤ min capacity Py.Packet.MAX_DATA_LEN

instance (capacity : Nat) : DecidablePred (Fits capacity) := fun f =>
  inferInstanceAs (Decidable (f.2.length + 1 ≤ _))

/-- Calls send commands that fit. -/
def Guard (capacity : Nat) (_ : State) : Action → Prop
  | .call cmdPkt => Fits capacity (cmdPkt.cmd, cmdPkt.data)
  | _ => True

instance (capacity : Nat) (s : State) : DecidablePred (Guard capacity s)
  | .call cmdPkt =>
      inferInstanceAs (Decidable (Fits capacity (cmdPkt.cmd, cmdPkt.data)))
  | .serve _ _ => .isTrue trivial
  | .deliver => .isTrue trivial
  | .finish => .isTrue trivial

/-! ## Commands and their responses -/

/-- The commands that the device knows. -/
def Known (cmd : UInt8) : Bool :=
  cmd ∈ [PING, DEBUG, STACK_INFO, HEAP_INFO]

/-- The response to a command, in some surroundings. -/
def response (env : Surroundings) (f : UInt8 × List UInt8) :
    Option (UInt8 × List UInt8) :=
  (reply env f.1 f.2).map fun rsp => (f.1, rsp)

/-- The commands whose bytes were all read, each with the surroundings in which
the last one was read. -/
def readWhole (crc8 : UInt8 → UInt8 → UInt8) :
    List (UInt8 × List UInt8) → List Surroundings →
      List ((UInt8 × List UInt8) × Surroundings)
  | [], _ => []
  | f :: cmds, envs =>
      match envs.drop ((frame crc8 f.1 f.2).length - 1) with
      | [] => []
      | env :: envs => (f, env) :: readWhole crc8 cmds envs

/-- The commands that the device has processed, each with what surrounded the
device there. -/
def State.served (crc8 : UInt8 → UInt8 → UInt8) (s : State) :
    List ((UInt8 × List UInt8) × Surroundings) :=
  readWhole crc8 s.sent s.surroundings

/-- The responses to the commands that were processed. -/
def responses (done : List ((UInt8 × List UInt8) × Surroundings)) :
    List (UInt8 × List UInt8) :=
  done.filterMap fun x => response x.2 x.1

section Responses

theorem response_fst {env : Surroundings} {f r : UInt8 × List UInt8}
    (h : response env f = some r) : r.1 = f.1 := by
  obtain ⟨rsp, _, rfl⟩ := Option.map_eq_some_iff.mp h
  rfl

theorem response_isSome (env : Surroundings) (f : UInt8 × List UInt8) :
    (response env f).isSome = Known f.1 := by
  rw [response, Option.isSome_map, Bool.eq_iff_iff, reply_isSome_iff, Known,
    decide_eq_true_iff]

/-- A command is answered first, if it is known. -/
theorem responses_cons (x : (UInt8 × List UInt8) × Surroundings)
    (done : List ((UInt8 × List UInt8) × Surroundings)) :
    responses (x :: done) = (response x.2 x.1).toList ++ responses done := by
  rw [responses, List.filterMap_cons]
  cases response x.2 x.1 with
  | none => rfl
  | some r => rfl

/-- One more command is answered, if it is known. -/
theorem responses_concat (done : List ((UInt8 × List UInt8) × Surroundings))
    (f : UInt8 × List UInt8) (env : Surroundings) :
    responses (done ++ [(f, env)]) =
      responses done ++ (response env f).toList := by
  have hlast : responses [(f, env)] = (response env f).toList :=
    (responses_cons (f, env) []).trans (List.append_nil _)
  rw [← hlast]
  exact List.filterMap_append

/-- The responses answer the known commands, in order. -/
theorem responses_commands
    (done : List ((UInt8 × List UInt8) × Surroundings)) :
    (responses done).map Prod.fst =
      ((done.map Prod.fst).map Prod.fst).filter Known := by
  induction done with
  | nil => rfl
  | cons x done ih =>
      have hknown := response_isSome x.2 x.1
      rw [responses_cons, List.map_append, ih, List.map_cons, List.map_cons]
      cases hresponse : response x.2 x.1 with
      | none =>
          rw [hresponse] at hknown
          rw [List.filter_cons_of_neg
            (by rw [← hknown]; exact Bool.false_ne_true)]
          rfl
      | some r =>
          rw [hresponse] at hknown
          rw [List.filter_cons_of_pos hknown.symm, ← response_fst hresponse]
          rfl

/-- A response has room wherever its command has. -/
theorem fits_of_response {capacity : Nat} {env : Surroundings}
    {f r : UInt8 × List UInt8} (hfits : Fits capacity f)
    (h : response env f = some r) :
    r.2.length + 1 ≤ Py.Packet.MAX_DATA_LEN := by
  obtain ⟨rsp, hreply, rfl⟩ := Option.map_eq_some_iff.mp h
  have hlength := length_reply env f.1 f.2
  rw [hreply, Option.getD_some] at hlength
  have hle := replyLength_le f.1 f.2
  have hroom : f.2.length + 1 ≤ min capacity 256 := hfits
  show rsp.length + 1 ≤ 256
  omega

end Responses

/-! ## The commands that were read -/

/-- The commands `done` were read, and `todo` but for the last `left` bytes,
in the surroundings `envs`. -/
def Reads (crc8 : UInt8 → UInt8 → UInt8)
    (done : List ((UInt8 × List UInt8) × Surroundings))
    (todo : List (UInt8 × List UInt8)) (envs : List Surroundings)
    (left : Nat) : Prop :=
  ∃ whole part, envs = whole ++ part ∧
    (∀ cmds more, readWhole crc8 (done.map Prod.fst ++ cmds) (whole ++ more) =
      done ++ readWhole crc8 cmds more) ∧
    part.length + left = (todo.flatMap fun f => frame crc8 f.1 f.2).length

section Reads

variable {crc8 : UInt8 → UInt8 → UInt8}
  {done : List ((UInt8 × List UInt8) × Surroundings)}
  {todo : List (UInt8 × List UInt8)} {envs : List Surroundings} {left : Nat}

theorem reads_nil (crc8 : UInt8 → UInt8 → UInt8) : Reads crc8 [] [] [] 0 :=
  ⟨[], [], rfl, fun _ _ => rfl, rfl⟩

theorem readWhole_cons {f : UInt8 × List UInt8}
    (h : envs.length + 1 = (frame crc8 f.1 f.2).length) (env : Surroundings)
    (more : List Surroundings) :
    readWhole crc8 (f :: todo) (envs ++ env :: more) =
      (f, env) :: readWhole crc8 todo more := by
  rw [readWhole, ← h, Nat.add_sub_cancel, List.drop_left]

theorem readWhole_short {f : UInt8 × List UInt8}
    (h : envs.length < (frame crc8 f.1 f.2).length) :
    readWhole crc8 (f :: todo) envs = [] := by
  rw [readWhole, List.drop_eq_nil_of_le (by omega)]

/-- One more command is sent. -/
theorem Reads.append (h : Reads crc8 done todo envs left)
    (f : UInt8 × List UInt8) :
    Reads crc8 done (todo ++ [f]) envs
      (left + (frame crc8 f.1 f.2).length) := by
  obtain ⟨whole, part, henvs, hwhole, hlength⟩ := h
  refine ⟨whole, part, henvs, hwhole, ?_⟩
  rw [List.flatMap_append, List.flatMap_singleton, List.length_append,
    ← hlength, Nat.add_assoc]

/-- One more byte is read. -/
theorem Reads.next (h : Reads crc8 done todo envs (left + 1))
    (env : Surroundings) : Reads crc8 done todo (envs ++ [env]) left := by
  obtain ⟨whole, part, rfl, hwhole, hlength⟩ := h
  refine ⟨whole, part ++ [env], List.append_assoc _ _ _, hwhole, ?_⟩
  rw [← hlength, List.length_append, List.length_singleton]
  omega

/-- The last byte of a command is read. -/
theorem Reads.complete {f : UInt8 × List UInt8}
    (h : Reads crc8 done (f :: todo) envs (left + 1)) (env : Surroundings)
    (hleft : left = (todo.flatMap fun f => frame crc8 f.1 f.2).length) :
    Reads crc8 (done ++ [(f, env)]) todo (envs ++ [env]) left := by
  obtain ⟨whole, part, rfl, hwhole, hlength⟩ := h
  refine ⟨whole ++ part ++ [env], [], (List.append_nil _).symm, ?_, ?_⟩
  · intro cmds more
    have hlast : part.length + 1 = (frame crc8 f.1 f.2).length := by
      rw [List.flatMap_cons, List.length_append] at hlength
      omega
    rw [List.map_append, List.map_singleton, List.append_assoc,
      List.append_assoc, List.append_assoc, List.singleton_append,
      List.singleton_append, hwhole, readWhole_cons hlast, List.append_assoc,
      List.singleton_append]
  · rw [List.length_nil, Nat.zero_add, hleft]

/-- Only whole commands count. -/
theorem Reads.readWhole_eq (h : Reads crc8 done todo envs left)
    (hleft : ∀ f rest, todo = f :: rest →
      (rest.flatMap fun f => frame crc8 f.1 f.2).length < left) :
    readWhole crc8 (done.map Prod.fst ++ todo) envs = done := by
  obtain ⟨whole, part, rfl, hwhole, hlength⟩ := h
  rw [hwhole]
  cases todo with
  | nil => exact List.append_nil done
  | cons f rest =>
      have hpart := hleft f rest rfl
      rw [List.flatMap_cons, List.length_append] at hlength
      rw [readWhole_short (by omega), List.append_nil]

end Reads

/-! ## What a step does -/

section Inversion

variable {crc8 : UInt8 → UInt8 → UInt8} {s s' : State}

theorem step_call {cmdPkt : Py.Packet}
    (h : step crc8 s (.call cmdPkt) = some s') :
    s.waiting = none ∧ ∃ encoder, s' = { s with
      host := { s.host with encoder }
      up := s.up ++ frame crc8 cmdPkt.cmd cmdPkt.data
      sent := s.sent ++ [(cmdPkt.cmd, cmdPkt.data)]
      waiting := some s.sent.length } := by
  obtain ⟨encoder, hsend⟩ := s.host.sendCommand_eq crc8 cmdPkt
  cases hwaiting : s.waiting with
  | some k =>
      simp only [step, hsend, hwaiting] at h
      cases h
  | none =>
      simp only [step, hsend, hwaiting] at h
      exact ⟨rfl, encoder, (Option.some.inj h).symm⟩

/-- The device takes a byte, and writes something unless it fails. -/
theorem step_serve {env : Surroundings} {uninit : UInt8}
    (h : step crc8 s (.serve env uninit) = some s') :
    ∃ device byte bytes, s.device = .ok device ∧ s.up = byte :: bytes ∧
      ((∃ written device', device.serve crc8 ⟨byte, env, uninit⟩ =
          .ok (written, device') ∧ s' = { s with
            device := .ok device'
            up := bytes
            down := s.down ++ written
            surroundings := s.surroundings ++ [env]
            written := s.written ++ written }) ∨
        ∃ f, device.serve crc8 ⟨byte, env, uninit⟩ = .error f) := by
  simp only [step] at h
  split at h
  · next device byte bytes hdevice hup =>
      refine ⟨device, byte, bytes, hdevice, hup, ?_⟩
      cases hserve : device.serve crc8 ⟨byte, env, uninit⟩ with
      | error f => exact .inr ⟨f, rfl⟩
      | ok r =>
          simp only [hserve] at h
          exact .inl ⟨r.1, r.2, rfl, (Option.some.inj h).symm⟩
  · cases h

theorem step_deliver (h : step crc8 s .deliver = some s') :
    ∃ byte bytes, s.down = byte :: bytes ∧ s' = { s with
      host := (s.host.receive crc8 (some byte)).2
      alive := (s.host.receive crc8 (some byte)).1.isOk
      down := bytes } := by
  simp only [step] at h
  split at h
  · next byte bytes _ hdown =>
      exact ⟨byte, bytes, hdown, (Option.some.inj h).symm⟩
  · cases h

theorem step_finish (h : step crc8 s .finish = some s') :
    ∃ k, s.waiting = some k ∧
      ((s.host.recvQueue = [] ∧ s' = { s with waiting := none }) ∨
        ∃ pkt queue, s.host.recvQueue = pkt :: queue ∧ s' = { s with
          host := { s.host with recvQueue := queue }
          waiting := none
          returned := s.returned ++ [(k, s.host.store pkt)] }) := by
  cases hwaiting : s.waiting with
  | none =>
      simp only [step, hwaiting] at h
      cases h
  | some k =>
      refine ⟨k, rfl, ?_⟩
      cases hqueue : s.host.recvQueue with
      | nil =>
          simp only [step, hwaiting, Py.Bus.getResponse, hqueue] at h
          exact .inl ⟨rfl, (Option.some.inj h).symm⟩
      | cons pkt queue =>
          simp only [step, hwaiting, Py.Bus.getResponse, hqueue] at h
          exact .inr ⟨pkt, queue, rfl, (Option.some.inj h).symm⟩

end Inversion

/-! ## The invariant -/

/-- How far the commands and their responses have come. -/
structure Progress where
  /-- The commands that the device has processed, each in what surrounded it
  then. -/
  served : List ((UInt8 × List UInt8) × Surroundings)
  /-- The commands on their way. -/
  unserved : List (UInt8 × List UInt8)
  /-- The responses that the host has received. -/
  arrived : List (UInt8 × List UInt8)
  /-- The responses on their way. -/
  todo : List (UInt8 × List UInt8)
  devicePhase : Phase UInt8
  hostPhase : Phase UInt8

/-- Every frame is at one place, and both decoders stand at the right one. -/
structure Inv (crc8 : UInt8 → UInt8 → UInt8) (capacity rspCapacity : Nat)
    (t : Progress) (s : State) : Prop where
  serving : ∃ device, s.device = .ok device ∧
    Serving capacity rspCapacity device t.devicePhase
  up : (deviceReceiver crc8 capacity).Incoming t.unserved s.up t.devicePhase
  sent : s.sent = t.served.map Prod.fst ++ t.unserved
  reads : Reads crc8 t.served t.unserved s.surroundings s.up.length
  room : ∀ f ∈ t.unserved, Fits capacity f
  responses : responses t.served = t.arrived ++ t.todo
  written : s.written = (t.arrived ++ t.todo).flatMap fun r =>
    frame crc8 r.1 r.2
  down : (hostReceiver crc8 Py.Packet.MAX_DATA_LEN).Incoming t.todo s.down
    t.hostPhase
  fits : ∀ r ∈ t.todo, r.2.length + 1 ≤ Py.Packet.MAX_DATA_LEN
  tracks : s.host.Tracks t.hostPhase
  alive : s.alive = true
  counted : s.returned.length + s.host.recvQueue.length = t.arrived.length
  queued : ∀ pkt ∈ s.host.recvQueue, pkt = s.host.decoder.packet
  latest : (s.down = t.todo.flatMap fun r => frame crc8 r.1 r.2) →
    ∀ r, t.arrived.getLast? = some r →
      (s.host.packet.cmd, s.host.packet.data) = r

theorem inv_start (crc8 : UInt8 → UInt8 → UInt8)
    (cmdPacket rspPacket : Cpp.Packet) (escapeChar : UInt8) :
    Inv crc8 cmdPacket.maxDataLen rspPacket.maxDataLen
      ⟨[], [], [], [], .idle, .idle⟩ (start cmdPacket rspPacket escapeChar) where
  serving := ⟨_, rfl, serving_new cmdPacket rspPacket escapeChar⟩
  up := .inl ⟨rfl, rfl, .inl rfl⟩
  sent := rfl
  reads := reads_nil crc8
  room := by
    intro f hf
    cases hf
  responses := rfl
  written := rfl
  down := .inl ⟨rfl, rfl, .inl rfl⟩
  fits := by
    intro r hr
    cases hr
  tracks := Py.Bus.tracks_new
  alive := rfl
  counted := rfl
  queued := by
    intro pkt hpkt
    cases hpkt
  latest := by
    intro _ r hr
    cases hr

section Steps

variable {crc8 : UInt8 → UInt8 → UInt8} {capacity rspCapacity : Nat}
  {t : Progress} {s : State}

/-- A call writes its command. -/
theorem Inv.call (h : Inv crc8 capacity rspCapacity t s)
    {f : UInt8 × List UInt8} (hfits : Fits capacity f)
    (encoder : Py.PacketEncoder) (waiting : Option Nat) :
    Inv crc8 capacity rspCapacity { t with unserved := t.unserved ++ [f] }
      { s with
        host := { s.host with encoder }
        up := s.up ++ frame crc8 f.1 f.2
        sent := s.sent ++ [f]
        waiting } :=
  { h with
    up := h.up.append f
    sent := by rw [h.sent, List.append_assoc]
    reads := by
      rw [List.length_append]
      exact h.reads.append f
    room := by
      intro g hg
      rcases List.mem_append.mp hg with hg | hg
      · exact h.room g hg
      · rw [List.mem_singleton.mp hg]
        exact hfits }

/-- What the device writes for a command is the frame of its response. -/
private theorem answer_eq (env : Surroundings) (f : UInt8 × List UInt8) :
    answer crc8 env f.1 f.2 =
      (response env f).toList.flatMap fun r => frame crc8 r.1 r.2 := by
  rw [answer, response]
  cases reply env f.1 f.2 with
  | none => rfl
  | some rsp => exact (List.flatMap_singleton _ _).symm

/-- A command has been served: its response, if it has one, is on its way. -/
def Progress.serve (t : Progress) (f : UInt8 × List UInt8)
    (unserved : List (UInt8 × List UInt8)) (env : Surroundings)
    (devicePhase : Phase UInt8) : Progress :=
  { t with
    served := t.served ++ [(f, env)]
    unserved
    todo := t.todo ++ (response env f).toList
    devicePhase }

/-- **The device processes a byte.**  It reads on and writes nothing, or it
has processed the next command and written the response to it. -/
theorem Inv.serve (h : Inv crc8 capacity rspCapacity t s)
    (hroom : max 20 (capacity - 1) ≤ rspCapacity) {device : Cpp.Bus Surroundings}
    (hdevice : s.device = .ok device) {byte : UInt8} {bytes : List UInt8}
    (hup : s.up = byte :: bytes) (env : Surroundings) (uninit : UInt8) :
    ∃ written device' t', device.serve crc8 ⟨byte, env, uninit⟩ =
        .ok (written, device') ∧
      Inv crc8 capacity rspCapacity t'
        { s with
          device := .ok device'
          up := bytes
          down := s.down ++ written
          surroundings := s.surroundings ++ [env]
          written := s.written ++ written } ∧
      ((∃ ph, t' = { t with devicePhase := ph } ∧ written = []) ∨
        ∃ f unserved ph, t.unserved = f :: unserved ∧
          t' = t.serve f unserved env ph ∧
          written = (response env f).toList.flatMap fun r =>
            frame crc8 r.1 r.2) := by
  obtain ⟨device₀, hdevice₀, hserving⟩ := h.serving
  cases hdevice.symm.trans hdevice₀
  obtain ⟨device', hserve, hserving'⟩ :=
    serve_of_room crc8 hroom hserving ⟨byte, env, uninit⟩
  let next := (deviceReceiver crc8 capacity).machine.next t.devicePhase byte
  have hincoming := h.up
  have hreads := h.reads
  rw [hup] at hincoming hreads
  have hcapacity : ∀ f ∈ t.unserved, f.2.length + 1 ≤ capacity :=
    fun f hf => Nat.le_trans (h.room f hf) (Nat.min_le_left _ _)
  rcases hincoming.next hcapacity with
    ⟨hout, hnext⟩ | ⟨f, unserved, hunserved, hout, hbytes, hnext⟩
  · refine ⟨_, device', { t with devicePhase := next }, hserve, ?_,
      .inl ⟨next, rfl, by rw [hout]; rfl⟩⟩
    rw [hout, show writes crc8 env (.pending : Verdict UInt8) = [] from rfl,
      List.append_nil, List.append_nil]
    exact
      { h with
        serving := ⟨device', rfl, hserving'⟩
        up := hnext
        reads := hreads.next env }
  · have hwritten : writes crc8 env ((deviceReceiver crc8 capacity).machine.out
        t.devicePhase byte) = (response env f).toList.flatMap fun r =>
          frame crc8 r.1 r.2 := by
      rw [hout, writes, answer_eq]
    refine ⟨_, device', t.serve f unserved env next, hserve, ?_,
      .inr ⟨f, unserved, next, hunserved, rfl, hwritten⟩⟩
    have hf := h.room f (by rw [hunserved]; exact List.mem_cons_self)
    rw [hunserved] at hreads
    rw [hwritten]
    exact
      { h with
        serving := ⟨device', rfl, hserving'⟩
        up := hnext
        sent := by
          rw [h.sent, hunserved, Progress.serve, List.map_append]
          exact List.append_cons _ _ _
        reads := hreads.complete env (congrArg List.length hbytes)
        room := fun g hg =>
          h.room g (by rw [hunserved]; exact List.mem_cons_of_mem f hg)
        responses := by
          rw [Progress.serve, ← List.append_assoc, ← h.responses,
            responses_concat]
        written := by
          simp only [Progress.serve, h.written, List.flatMap_append,
            List.append_assoc]
        down := by
          rw [Progress.serve]
          cases response env f with
          | none =>
              simp only [Option.toList_none, List.flatMap_nil, List.append_nil]
              exact h.down
          | some r =>
              rw [Option.toList_some, List.flatMap_singleton]
              exact h.down.append r
        fits := by
          intro r hr
          rcases List.mem_append.mp hr with hr | hr
          · exact h.fits r hr
          · exact fits_of_response hf (Option.mem_toList.mp hr)
        latest := by
          intro hdown
          rw [Progress.serve, List.flatMap_append] at hdown
          exact h.latest (List.append_cancel_right hdown) }

/-- A response has arrived. -/
def Progress.deliver (t : Progress) (r : UInt8 × List UInt8)
    (todo : List (UInt8 × List UInt8)) (hostPhase : Phase UInt8) : Progress :=
  { t with arrived := t.arrived ++ [r], todo, hostPhase }

/-- No response is a log message. -/
private theorem Inv.ne_log (h : Inv crc8 capacity rspCapacity t s)
    {r : UInt8 × List UInt8} (hr : r ∈ t.todo) : r.1 ≠ Py.Bus.LOG := by
  have hmem : r.1 ∈ (t.arrived ++ t.todo).map Prod.fst :=
    List.mem_map_of_mem (List.mem_append_right _ hr)
  rw [← h.responses, responses_commands] at hmem
  have hknown := (List.mem_filter.mp hmem).2
  intro hlog
  rw [hlog] at hknown
  exact absurd hknown (by decide)

/-- **The receive thread polls a byte.**  It reads on, or a response has
arrived and the packet that holds it is put in the queue. -/
theorem Inv.deliver (h : Inv crc8 capacity rspCapacity t s)
    {byte : UInt8} {bytes : List UInt8} (hdown : s.down = byte :: bytes) :
    ∃ t' host, (s.host.receive crc8 (some byte)).2 = host ∧
      Inv crc8 capacity rspCapacity t'
        { s with
          host
          alive := (s.host.receive crc8 (some byte)).1.isOk
          down := bytes } ∧
      host.decoder.packet = s.host.decoder.packet ∧
      ((∃ ph, t' = { t with hostPhase := ph } ∧
          host.recvQueue = s.host.recvQueue) ∨
        ∃ r todo ph, t.todo = r :: todo ∧ t' = t.deliver r todo ph ∧
          (host.packet.cmd, host.packet.data) = r ∧
          host.recvQueue = s.host.recvQueue ++ [host.decoder.packet]) := by
  let next := (hostReceiver crc8 Py.Packet.MAX_DATA_LEN).machine.next
    t.hostPhase byte
  have hincoming := h.down
  rw [hdown] at hincoming
  rcases hincoming.next h.fits with
    ⟨hout, hnext⟩ | ⟨r, todo, htodo, hout, _, hnext⟩
  · obtain ⟨host, hreceive, htracks, hqueue, howner, _⟩ :=
      Py.Bus.receive_pending crc8 h.tracks hout
    refine ⟨{ t with hostPhase := next }, host, by rw [hreceive], ?_,
      howner.1, .inl ⟨next, rfl, hqueue⟩⟩
    rw [hreceive]
    exact
      { h with
        down := hnext
        tracks := htracks
        alive := rfl
        counted := by
          rw [hqueue]
          exact h.counted
        queued := by
          rw [hqueue, howner.1]
          exact h.queued
        latest := by
          -- the first response on its way has begun
          intro hbytes
          have hlength := h.down.suffix.length_le
          rw [hdown, List.length_cons] at hlength
          exact absurd (congrArg List.length hbytes)
            (Nat.ne_of_lt hlength) }
  · obtain ⟨host, htracks, hcmd, hdata, hqueue, howner, hreceive⟩ :=
      Py.Bus.receive_accepted crc8 h.tracks hout
    have hlog := h.ne_log (by rw [htodo]; exact List.mem_cons_self)
    rw [← hcmd] at hlog
    rw [Py.Bus.processDecoded_queued hlog] at hreceive
    have hadded : host.recvQueue ++ [host.decoder.packet] =
        s.host.recvQueue ++ [host.decoder.packet] := by rw [hqueue]
    have hpacket : (host.packet.cmd, host.packet.data) = r := by
      rw [hcmd, hdata]
    refine ⟨t.deliver r todo next,
      { host with recvQueue := host.recvQueue ++ [host.decoder.packet] },
      by rw [hreceive], ?_, howner.1,
      .inr ⟨r, todo, next, htodo, rfl, hpacket, hadded⟩⟩
    have hsplit : t.arrived ++ [r] ++ todo = t.arrived ++ t.todo := by
      rw [htodo, List.append_assoc, List.singleton_append]
    rw [hreceive]
    exact
      { h with
        responses := by
          rw [Progress.deliver, hsplit]
          exact h.responses
        written := by
          rw [Progress.deliver, hsplit]
          exact h.written
        down := hnext
        fits := fun q hq =>
          h.fits q (by rw [htodo]; exact List.mem_cons_of_mem r hq)
        tracks := htracks
        alive := rfl
        counted := by
          have hcounted := h.counted
          simp only [Progress.deliver, hqueue, List.length_append,
            List.length_singleton]
          omega
        queued := by
          intro pkt hpkt
          rw [hqueue] at hpkt
          rcases List.mem_append.mp hpkt with hpkt | hpkt
          · exact (h.queued pkt hpkt).trans howner.1.symm
          · exact List.mem_singleton.mp hpkt
        latest := by
          intro _ q hq
          rw [Progress.deliver, List.getLast?_concat] at hq
          exact hpacket.trans (Option.some.inj hq) }

/-- A call returns a packet. -/
theorem Inv.finish (h : Inv crc8 capacity rspCapacity t s)
    {pkt : Py.Ref} {queue : List Py.Ref} (hqueue : s.host.recvQueue = pkt :: queue)
    (k : Nat) :
    Inv crc8 capacity rspCapacity t
      { s with
        host := { s.host with recvQueue := queue }
        waiting := none
        returned := s.returned ++ [(k, s.host.store pkt)] } :=
  { h with
    counted := by
      have hcounted := h.counted
      rw [hqueue, List.length_cons] at hcounted
      simp only [List.length_append, List.length_singleton]
      omega
    queued := fun p hp =>
      h.queued p (by rw [hqueue]; exact List.mem_cons_of_mem pkt hp) }

/-- What the state tells of the commands that were processed. -/
theorem Inv.served_eq (h : Inv crc8 capacity rspCapacity t s) :
    s.served crc8 = t.served := by
  rw [State.served, h.sent]
  apply h.reads.readWhole_eq
  intro f rest hunserved
  have hup := h.up
  rw [hunserved] at hup
  exact hup.length_lt

end Steps

/-- Everything is somewhere. -/
def Kept (crc8 : UInt8 → UInt8 → UInt8) (capacity rspCapacity : Nat)
    (s : State) : Prop :=
  ∃ t, Inv crc8 capacity rspCapacity t s

section Runs

variable (crc8 : UInt8 → UInt8 → UInt8) {capacity rspCapacity : Nat}

/-- **Every guarded step** keeps the invariant. -/
theorem kept_step (hroom : max 20 (capacity - 1) ≤ rspCapacity) (s : State)
    (a : Action) (s' : State) (h : Kept crc8 capacity rspCapacity s)
    (hguard : Guard capacity s a) (hstep : step crc8 s a = some s') :
    Kept crc8 capacity rspCapacity s' := by
  obtain ⟨t, hinv⟩ := h
  cases a with
  | call cmdPkt =>
      obtain ⟨_, encoder, rfl⟩ := step_call hstep
      exact ⟨_, hinv.call hguard encoder _⟩
  | serve env uninit =>
      obtain ⟨device, byte, bytes, hdevice, hup, hserves⟩ := step_serve hstep
      obtain ⟨written, device', t', hserve, hinv', _⟩ :=
        hinv.serve hroom hdevice hup env uninit
      rcases hserves with ⟨written', device'', hserve', rfl⟩ | ⟨f, hfails⟩
      · cases hserve.symm.trans hserve'
        exact ⟨t', hinv'⟩
      · cases hserve.symm.trans hfails
  | deliver =>
      obtain ⟨byte, bytes, hdown, rfl⟩ := step_deliver hstep
      obtain ⟨t', host, rfl, hinv', _⟩ := hinv.deliver hdown
      exact ⟨t', hinv'⟩
  | finish =>
      obtain ⟨k, _, ⟨_, rfl⟩ | ⟨pkt, queue, hqueue, rfl⟩⟩ := step_finish hstep
      · exact ⟨t, { hinv with }⟩
      · exact ⟨t, hinv.finish hqueue k⟩

/-- Where every guarded run ends. -/
theorem kept_of_run {cmdPacket rspPacket : Cpp.Packet} {escapeChar : UInt8}
    (hroom : max 20 (cmdPacket.maxDataLen - 1) ≤ rspPacket.maxDataLen)
    {as : List Action} {s : State}
    (hrun : Run (step crc8) (Guard cmdPacket.maxDataLen)
      (start cmdPacket rspPacket escapeChar) as s) :
    Kept crc8 cmdPacket.maxDataLen rspPacket.maxDataLen s :=
  hrun.invariant (Kept crc8 _ _) (kept_step crc8 hroom)
    ⟨_, inv_start crc8 cmdPacket rspPacket escapeChar⟩

/-- Every command and every response is at one place.  `unserved` are the
commands that the device has not processed; `arrived` are the responses that
the host has received, `todo` those on their way.  On either line there is what
is left of some frames, and something of the first of them. -/
structure Conserved (crc8 : UInt8 → UInt8 → UInt8) (s : State)
    (unserved arrived todo : List (UInt8 × List UInt8)) : Prop where
  alive : s.alive = true
  device : s.device.isOk = true
  sent : s.sent = (s.served crc8).map Prod.fst ++ unserved
  responses : responses (s.served crc8) = arrived ++ todo
  up : s.up <:+ unserved.flatMap fun f => frame crc8 f.1 f.2
  up_first : ∀ f rest, unserved = f :: rest →
    (rest.flatMap fun f => frame crc8 f.1 f.2).length < s.up.length
  written : s.written = (arrived ++ todo).flatMap fun r => frame crc8 r.1 r.2
  down : s.down <:+ todo.flatMap fun r => frame crc8 r.1 r.2
  down_first : ∀ r rest, todo = r :: rest →
    (rest.flatMap fun r => frame crc8 r.1 r.2).length < s.down.length
  counted : s.returned.length + s.host.recvQueue.length = arrived.length
  /-- The queue has one packet, as often as it has any. -/
  queued : ∀ pkt ∈ s.host.recvQueue, pkt = s.host.decoder.packet
  /-- That packet holds the last response, before the next one begins. -/
  latest : (s.down = todo.flatMap fun r => frame crc8 r.1 r.2) →
    ∀ r, arrived.getLast? = some r →
      (s.host.packet.cmd, s.host.packet.data) = r
  /-- It is what a call returns that finds one. -/
  returns : ∀ k s', s.waiting = some k → step crc8 s .finish = some s' →
    s'.returned = s.returned ++
      if s.host.recvQueue = [] then [] else [(k, s.host.packet)]

/-- A call that finds a packet returns the one of the decoder. -/
private theorem Inv.returns {t : Progress} {s : State}
    (h : Inv crc8 capacity rspCapacity t s) {k : Nat} {s' : State}
    (hwaiting : s.waiting = some k) (hstep : step crc8 s .finish = some s') :
    s'.returned = s.returned ++
      if s.host.recvQueue = [] then [] else [(k, s.host.packet)] := by
  obtain ⟨j, hj, ⟨hqueue, rfl⟩ | ⟨pkt, queue, hqueue, rfl⟩⟩ :=
    step_finish hstep
  · rw [if_pos hqueue, List.append_nil]
  · cases hwaiting.symm.trans hj
    have hpkt := h.queued pkt (by rw [hqueue]; exact List.mem_cons_self)
    rw [if_neg (by rw [hqueue]; exact List.cons_ne_nil pkt queue), hpkt]
    rfl

/-- **On the lines, no command and no response is lost, doubled or
reordered**, and neither side fails, however the host's calls, its receive
thread and the device take turns. -/
theorem link_conserves (cmdPacket rspPacket : Cpp.Packet) (escapeChar : UInt8)
    (hroom : max 20 (cmdPacket.maxDataLen - 1) ≤ rspPacket.maxDataLen)
    (as : List Action) (s : State)
    (hrun : Run (step crc8) (Guard cmdPacket.maxDataLen)
      (start cmdPacket rspPacket escapeChar) as s) :
    ∃ unserved arrived todo, Conserved crc8 s unserved arrived todo := by
  obtain ⟨t, hinv⟩ := kept_of_run crc8 hroom hrun
  obtain ⟨device, hdevice, _⟩ := hinv.serving
  exact ⟨t.unserved, t.arrived, t.todo,
    { alive := hinv.alive
      device := by rw [hdevice]; rfl
      sent := by rw [hinv.served_eq]; exact hinv.sent
      responses := by rw [hinv.served_eq]; exact hinv.responses
      up := hinv.up.suffix
      up_first := fun _ _ hunserved => (hunserved ▸ hinv.up).length_lt
      written := hinv.written
      down := hinv.down.suffix
      down_first := fun _ _ htodo => (htodo ▸ hinv.down).length_lt
      counted := hinv.counted
      queued := hinv.queued
      latest := hinv.latest
      returns := fun _ _ hwaiting hstep => hinv.returns crc8 hwaiting hstep }⟩

end Runs

/-- A device with little room, and surroundings without statistics. -/
def smallStart : State :=
  start (.new (List.replicate 16 0) 0) (.new (List.replicate 20 0) 0) 0

def bare : Surroundings := ⟨0, 0, 0, 0, 0, 0, 0, 0, 0⟩

/-- A `PING` times out while its response is on the way, and a command that
the device does not know follows. -/
def twoCalls : List Action :=
  [.call (.new PING [END])] ++ List.replicate 6 (.serve bare 0) ++
    [.deliver, .finish, .call (.new 0x10 [])] ++
    List.replicate 2 (.serve bare 0) ++ List.replicate 3 .deliver

theorem link_conserves_twoCalls :
    ∃ s, perform (step crc8Poly07) smallStart twoCalls = some s ∧
      (s.sent.length, s.up.length, s.down.length) = (2, 2, 2) ∧
      ∃ unserved arrived todo,
        Conserved crc8Poly07 s unserved arrived todo := by
  have hlengths : (perform (guarded (step crc8Poly07) (Guard 16)) smallStart
      twoCalls).map (fun s => (s.sent.length, s.up.length, s.down.length)) =
      some (2, 2, 2) := by
    decide +kernel
  obtain ⟨s, hs, hs'⟩ := Option.map_eq_some_iff.mp hlengths
  have hrun := Run.of_perform_guarded hs
  exact ⟨s, hrun.perform_eq, hs', link_conserves crc8Poly07
    (.new (List.replicate 16 0) 0) (.new (List.replicate 20 0) 0) 0 (by decide)
    twoCalls s hrun⟩

/-! ## Everything arrives -/

/-- The device has processed all commands, and every response has arrived and
was put in the queue; the packet there is that of the last one. -/
structure Complete (crc8 : UInt8 → UInt8 → UInt8) (s : State) : Prop where
  served : (s.served crc8).map Prod.fst = s.sent
  commands : (responses (s.served crc8)).map Prod.fst =
    (s.sent.map Prod.fst).filter Known
  counted : s.returned.length + s.host.recvQueue.length =
    (responses (s.served crc8)).length
  queued : ∀ pkt ∈ s.host.recvQueue, pkt = s.host.decoder.packet
  latest : ∀ r, (responses (s.served crc8)).getLast? = some r →
    (s.host.packet.cmd, s.host.packet.data) = r

theorem complete_of_drained {crc8 : UInt8 → UInt8 → UInt8}
    {capacity rspCapacity : Nat} {s : State} (h : Kept crc8 capacity rspCapacity s)
    (hup : s.up = []) (hdown : s.down = []) : Complete crc8 s := by
  obtain ⟨t, hinv⟩ := h
  have htodo := hinv.down.eq_nil_iff.mp hdown
  have hresponses := hinv.responses
  rw [htodo, List.append_nil] at hresponses
  have hserved : (s.served crc8).map Prod.fst = s.sent := by
    rw [hinv.served_eq, hinv.sent, hinv.up.eq_nil_iff.mp hup, List.append_nil]
  exact
    { served := hserved
      commands := by rw [responses_commands, hserved]
      counted := by rw [hinv.served_eq, hresponses, hinv.counted]
      queued := hinv.queued
      latest := by
        rw [hinv.served_eq, hresponses]
        apply hinv.latest
        rw [hdown, htodo]
        rfl }

/-- The calls have not gone on meanwhile. -/
def SameCalls (s s' : State) : Prop :=
  s'.sent = s.sent ∧ s'.waiting = s.waiting ∧ s'.returned = s.returned

theorem SameCalls.trans {s s' s'' : State} (h : SameCalls s s')
    (h' : SameCalls s' s'') : SameCalls s s'' :=
  ⟨h'.1.trans h.1, h'.2.1.trans h.2.1, h'.2.2.trans h.2.2⟩

section Completion

variable (crc8 : UInt8 → UInt8 → UInt8) {capacity rspCapacity : Nat}

/-- As long as there are bytes for it, the device loop goes on. -/
private theorem serve_enabled (hroom : max 20 (capacity - 1) ≤ rspCapacity)
    (env : Surroundings) (uninit : UInt8) {s : State}
    (h : Kept crc8 capacity rspCapacity s) (hup : s.up ≠ []) :
    ∃ s', step crc8 s (.serve env uninit) = some s' ∧
      Kept crc8 capacity rspCapacity s' ∧ SameCalls s s' ∧
      s'.up.length + 1 = s.up.length := by
  obtain ⟨t, hinv⟩ := h
  obtain ⟨device, hdevice, _⟩ := hinv.serving
  obtain ⟨byte, bytes, hcons⟩ := List.exists_cons_of_ne_nil hup
  obtain ⟨written, device', t', hserve, hinv', _⟩ :=
    hinv.serve hroom hdevice hcons env uninit
  refine ⟨_, ?_, ⟨t', hinv'⟩, ⟨rfl, rfl, rfl⟩, by rw [hcons]; rfl⟩
  simp only [step, hdevice, hcons, hserve]

/-- As long as there are bytes for it, the receive thread goes on. -/
private theorem deliver_enabled {s : State}
    (h : Kept crc8 capacity rspCapacity s) (hdown : s.down ≠ []) :
    ∃ s', step crc8 s .deliver = some s' ∧
      Kept crc8 capacity rspCapacity s' ∧ SameCalls s s' ∧ s'.up = s.up ∧
      s'.down.length + 1 = s.down.length := by
  obtain ⟨t, hinv⟩ := h
  obtain ⟨byte, bytes, hcons⟩ := List.exists_cons_of_ne_nil hdown
  obtain ⟨t', host, rfl, hinv', _⟩ := hinv.deliver hcons
  refine ⟨_, ?_, ⟨t', hinv'⟩, ⟨rfl, rfl, rfl⟩, rfl, by rw [hcons]; rfl⟩
  simp only [step, hinv.alive, hcons]

/-- **Every response arrives.**  From any state that a run reaches, the device
and the receive thread can go on until all commands are processed and all
responses have arrived; and whenever neither of them can go on, this is so. -/
theorem link_completes (cmdPacket rspPacket : Cpp.Packet) (escapeChar : UInt8)
    (hroom : max 20 (cmdPacket.maxDataLen - 1) ≤ rspPacket.maxDataLen)
    (as : List Action) (s : State)
    (hrun : Run (step crc8) (Guard cmdPacket.maxDataLen)
      (start cmdPacket rspPacket escapeChar) as s)
    (env : Surroundings) (uninit : UInt8) :
    (∃ m n s', perform (step crc8) s (List.replicate m (.serve env uninit) ++
        List.replicate n .deliver) = some s' ∧ SameCalls s s' ∧ Complete crc8 s') ∧
    (step crc8 s (.serve env uninit) = none → step crc8 s .deliver = none →
      Complete crc8 s) := by
  have hkept := kept_of_run crc8 hroom hrun
  constructor
  · obtain ⟨s₁, hserves, ⟨hkept₁, hsame₁⟩, hup₁⟩ := perform_replicate
      (fun s' => Kept crc8 _ _ s' ∧ SameCalls s s') (fun s' => s'.up.length)
      (fun s' hs' hwork => by
        obtain ⟨s'', htaken, hkept'', hsame, hless⟩ := serve_enabled crc8 hroom
          env uninit hs'.1 (List.ne_nil_of_length_pos hwork)
        exact ⟨s'', htaken, ⟨hkept'', hs'.2.trans hsame⟩, hless⟩)
      ⟨hkept, rfl, rfl, rfl⟩
    obtain ⟨s₂, hdelivers, ⟨hkept₂, hsame₂, hup₂⟩, hdown₂⟩ := perform_replicate
      (fun s' => Kept crc8 _ _ s' ∧ SameCalls s s' ∧ s'.up = [])
      (fun s' => s'.down.length)
      (fun s' hs' hwork => by
        obtain ⟨s'', htaken, hkept'', hsame, hup, hless⟩ :=
          deliver_enabled crc8 hs'.1 (List.ne_nil_of_length_pos hwork)
        exact ⟨s'', htaken, ⟨hkept'', hs'.2.1.trans hsame,
          hup.trans hs'.2.2⟩, hless⟩)
      ⟨hkept₁, hsame₁, List.eq_nil_of_length_eq_zero hup₁⟩
    refine ⟨_, _, s₂, (perform_append hserves _).trans hdelivers, hsame₂, ?_⟩
    exact complete_of_drained hkept₂ hup₂
      (List.eq_nil_of_length_eq_zero hdown₂)
  · intro hserve hdeliver
    apply complete_of_drained hkept
    · by_contra hup
      obtain ⟨s', htaken, _⟩ := serve_enabled crc8 hroom env uninit hkept hup
      cases hserve.symm.trans htaken
    · by_contra hdown
      obtain ⟨s', htaken, _⟩ := deliver_enabled crc8 hkept hdown
      cases hdeliver.symm.trans htaken

end Completion

theorem link_completes_twoCalls :
    ∃ s, perform (step crc8Poly07) smallStart twoCalls = some s ∧
      ∃ m n s', perform (step crc8Poly07) s
        (List.replicate m (.serve bare 0) ++ List.replicate n .deliver) =
          some s' ∧ SameCalls s s' ∧ Complete crc8Poly07 s' := by
  have hlengths : (perform (guarded (step crc8Poly07) (Guard 16)) smallStart
      twoCalls).isSome = true := by
    decide +kernel
  obtain ⟨s, hs⟩ := Option.isSome_iff_exists.mp hlengths
  have hrun := Run.of_perform_guarded hs
  exact ⟨s, hrun.perform_eq, (link_completes crc8Poly07
    (.new (List.replicate 16 0) 0) (.new (List.replicate 20 0) 0) 0 (by decide)
    twoCalls s hrun bare 0).1⟩

end DuinoBus.WholeLink
