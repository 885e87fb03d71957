import DuinoBus.Py.Bus

/-!
# The host's serial bus and its receive thread

`SerialBus` is an `IBus` on a serial port.  `open` starts a thread that runs
`incoming_data_thread`; `close` closes the port, sets `self.serial` to `None`
and waits for the thread.  The two share `self.serial` and `self.fileno`
without a lock, so the thread is a state machine here, with a step for each
time it looks at them, and one each for reading, decoding and processing; and
steps of the thread and of the caller alternate in any order.

The ports are objects of pyserial.  Using a port that is not open raises, and
so does using `None`; what else a port does is up to the `Answer`.
-/

namespace DuinoBus.Py

open DuinoBus.Wire
open DuinoBus.Verified

namespace SerialBus

/-- A `serial.Serial` object. -/
abbrev Port := Nat

/-- Where a receive thread is. -/
inductive Pc where
  /-- `if not self.is_open()`. -/
  | check
  /-- `poll.poll(500)`, and the loop over its events. -/
  | poll
  /-- `if self.serial is None` in `is_data_available`. -/
  | dataTest
  /-- The `self.serial` of `poll.register(self.serial, select.POLLIN)`. -/
  | dataLoad
  /-- `poll.register` with what that was, and `poll.poll(0)`. -/
  | dataPoll (serial : Option Port)
  /-- `if self.serial is None` in `read_byte`. -/
  | readTest
  /-- The `self.serial` of `self.serial.read(1)`. -/
  | readLoad
  /-- `read(1)` of what that was. -/
  | read (serial : Option Port)
  /-- `self.decoder.decode_byte(byte)`. -/
  | decode (byte : UInt8)
  /-- `self.process_packet(self.decoder.packet)`. -/
  | process
  /-- The thread has come to its end. -/
  | returned
  /-- An exception has ended the thread. -/
  | raised
  deriving DecidableEq, Repr

def Pc.Ended : Pc → Prop
  | .returned => True
  | .raised => True
  | _ => False

instance : DecidablePred Pc.Ended
  | .returned => .isTrue trivial
  | .raised => .isTrue trivial
  | .check => .isFalse id
  | .poll => .isFalse id
  | .dataTest => .isFalse id
  | .dataLoad => .isFalse id
  | .dataPoll _ => .isFalse id
  | .readTest => .isFalse id
  | .readLoad => .isFalse id
  | .read _ => .isFalse id
  | .decode _ => .isFalse id
  | .process => .isFalse id

/-- A receive thread and the descriptor that it has registered. -/
structure Thread where
  fd : Nat
  pc : Pc

/-- What the system answers to a step of a thread: the events, the byte that
is read, and whether the port raises. -/
structure Answer where
  readable : Bool
  error : Bool
  byte : Option UInt8
  raises : Bool
  deriving DecidableEq

/-- Where the caller is in `close`. -/
inductive Caller where
  /-- Not in `close`. -/
  | idle
  /-- At `self.serial.close()`. -/
  | closing
  /-- At `self.serial = None`. -/
  | forgetting
  /-- In `bus_closed`. -/
  | joining
  deriving DecidableEq, Repr

/-- The bus and its threads, the newest first: that one is `self.thread`. -/
structure State where
  bus : Bus
  serial : Option Port
  isOpen : Port → Bool
  /-- How many ports there are. -/
  ports : Nat
  /-- `none` for -1. -/
  fileno : Option Nat
  threads : List Thread
  caller : Caller
  /-- All bytes that were read. -/
  received : List UInt8

inductive Action where
  /-- `open`, on a port with some descriptor.  If pyserial raises there,
  nothing has changed. -/
  | openPort (fd : Nat)
  /-- `close`, up to the two resets of buffers, of which one may raise. -/
  | close (raises : Bool)
  /-- The next statement of `close`. -/
  | resume
  /-- `send_command_get_response`, whose command can be written if the port is
  open: it waits for the queue. -/
  | request
  /-- A thread takes a step. -/
  | run (thread : Nat) (answer : Answer)
  deriving DecidableEq

/-- `SerialBus()`: there is a port, but it is not open. -/
def start : State :=
  ⟨.new, some 0, fun _ => false, 1, none, [], .idle, []⟩

/-! ## The thread -/

/-- The byte that a step reads. -/
def reads (s : State) (t : Thread) (a : Answer) : Option UInt8 :=
  match t.pc with
  | .read (some port) =>
      if s.isOpen port = false ∨ a.raises then none else a.byte
  | _ => none

section Code

variable (crc8 : UInt8 → UInt8 → UInt8)

/-- The next step of `incoming_data_thread`. -/
def next (s : State) (t : Thread) (a : Answer) : Pc :=
  match t.pc with
  | .check => if s.serial = none then .returned else .poll
  | .poll =>
      -- an event of a descriptor that is not the bus's own is left alone
      if s.fileno ≠ some t.fd then .check
      else if a.readable then .dataTest
      else if a.error then .returned
      else .check
  | .dataTest => if s.serial = none then .check else .dataLoad
  | .dataLoad => .dataPoll s.serial
  | .dataPoll none => .raised
  | .dataPoll (some port) =>
      if s.isOpen port = false ∨ a.raises then .raised
      else if a.readable then .readTest
      else .check
  | .readTest => if s.serial = none then .check else .readLoad
  | .readLoad => .read s.serial
  | .read none => .raised
  | .read (some port) =>
      if s.isOpen port = false ∨ a.raises then .raised
      else match a.byte with
        | some byte => .decode byte
        | none => .check
  | .decode byte =>
      match s.bus.processByte crc8 (some byte) with
      | .ok (err, _) => if err = .notDone then .check else .process
      | .error _ => .raised
  | .process => if s.bus.processDecoded.1.isOk then .check else .raised
  | .returned => .returned
  | .raised => .raised

/-- The bus after a step. -/
def busAfter (s : State) (t : Thread) : Bus :=
  match t.pc with
  | .decode byte =>
      match s.bus.processByte crc8 (some byte) with
      | .ok (_, bus) => bus
      | .error _ => s.bus
  | .process => s.bus.processDecoded.2
  | _ => s.bus

/-- A step of a thread that has not ended. -/
def runThread (s : State) (i : Nat) (t : Thread) (a : Answer) : State :=
  { s with
    bus := busAfter crc8 s t
    threads := s.threads.set i { t with pc := next crc8 s t a }
    received := s.received ++ (reads s t a).toList }

/-! ## The caller -/

/-- `self.serial.close()` and what comes after it. -/
def resume (s : State) : Option State :=
  match s.caller, s.serial with
  | .closing, some port => some { s with
      isOpen := fun p => if p = port then false else s.isOpen p
      caller := .forgetting }
  | .forgetting, _ => some { s with serial := none, caller := .joining }
  | .joining, _ =>
      -- `self.thread.join()` returns once the thread has ended
      if ∀ t ∈ s.threads.head?, t.pc.Ended then
        some { s with fileno := none, caller := .idle }
      else none
  | _, _ => none

def step (s : State) : Action → Option State
  | .openPort fd =>
      if s.caller = .idle then some { s with
        serial := some s.ports
        isOpen := fun p => if p = s.ports then true else s.isOpen p
        ports := s.ports + 1
        fileno := some fd
        threads := ⟨fd, .check⟩ :: s.threads }
      else none
  | .close raises =>
      if s.caller = .idle then
        match s.serial with
        | none => some s
        | some port =>
            if s.isOpen port = false ∨ raises then some s
            else some { s with caller := .closing }
      else none
  | .resume => resume s
  | .request =>
      if s.caller = .idle then
        match s.serial with
        | none => some s
        | some port =>
            if s.isOpen port = false then some s
            else some { s with bus := s.bus.getResponse.2 }
      else none
  | .run i a =>
      match s.threads[i]? with
      | none => none
      | some t => if t.pc.Ended then none else some (runThread crc8 s i t a)

end Code

/-- `open` is not called on a bus that is open. -/
def Guard (s : State) : Action → Prop
  | .openPort _ => ∀ port ∈ s.serial, s.isOpen port = false
  | _ => True

end SerialBus

end DuinoBus.Py
