import DuinoBus.Cpp.Bus
import DuinoBus.Cpp.Unpacker

/-!
# The core packet handler

`CorePacketHandler` answers `PING`, `DEBUG`, `STACK_INFO` and `HEAP_INFO`,
each with a response under the same command, and declines every other
command.

`reply` is the data of the response as a function of the command, its data
and the surroundings.  `handlePacket_eq` says that the handler computes it, or
trips an assertion when it does not fit into the response packet.  `serve_eq`
is the same for one round of the device loop, on a bus with this handler
only: it answers an accepted packet with the frame of its reply and writes
nothing else.
-/

namespace DuinoBus.Cpp

open DuinoBus.Wire
open DuinoBus.Verified

/-- What the handler reads besides the packets: the heap statistics of
`mallinfo` and the linker, those of the stack monitor, and what the
uninitialised variable `flags` contains. -/
structure Surroundings where
  arena : UInt32
  uordblks : UInt32
  fordblks : UInt32
  ordblks : UInt32
  growthPotential : UInt32
  stackSize : UInt32
  usedStackSpace : UInt32
  unusedStackSpace : UInt32
  flags : UInt32
  deriving DecidableEq

namespace CorePacketHandler

/-! ## The commands -/

/-- Check to see if the board is alive. -/
def PING : UInt8 := 0x01

/-- Sets debug setting. -/
def DEBUG : UInt8 := 0x02

/-- Returns stack information. -/
def STACK_INFO : UInt8 := 0x04

/-- Returns heap information. -/
def HEAP_INFO : UInt8 := 0x05

/-! ## The code -/

def handleDebug (env : Surroundings) (cmd rsp : Packet) :
    Except Fault Handled := do
  let (_, flags, _) ← (Unpacker.new cmd).unpack env.flags
  let rsp ← (rsp.setCommand DEBUG).append flags
  return ⟨true, rsp, some (decide (flags &&& 0x01 ≠ 0))⟩

def handleHeapInfo (env : Surroundings) (rsp : Packet) :
    Except Fault Handled := do
  let rsp ← (rsp.setCommand HEAP_INFO).append env.arena
  let rsp ← rsp.append env.uordblks
  let rsp ← rsp.append env.fordblks
  let rsp ← rsp.append env.ordblks
  let rsp ← rsp.append env.growthPotential
  return ⟨true, rsp, none⟩

/-- We echo back any data which is included in the PING command. -/
def handlePing (cmd rsp : Packet) : Except Fault Handled := do
  let data ← cmd.readData
  let rsp ← (rsp.setCommand PING).setData data
  return ⟨true, rsp, none⟩

def handleStackInfo (env : Surroundings) (rsp : Packet) :
    Except Fault Handled := do
  let rsp ← (rsp.setCommand STACK_INFO).append env.stackSize
  let rsp ← rsp.append env.usedStackSpace
  let rsp ← rsp.append env.unusedStackSpace
  return ⟨true, rsp, none⟩

def handlePacket : Handler Surroundings := fun env cmd rsp =>
  if cmd.command = PING then handlePing cmd rsp
  else if cmd.command = DEBUG then handleDebug env cmd rsp
  else if cmd.command = STACK_INFO then handleStackInfo env rsp
  else if cmd.command = HEAP_INFO then handleHeapInfo env rsp
  else .ok ⟨false, rsp, none⟩

/-! ## The replies -/

/-- The flags of a `DEBUG` command.  Nothing is read from a short one. -/
def debugFlags (env : Surroundings) (data : List UInt8) : UInt32 :=
  if data.length < 4 then env.flags else Unpacker.valueOf (data.take 4)

/-- The data of the response to a command, if it has one. -/
def reply (env : Surroundings) (cmd : UInt8) (data : List UInt8) :
    Option (List UInt8) :=
  if cmd = PING then some data
  else if cmd = DEBUG then some (Packet.bytesOf (debugFlags env data))
  else if cmd = STACK_INFO then
    some (Packet.bytesOf env.stackSize ++ Packet.bytesOf env.usedStackSpace ++
      Packet.bytesOf env.unusedStackSpace)
  else if cmd = HEAP_INFO then
    some (Packet.bytesOf env.arena ++ Packet.bytesOf env.uordblks ++
      Packet.bytesOf env.fordblks ++ Packet.bytesOf env.ordblks ++
      Packet.bytesOf env.growthPotential)
  else none

/-- The length of the reply, which the surroundings have no part in. -/
def replyLength (cmd : UInt8) (data : List UInt8) : Nat :=
  if cmd = PING then data.length
  else if cmd = DEBUG then 4
  else if cmd = STACK_INFO then 12
  else if cmd = HEAP_INFO then 20
  else 0

theorem length_reply (env : Surroundings) (cmd : UInt8) (data : List UInt8) :
    ((reply env cmd data).getD []).length = replyLength cmd data := by
  unfold reply replyLength
  split
  · rfl
  · split
    · rfl
    · split
      · rfl
      · split
        · rfl
        · rfl

/-- Every reply fits into 20 bytes, or is as long as the command's data. -/
theorem replyLength_le (cmd : UInt8) (data : List UInt8) :
    replyLength cmd data ≤ max 20 data.length := by
  unfold replyLength
  split
  · omega
  · split
    · omega
    · split
      · omega
      · split
        · omega
        · omega

theorem reply_isSome_iff (env : Surroundings) (cmd : UInt8)
    (data : List UInt8) :
    (reply env cmd data).isSome ↔
      cmd ∈ [PING, DEBUG, STACK_INFO, HEAP_INFO] := by
  unfold reply
  split
  · next h => simp [h]
  · next h₁ =>
      split
      · next h => simp [h]
      · next h₂ =>
          split
          · next h => simp [h]
          · next h₃ =>
              split
              · next h => simp [h]
              · next h₄ => simp [h₁, h₂, h₃, h₄]

theorem reply_ping (env : Surroundings) (data : List UInt8) :
    reply env PING data = some data := by rw [reply, if_pos rfl]

theorem ne_zero_of_reply {env : Surroundings} {cmd : UInt8}
    {data rsp : List UInt8} (h : reply env cmd data = some rsp) : cmd ≠ 0 := by
  have hsome : (reply env cmd data).isSome := by simp [h]
  rw [reply_isSome_iff] at hsome
  intro hzero
  rw [hzero] at hsome
  exact absurd hsome (by decide)

/-! ## The handler computes the reply -/

/-- A call of the handler that gave the reply `answer`, in a response packet
of the given capacity. -/
def Gives (capacity : Nat) (cmd : UInt8) (r : Handled) :
    Option (List UInt8) → Prop
  | some rsp => r.handled = true ∧ r.rsp.Holds capacity cmd rsp
  | none => r.handled = false ∧ r.rsp.Holds capacity 0 []

/-- What a handler does that has a reply: give it if it fits, and trip an
assertion otherwise. -/
def Replies (capacity : Nat) (cmd : UInt8) (call : Except Fault Handled)
    (answer : Option (List UInt8)) : Prop :=
  if (answer.getD []).length ≤ capacity then
    ∃ r, call = .ok r ∧ Gives capacity cmd r answer
  else call = .error .assertFailed

section Handlers

variable {capacity : Nat} {rsp : Packet} {bs : List UInt8}

/-- Words are appended one after the other as long as they fit. -/
private theorem append_words {cmd : UInt8} (h : rsp.Holds capacity cmd bs)
    (words : List UInt32) :
    if bs.length + 4 * words.length ≤ capacity then
      ∃ q, words.foldlM Packet.append rsp = .ok q ∧
        q.Holds capacity cmd (bs ++ words.flatMap Packet.bytesOf)
    else words.foldlM Packet.append rsp = .error .assertFailed := by
  induction words generalizing rsp bs with
  | nil =>
      rw [List.length_nil, Nat.mul_zero, Nat.add_zero, if_pos h.length_le,
        List.flatMap_nil, List.append_nil]
      exact ⟨rsp, rfl, h⟩
  | cons word words ih =>
      have hdataLen := h.dataLen
      have hmax := h.maxDataLen
      have hfour : (Packet.bytesOf word).length = 4 := rfl
      rw [List.length_cons, List.foldlM_cons, List.flatMap_cons,
        ← List.append_assoc]
      by_cases hroom : bs.length + 4 ≤ capacity
      · obtain ⟨q, happend, hq⟩ := h.appendData (Packet.bytesOf word) hroom
        have hrest := ih hq
        rw [List.length_append, hfour] at hrest
        rw [Packet.append, Packet.appendAs, happend]
        rw [show bs.length + 4 * (words.length + 1) =
          bs.length + 4 + 4 * words.length from by omega]
        exact hrest
      · have hfails : rsp.append word = .error .assertFailed :=
          Packet.appendData_fails (by rw [hfour]; omega)
        rw [if_neg (by omega), hfails]
        rfl

/-- A handler that answers with some words. -/
private theorem replies_words (cmd : UInt8) (words : List UInt32)
    (debug : Option Bool) (hr : rsp.Holds capacity 0 []) :
    Replies capacity cmd (do
        let rsp ← words.foldlM Packet.append (rsp.setCommand cmd)
        return ⟨true, rsp, debug⟩)
      (some (words.flatMap Packet.bytesOf)) := by
  have hlen : (words.flatMap Packet.bytesOf).length = 4 * words.length := by
    induction words with
    | nil => rfl
    | cons word words ih =>
        have hfour : (Packet.bytesOf word).length = 4 := rfl
        rw [List.flatMap_cons, List.length_append, List.length_cons, ih, hfour]
        omega
  have hwords := append_words (hr.setCommand cmd) words
  rw [List.length_nil, Nat.zero_add, List.nil_append] at hwords
  rw [Replies, Option.getD_some, hlen]
  split at hwords
  · next hroom =>
      obtain ⟨q, happend, hq⟩ := hwords
      rw [if_pos hroom, happend]
      exact ⟨⟨true, q, debug⟩, rfl, rfl, hq⟩
  · next hroom =>
      rw [if_neg hroom, hwords]
      rfl

theorem handlePing_eq {cmd : Packet} {N : Nat} {c : UInt8}
    {data : List UInt8} (hc : cmd.Holds N c data)
    (hr : rsp.Holds capacity 0 []) :
    Replies capacity PING (handlePing cmd rsp) (some data) := by
  have hmax : (rsp.setCommand PING).maxDataLen = capacity := hr.maxDataLen
  rw [Replies, Option.getD_some, handlePing, hc.readData]
  split
  · next hroom =>
      obtain ⟨q, hset, hq⟩ := (rsp.setCommand PING).setData_holds data
        (by rw [hmax]; exact hroom)
      rw [hmax] at hq
      refine ⟨⟨true, q, none⟩, ?_, rfl, hq⟩
      simp only [bind, Except.bind, hset]
      rfl
  · next hroom =>
      have hset : (rsp.setCommand PING).setData data = .error .assertFailed :=
        Packet.setData_fails (by omega)
      simp only [bind, Except.bind, hset]

theorem handleDebug_eq {cmd : Packet} {N : Nat} {c : UInt8}
    {data : List UInt8} (env : Surroundings) (hc : cmd.Holds N c data)
    (hr : rsp.Holds capacity 0 []) :
    Replies capacity DEBUG (handleDebug env cmd rsp)
      (some (Packet.bytesOf (debugFlags env data))) := by
  obtain ⟨done, u, hunpack⟩ : ∃ done u, (Unpacker.new cmd).unpack env.flags =
      .ok (done, debugFlags env data, u) := Unpacker.unpack_new hc env.flags
  have hwords := replies_words DEBUG [debugFlags env data]
    (some (decide (debugFlags env data &&& 0x01 ≠ 0))) hr
  rw [handleDebug, hunpack]
  simp only [List.foldlM_cons, List.foldlM_nil, bind_assoc, pure_bind]
    at hwords
  exact hwords

theorem handleStackInfo_eq (env : Surroundings)
    (hr : rsp.Holds capacity 0 []) :
    Replies capacity STACK_INFO (handleStackInfo env rsp)
      (some (Packet.bytesOf env.stackSize ++
        Packet.bytesOf env.usedStackSpace ++
        Packet.bytesOf env.unusedStackSpace)) := by
  have hwords := replies_words STACK_INFO [env.stackSize, env.usedStackSpace,
    env.unusedStackSpace] none hr
  simp only [List.foldlM_cons, List.foldlM_nil, bind_assoc, pure_bind]
    at hwords
  exact hwords

theorem handleHeapInfo_eq (env : Surroundings)
    (hr : rsp.Holds capacity 0 []) :
    Replies capacity HEAP_INFO (handleHeapInfo env rsp)
      (some (Packet.bytesOf env.arena ++ Packet.bytesOf env.uordblks ++
        Packet.bytesOf env.fordblks ++ Packet.bytesOf env.ordblks ++
        Packet.bytesOf env.growthPotential)) := by
  have hwords := replies_words HEAP_INFO [env.arena, env.uordblks,
    env.fordblks, env.ordblks, env.growthPotential] none hr
  simp only [List.foldlM_cons, List.foldlM_nil, bind_assoc, pure_bind]
    at hwords
  exact hwords

/-- **The handler computes the reply**, into an empty response packet that has
room for it, and trips an assertion if it has not. -/
theorem handlePacket_eq {cmdPacket : Packet} {N : Nat} {cmd : UInt8}
    {data : List UInt8} (env : Surroundings)
    (hc : cmdPacket.Holds N cmd data) (hr : rsp.Holds capacity 0 []) :
    Replies capacity cmd (handlePacket env cmdPacket rsp)
      (reply env cmd data) := by
  rw [handlePacket, hc.command, reply]
  by_cases hping : cmd = PING
  · rw [if_pos hping, if_pos hping, hping]
    exact handlePing_eq hc hr
  · rw [if_neg hping, if_neg hping]
    by_cases hdebug : cmd = DEBUG
    · rw [if_pos hdebug, if_pos hdebug, hdebug]
      exact handleDebug_eq env hc hr
    · rw [if_neg hdebug, if_neg hdebug]
      by_cases hstack : cmd = STACK_INFO
      · rw [if_pos hstack, if_pos hstack, hstack]
        exact handleStackInfo_eq env hr
      · rw [if_neg hstack, if_neg hstack]
        by_cases hheap : cmd = HEAP_INFO
        · rw [if_pos hheap, if_pos hheap, hheap]
          exact handleHeapInfo_eq env hr
        · rw [if_neg hheap, if_neg hheap]
          have hnone : (0 : Nat) ≤ capacity := Nat.zero_le _
          rw [Replies, Option.getD_none, List.length_nil, if_pos hnone]
          exact ⟨⟨false, rsp, none⟩, rfl, rfl, hr⟩

end Handlers

/-! ## The device loop -/

/-- What the device writes in some surroundings for a command with its
data. -/
def answer (crc8 : UInt8 → UInt8 → UInt8) (env : Surroundings) (cmd : UInt8)
    (data : List UInt8) : List UInt8 :=
  match reply env cmd data with
  | some rsp => frame crc8 cmd rsp
  | none => []

/-- What the device writes on an answer of the receiver: the answer to an
accepted frame, and nothing else. -/
def writes (crc8 : UInt8 → UInt8 → UInt8) (env : Surroundings) :
    Verdict UInt8 → List UInt8
  | .accepted cmd data _ => answer crc8 env cmd data
  | _ => []

/-- The bus is in the device loop: its decoder is in a phase of the receiver,
the core handler is its only one, and responses fit. -/
structure Serving (capacity rspCapacity : Nat) (bus : Bus Surroundings)
    (ph : Phase UInt8) : Prop where
  tracks : bus.decoder.Tracks capacity ph
  handlers : bus.handlers = [handlePacket]
  rspPacket : bus.rspPacket.maxDataLen = rspCapacity

theorem Serving.called {capacity rspCapacity : Nat} {bus : Bus Surroundings}
    {ph : Phase UInt8} (h : Serving capacity rspCapacity bus ph) (r : Handled)
    (hr : r.rsp.maxDataLen = rspCapacity) :
    Serving capacity rspCapacity (bus.called r) ph where
  tracks := Bus.tracks_called h.tracks r
  handlers := (Bus.handlers_called bus r).trans h.handlers
  rspPacket := by
    rw [Bus.rspPacket_called]
    exact hr

section Loop

variable (crc8 : UInt8 → UInt8 → UInt8) {capacity rspCapacity : Nat}

/-- What handling a packet comes to: the answer to it is written and the
response packet keeps within its capacity, or an assertion is tripped. -/
def Handles (capacity rspCapacity : Nat) (ph : Phase UInt8)
    (env : Surroundings) (cmd : UInt8) (data : List UInt8)
    (call : Except Fault (Bool × List UInt8 × Bus Surroundings)) : Prop :=
  if replyLength cmd data ≤ rspCapacity then
    ∃ handled bus', call = .ok (handled, answer crc8 env cmd data, bus') ∧
      Serving capacity rspCapacity bus' ph ∧
      bus'.rspPacket.dataLen ≤ bus'.rspPacket.maxDataLen
  else call = .error .assertFailed

/-- Dispatching to the core handler, with an empty response packet. -/
private theorem dispatch_core {bus : Bus Surroundings} {ph : Phase UInt8}
    (h : Serving capacity rspCapacity bus ph) {cmd : UInt8}
    {data : List UInt8} (hc : bus.cmdPacket.Holds capacity cmd data)
    (hr : bus.rspPacket.Holds rspCapacity 0 []) (env : Surroundings)
    (byte : UInt8) :
    Handles crc8 capacity rspCapacity ph env cmd data
      (Bus.dispatch crc8 env byte [handlePacket] bus) := by
  have hreplies := handlePacket_eq env hc hr
  rw [Replies, length_reply] at hreplies
  rw [Handles, Bus.dispatch, answer]
  split at hreplies
  · next hroom =>
      obtain ⟨r, hcall, hgives⟩ := hreplies
      rw [if_pos hroom, hcall]
      simp only [bind, Except.bind]
      cases hreply : reply env cmd data with
      | some rsp =>
          rw [hreply] at hgives
          obtain ⟨hhandled, hholds⟩ := hgives
          have hserving := h.called r hholds.maxDataLen
          have hholds' : (bus.called r).rspPacket.Holds rspCapacity cmd rsp := by
            rw [Bus.rspPacket_called]
            exact hholds
          obtain ⟨q, encoder, hrespond, hq⟩ :=
            Bus.respond_eq crc8 hholds' (ne_zero_of_reply hreply) byte
          simp only [hhandled, if_true, hrespond]
          exact ⟨true, _, rfl,
            ⟨hserving.tracks, hserving.handlers, hq.maxDataLen⟩, hq.fits⟩
      | none =>
          rw [hreply] at hgives
          obtain ⟨hhandled, hholds⟩ := hgives
          simp only [hhandled, Bool.false_eq_true, if_false]
          refine ⟨false, _, rfl, h.called r hholds.maxDataLen, ?_⟩
          rw [Bus.rspPacket_called]
          exact hholds.fits
  · next hroom =>
      rw [if_neg hroom, hreplies]
      rfl

/-- **Handling a packet** writes the answer to it, if the reply fits. -/
theorem busHandlePacket_eq {bus : Bus Surroundings} {ph : Phase UInt8}
    (h : Serving capacity rspCapacity bus ph) {cmd : UInt8}
    {data : List UInt8} (hc : bus.cmdPacket.Holds capacity cmd data)
    (env : Surroundings) (byte : UInt8) :
    Handles crc8 capacity rspCapacity ph env cmd data
      (bus.handlePacket crc8 env byte) := by
  obtain ⟨q, hset, hq⟩ := (bus.rspPacket.setCommand 0).setData_holds []
    (Nat.zero_le _)
  have hmax : (bus.rspPacket.setCommand 0).maxDataLen = rspCapacity :=
    h.rspPacket
  rw [hmax] at hq
  have hserving : Serving capacity rspCapacity
      { bus with rspPacket := q } ph :=
    ⟨h.tracks, h.handlers, hq.maxDataLen⟩
  have hdispatch := dispatch_core crc8 hserving hc hq env byte
  rw [← h.handlers] at hdispatch
  rw [Bus.handlePacket, hset]
  exact hdispatch

/-- The reply to what the receiver answers fits. -/
def ReplyFits (rspCapacity : Nat) : Verdict UInt8 → Prop
  | .accepted cmd data _ => replyLength cmd data ≤ rspCapacity
  | _ => True

/-- **One round of the device loop** writes on the receiver's answer and goes
on, if the reply fits, and trips an assertion otherwise. -/
theorem serve_eq {bus : Bus Surroundings} {ph : Phase UInt8}
    (h : Serving capacity rspCapacity bus ph) (r : Bus.Round Surroundings) :
    (ReplyFits rspCapacity
        ((deviceReceiver crc8 capacity).machine.out ph r.received) →
      ∃ bus', bus.serve crc8 r = .ok (writes crc8 r.env
          ((deviceReceiver crc8 capacity).machine.out ph r.received), bus') ∧
        Serving capacity rspCapacity bus'
          ((deviceReceiver crc8 capacity).machine.next ph r.received) ∧
        (bus.rspPacket.dataLen ≤ bus.rspPacket.maxDataLen →
          bus'.rspPacket.dataLen ≤ bus'.rspPacket.maxDataLen)) ∧
      (¬ ReplyFits rspCapacity
          ((deviceReceiver crc8 capacity).machine.out ph r.received) →
        bus.serve crc8 r = .error .assertFailed) := by
  obtain ⟨err, decoder, hprocess, hreport, htracks, hholds⟩ :=
    Bus.processByte_eq crc8 h.tracks r.received
  have hserving : Serving capacity rspCapacity { bus with decoder }
      ((deviceReceiver crc8 capacity).step ph r.received).1 :=
    ⟨htracks, h.handlers, h.rspPacket⟩
  have herr := eq_errorCode hreport
  rw [Bus.serve, hprocess, Receiver.out_eq, Receiver.next_eq]
  simp only [bind, Except.bind]
  cases hverdict : ((deviceReceiver crc8 capacity).step ph r.received).2 with
  | accepted cmd data sum =>
      rw [hverdict] at herr
      have hhandles := busHandlePacket_eq crc8 hserving
        (hholds cmd data sum hverdict) r.env r.uninit
      rw [Handles] at hhandles
      rw [if_pos (show err = .none from herr)]
      constructor
      · intro hroom
        change replyLength cmd data ≤ rspCapacity at hroom
        rw [if_pos hroom] at hhandles
        obtain ⟨handled, bus', hhandle, hserving', hfits⟩ := hhandles
        rw [hhandle]
        exact ⟨bus', rfl, hserving', fun _ => hfits⟩
      · intro hroom
        change ¬ replyLength cmd data ≤ rspCapacity at hroom
        rw [if_neg hroom] at hhandles
        rw [hhandles]
  | _ =>
      rw [hverdict] at herr
      have hne : err ≠ .none := by
        rw [herr]
        decide
      rw [if_neg hne]
      exact ⟨fun _ => ⟨_, rfl, hserving, fun hfits => hfits⟩,
        fun hnot => absurd trivial hnot⟩

/-- What is accepted fits into the command packet with its CRC, so with room
for that many bytes, and for 20, every reply fits.  A command packet without
storage accepts nothing. -/
theorem replyFits_of_room {bus : Bus Surroundings} {ph : Phase UInt8}
    (h : Serving capacity rspCapacity bus ph)
    (hroom : capacity = 0 ∨ max 20 (capacity - 1) ≤ rspCapacity)
    (byte : UInt8) :
    ReplyFits rspCapacity
      ((deviceReceiver crc8 capacity).machine.out ph byte) := by
  cases hverdict : (deviceReceiver crc8 capacity).machine.out ph byte with
  | accepted cmd data sum =>
      have hbuf := (Receiver.step_accepted_iff _ _ _ _ _ _).mp hverdict
      have htracks := h.tracks
      rw [hbuf.2.1] at htracks
      have hlen := htracks.2.2.length_le
      rw [List.length_append, List.length_singleton] at hlen
      have hreply := replyLength_le cmd data
      show replyLength cmd data ≤ rspCapacity
      omega
  | _ => exact trivial

/-- With room for every reply, every round of the device loop goes through. -/
theorem serve_of_room (hroom : max 20 (capacity - 1) ≤ rspCapacity)
    {bus : Bus Surroundings} {ph : Phase UInt8}
    (h : Serving capacity rspCapacity bus ph) (r : Bus.Round Surroundings) :
    ∃ bus', bus.serve crc8 r = .ok (writes crc8 r.env
        ((deviceReceiver crc8 capacity).machine.out ph r.received), bus') ∧
      Serving capacity rspCapacity bus'
        ((deviceReceiver crc8 capacity).machine.next ph r.received) := by
  have hreply := replyFits_of_room crc8 h (.inr hroom) r.received
  obtain ⟨bus', hserve, hserving, _⟩ := (serve_eq crc8 h r).1 hreply
  exact ⟨bus', hserve, hserving⟩

/-- With room for every reply, the device loop writes on the receiver's
answers. -/
theorem drives (hroom : max 20 (capacity - 1) ≤ rspCapacity) :
    Drives (Bus.serve crc8) (deviceReceiver crc8 capacity).machine
      Bus.Round.received (Serving capacity rspCapacity)
      (fun verdict written => ∃ env, written = writes crc8 env verdict) where
  step := by
    intro bus ph r h
    obtain ⟨bus', hserve, hserving⟩ := serve_of_room crc8 hroom h r
    exact ⟨_, bus', hserve, ⟨r.env, rfl⟩, hserving⟩

/-- A new bus with the core handler is in the device loop. -/
theorem serving_new (cmdPacket rspPacket : Packet) (escapeChar : UInt8) :
    Serving cmdPacket.maxDataLen rspPacket.maxDataLen
      ((Bus.new cmdPacket rspPacket escapeChar).add handlePacket) .idle :=
  ⟨PacketDecoder.tracks_new cmdPacket, rfl, rfl⟩

end Loop

end CorePacketHandler

end DuinoBus.Cpp
