import DuinoBus.Cpp.CorePacketHandler
import DuinoBus.Link

/-!
# The device answers

A bus whose only handler is the core handler, in the device loop, fed frames
that follow each other: every command that the handler knows is answered with
one frame under the same command, in order, and nothing else is written
(`device_answers`).
-/

namespace DuinoBus.Device

open DuinoBus.Wire
open DuinoBus.Verified
open DuinoBus.Link
open DuinoBus.Cpp
open DuinoBus.Cpp.CorePacketHandler

/-- A command has its one answer: a frame that every listener with room for
it reads as a packet under the same command, and that repeats a `PING`; or
nothing, when the command is not one of the handler's. -/
def Answered (crc8 : UInt8 → UInt8 → UInt8) (cmd : UInt8)
    (data answer : List UInt8) : Prop :=
  if cmd ∈ [PING, DEBUG, STACK_INFO, HEAP_INFO] then
    (∃ rsp, answer = frame crc8 cmd rsp ∧
      ∀ l : Listener, rsp.length + 1 ≤ l.capacity →
        l.decode crc8 answer = .ok (readsFrame crc8 cmd rsp)) ∧
      (cmd = PING → answer = frame crc8 cmd data)
  else answer = []

/-- A listener with room reads a frame. -/
private theorem decode_frame (crc8 : UInt8 → UInt8 → UInt8) (l : Listener)
    {cmd : UInt8} {data : List UInt8} (hroom : data.length + 1 ≤ l.capacity) :
    l.decode crc8 (frame crc8 cmd data) = .ok (readsFrame crc8 cmd data) := by
  have hframing := l.receiver_toFraming crc8
  have hread := ((l.receiver crc8).run_frame (.inl rfl) cmd data
    (by rw [l.receiver_capacity]; exact hroom)).2
  rw [hframing] at hread
  rw [l.decode_eq, show frame crc8 cmd data = (framing crc8).frame cmd data
    from rfl, hread, map_report_reads]

theorem answered_answer (crc8 : UInt8 → UInt8 → UInt8) (env : Surroundings)
    (cmd : UInt8) (data : List UInt8) :
    Answered crc8 cmd data (answer crc8 env cmd data) := by
  have hsome := reply_isSome_iff env cmd data
  unfold Answered answer
  cases hreply : reply env cmd data with
  | none =>
      rw [hreply] at hsome
      rw [if_neg fun hmem => by simpa using hsome.mpr hmem]
  | some rsp =>
      rw [hreply] at hsome
      rw [if_pos (hsome.mp rfl)]
      refine ⟨⟨rsp, rfl, fun l hroom => decode_frame crc8 l hroom⟩, ?_⟩
      rintro rfl
      rw [reply_ping] at hreply
      rw [Option.some.inj hreply]

/-- On an answer of the receiver, the device writes what it does in some
surroundings. -/
def Writes (crc8 : UInt8 → UInt8 → UInt8) (verdict : Verdict UInt8)
    (written : List UInt8) : Prop :=
  ∃ env, written = writes crc8 env verdict

/-- While more input is wanted, the device writes nothing. -/
private theorem flatten_of_pending (crc8 : UInt8 → UInt8 → UInt8) (n : Nat)
    (written : List (List UInt8))
    (h : List.Forall₂ (Writes crc8) (List.replicate n .pending) written) :
    written.flatten = [] := by
  induction n generalizing written with
  | zero =>
      cases h
      rfl
  | succ n ih =>
      cases h with
      | cons hfirst hrest =>
          obtain ⟨env, rfl⟩ := hfirst
          rw [List.flatten_cons, ih _ hrest]
          rfl

/-- On the answers to a frame that is read, the device writes the answer to
its command. -/
private theorem answers_of_reads (crc8 : UInt8 → UInt8 → UInt8) (cmd : UInt8)
    (data : List UInt8) (written : List (List UInt8))
    (h : List.Forall₂ (Writes crc8) ((framing crc8).reads cmd data) written) :
    ∃ env, written.flatten = answer crc8 env cmd data := by
  have hpending := List.forall₂_take ((frame crc8 cmd data).length - 1) h
  have haccepted := List.forall₂_drop ((frame crc8 cmd data).length - 1) h
  rw [Framing.reads, List.take_left' (by rw [List.length_replicate]; rfl)]
    at hpending
  rw [Framing.reads, List.drop_left' (by rw [List.length_replicate]; rfl)]
    at haccepted
  have hquiet := flatten_of_pending crc8 _ _ hpending
  rw [← List.take_append_drop ((frame crc8 cmd data).length - 1) written,
    List.flatten_append, hquiet, List.nil_append]
  generalize written.drop ((frame crc8 cmd data).length - 1) = last
    at haccepted ⊢
  cases haccepted with
  | cons hfirst hrest =>
      cases hrest
      rw [List.flatten_cons, List.flatten_nil, List.append_nil]
      exact hfirst

/-- On the answers to frames that are all read, the device writes the answers
to their commands. -/
private theorem answers_of_readsAll (crc8 : UInt8 → UInt8 → UInt8)
    {capacity : Nat} (fs : List (UInt8 × List UInt8))
    (written : List (List UInt8))
    (h : List.Forall₂ (Writes crc8)
      ((deviceReceiver crc8 capacity).readsAll fs) written) :
    ∃ answers, written.flatten = answers.flatten ∧
      List.Forall₂ (fun f written => ∃ env, written = answer crc8 env f.1 f.2)
        fs answers := by
  induction fs generalizing written with
  | nil =>
      cases h
      exact ⟨[], rfl, .nil⟩
  | cons f fs ih =>
      let n := ((framing crc8).reads f.1 f.2).length
      have hsplit : (deviceReceiver crc8 capacity).readsAll (f :: fs) =
          (framing crc8).reads f.1 f.2 ++
            (deviceReceiver crc8 capacity).readsAll fs := by
        rw [Receiver.readsAll, List.flatMap_cons]
        rfl
      rw [hsplit] at h
      have hfirst := List.forall₂_take n h
      have hrest := List.forall₂_drop n h
      rw [List.take_left] at hfirst
      rw [List.drop_left] at hrest
      obtain ⟨answers, hflatten, hanswers⟩ := ih _ hrest
      refine ⟨(written.take n).flatten :: answers, ?_,
        .cons (answers_of_reads crc8 f.1 f.2 _ hfirst) hanswers⟩
      rw [List.flatten_cons, ← hflatten, ← List.flatten_append,
        List.take_append_drop]

/-- **The device answers each command once, in order.**  Whatever the frames
carry and whatever the surroundings are, the bytes written are the answers to
the commands, one after the other. -/
theorem device_answers (crc8 : UInt8 → UInt8 → UInt8)
    (cmdPacket rspPacket : Packet) (escapeChar : UInt8)
    (hrsp : max 20 (cmdPacket.maxDataLen - 1) ≤ rspPacket.maxDataLen)
    (fs : List (UInt8 × List UInt8))
    (hroom : ∀ f ∈ fs, f.2.length + 1 ≤ cmdPacket.maxDataLen)
    (rounds : List (Bus.Round Surroundings))
    (hreceived : rounds.map Bus.Round.received =
      fs.flatMap fun f => frame crc8 f.1 f.2) :
    ∃ written bus answers,
      ((Bus.new cmdPacket rspPacket escapeChar).add handlePacket).serveAll
        crc8 rounds = .ok (written, bus) ∧
      written.flatten = answers.flatten ∧
      List.Forall₂ (fun f answer => Answered crc8 f.1 f.2 answer)
        fs answers := by
  obtain ⟨written, bus, hserve, hwrites, _⟩ := (drives crc8 hrsp).feed_eq
    (serving_new cmdPacket rspPacket escapeChar) rounds
  have hread := ((deviceReceiver crc8 cmdPacket.maxDataLen).outputs_frames
    (.inl rfl) fs hroom).2
  rw [hreceived, show (fs.flatMap fun f => frame crc8 f.1 f.2) =
    (deviceReceiver crc8 cmdPacket.maxDataLen).frames fs from rfl, hread]
    at hwrites
  obtain ⟨answers, hflatten, hanswers⟩ :=
    answers_of_readsAll crc8 fs written hwrites
  refine ⟨written, bus, answers, hserve, hflatten, hanswers.imp ?_⟩
  rintro f _ ⟨env, rfl⟩
  exact answered_answer crc8 env f.1 f.2

/-- A `PING` that needs escapes, a command that is not the handler's, and a
`DEBUG` that switches debug on. -/
theorem device_answers_threeCommands :
    ∃ written bus answers,
      ((Bus.new (.new (List.replicate 16 0) 0) (.new (List.replicate 20 0) 0)
        0).add handlePacket).serveAll crc8Poly07
          (([(PING, [END]), (0x10, [7]), (DEBUG, [1, 0, 0, 0])].flatMap fun f =>
            frame crc8Poly07 f.1 f.2).map fun byte =>
              ⟨byte, ⟨0, 0, 0, 0, 0, 0, 0, 0, 0⟩, 0⟩) = .ok (written, bus) ∧
      written.flatten = answers.flatten ∧
      List.Forall₂ (fun f answer => Answered crc8Poly07 f.1 f.2 answer)
        [(PING, [END]), (0x10, [7]), (DEBUG, [1, 0, 0, 0])] answers :=
  device_answers crc8Poly07 (.new (List.replicate 16 0) 0)
    (.new (List.replicate 20 0) 0) 0 (by decide) _ (by decide) _
    (List.map_map.trans (List.map_id _))

end DuinoBus.Device
