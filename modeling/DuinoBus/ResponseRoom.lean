import DuinoBus.Cpp.CorePacketHandler

/-!
# Room for the responses

The decoder asks for space before it stores a byte.  The handlers do not:
they append to the response packet, and `appendData` asserts that the bytes
fit.  Whether the assertion holds is up to whoever sends the commands.

`never_asserts_iff` is the exact condition on the commands that the decoder
accepts, and `always_up_iff` the one on the two capacities under which no
input at all trips an assertion.
-/

namespace DuinoBus.ResponseRoom

open DuinoBus.Wire
open DuinoBus.Verified
open DuinoBus.Cpp
open DuinoBus.Cpp.CorePacketHandler

/-- The device loop trips no assertion, whenever it is looked at, and its
response packet keeps within its capacity. -/
def NeverAsserts (crc8 : UInt8 → UInt8 → UInt8) (bus : Bus Surroundings)
    (rounds : List (Bus.Round Surroundings)) : Prop :=
  ∀ front, front <+: rounds →
    bus.serveAll crc8 front ≠ .error .assertFailed ∧
      ∀ written bus', bus.serveAll crc8 front = .ok (written, bus') →
        bus'.rspPacket.dataLen ≤ bus'.rspPacket.maxDataLen

/-- The bus is in the device loop, with a response packet within bounds. -/
def Within (capacity rspCapacity : Nat) (bus : Bus Surroundings)
    (ph : Phase UInt8) : Prop :=
  Serving capacity rspCapacity bus ph ∧
    bus.rspPacket.dataLen ≤ bus.rspPacket.maxDataLen

theorem within_new {cmdPacket rspPacket : Packet} (escapeChar : UInt8)
    (hfits : rspPacket.dataLen ≤ rspPacket.maxDataLen) :
    Within cmdPacket.maxDataLen rspPacket.maxDataLen
      ((Bus.new cmdPacket rspPacket escapeChar).add handlePacket) .idle :=
  ⟨serving_new cmdPacket rspPacket escapeChar, hfits⟩

section Loop

variable (crc8 : UInt8 → UInt8 → UInt8)

/-- Rounds that were served tripped no assertion. -/
private theorem served_within {capacity rspCapacity : Nat}
    {bus bus' : Bus Surroundings} {rounds : List (Bus.Round Surroundings)}
    {written : List (List UInt8)} {ph : Phase UInt8}
    (hserve : bus.serveAll crc8 rounds = .ok (written, bus'))
    (hwithin : Within capacity rspCapacity bus' ph) :
    bus.serveAll crc8 rounds ≠ .error .assertFailed ∧
      ∀ written bus', bus.serveAll crc8 rounds = .ok (written, bus') →
        bus'.rspPacket.dataLen ≤ bus'.rspPacket.maxDataLen := by
  rw [hserve]
  constructor
  · intro herror
    cases herror
  · intro written' bus'' hok
    cases hok
    exact hwithin.2

/-- The loop goes on while the replies fit. -/
theorem drivesWhile (capacity rspCapacity : Nat) :
    DrivesWhile (Bus.serve crc8) (deviceReceiver crc8 capacity).machine
      Bus.Round.received (Within capacity rspCapacity)
      (ReplyFits rspCapacity) .assertFailed where
  step_ok := by
    intro bus ph r h hreply
    obtain ⟨bus', hserve, hserving, hfits⟩ := (serve_eq crc8 h.1 r).1 hreply
    exact ⟨_, bus', hserve, hserving, hfits h.2⟩
  step_error := by
    intro bus ph r h hreply
    exact (serve_eq crc8 h.1 r).2 hreply

/-- Every reply to the answers of a receiver fits exactly if it does for the
packets that a decoder reports. -/
private theorem replyFits_iff {rspCapacity : Nat}
    {verdicts : List (Verdict UInt8)} :
    (∀ v ∈ verdicts, ReplyFits rspCapacity v) ↔
      ∀ cmd data sum, .packet cmd data sum ∈ verdicts.map report →
        replyLength cmd data ≤ rspCapacity := by
  constructor
  · intro h cmd data sum hmem
    obtain ⟨v, hv, hreport⟩ := List.mem_map.mp hmem
    have hverdict : v = .accepted cmd data sum := report_injective hreport
    subst hverdict
    exact h _ hv
  · intro h v hv
    cases v with
    | accepted cmd data sum => exact h cmd data sum (List.mem_map_of_mem hv)
    | pending => exact trivial
    | mismatch => exact trivial
    | short => exact trivial
    | overflow => exact trivial

/-- **When the device trips no assertion.**  In every run of the device loop,
no assertion fails and the response stays within its capacity if and only if
the response to every packet that the decoder accepts fits. -/
theorem never_asserts_iff (cmdPacket rspPacket : Packet) (escapeChar : UInt8)
    (hfits : rspPacket.dataLen ≤ rspPacket.maxDataLen)
    (rounds : List (Bus.Round Surroundings)) :
    NeverAsserts crc8
        ((Bus.new cmdPacket rspPacket escapeChar).add handlePacket) rounds ↔
      ∀ reports d, (PacketDecoder.new cmdPacket).decodeAll crc8
          (rounds.map Bus.Round.received) = .ok (reports, d) →
        ∀ cmd data sum, .packet cmd data sum ∈ reports →
          replyLength cmd data ≤ rspPacket.maxDataLen := by
  have hstart := @within_new cmdPacket rspPacket escapeChar hfits
  have hdrives := drivesWhile crc8 cmdPacket.maxDataLen rspPacket.maxDataLen
  obtain ⟨d, hdecode, _⟩ := PacketDecoder.decodeAll_eq crc8
    cmdPacket.maxDataLen (PacketDecoder.tracks_new cmdPacket)
    (rounds.map Bus.Round.received)
  constructor
  · intro hnever reports d' hreports
    rw [hdecode] at hreports
    cases hreports
    apply replyFits_iff.mp
    by_contra hforbidden
    exact (hnever rounds (List.prefix_refl _)).1
      (hdrives.feed_error hstart hforbidden)
  · intro hreply front hprefix
    have hall := replyFits_iff.mpr (hreply _ d hdecode)
    have hfront : ∀ v ∈ (deviceReceiver crc8
        cmdPacket.maxDataLen).machine.outputs .idle
          (front.map Bus.Round.received),
        ReplyFits rspPacket.maxDataLen v := by
      intro v hv
      apply hall
      obtain ⟨back, rfl⟩ := hprefix
      rw [List.map_append, Transducer.outputs_append]
      exact List.mem_append_left _ hv
    obtain ⟨written, bus, hserve, hwithin⟩ := hdrives.feed_ok hstart hfront
    exact served_within crc8 hserve hwithin

/-- With enough room the loop always goes on. -/
private theorem drives_of_room {capacity rspCapacity : Nat}
    (hroom : capacity = 0 ∨ max 20 (capacity - 1) ≤ rspCapacity) :
    Drives (Bus.serve crc8) (deviceReceiver crc8 capacity).machine
      Bus.Round.received (Within capacity rspCapacity)
      (fun _ _ => True) where
  step := by
    intro bus ph r h
    have hreply := replyFits_of_room crc8 h.1 hroom r.received
    obtain ⟨written, bus', hserve, hwithin⟩ :=
      (drivesWhile crc8 capacity rspCapacity).step_ok bus ph r h hreply
    exact ⟨written, bus', hserve, trivial, hwithin⟩

/-- A frame whose reply does not fit trips an assertion. -/
private theorem replyLength_le_of_neverAsserts {cmdPacket rspPacket : Packet}
    {escapeChar : UInt8} (hfits : rspPacket.dataLen ≤ rspPacket.maxDataLen)
    (env : Surroundings)
    (h : ∀ rounds, NeverAsserts crc8
      ((Bus.new cmdPacket rspPacket escapeChar).add handlePacket) rounds)
    (cmd : UInt8) {data : List UInt8}
    (hroom : data.length + 1 ≤ cmdPacket.maxDataLen) :
    replyLength cmd data ≤ rspPacket.maxDataLen := by
  let rounds : List (Bus.Round Surroundings) :=
    (frame crc8 cmd data).map fun byte => ⟨byte, env, 0⟩
  have hreceived : rounds.map Bus.Round.received = frame crc8 cmd data := by
    rw [List.map_map]
    exact List.map_id _
  have hstart := @within_new cmdPacket rspPacket escapeChar hfits
  have hread := ((deviceReceiver crc8 cmdPacket.maxDataLen).run_frame
    (.inl rfl) cmd data hroom).2
  by_contra hlong
  apply (h rounds rounds (List.prefix_refl _)).1
  apply (drivesWhile crc8 _ _).feed_error hstart
  rw [hreceived, show frame crc8 cmd data = (deviceReceiver crc8
    cmdPacket.maxDataLen).frame cmd data from rfl, hread]
  intro hall
  exact hlong (hall _ (List.mem_append_right _ List.mem_cons_self))

/-- **Capacities that suffice.**  Nothing that is received trips an assertion
if and only if the command packet has no storage, or the response packet has
room for 20 bytes and for all data that the command packet can hold. -/
theorem always_up_iff (cmdPacket rspPacket : Packet) (escapeChar : UInt8)
    (hfits : rspPacket.dataLen ≤ rspPacket.maxDataLen) (env : Surroundings) :
    (∀ rounds, NeverAsserts crc8
        ((Bus.new cmdPacket rspPacket escapeChar).add handlePacket) rounds) ↔
      cmdPacket.maxDataLen = 0 ∨
        max 20 (cmdPacket.maxDataLen - 1) ≤ rspPacket.maxDataLen := by
  constructor
  · intro h
    by_cases hzero : cmdPacket.maxDataLen = 0
    · exact .inl hzero
    · have hheap : replyLength HEAP_INFO [] ≤ rspPacket.maxDataLen :=
        replyLength_le_of_neverAsserts crc8 hfits env h HEAP_INFO
          (by rw [List.length_nil]; omega)
      have hping : replyLength PING (List.replicate
          (cmdPacket.maxDataLen - 1) 0) ≤ rspPacket.maxDataLen :=
        replyLength_le_of_neverAsserts crc8 hfits env h PING
          (by rw [List.length_replicate]; omega)
      have hheap' : replyLength HEAP_INFO [] = 20 := by decide
      rw [replyLength, if_pos rfl, List.length_replicate] at hping
      omega
  · intro hroom rounds front _
    obtain ⟨written, bus, hserve, _, hwithin⟩ :=
      (drives_of_room crc8 hroom).feed_eq (within_new escapeChar hfits) front
    exact served_within crc8 hserve hwithin

end Loop

/-- Surroundings that count nothing. -/
def noSurroundings : Surroundings := ⟨0, 0, 0, 0, 0, 0, 0, 0, 0⟩

/-- The rounds of a device that receives some bytes. -/
def roundsOf (bytes : List UInt8) : List (Bus.Round Surroundings) :=
  bytes.map fun byte => ⟨byte, noSurroundings, 0⟩

/-- A `PING` with two bytes, with room for two. -/
theorem never_asserts_iff_ping :
    NeverAsserts crc8Poly07 ((Bus.new (.new [0, 0, 0] 0) (.new [0, 0] 0)
        0).add handlePacket) (roundsOf (frame crc8Poly07 PING [END, 0x07])) ↔
      ∀ reports d, (PacketDecoder.new (.new [0, 0, 0] 0)).decodeAll crc8Poly07
          ((roundsOf (frame crc8Poly07 PING [END, 0x07])).map
            Bus.Round.received) = .ok (reports, d) →
        ∀ cmd data sum, .packet cmd data sum ∈ reports →
          replyLength cmd data ≤ 2 :=
  never_asserts_iff crc8Poly07 (.new [0, 0, 0] 0) (.new [0, 0] 0) 0
    (Nat.zero_le _) (roundsOf (frame crc8Poly07 PING [END, 0x07]))

/-- A `HEAP_INFO` command trips an assertion on a device with 16 bytes for its
responses. -/
theorem never_asserts_fails :
    ¬ ∀ (cmdPacket rspPacket : Packet) (rounds : List (Bus.Round Surroundings)),
      rspPacket.dataLen ≤ rspPacket.maxDataLen →
      NeverAsserts crc8Poly07
        ((Bus.new cmdPacket rspPacket 0).add handlePacket) rounds := by
  intro h
  have hnever := h (.new (List.replicate 16 0) 0) (.new (List.replicate 16 0) 0)
    (roundsOf (frame crc8Poly07 HEAP_INFO [])) (Nat.zero_le _)
  exact (hnever _ (List.prefix_refl _)).1 rfl

end DuinoBus.ResponseRoom
