import DuinoBus.Link

/-!
# Resynchronisation

Arbitrary input, then frames that follow each other directly.  How many of
them are lost?

The host's decoder loses at most the first: both of its refusals leave it
ready for an opening `END`, so after any frame it is in step
(`host_resync`).  The device's decoder stays in its `DATA` state when it
refuses a frame.  It then takes the opening `END` of each frame for the
closing `END` of the one before, and whether it is ever in step again depends
on what it has buffered: `device_resync_iff` is the exact condition, on the
state it is in before the first frame ends.
-/

namespace DuinoBus.Resync

open DuinoBus.Wire
open DuinoBus.Verified
open DuinoBus.Link

/-! ## The host -/

private theorem host_ready (crc8 : UInt8 → UInt8 → UInt8) (ph : Phase UInt8)
    (cmd : UInt8) (body : List UInt8) :
    ((hostReceiver crc8 Py.Packet.MAX_DATA_LEN).machine.run ph
      (frame crc8 cmd body)).Ready :=
  (hostReceiver crc8 Py.Packet.MAX_DATA_LEN).ready_run_frame
    (fun _ => .inr rfl) (fun _ _ => .inl rfl) ph cmd body

/-- **The host loses at most one frame.**  After any bytes and any frame,
every frame that fits is read. -/
theorem host_resync (crc8 : UInt8 → UInt8 → UInt8) (pkt : Py.Packet)
    (s : List UInt8) (first : Sender) (rest : List Sender)
    (hroom : ∀ t ∈ rest, t.data.length ≤ Py.Packet.MAX_DATA_LEN - 1) :
    ∃ lost encoded, first.encode crc8 = .ok (.none, lost) ∧
      List.Forall₂ (fun t bytes => t.encode crc8 = .ok (.none, bytes))
        rest encoded ∧
      Py.PacketDecoder.decodeAfter crc8 pkt (s ++ lost) encoded.flatten =
        .ok ((rest.zip encoded).flatMap fun t => t.1.heard crc8 t.2) := by
  refine ⟨first.frame crc8, rest.map fun t => t.frame crc8,
    first.encode_eq crc8, ?_, ?_⟩
  · rw [List.forall₂_map_right_iff, List.forall₂_same]
    intro t _
    exact t.encode_eq crc8
  · have hready := host_ready crc8 ((hostReceiver crc8
      Py.Packet.MAX_DATA_LEN).machine.run .idle s) first.command first.data
    have hroom' : ∀ f ∈ rest.map fun t => (t.command, t.data),
        f.2.length + 1 ≤ (hostReceiver crc8
          Py.Packet.MAX_DATA_LEN).capacity := by
      intro f hf
      obtain ⟨t, hmem, rfl⟩ := List.mem_map.mp hf
      have hlen := hroom t hmem
      have hmax : Py.Packet.MAX_DATA_LEN = 256 := rfl
      show t.data.length + 1 ≤ Py.Packet.MAX_DATA_LEN
      omega
    have hout := ((hostReceiver crc8 Py.Packet.MAX_DATA_LEN).outputs_frames
      hready _ hroom').2
    have hbytes : (rest.map fun t => t.frame crc8).flatten =
        (hostReceiver crc8 Py.Packet.MAX_DATA_LEN).frames
          (rest.map fun t => (t.command, t.data)) := by
      rw [Receiver.frames, List.flatMap_map, ← List.flatMap_def]
      rfl
    rw [Py.PacketDecoder.decodeAfter_eq, Transducer.run_append, hbytes]
    show Except.ok (((hostReceiver crc8 Py.Packet.MAX_DATA_LEN).machine.outputs
      _ _).map report) = _
    rw [show first.frame crc8 = frame crc8 first.command first.data from rfl,
      hout, map_report_readsAll crc8 rfl, List.flatMap_map,
      ← List.map_prod_left_eq_zip, List.flatMap_map]
    rfl

/-- Line noise that ends inside an escape, a frame with an escaped byte, and
two frames after it. -/
theorem host_resync_noise :
    ∃ lost encoded,
      (Sender.py .new (.new 0x01 [END])).encode crc8Poly07 =
        .ok (.none, lost) ∧
      List.Forall₂ (fun t bytes => t.encode crc8Poly07 = .ok (.none, bytes))
        [Sender.py .new (.new 0x02 [0x07]), .py .new (.new ESC [])] encoded ∧
      Py.PacketDecoder.decodeAfter crc8Poly07 (.new 0 [])
        ([0x55, END, 0x01, ESC] ++ lost) encoded.flatten =
        .ok (([Sender.py .new (.new 0x02 [0x07]),
          .py .new (.new ESC [])].zip encoded).flatMap fun t =>
            t.1.heard crc8Poly07 t.2) :=
  host_resync crc8Poly07 (.new 0 []) [0x55, END, 0x01, ESC] _ _ (by decide)

/-! ## The device -/

/-- A closing `END` would not be refused: inside a frame, what is stored ends
in the CRC of the rest. -/
def Closes (crc8 : UInt8 → UInt8 → UInt8) (d : Cpp.PacketDecoder) : Prop :=
  d.state = .data → ∃ body sum, d.packet.payload = body ++ [sum] ∧
    sum = checksum crc8 d.packet.command body

/-- A decoder that tracks a settled phase closes if the phase does. -/
private theorem closes_iff (crc8 : UInt8 → UInt8 → UInt8) {capacity : Nat}
    {d : Cpp.PacketDecoder} {ph : Phase UInt8} (h : d.Tracks capacity ph)
    (hph : ph.Settled) :
    Closes crc8 d ↔ ∀ cmd buf, ph = .body false cmd buf →
      ∃ body sum, buf = body ++ [sum] ∧ sum = checksum crc8 cmd body := by
  rcases hph with (rfl | rfl) | ⟨cmd, buf, rfl⟩
  · have hstate : d.state ≠ .data := by rw [h.1]; decide
    exact ⟨fun _ _ _ hbody => (by cases hbody),
      fun _ hdata => absurd hdata hstate⟩
  · have hstate : d.state ≠ .data := by rw [h.1]; decide
    exact ⟨fun _ _ _ hbody => (by cases hbody),
      fun _ hdata => absurd hdata hstate⟩
  · obtain ⟨hstate, _, hp⟩ := h
    rw [Closes, hp.payload, hp.command]
    constructor
    · intro hcloses cmd buf hbody
      cases hbody
      exact hcloses hstate
    · intro hcloses _
      exact hcloses cmd buf rfl

/-- After any bytes and one frame the device's receiver is settled, and ready
if its decoder would have closed that frame. -/
private theorem settled_and_ready_iff (crc8 : UInt8 → UInt8 → UInt8)
    {capacity : Nat} {d : Cpp.PacketDecoder} {s : List UInt8}
    {first : UInt8 × List UInt8}
    (htracks : d.Tracks capacity ((deviceReceiver crc8 capacity).machine.run
      .idle (s ++ (frame crc8 first.1 first.2).dropLast))) :
    ((deviceReceiver crc8 capacity).machine.run .idle
        (s ++ frame crc8 first.1 first.2)).Settled ∧
      (((deviceReceiver crc8 capacity).machine.run .idle
        (s ++ frame crc8 first.1 first.2)).Ready ↔ Closes crc8 d) := by
  have hshort : ∀ c, ((deviceReceiver crc8 capacity).afterShort c).Settled :=
    fun c => .inr ⟨c, [], rfl⟩
  have hmismatch : ∀ c b, ((deviceReceiver crc8 capacity).afterMismatch c
      b).Settled := fun c b => .inr ⟨c, b, rfl⟩
  have hopening := (deviceReceiver crc8 capacity).settled_run_opening hshort
    hmismatch ((deviceReceiver crc8 capacity).machine.run .idle s) first.1
    first.2
  rw [Transducer.run_append] at htracks ⊢
  constructor
  · exact (deviceReceiver crc8 capacity).settled_run_frame hshort hmismatch _
      first.1 first.2
  · rw [closes_iff crc8 htracks hopening, show frame crc8 first.1 first.2 =
      (deviceReceiver crc8 capacity).frame first.1 first.2 from rfl,
      Receiver.run_frame_dropLast]
    exact (deviceReceiver crc8 capacity).ready_next_fin_iff
      (fun c => Phase.not_ready_body false c [])
      (fun c b => Phase.not_ready_body false c b) hopening

/-- **When the device loses only one frame.**  After any bytes and one frame,
the frames that follow are read if and only if there are none, or the first
frame was not refused at its closing `END`. -/
theorem device_resync_iff (crc8 : UInt8 → UInt8 → UInt8)
    (packet : Cpp.Packet) (s : List UInt8) (first : UInt8 × List UInt8)
    (rest : List (UInt8 × List UInt8))
    (hroom : ∀ f ∈ rest, f.2.length + 1 ≤ packet.maxDataLen) :
    Cpp.PacketDecoder.decodeAfter crc8 packet
        (s ++ frame crc8 first.1 first.2)
        (rest.flatMap fun f => frame crc8 f.1 f.2) =
      .ok (rest.flatMap fun f => readsFrame crc8 f.1 f.2) ↔
    rest = [] ∨ ∃ d, Cpp.PacketDecoder.after crc8 packet
        (s ++ (frame crc8 first.1 first.2).dropLast) = .ok d ∧
      Closes crc8 d := by
  obtain ⟨d, hafter, htracks⟩ := Cpp.PacketDecoder.after_eq crc8 packet
    (s ++ (frame crc8 first.1 first.2).dropLast)
  obtain ⟨hsettled, hready⟩ := settled_and_ready_iff crc8 htracks
  have hread := (deviceReceiver crc8 packet.maxDataLen).outputs_frames_iff
    hsettled rest hroom
  rw [Cpp.PacketDecoder.decodeAfter_eq, ← map_report_readsAll crc8
    (R := deviceReceiver crc8 packet.maxDataLen) rfl, Except.ok.injEq,
    List.map_inj_right fun v w => report_injective]
  rw [show (rest.flatMap fun f => frame crc8 f.1 f.2) = (deviceReceiver crc8
    packet.maxDataLen).frames rest from rfl, hread, hready]
  constructor
  · rintro (hnil | hcloses)
    · exact .inl hnil
    · exact .inr ⟨d, hafter, hcloses⟩
  · rintro (hnil | ⟨d', hafter', hcloses⟩)
    · exact .inl hnil
    · rw [hafter] at hafter'
      cases hafter'
      exact .inr hcloses

/-- After a frame that lacks its closing `END`, the device loses one frame and
reads the next. -/
theorem device_resync_noise :
    Cpp.PacketDecoder.decodeAfter crc8Poly07 (.new [0, 0] 0)
        ([END, 0x01, 0x07] ++ frame crc8Poly07 0x02 [0x05])
        ([(0x03, [0x06])].flatMap fun f => frame crc8Poly07 f.1 f.2) =
      .ok ([(0x03, [0x06])].flatMap fun f => readsFrame crc8Poly07 f.1 f.2) ↔
    [((0x03 : UInt8), [(0x06 : UInt8)])] = [] ∨
      ∃ d, Cpp.PacketDecoder.after crc8Poly07 (.new [0, 0] 0)
        ([END, 0x01, 0x07] ++ (frame crc8Poly07 0x02 [0x05]).dropLast) = .ok d ∧
      Closes crc8Poly07 d :=
  device_resync_iff crc8Poly07 (.new [0, 0] 0) [END, 0x01, 0x07] (0x02, [0x05])
    [(0x03, [0x06])] (by decide)

/-- After a frame that is too small, the device reads none of two good
frames. -/
theorem device_resync_fails :
    ¬ ∀ (packet : Cpp.Packet) (s : List UInt8) (first : UInt8 × List UInt8)
      (rest : List (UInt8 × List UInt8)),
      (∀ f ∈ first :: rest, f.2.length + 1 ≤ packet.maxDataLen) →
      Cpp.PacketDecoder.decodeAfter crc8Poly07 packet
          (s ++ frame crc8Poly07 first.1 first.2)
          (rest.flatMap fun f => frame crc8Poly07 f.1 f.2) =
        .ok (rest.flatMap fun f => readsFrame crc8Poly07 f.1 f.2) := by
  intro h
  have hread := h (.new (List.replicate 16 0) 0) [END, 0x01, END] (0x01, [])
    [(0x01, [])] (by decide)
  exact absurd hread (by decide +kernel)

end DuinoBus.Resync
