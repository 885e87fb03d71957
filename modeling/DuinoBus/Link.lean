import DuinoBus.Cpp.PacketDecoder
import DuinoBus.Cpp.PacketEncoder
import DuinoBus.Py.PacketDecoder
import DuinoBus.Py.PacketEncoder

/-!
# The link between the two implementations

Either side can send, either side can listen.  A `Sender` is an encoder of
one of them, in any state, with a packet to send; a `Listener` is a new
decoder of one of them.

`Sender.encode_eq` and `Listener.decode_eq` put both sides on common ground:
what is sent is the frame of the packet, and what is heard are the answers of
a receiver.  `round_trip` is their composition over whole streams.
-/

namespace DuinoBus.Link

open DuinoBus.Wire
open DuinoBus.Verified

/-- An encoder in any state and a packet that it is given. -/
inductive Sender where
  /-- The device's; `byte` is what the caller's variable contains. -/
  | cpp (encoder : Cpp.PacketEncoder) (packet : Cpp.Packet)
      (fits : packet.dataLen ≤ packet.maxDataLen) (byte : UInt8)
  /-- The host's. -/
  | py (encoder : Py.PacketEncoder) (pkt : Py.Packet)

namespace Sender

def command : Sender → UInt8
  | .cpp _ packet _ _ => packet.command
  | .py _ pkt => pkt.cmd

def data : Sender → List UInt8
  | .cpp _ packet _ _ => packet.payload
  | .py _ pkt => pkt.data

/-- The last result of the encoder, and the bytes of its calls. -/
def encode (crc8 : UInt8 → UInt8 → UInt8) :
    Sender → Except Fault (ErrorCode × List UInt8)
  | .cpp encoder packet _ byte => do
      let (err, bytes, _) ← encoder.encode crc8 packet byte
      return (err, bytes)
  | .py encoder pkt => do
      let (err, bytes, _) ← encoder.encode crc8 pkt
      return (err, bytes)

/-- The frame of the packet. -/
def frame (crc8 : UInt8 → UInt8 → UInt8) (s : Sender) : List UInt8 :=
  Wire.frame crc8 s.command s.data

/-- **Every sender sends the frame of its packet.** -/
theorem encode_eq (crc8 : UInt8 → UInt8 → UInt8) (s : Sender) :
    s.encode crc8 = .ok (.none, s.frame crc8) := by
  cases s with
  | cpp encoder packet fits byte =>
      obtain ⟨q, e', hencode, _⟩ := Cpp.PacketEncoder.encode_eq crc8 encoder
        (Cpp.Packet.holds_self fits) byte
      show (do let (err, bytes, _) ← encoder.encode crc8 packet byte
               return (err, bytes)) = _
      rw [hencode]
      rfl
  | py encoder pkt =>
      obtain ⟨e', hencode⟩ := Py.PacketEncoder.encode_eq crc8 encoder pkt
      show (do let (err, bytes, _) ← encoder.encode crc8 pkt
               return (err, bytes)) = _
      rw [hencode]
      rfl

/-- What is heard of a packet that was sent as `bytes`: `NOT_DONE` up to the
last of them, and the packet there. -/
def heard (crc8 : UInt8 → UInt8 → UInt8) (s : Sender)
    (bytes : List UInt8) : List Report :=
  List.replicate (bytes.length - 1) (.code .notDone) ++
    [.packet s.command s.data (checksum crc8 s.command s.data)]

theorem heard_frame (crc8 : UInt8 → UInt8 → UInt8) (s : Sender) :
    s.heard crc8 (s.frame crc8) = readsFrame crc8 s.command s.data := rfl

end Sender

/-- A new decoder, over any packet. -/
inductive Listener where
  /-- The device's. -/
  | cpp (packet : Cpp.Packet)
  /-- The host's. -/
  | py (pkt : Py.Packet)

namespace Listener

/-- The number of bytes a listener can store behind the command. -/
def capacity : Listener → Nat
  | .cpp packet => packet.maxDataLen
  | .py _ => Py.Packet.MAX_DATA_LEN

/-- What is seen of the decoder after each of the bytes. -/
def decode (crc8 : UInt8 → UInt8 → UInt8) :
    Listener → List UInt8 → Except Fault (List Report)
  | .cpp packet, bytes => do
      let (reports, _) ← (Cpp.PacketDecoder.new packet).decodeAll crc8 bytes
      return reports
  | .py pkt, bytes => do
      let (reports, _) ← (Py.PacketDecoder.new pkt).decodeAll crc8 bytes
      return reports

/-- The abstract receiver behind a listener. -/
def receiver (crc8 : UInt8 → UInt8 → UInt8) : Listener → Receiver UInt8
  | .cpp packet => deviceReceiver crc8 packet.maxDataLen
  | .py _ => hostReceiver crc8 Py.Packet.MAX_DATA_LEN

theorem receiver_toFraming (crc8 : UInt8 → UInt8 → UInt8) (l : Listener) :
    (l.receiver crc8).toFraming = framing crc8 := by cases l <;> rfl

theorem receiver_capacity (crc8 : UInt8 → UInt8 → UInt8) (l : Listener) :
    (l.receiver crc8).capacity = l.capacity := by cases l <;> rfl

/-- **Every listener hears what its receiver answers.** -/
theorem decode_eq (crc8 : UInt8 → UInt8 → UInt8) (l : Listener)
    (bytes : List UInt8) :
    l.decode crc8 bytes =
      .ok (((l.receiver crc8).machine.outputs .idle bytes).map report) := by
  cases l with
  | cpp packet =>
      obtain ⟨d', hdecode, _⟩ := Cpp.PacketDecoder.decodeAll_eq crc8
        packet.maxDataLen (Cpp.PacketDecoder.tracks_new packet) bytes
      show (do let (reports, _) ← (Cpp.PacketDecoder.new packet).decodeAll
                 crc8 bytes
               return reports) = _
      rw [hdecode]
      rfl
  | py pkt =>
      obtain ⟨d', hdecode, _⟩ := Py.PacketDecoder.decodeAll_eq crc8
        (Py.PacketDecoder.tracks_new pkt) bytes
      show (do let (reports, _) ← (Py.PacketDecoder.new pkt).decodeAll
                 crc8 bytes
               return reports) = _
      rw [hdecode]
      rfl

end Listener

/-! ## The round trip -/

/-- One packet on its way, with the bytes on the line before it. -/
structure Transmission where
  noise : List UInt8
  sender : Sender

/-- What is heard of a transmission, its packet being sent as `bytes`. -/
def Transmission.heard (crc8 : UInt8 → UInt8 → UInt8) (t : Transmission)
    (bytes : List UInt8) : List Report :=
  List.replicate t.noise.length (.code .notDone) ++ t.sender.heard crc8 bytes

/-- The parcel a transmission is for a receiver. -/
private def Transmission.parcel (t : Transmission) : Parcel UInt8 :=
  ⟨t.noise, t.sender.command, t.sender.data⟩

/-- What a receiver answers to a transmission, as a listener shows it. -/
private theorem map_report_readsParcel (crc8 : UInt8 → UInt8 → UInt8)
    (t : Transmission) :
    ((framing crc8).readsParcel t.parcel).map report =
      t.heard crc8 (t.sender.frame crc8) := by
  rw [Framing.readsParcel, List.map_append, List.map_replicate,
    map_report_reads, Transmission.heard, Sender.heard_frame]
  rfl

/-- **The round trip.**  Whichever sides send and whichever side listens, a
stream of frames with noise before each is heard frame by frame: the packet
at the last byte of its frame, and `NOT_DONE` everywhere else. -/
theorem round_trip (crc8 : UInt8 → UInt8 → UInt8) (l : Listener)
    (ts : List Transmission) (hnoise : ∀ t ∈ ts, END ∉ t.noise)
    (hroom : ∀ t ∈ ts, t.sender.data.length + 1 ≤ l.capacity) :
    ∃ encoded : List (List UInt8),
      List.Forall₂ (fun t bytes => t.sender.encode crc8 = .ok (.none, bytes))
        ts encoded ∧
      l.decode crc8 ((ts.zip encoded).flatMap fun s => s.1.noise ++ s.2) =
        .ok ((ts.zip encoded).flatMap fun s => s.1.heard crc8 s.2) := by
  have hframing := l.receiver_toFraming crc8
  have hnoise' : ∀ t ∈ ts.map Transmission.parcel,
      (l.receiver crc8).fin ∉ t.noise := by
    intro t ht
    obtain ⟨t, hmem, rfl⟩ := List.mem_map.mp ht
    rw [hframing]
    exact hnoise t hmem
  have hroom' : ∀ t ∈ ts.map Transmission.parcel,
      t.body.length + 1 ≤ (l.receiver crc8).capacity := by
    intro t ht
    obtain ⟨t, hmem, rfl⟩ := List.mem_map.mp ht
    rw [l.receiver_capacity]
    exact hroom t hmem
  have hstream := ((l.receiver crc8).outputs_stream _ hnoise' hroom').2
  rw [hframing, List.flatMap_map, List.flatMap_map] at hstream
  refine ⟨ts.map fun t => t.sender.frame crc8, ?_, ?_⟩
  · rw [List.forall₂_map_right_iff, List.forall₂_same]
    intro t _
    exact t.sender.encode_eq crc8
  · rw [← List.map_prod_left_eq_zip, List.flatMap_map, List.flatMap_map]
    show l.decode crc8 (ts.flatMap fun t =>
      (framing crc8).wire t.parcel) = _
    rw [l.decode_eq, hstream, List.map_flatMap]
    simp only [map_report_readsParcel]

/-- Two transmissions to the host: `ESC` bytes and an escaped command from the
host, then an escaped data byte from the device. -/
def twoTransmissions : List Transmission :=
  [⟨[ESC, 0x11, ESC], .py .new (.new END [ESC, 0x02])⟩,
    ⟨[], .cpp (.new 0) ⟨0x01, 4, 2, [END, 0x07, 0x55, 0x66], 0, rfl⟩
      (by decide) 0⟩]

theorem round_trip_twoTransmissions :
    ∃ encoded : List (List UInt8),
      List.Forall₂
        (fun t bytes => t.sender.encode crc8Poly07 = .ok (.none, bytes))
        twoTransmissions encoded ∧
      (Listener.py (.new 0 [])).decode crc8Poly07
          ((twoTransmissions.zip encoded).flatMap fun s => s.1.noise ++ s.2) =
        .ok ((twoTransmissions.zip encoded).flatMap
          fun s => s.1.heard crc8Poly07 s.2) :=
  round_trip crc8Poly07 (.py (.new 0 [])) twoTransmissions (by decide)
    (by decide)

end DuinoBus.Link
