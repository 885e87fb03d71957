import DuinoBus.Py.Bus

/-!
# Frames on their way to the host

Frames arrive at the receive thread byte by byte, one after the other.
`Arriving` is the place of the decoder among them, and `Arriving.receive` is
what one poll does: the decoder goes on, or the first frame is complete and
its packet is processed.
-/

namespace DuinoBus.HostArrival

open DuinoBus.Wire
open DuinoBus.Verified
open DuinoBus.Py

/-- The frames on the way when the first byte has been read. -/
def restAfter (bytes : List UInt8) (frames : List (List UInt8)) :
    List (List UInt8) :=
  if bytes = [] then frames else bytes :: frames

/-- A response or other packet that the host has room for. -/
def Fits (f : UInt8 × List UInt8) : Prop :=
  f.2.length + 1 ≤ Packet.MAX_DATA_LEN

instance : DecidablePred Fits := fun f =>
  inferInstanceAs (Decidable (f.2.length + 1 ≤ Packet.MAX_DATA_LEN))

/-- The frames on the way carry `todo`, and the decoder is between frames or
inside the first of them. -/
def Arriving (crc8 : UInt8 → UInt8 → UInt8) (todo : List (UInt8 × List UInt8))
    (wire : List (List UInt8)) (ph : Phase UInt8) : Prop :=
  (todo = [] ∧ wire = [] ∧ ph.Ready) ∨
    ∃ f todo' bytes, todo = f :: todo' ∧ bytes ≠ [] ∧
      wire = bytes :: todo'.map (fun f => frame crc8 f.1 f.2) ∧
      (hostReceiver crc8 Packet.MAX_DATA_LEN).Reading f.1 f.2 ph bytes

section Arrivals

variable {crc8 : UInt8 → UInt8 → UInt8} {todo : List (UInt8 × List UInt8)}
  {wire : List (List UInt8)} {ph : Phase UInt8}

/-- Between frames, any frames may follow. -/
theorem arriving_of_ready (hph : ph.Ready) (todo : List (UInt8 × List UInt8)) :
    Arriving crc8 todo (todo.map fun f => frame crc8 f.1 f.2) ph := by
  cases todo with
  | nil => exact .inl ⟨rfl, rfl, hph⟩
  | cons f todo =>
      refine .inr ⟨f, todo, frame crc8 f.1 f.2, rfl, ?_, rfl, ?_⟩
      · exact List.ne_nil_of_length_pos
          ((framing crc8).length_frame_pos f.1 f.2)
      · exact Receiver.reading_frame _ hph f.1 f.2

theorem Arriving.length_eq (h : Arriving crc8 todo wire ph) :
    wire.length = todo.length := by
  rcases h with ⟨rfl, rfl, _⟩ | ⟨f, todo', bytes, rfl, _, rfl, _⟩
  · rfl
  · simp only [List.length_cons, List.length_map]

/-- One more frame is sent. -/
theorem Arriving.append (h : Arriving crc8 todo wire ph)
    (f : UInt8 × List UInt8) :
    Arriving crc8 (todo ++ [f]) (wire ++ [frame crc8 f.1 f.2]) ph := by
  rcases h with ⟨rfl, rfl, hph⟩ | ⟨g, todo', bytes, rfl, hbytes, rfl, hreading⟩
  · exact arriving_of_ready hph [f]
  · refine .inr ⟨g, todo' ++ [f], bytes, rfl, hbytes, ?_, hreading⟩
    rw [List.map_append, List.cons_append, List.map_singleton]

/-- **One byte arrives.**  Either the first frame goes on, and its packet is
touched only if it begins to be stored; or it is complete, and the bus
processes its packet. -/
theorem Arriving.receive {byte : UInt8} {bytes : List UInt8}
    {frames : List (List UInt8)} {bus : Bus}
    (h : Arriving crc8 todo ((byte :: bytes) :: frames) ph)
    (hfits : ∀ f ∈ todo, Fits f) (htracks : bus.Tracks ph) :
    (∃ bus' ph', bus.receive crc8 (some byte) = (.ok none, bus') ∧
      Arriving crc8 todo (restAfter bytes frames) ph' ∧ todo ≠ [] ∧
      bus'.Tracks ph' ∧ bus'.recvQueue = bus.recvQueue ∧ bus.SameOwner bus' ∧
      (ph.Between → ¬ bus.decoder.StartsPacket byte →
        bus'.packet = bus.packet ∧ ph'.Between)) ∨
    ∃ bus' f todo', bus.receive crc8 (some byte) = bus'.processDecoded ∧
      todo = f :: todo' ∧ Arriving crc8 todo' (restAfter bytes frames) .idle ∧
      bus'.Tracks .idle ∧ bus'.recvQueue = bus.recvQueue ∧
      bus.SameOwner bus' ∧ (bus'.packet.cmd, bus'.packet.data) = f ∧
      ¬ ph.Between := by
  rcases h with ⟨_, hnone, _⟩ | ⟨f, todo', bytes', rfl, _, hwire, hreading⟩
  · cases hnone
  · cases hwire
    have hroom := hfits f List.mem_cons_self
    by_cases hbytes : bytes = []
    · subst hbytes
      obtain ⟨hout, hidle⟩ := hreading.accepted _ hroom
      obtain ⟨bus', htracks', hcmd, hdata, hqueue, howner, hreceive⟩ :=
        Bus.receive_accepted crc8 htracks hout
      rw [hidle] at htracks'
      refine .inr ⟨bus', f, todo', hreceive, rfl,
        arriving_of_ready (.inl rfl) todo', htracks', hqueue, howner, ?_, ?_⟩
      · rw [hcmd, hdata]
      · have hbody := (Receiver.step_accepted_iff _ _ _ _ _ _).mp hout
        rw [hbody.2.1]
        rintro (hidle' | ⟨e, hcommand⟩)
        · cases hidle'
        · cases hcommand
    · obtain ⟨hout, hnext⟩ := hreading.pending _ hroom hbytes
      obtain ⟨bus', hreceive, htracks', hqueue, howner, hpacket⟩ :=
        Bus.receive_pending crc8 htracks hout
      refine .inl ⟨bus', _, hreceive, ?_, List.cons_ne_nil f todo', htracks',
        hqueue, howner, hpacket⟩
      refine .inr ⟨f, todo', bytes, rfl, hbytes, ?_, hnext⟩
      rw [restAfter, if_neg hbytes]

end Arrivals

end DuinoBus.HostArrival
