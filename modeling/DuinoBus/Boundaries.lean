import DuinoBus.Link
import DuinoBus.Verified.Delimited

/-!
# Where frames begin and end

The same byte opens and closes a frame, so between two frames there are two of
them, and the bytes from the second `END` of one frame to the first of the
next begin and end like a frame.  No frame is mistaken for another all the
same: the bytes of a packet occur in what senders have written exactly where
one of them has written that packet.  A reader that joins at any place, and
looks for the frame of a packet, finds that packet or nothing.
-/

namespace DuinoBus.Boundaries

open DuinoBus.Wire
open DuinoBus.Verified
open DuinoBus.Link

variable (crc8 : UInt8 → UInt8 → UInt8)

/-- The bytes between the `END`s of a packet's frame. -/
def word (s : Sender) : List UInt8 :=
  (framing crc8).stuffAll ((framing crc8).content s.command s.data)

theorem frame_eq_delimited (s : Sender) :
    s.frame crc8 = delimited END (word crc8 s) := rfl

theorem isWord_word (s : Sender) : IsWord END (word crc8 s) :=
  ⟨(framing crc8).stuffAll_ne_nil (List.cons_ne_nil _ _),
    (framing crc8).fin_notMem_stuffAll _⟩

/-- The same bytes, the same packet. -/
theorem word_eq_iff (s t : Sender) : word crc8 s = word crc8 t ↔
    (s.command, s.data) = (t.command, t.data) := by
  constructor
  · intro h
    have hframe : (framing crc8).frame s.command s.data =
        (framing crc8).frame t.command t.data :=
      congrArg (delimited END) h
    obtain ⟨hcommand, hdata⟩ := (framing crc8).frame_injective hframe
    rw [hcommand, hdata]
  · intro h
    obtain ⟨hcommand, hdata⟩ := Prod.mk.inj h
    rw [word, word, hcommand, hdata]

theorem flatten_frames (ss : List Sender) :
    (ss.map fun s => s.frame crc8).flatten =
      (ss.map (word crc8)).flatMap (delimited END) := by
  rw [List.flatMap_map, List.flatMap_def]
  rfl

/-- **A frame is found where it was written, and nowhere else.**  Senders of
either implementation write packets one after the other.  The bytes of a
packet are found in what they have written, behind `front` and before
`rest`, exactly if one of them has written that packet there. -/
theorem found_iff (s : Sender) (ss : List Sender) :
    ∃ bytes encoded, s.encode crc8 = .ok (.none, bytes) ∧
      List.Forall₂ (fun t bytes => t.encode crc8 = .ok (.none, bytes))
        ss encoded ∧
      ∀ front rest, encoded.flatten = front ++ bytes ++ rest ↔
        ∃ n t, ss[n]? = some t ∧ (t.command, t.data) = (s.command, s.data) ∧
          front = (encoded.take n).flatten ∧
          rest = (encoded.drop (n + 1)).flatten := by
  refine ⟨s.frame crc8, ss.map fun t => t.frame crc8, s.encode_eq crc8, ?_, ?_⟩
  · rw [List.forall₂_map_right_iff, List.forall₂_same]
    intro t _
    exact t.encode_eq crc8
  · intro front rest
    have hwords : ∀ w ∈ ss.map (word crc8), IsWord END w := by
      intro w hw
      obtain ⟨t, _, rfl⟩ := List.mem_map.mp hw
      exact isWord_word crc8 t
    rw [flatten_frames, frame_eq_delimited,
      delimited_found (isWord_word crc8 s) hwords]
    constructor
    · rintro ⟨ws₁, ws₂, hsplit, rfl, rfl⟩
      obtain ⟨ss₁, ss', rfl, rfl, htail⟩ := List.map_eq_append_iff.mp hsplit
      obtain ⟨t, ss₂, rfl, hword, rfl⟩ := List.map_eq_cons_iff.mp htail
      refine ⟨ss₁.length, t, ?_, (word_eq_iff crc8 t s).mp hword, ?_, ?_⟩
      · rw [List.getElem?_append_right (Nat.le_refl _), Nat.sub_self]
        rfl
      · rw [← List.map_take, List.take_left, flatten_frames]
      · have hlength : (ss₁ ++ [t]).length = ss₁.length + 1 :=
          List.length_append
        rw [← List.map_drop, List.append_cons, List.drop_left' hlength,
          flatten_frames]
    · rintro ⟨n, t, ht, hpacket, rfl, rfl⟩
      obtain ⟨hn, rfl⟩ := List.getElem?_eq_some_iff.mp ht
      refine ⟨(ss.take n).map (word crc8), (ss.drop (n + 1)).map (word crc8),
        ?_, ?_, ?_⟩
      · rw [← (word_eq_iff crc8 ss[n] s).mpr hpacket, ← List.map_cons,
          List.getElem_cons_drop, ← List.map_append, List.take_append_drop]
      · rw [← List.map_take, flatten_frames]
      · rw [← List.map_drop, flatten_frames]

end DuinoBus.Boundaries
