import DuinoBus.Cpp.Packet
import DuinoBus.Verified.LittleEndian

/-!
# The device's unpacker

`Unpacker` reads values off the data of a packet.  It points into the storage
of the packet and counts the bytes of the data that remain; a read that the
count does not cover is refused and changes nothing.

`unpackAs` is the template for values of any type, and `unpack` its instance
for `uint32_t`.  A pointer that is handed out is the storage from there on.

`At` says which part of a packet's data remains to be read.
-/

namespace DuinoBus.Cpp

open DuinoBus.Wire
open DuinoBus.Verified

/-- `data` is the storage from the read pointer on. -/
structure Unpacker where
  data : List UInt8
  dataRemaining : Nat
  deriving DecidableEq

namespace Unpacker

def new (packet : Packet) : Unpacker := ⟨packet.data, packet.dataLen⟩

def setData (_ : Unpacker) (packet : Packet) : Unpacker := new packet

/-- `unpack<T>`.  `value` is what the variable contains before. -/
def unpackAs {T : Type} [Pod T] (u : Unpacker) (value : T) :
    Except Fault (Bool × T × Unpacker) :=
  if u.dataRemaining < Pod.size T then .ok (false, value, u)
  else if u.data.length < Pod.size T then .error .outOfBounds
  else .ok (true, Pod.ofBytes (u.data.take (Pod.size T)),
    ⟨u.data.drop (Pod.size T), u.dataRemaining - Pod.size T⟩)

/-- `unpack<uint32_t>`. -/
def unpack (u : Unpacker) (value : UInt32) :
    Except Fault (Bool × UInt32 × Unpacker) := u.unpackAs value

/-- The value of the bytes of a `uint32_t`. -/
abbrev valueOf (bytes : List UInt8) : UInt32 := Pod.ofBytes bytes

/-- `unpack` of some bytes.  `data` is the pointer before. -/
def unpackData (u : Unpacker) (numBytes : Nat) (data : List UInt8) :
    Bool × List UInt8 × Unpacker :=
  if u.dataRemaining < numBytes then (false, data, u)
  else (true, u.data,
    ⟨u.data.drop numBytes, u.dataRemaining - numBytes⟩)

/-- `unpack` of a string.  `str` is the pointer before. -/
def unpackStr (u : Unpacker) (str : List UInt8) :
    Except Fault (Bool × List UInt8 × Unpacker) := do
  let (done, strLength, u) ← u.unpackAs (0 : UInt8)
  if !done then return (false, str, u)
  if u.dataRemaining < strLength.toNat then return (false, str, u)
  return (true, u.data,
    ⟨u.data.drop strLength.toNat, u.dataRemaining - strLength.toNat⟩)

/-! ## What remains -/

/-- The unpacker points into the storage of the packet, and these bytes of
the packet's data remain to be read. -/
structure At (packet : Packet) (u : Unpacker) (rest : List UInt8) : Prop where
  place : ∃ off, u.data = packet.data.drop off ∧
    off + u.dataRemaining = packet.dataLen
  remaining : u.dataRemaining = rest.length
  front : rest <+: u.data

/-- A pointer to a string that lies inside the data of the packet, with the
null at its end. -/
def Designates (packet : Packet) (ptr s : List UInt8) : Prop :=
  (∃ off, ptr = packet.data.drop off ∧
      off + (s.length + 1) ≤ packet.dataLen) ∧
    s ++ [0] <+: ptr

/-- Every read of something that is not empty is refused. -/
structure Exhausted (u : Unpacker) : Prop where
  unpackAs : ∀ (T : Type) [Pod T], 0 < Pod.size T → ∀ value : T,
    u.unpackAs value = .ok (false, value, u)
  unpackData : ∀ numBytes data, 0 < numBytes →
    u.unpackData numBytes data = (false, data, u)
  unpackStr : ∀ str, u.unpackStr str = .ok (false, str, u)

theorem at_setData {packet : Packet} {capacity : Nat} {cmd : UInt8}
    {bs : List UInt8} (h : packet.Holds capacity cmd bs) (u : Unpacker) :
    At packet (u.setData packet) bs := by
  refine ⟨⟨0, rfl, Nat.zero_add _⟩, h.dataLen, ?_⟩
  rw [← h.payload]
  exact List.take_prefix _ _

section Reading

variable {packet : Packet} {u : Unpacker} {bytes rest : List UInt8}

/-- Moving past some bytes leaves what comes after them. -/
theorem At.drop (h : At packet u rest) {n : Nat} (hn : n ≤ rest.length) :
    At packet ⟨u.data.drop n, u.dataRemaining - n⟩ (rest.drop n) := by
  obtain ⟨off, hdata, hlen⟩ := h.place
  have hremaining := h.remaining
  refine ⟨⟨off + n, ?_, ?_⟩, ?_, ?_⟩
  · rw [hdata, List.drop_drop]
  · show off + n + (u.dataRemaining - n) = packet.dataLen
    omega
  · show u.dataRemaining - n = (rest.drop n).length
    rw [List.length_drop, hremaining]
  · obtain ⟨behind, hfront⟩ := h.front
    refine ⟨behind, ?_⟩
    rw [← hfront, List.drop_append_of_le_length hn]

/-- The bytes that remain come first. -/
theorem At.take_eq (h : At packet u rest) {n : Nat} (hn : n ≤ rest.length) :
    u.data.take n = rest.take n := by
  obtain ⟨behind, hfront⟩ := h.front
  rw [← hfront, List.take_append_of_le_length hn]

/-! ### Reads of any size -/

/-- A value is read if what remains covers it. -/
theorem At.unpackAs_eq {T : Type} [Pod T] (h : At packet u rest) (old : T) :
    u.unpackAs old = if rest.length < Pod.size T then .ok (false, old, u)
      else .ok (true, Pod.ofBytes (rest.take (Pod.size T)),
        ⟨u.data.drop (Pod.size T), u.dataRemaining - Pod.size T⟩) := by
  have hremaining := h.remaining
  have hfront := h.front.length_le
  rw [Unpacker.unpackAs, hremaining]
  split
  · rfl
  · next hroom =>
      rw [if_neg (by omega), h.take_eq (Nat.not_lt.mp hroom)]

/-- Unpacking a `uint32_t` reads the first four bytes of the data, if there
are four. -/
theorem unpack_new {capacity : Nat} {cmd : UInt8} {bs : List UInt8}
    (h : packet.Holds capacity cmd bs) (value : UInt32) :
    ∃ done u, (new packet).unpack value =
      .ok (done, if bs.length < 4 then value else valueOf (bs.take 4), u) := by
  have hat : At packet (new packet) bs := at_setData h (new packet)
  rw [unpack, hat.unpackAs_eq value]
  show ∃ done u, (if bs.length < 4 then _ else _) = _
  split
  · exact ⟨_, _, rfl⟩
  · exact ⟨_, _, rfl⟩

theorem At.unpackData_eq (h : At packet u rest) (numBytes : Nat)
    (old : List UInt8) :
    u.unpackData numBytes old = if rest.length < numBytes then (false, old, u)
      else (true, u.data,
        ⟨u.data.drop numBytes, u.dataRemaining - numBytes⟩) := by
  rw [Unpacker.unpackData, h.remaining]

/-- When nothing remains, every further read is refused. -/
theorem At.exhausted (h : At packet u []) : u.Exhausted := by
  have hvalue : ∀ (T : Type) [Pod T], 0 < Pod.size T → ∀ value : T,
      u.unpackAs value = .ok (false, value, u) := by
    intro T _ hsize value
    rw [h.unpackAs_eq, List.length_nil, if_pos hsize]
  refine ⟨hvalue, ?_, ?_⟩
  · intro numBytes data hpos
    rw [h.unpackData_eq, List.length_nil, if_pos hpos]
  · intro str
    have hbyte := hvalue UInt8 Nat.one_pos 0
    simp only [Unpacker.unpackStr, hbyte, bind, Except.bind]
    rfl

/-- The unpacker past the length byte of a string. -/
def pastLength (u : Unpacker) : Unpacker :=
  ⟨u.data.drop 1, u.dataRemaining - 1⟩

theorem At.pastLength {n : UInt8} {text : List UInt8}
    (h : At packet u (n :: text)) : At packet u.pastLength text :=
  h.drop (Nat.le_add_left 1 text.length)

/-- Without a length byte there is no string. -/
theorem At.unpackStr_nil (h : At packet u []) (old : List UInt8) :
    u.unpackStr old = .ok (false, old, u) := h.exhausted.unpackStr old

/-- Behind its length byte, a string is read if what remains covers it. -/
theorem At.unpackStr_cons {n : UInt8} {text : List UInt8}
    (h : At packet u (n :: text)) (old : List UInt8) :
    u.unpackStr old = .ok (if text.length < n.toNat
      then (false, old, u.pastLength)
      else (true, u.pastLength.data, ⟨u.pastLength.data.drop n.toNat,
        u.pastLength.dataRemaining - n.toNat⟩)) := by
  have hbyte : u.unpackAs (0 : UInt8) = .ok (true, n, u.pastLength) := by
    have hpos : ¬ (n :: text).length < Pod.size UInt8 := Nat.not_lt.mpr
      (Nat.le_add_left 1 text.length)
    have hvalue : Pod.ofBytes ((n :: text).take (Pod.size UInt8)) = n := by
      have hof : Pod.ofBytes (Pod.toBytes n) = n := Pod.ofBytes_toBytes n
      rw [toBytes_byte] at hof
      exact hof
    rw [h.unpackAs_eq, if_neg hpos, hvalue]
    rfl
  have hremaining : u.pastLength.dataRemaining = text.length :=
    h.pastLength.remaining
  simp only [Unpacker.unpackStr, hbyte, bind, Except.bind, hremaining]
  by_cases hshort : text.length < n.toNat
  · simp only [if_pos hshort]
    rfl
  · simp only [if_neg hshort]
    rfl

/-! ### Reads of what was packed -/

private theorem At.skip (h : At packet u (bytes ++ rest)) :
    At packet ⟨u.data.drop bytes.length, u.dataRemaining - bytes.length⟩
      rest := by
  have hdrop := h.drop (n := bytes.length) (by
    rw [List.length_append]
    omega)
  rw [List.drop_left] at hdrop
  exact hdrop

private theorem covers (bytes rest : List UInt8) :
    ¬ (bytes ++ rest).length < bytes.length := by
  rw [List.length_append]
  omega

theorem At.unpackAs {T : Type} [Pod T] {value : T}
    (h : At packet u (Pod.toBytes value ++ rest)) (old : T) :
    ∃ u', u.unpackAs old = .ok (true, value, u') ∧ At packet u' rest := by
  have hskip := h.skip
  have hcovers := covers (Pod.toBytes value) rest
  rw [Pod.length_toBytes] at hskip hcovers
  refine ⟨_, ?_, hskip⟩
  rw [h.unpackAs_eq, if_neg hcovers,
    List.take_left' (Pod.length_toBytes value), Pod.ofBytes_toBytes]

theorem At.unpackData (h : At packet u (bytes ++ rest)) (old : List UInt8) :
    ∃ ptr u', u.unpackData bytes.length old = (true, ptr, u') ∧
      bytes <+: ptr ∧ At packet u' rest := by
  refine ⟨u.data, _, ?_, ?_, h.skip⟩
  · rw [h.unpackData_eq, if_neg (covers bytes rest)]
  · exact (List.prefix_append _ _).trans h.front

/-- **Unpacking a string** yields a pointer to it inside the packet. -/
theorem At.unpackStr {s : List UInt8} (hlen : s.length ≤ 254)
    (h : At packet u (UInt8.ofNat (s.length + 1) :: (s ++ [0]) ++ rest))
    (old : List UInt8) :
    ∃ ptr u', u.unpackStr old = .ok (true, ptr, u') ∧
      Designates packet ptr s ∧ At packet u' rest := by
  have hcount : (UInt8.ofNat (s.length + 1)).toNat = (s ++ [0]).length := by
    rw [List.length_append, List.length_singleton]
    exact UInt8.toNat_ofNat_of_lt' (show s.length + 1 < 256 by omega)
  have hread := At.unpackStr_cons h old
  have htext : At packet u.pastLength (s ++ [0] ++ rest) := At.pastLength h
  obtain ⟨off, hdata, hoff⟩ := htext.place
  have hremaining := htext.remaining
  change u.unpackStr old = .ok (if (s ++ [0] ++ rest).length < _ then _
    else _) at hread
  rw [hcount, if_neg (covers _ rest)] at hread
  refine ⟨u.pastLength.data, _, hread, ⟨⟨off, hdata, ?_⟩, ?_⟩, htext.skip⟩
  · rw [List.length_append, List.length_append, List.length_singleton]
      at hremaining
    omega
  · exact (List.prefix_append _ _).trans htext.front

end Reading

end Unpacker

end DuinoBus.Cpp
