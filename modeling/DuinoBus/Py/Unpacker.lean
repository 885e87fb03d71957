import DuinoBus.Verified.LittleEndian
import DuinoBus.Wire

/-!
# The host's unpacker

`Unpacker` reads values off a `bytearray`.  Indexing past its end raises;
slicing does not, it yields what there is.

`At` says what remains to be read, and there is one lemma for each kind of
value.  `At.unpackStr` shows what becomes of a string: its terminating null is
dropped, unless the string is empty.
-/

namespace DuinoBus.Py

open DuinoBus.Wire
open DuinoBus.Verified

structure Unpacker where
  data : List UInt8
  idx : Nat
  deriving DecidableEq

namespace Unpacker

def new (data : List UInt8) : Unpacker := ⟨data, 0⟩

def moreData (u : Unpacker) : Bool := u.idx < u.data.length

def unpackU8 (u : Unpacker) : Except Fault (UInt8 × Unpacker) :=
  match u.data[u.idx]? with
  | some val => .ok (val, { u with idx := u.idx + 1 })
  | none => .error .indexError

def unpackData (u : Unpacker) (numBytes : Nat) : List UInt8 × Unpacker :=
  ((u.data.drop u.idx).take numBytes, { u with idx := u.idx + numBytes })

def unpackU16 (u : Unpacker) : Nat × Unpacker :=
  (leValue ((u.data.drop u.idx).take 2), { u with idx := u.idx + 2 })

def unpackU32 (u : Unpacker) : Nat × Unpacker :=
  (leValue ((u.data.drop u.idx).take 4), { u with idx := u.idx + 4 })

/-- `str(c_str, 'utf-8')`. -/
def decodeUtf8 (bytes : List UInt8) : Except Fault String :=
  match String.fromUTF8? ⟨bytes.toArray⟩ with
  | some str => .ok str
  | none => .error .unicodeDecodeError

/-- An 8-bit length, the string, and a terminating null, which is dropped. -/
def unpackStr (u : Unpacker) : Except Fault (String × Unpacker) := do
  let (strLen, u) ← u.unpackU8
  let (cStr, u) := u.unpackData strLen.toNat
  let str ← decodeUtf8 (if 1 < cStr.length then cStr.dropLast else cStr)
  return (str, u)

/-! ## What remains -/

/-- Some bytes remain to be read. -/
def At (u : Unpacker) (rest : List UInt8) : Prop :=
  ∃ front, u.data = front ++ rest ∧ u.idx = front.length

theorem at_new (data : List UInt8) : (new data).At data := ⟨[], rfl, rfl⟩

section Reading

variable {u : Unpacker} {rest : List UInt8}

theorem At.moreData_iff (h : u.At rest) : u.moreData = true ↔ rest ≠ [] := by
  obtain ⟨front, hdata, hidx⟩ := h
  rw [moreData, hdata, hidx, decide_eq_true_iff, List.length_append,
    ← List.length_pos_iff]
  omega

/-- Moving past some bytes leaves what comes after them. -/
theorem At.skip {bytes : List UInt8} (h : u.At (bytes ++ rest)) :
    At { u with idx := u.idx + bytes.length } rest := by
  obtain ⟨front, hdata, hidx⟩ := h
  refine ⟨front ++ bytes, ?_, ?_⟩
  · rw [hdata, List.append_assoc]
  · rw [hidx, List.length_append]

/-- A slice of any size is what there is of it. -/
theorem At.slice_eq (h : u.At rest) (numBytes : Nat) :
    (u.data.drop u.idx).take numBytes = rest.take numBytes := by
  obtain ⟨front, hdata, hidx⟩ := h
  rw [hdata, hidx, List.drop_left]

/-- The slice that follows is what comes first. -/
theorem At.slice {bytes : List UInt8} (h : u.At (bytes ++ rest)) :
    (u.data.drop u.idx).take bytes.length = bytes := by
  rw [h.slice_eq, List.take_left]

theorem At.drop (h : u.At rest) {numBytes : Nat}
    (hroom : numBytes ≤ rest.length) :
    At { u with idx := u.idx + numBytes } (rest.drop numBytes) := by
  have hlen : (rest.take numBytes).length = numBytes :=
    List.length_take_of_le hroom
  have hsplit : u.At (rest.take numBytes ++ rest.drop numBytes) := by
    rw [List.take_append_drop]
    exact h
  have hskip := hsplit.skip
  rw [hlen] at hskip
  exact hskip

theorem At.idx_le (h : u.At rest) : u.idx ≤ u.data.length := by
  obtain ⟨front, hdata, hidx⟩ := h
  rw [hdata, hidx, List.length_append]
  omega

theorem At.unpackU8_nil (h : u.At []) : u.unpackU8 = .error .indexError := by
  obtain ⟨front, hdata, hidx⟩ := h
  have hnone : u.data[u.idx]? = none := by
    rw [hdata, hidx, List.append_nil, List.getElem?_length]
  rw [Unpacker.unpackU8, hnone]

theorem At.unpackU8 {byte : UInt8} (h : u.At (byte :: rest)) :
    ∃ u', u.unpackU8 = .ok (byte, u') ∧ u'.At rest := by
  have hskip : At { u with idx := u.idx + 1 } rest :=
    At.skip (show u.At ([byte] ++ rest) from h)
  obtain ⟨front, hdata, hidx⟩ := h
  refine ⟨_, ?_, hskip⟩
  rw [Unpacker.unpackU8, hdata, hidx, List.getElem?_append_right (by omega),
    Nat.sub_self]
  rfl

/-- The slice as wide as the number that follows stands for it. -/
theorem At.number {width n : Nat} (h : u.At (leBytes width n ++ rest))
    (hn : n < 256 ^ width) :
    leValue ((u.data.drop u.idx).take width) = n ∧
      At { u with idx := u.idx + width } rest := by
  have hslice := h.slice
  have hskip := h.skip
  rw [length_leBytes] at hslice hskip
  rw [hslice]
  exact ⟨leValue_leBytes_of_lt hn, hskip⟩

theorem At.unpackU16 {n : Nat} (h : u.At (leBytes 2 n ++ rest))
    (hn : n < 256 ^ 2) :
    ∃ u', u.unpackU16 = (n, u') ∧ u'.At rest := by
  obtain ⟨hvalue, hat⟩ := h.number hn
  refine ⟨_, ?_, hat⟩
  rw [Unpacker.unpackU16, hvalue]

theorem At.unpackU32 {n : Nat} (h : u.At (leBytes 4 n ++ rest))
    (hn : n < 256 ^ 4) :
    ∃ u', u.unpackU32 = (n, u') ∧ u'.At rest := by
  obtain ⟨hvalue, hat⟩ := h.number hn
  refine ⟨_, ?_, hat⟩
  rw [Unpacker.unpackU32, hvalue]

theorem At.unpackData {bytes : List UInt8} (h : u.At (bytes ++ rest)) :
    ∃ u', u.unpackData bytes.length = (bytes, u') ∧ u'.At rest := by
  refine ⟨_, ?_, h.skip⟩
  rw [Unpacker.unpackData, h.slice]

/-- Decoding what a string was encoded to. -/
theorem decodeUtf8_toUTF8 (s : String) :
    decodeUtf8 s.toUTF8.data.toList = .ok s := by
  have hvalid : ByteArray.IsValidUTF8 s.toUTF8 := s.isValidUTF8
  have hfrom : String.fromUTF8? ⟨s.toUTF8.data.toList.toArray⟩ = some s := by
    rw [String.fromUTF8?, Array.toArray_toList, dif_pos hvalid]
    rfl
  rw [decodeUtf8, hfrom]

/-- The bytes of a string with the terminating null. -/
def cStr (s : String) : List UInt8 := s.toUTF8.data.toList ++ [0]

@[simp] theorem length_cStr (s : String) :
    (cStr s).length = s.toUTF8.size + 1 := by
  rw [cStr, List.length_append, List.length_singleton]
  rfl

/-- **Unpacking a string** that fits its length byte: the empty one comes back
as its terminating null. -/
theorem At.unpackStr {s : String} (hlen : s.toUTF8.size ≤ 254)
    (h : u.At (UInt8.ofNat (cStr s).length :: cStr s ++ rest)) :
    ∃ u', u.unpackStr = .ok (if s = "" then "\x00" else s, u') ∧
      u'.At rest := by
  obtain ⟨u₁, hstrLen, h₁⟩ := h.unpackU8
  have hcount : (UInt8.ofNat (cStr s).length).toNat = (cStr s).length := by
    rw [length_cStr]
    exact UInt8.toNat_ofNat_of_lt' (show s.toUTF8.size + 1 < 256 by omega)
  obtain ⟨u₂, hcStr, h₂⟩ := h₁.unpackData
  refine ⟨u₂, ?_, h₂⟩
  simp only [Unpacker.unpackStr, hstrLen, bind, Except.bind, pure,
    Except.pure, hcount, hcStr]
  by_cases hs : s = ""
  · subst hs
    rfl
  · have hsize : 0 < s.toUTF8.size := by
      by_contra hzero
      apply hs
      apply String.utf8ByteSize_eq_zero_iff.mp
      exact Nat.eq_zero_of_not_pos hzero
    have hlong : 1 < (cStr s).length := by
      rw [length_cStr]
      omega
    rw [if_pos hlong, cStr, List.dropLast_concat, decodeUtf8_toUTF8, if_neg hs]

end Reading

end Unpacker

end DuinoBus.Py
