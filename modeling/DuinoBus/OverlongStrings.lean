import DuinoBus.DevicePacks
import DuinoBus.Py.Packer

/-!
# Strings that are too long

A string of 255 characters or more does not fit its length byte, which counts
the null.  `overlong_refused_iff` says what becomes of it.  The device refuses
it, without a trace, only when the packet has no space at all; otherwise the
length byte wraps around, and the string is cut off.  The host packs it as it
is, with a length byte that is wrong.
-/

namespace DuinoBus.OverlongStrings

open DuinoBus.Wire
open DuinoBus.Verified
open DuinoBus.Cpp.Packer (lengthByte)
open DuinoBus.DevicePacks (CString)

/-- Nothing was added, or a length byte that is the number of the bytes that
follow it. -/
def Consistent (added : List UInt8) : Prop :=
  ∀ strLength text, added = strLength :: text →
    strLength.toNat = text.length

/-- `pack` returns false and leaves nothing inconsistent. -/
def DeviceRefuses (p : Cpp.Packer) (s : CString) : Prop :=
  ∃ q added, p.packStr s.ptr = .ok (false, q) ∧
    q.packet.payload = p.packet.payload ++ added ∧ Consistent added

/-- `pack_str` as a call that may raise.  Nothing in it does. -/
def hostPackStr (p : Py.Packer) (s : Py.Packer.StrArg) :
    Except Fault Py.Packer := .ok (p.packStrArg s)

/-- `pack_str` raises, or leaves nothing inconsistent at least. -/
structure HostRefuses (p : Py.Packer) (s : Py.Packer.StrArg) : Prop where
  raises : ∃ e, hostPackStr p s = .error e
  consistent : ∀ q added, hostPackStr p s = .ok q →
    q.data = p.data ++ added → Consistent added

section Overlong

variable {p : Cpp.Packer} {capacity : Nat} {cmd : UInt8} {bs : List UInt8}

/-- The device refuses a string that is too long exactly when there is no
space at all. -/
private theorem deviceRefuses_iff (h : p.packet.Holds capacity cmd bs)
    {s : CString} (hlong : 255 ≤ s.chars.length) :
    DeviceRefuses p s ↔ p.packet.getSpaceRemaining = 0 := by
  have hfits := h.length_le
  have hcount := s.toNat_lengthByte
  rw [if_neg (by omega)] at hcount
  rw [h.getSpaceRemaining]
  constructor
  · rintro ⟨q, added, hrefused, hpayload, hconsistent⟩
    apply Nat.eq_zero_of_not_pos
    intro hspace
    by_cases hroom : bs.length + 1 + (lengthByte s.ptr).toNat ≤ capacity
    · obtain ⟨q', hpack, _⟩ := Cpp.Packer.packStr_room h s.ptr hroom
        (Nat.le_trans s.toNat_lengthByte_le s.length_lt)
      rw [hrefused] at hpack
      cases hpack
    · obtain ⟨q', hpack, hq⟩ := Cpp.Packer.packStr_partial h s.ptr (by omega)
        (by omega)
      rw [hrefused] at hpack
      cases hpack
      rw [hq.payload, h.payload] at hpayload
      have hadded := (List.append_cancel_left hpayload).symm
      have hnone : (lengthByte s.ptr).toNat = 0 := hconsistent _ _ hadded
      split at hcount
      · omega
      · omega
  · intro hspace
    refine ⟨p, [], Cpp.Packer.packStr_full h (by omega) s.ptr, ?_, ?_⟩
    · rw [List.append_nil]
    · intro strLength text hadded
      cases hadded

/-- The host packs a string that is too long with a wrong length byte. -/
private theorem hostPackStr_inconsistent (q : Py.Packer)
    {t : Py.Packer.StrArg} (hlong : 255 ≤ t.toBytes.length) :
    ∃ q' added, hostPackStr q t = .ok q' ∧ q'.data = q.data ++ added ∧
      ¬ Consistent added := by
  refine ⟨_, _, rfl, q.data_packStrArg t, ?_⟩
  intro hconsistent
  have hcount := hconsistent _ _ rfl
  rw [UInt8.toNat_ofNat', List.length_append, List.length_singleton] at hcount
  omega

/-- **Strings that are too long are never refused** by both sides: the device
refuses one only if there is no space at all, and the host packs it with a
length byte that differs from the number of bytes that follow it. -/
theorem overlong_refused_iff (h : p.packet.Holds capacity cmd bs)
    (s : CString) (hlong : 255 ≤ s.chars.length) (q : Py.Packer)
    (t : Py.Packer.StrArg) (ht : t.toBytes = s.chars) :
    ¬ (DeviceRefuses p s ∧ HostRefuses q t) ∧
      (DeviceRefuses p s ↔ p.packet.getSpaceRemaining = 0) ∧
      ∃ q' added, hostPackStr q t = .ok q' ∧ q'.data = q.data ++ added ∧
        ¬ Consistent added := by
  refine ⟨?_, deviceRefuses_iff h hlong, ?_⟩
  · rintro ⟨_, hrefused⟩
    obtain ⟨e, herror⟩ := hrefused.raises
    cases herror
  · apply hostPackStr_inconsistent
    rw [ht]
    exact hlong

end Overlong

/-- The shortest string that is too long. -/
def manyAs : List UInt8 := List.replicate 255 0x41

private theorem null_not_mem_manyAs : 0 ∉ manyAs := by
  rw [manyAs, List.mem_replicate]
  exact fun h => absurd h.2 (by decide)

private theorem chars_manyAs : (CString.ofChars manyAs).chars = manyAs :=
  CString.chars_ofChars null_not_mem_manyAs

private theorem length_manyAs :
    255 ≤ (CString.ofChars manyAs).chars.length := by
  rw [chars_manyAs, manyAs, List.length_replicate]

theorem overlong_refused_iff_manyAs :
    ¬ (DeviceRefuses ⟨DevicePacks.emptyPacket⟩ (.ofChars manyAs) ∧
        HostRefuses ⟨[]⟩ (.bytes manyAs)) ∧
      (DeviceRefuses ⟨DevicePacks.emptyPacket⟩ (.ofChars manyAs) ↔
        DevicePacks.emptyPacket.getSpaceRemaining = 0) ∧
      ∃ q' added, hostPackStr ⟨[]⟩ (.bytes manyAs) = .ok q' ∧
        q'.data = [] ++ added ∧ ¬ Consistent added :=
  overlong_refused_iff (p := ⟨DevicePacks.emptyPacket⟩)
    DevicePacks.holds_emptyPacket (.ofChars manyAs) length_manyAs ⟨[]⟩
    (.bytes manyAs) chars_manyAs.symm

/-- With space for it, the device packs 255 characters as an empty record, and
says that it has packed them. -/
theorem overlong_refused_fails :
    ¬ ∀ (p : Cpp.Packer) (capacity : Nat) (cmd : UInt8) (bs : List UInt8),
      p.packet.Holds capacity cmd bs → ∀ s : CString, 255 ≤ s.chars.length →
        ∀ (q : Py.Packer) (t : Py.Packer.StrArg), t.toBytes = s.chars →
          DeviceRefuses p s ∧ HostRefuses q t := by
  intro h
  have hrefused := (h ⟨DevicePacks.emptyPacket⟩ 16 0 []
    DevicePacks.holds_emptyPacket (.ofChars manyAs) length_manyAs ⟨[]⟩
    (.bytes manyAs) chars_manyAs.symm).1
  have hspace : DevicePacks.emptyPacket.getSpaceRemaining = 0 :=
    (deviceRefuses_iff (p := ⟨DevicePacks.emptyPacket⟩)
      DevicePacks.holds_emptyPacket length_manyAs).mp hrefused
  exact absurd hspace (by decide)

end DuinoBus.OverlongStrings
