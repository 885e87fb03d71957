import DuinoBus.DeviceFields
import DuinoBus.Verified.Along

/-!
# Packs of the device

A packer is called in any order, for values of any type and strings of any
length, whether or not they fit.  `packs_iff` says when the packet holds,
behind its initial data, exactly the encodings of what was packed
successfully.

What goes wrong is told by single calls in `packCall_eq`: a string without
space for its text leaves its length byte, and one that is too long is cut
off.  In a whole run one such call cannot make up for another.  The bytes that
were added have fewer nulls than the bytes that were expected, or as many
nulls and are more; `Weighs` is this comparison.
-/

namespace DuinoBus.DevicePacks

open DuinoBus.Wire
open DuinoBus.Verified
open DuinoBus.Cpp
open DuinoBus.Cpp.Packer (lengthByte)
open DuinoBus.DeviceFields (cString cString_split)

/-! ## C strings -/

/-- A pointer to a string: the memory from there on, with a null in it. -/
structure CString where
  ptr : List UInt8
  terminated : 0 ∈ ptr

namespace CString

def chars (s : CString) : List UInt8 := cString s.ptr

variable (s : CString)

theorem null_not_mem : 0 ∉ s.chars := (cString_split s.terminated).1

theorem ptr_eq : ∃ behind, s.ptr = s.chars ++ 0 :: behind :=
  (cString_split s.terminated).2

theorem length_lt : s.chars.length < s.ptr.length := by
  obtain ⟨behind, hptr⟩ := s.ptr_eq
  rw [hptr, List.length_append, List.length_cons]
  omega

theorem lengthByte_eq :
    lengthByte s.ptr = UInt8.ofNat (min s.chars.length 256 + 1) := by
  obtain ⟨behind, hptr⟩ := s.ptr_eq
  rw [lengthByte, hptr, Packer.strnlen_eq_min s.null_not_mem]

/-- The string with these characters. -/
def ofChars (chars : List UInt8) : CString :=
  ⟨chars ++ [0], List.mem_append_right chars List.mem_cons_self⟩

theorem chars_ofChars {chars : List UInt8} (hnull : 0 ∉ chars) :
    (ofChars chars).chars = chars := by
  show (chars ++ [0]).takeWhile (· ≠ 0) = chars
  rw [List.takeWhile_append_of_pos (Packer.ne_null_of_notMem hnull),
    List.takeWhile_cons_of_neg (by decide), List.append_nil]

/-- The length byte counts the null, up to 255.  From there on it wraps
around. -/
theorem toNat_lengthByte :
    (lengthByte s.ptr).toNat = if s.chars.length ≤ 254 then s.chars.length + 1
      else if s.chars.length = 255 then 0 else 1 := by
  rw [s.lengthByte_eq, UInt8.toNat_ofNat']
  split
  · omega
  · split
    · omega
    · omega

/-- The length byte is covered by the string with its null. -/
theorem toNat_lengthByte_le :
    (lengthByte s.ptr).toNat ≤ s.chars.length + 1 := by
  rw [s.toNat_lengthByte]
  split
  · omega
  · split
    · omega
    · omega

/-- What the length byte covers, if the string is not too long. -/
theorem take_short (h : s.chars.length ≤ 254) :
    s.ptr.take (lengthByte s.ptr).toNat = s.chars ++ [0] := by
  obtain ⟨behind, hptr⟩ := s.ptr_eq
  rw [s.toNat_lengthByte, if_pos h]
  conv_lhs => rw [hptr, List.append_cons]
  exact List.take_left' (by rw [List.length_append, List.length_singleton])

/-- What the length byte covers has no null, if the string is too long. -/
theorem count_take_long (h : 254 < s.chars.length) :
    (s.ptr.take (lengthByte s.ptr).toNat).count 0 = 0 := by
  obtain ⟨behind, hptr⟩ := s.ptr_eq
  have hle : (lengthByte s.ptr).toNat ≤ s.chars.length := by
    rw [s.toNat_lengthByte, if_neg (by omega)]
    split
    · omega
    · omega
  apply List.count_eq_zero.mpr
  intro hnull
  rw [hptr, List.take_append_of_le_length (by rw [← hptr]; exact hle)]
    at hnull
  exact s.null_not_mem (List.mem_of_mem_take hnull)

end CString

/-! ## Calls -/

/-- A call of `pack`. -/
inductive Call : Type 1 where
  | value {T : Type} [Pod T] (data : T)
  | str (s : CString)

namespace Call

/-- A value is encoded as its bytes, and a string as its length with the null,
the characters and the null. -/
def encode : Call → List UInt8
  | @Call.value _ _ data => Pod.toBytes data
  | .str s => UInt8.ofNat (s.chars.length + 1) :: (s.chars ++ [0])

end Call

def packCall (p : Packer) : Call → Except Fault (Bool × Packer)
  | @Call.value _ _ data => p.pack data
  | .str s => p.packStr s.ptr

/-- The encodings of the calls that succeeded, in order. -/
def packed (calls : List Call) (answers : List Bool) : List UInt8 :=
  (acceptedInputs id calls answers).flatMap Call.encode

/-- What a call is to add. -/
def Call.expected (call : Call) (done : Bool) : List UInt8 :=
  if done then call.encode else []

theorem packed_cons (call : Call) (calls : List Call) (done : Bool)
    (answers : List Bool) :
    packed (call :: calls) (done :: answers) =
      call.expected done ++ packed calls answers := by
  cases done with
  | true => exact List.flatMap_cons
  | false => rfl

/-- The calls return, and the packet holds its initial data and what was
packed successfully. -/
def LeavesExactly (p : Packer) (calls : List Call) : Prop :=
  ∃ answers q, feed packCall p calls = .ok (answers, q) ∧
    q.packet.payload = p.packet.payload ++ packed calls answers

/-- A string meets no space at all, or is not too long and meets enough. -/
def Fits (space : Nat) : Call → Prop
  | @Call.value _ _ _ => True
  | .str s => space = 0 ∨
      (s.chars.length ≤ 254 ∧ s.chars.length + 2 ≤ space)

/-- The space after a call that fits. -/
def spaceAfter (space : Nat) : Call → Nat
  | @Call.value T _ _ =>
      if space < Pod.size T then space else space - Pod.size T
  | .str s => space - (s.chars.length + 2)

/-- Every string fits when it is packed. -/
def AllFit (space : Nat) (calls : List Call) : Prop :=
  Meets Fits (fun space call => some (spaceAfter space call)) space calls

theorem allFit_cons (space : Nat) (call : Call) (calls : List Call) :
    AllFit space (call :: calls) ↔
      Fits space call ∧ AllFit (spaceAfter space call) calls := by
  rw [AllFit, Meets]
  apply and_congr_right
  intro _
  constructor
  · intro h
    exact h _ rfl
  · intro h space' hspace
    cases hspace
    exact h

/-! ## What was added and what was expected -/

/-- The bytes that were added have no more nulls than those expected, with as
many nulls they are no fewer, and with as many bytes too, all is well. -/
def Weighs (added expected : List UInt8) (ok : Prop) : Prop :=
  added.count 0 ≤ expected.count 0 ∧
    (added.count 0 = expected.count 0 → expected.length ≤ added.length ∧
      (expected.length = added.length → ok))

section Weighs

variable {added expected added' expected' : List UInt8} {ok ok' : Prop}

theorem Weighs.refl (bs : List UInt8) (h : ok) : Weighs bs bs ok :=
  ⟨Nat.le_refl _, fun _ => ⟨Nat.le_refl _, fun _ => h⟩⟩

theorem Weighs.ok_of_eq (h : Weighs added expected ok)
    (heq : added = expected) : ok := by
  rw [heq] at h
  exact (h.2 rfl).2 rfl

theorem Weighs.imp (h : Weighs added expected ok) (himp : ok → ok') :
    Weighs added expected ok' :=
  ⟨h.1, fun hcount => ⟨(h.2 hcount).1, fun hlen => himp ((h.2 hcount).2 hlen)⟩⟩

/-- The comparison is kept when more bytes follow. -/
theorem Weighs.append (h : Weighs added expected ok)
    (h' : Weighs added' expected' ok') :
    Weighs (added ++ added') (expected ++ expected') (ok ∧ ok') := by
  have hle := h.1
  have hle' := h'.1
  rw [Weighs, List.count_append, List.count_append, List.length_append,
    List.length_append]
  refine ⟨Nat.add_le_add hle hle', fun hcount => ?_⟩
  obtain ⟨hlen, hok⟩ := h.2 (by omega)
  obtain ⟨hlen', hok'⟩ := h'.2 (by omega)
  refine ⟨Nat.add_le_add hlen hlen', fun hsame => ⟨hok ?_, hok' ?_⟩⟩
  · omega
  · omega

end Weighs

/-- A length byte that is left behind weighs, unless it is a null. -/
private theorem weighs_lengthByte {s : CString} {ok : Prop}
    (hpos : 0 < (lengthByte s.ptr).toNat) : Weighs [lengthByte s.ptr] [] ok := by
  have hne : lengthByte s.ptr ≠ 0 := by
    intro hzero
    rw [hzero] at hpos
    cases hpos
  rw [Weighs, List.count_singleton, if_neg (by simpa using hne)]
  refine ⟨Nat.le_refl _, fun _ => ⟨Nat.zero_le _, fun hlen => ?_⟩⟩
  cases hlen

/-- A string that is cut off lacks the null at its end. -/
private theorem weighs_cut {s : CString} {ok : Prop}
    (hlong : 254 < s.chars.length) :
    Weighs (lengthByte s.ptr :: s.ptr.take (lengthByte s.ptr).toNat)
      (Call.str s).encode ok := by
  have hadded : (lengthByte s.ptr :: s.ptr.take (lengthByte s.ptr).toNat).count
      0 = if s.chars.length = 255 then 1 else 0 := by
    have hzero : lengthByte s.ptr = 0 ↔ s.chars.length = 255 := by
      rw [← UInt8.toNat_inj, s.toNat_lengthByte, if_neg (by omega)]
      split
      · next h => exact ⟨fun _ => h, fun _ => rfl⟩
      · next h => exact ⟨fun h => (by cases h), fun h' => absurd h' h⟩
    rw [List.count_cons, s.count_take_long hlong, Nat.zero_add]
    simp only [beq_iff_eq, hzero]
  have hexpected : (Call.str s).encode.count 0 =
      (if UInt8.ofNat (s.chars.length + 1) = 0 then 1 else 0) + 1 := by
    have hchars : s.chars.count 0 = 0 :=
      List.count_eq_zero.mpr s.null_not_mem
    rw [Call.encode, List.count_cons, List.count_append, hchars]
    simp only [beq_iff_eq]
    rw [Nat.add_comm]
    rfl
  have hless : (lengthByte s.ptr :: s.ptr.take (lengthByte s.ptr).toNat).count
      0 < (Call.str s).encode.count 0 := by
    rw [hadded, hexpected]
    by_cases hwrap : s.chars.length = 255
    · rw [if_pos hwrap, hwrap]
      decide
    · rw [if_neg hwrap]
      exact Nat.succ_pos _
  exact ⟨Nat.le_of_lt hless, fun h => absurd h (Nat.ne_of_lt hless)⟩

section Packing

variable {p : Packer} {capacity : Nat} {cmd : UInt8} {bs : List UInt8}

/-- What one call does: it adds some bytes, which weigh against what it was to
add, and are just that if the call fits. -/
def Adds (capacity : Nat) (cmd : UInt8) (bs : List UInt8) (call : Call)
    (r : Except Fault (Bool × Packer)) : Prop :=
  ∃ done q added, r = .ok (done, q) ∧
    q.packet.Holds capacity cmd (bs ++ added) ∧
    Weighs added (call.expected done) (Fits (capacity - bs.length) call) ∧
    (Fits (capacity - bs.length) call → added = call.expected done ∧
      capacity - (bs ++ added).length =
        spaceAfter (capacity - bs.length) call)

/-- A call that adds what it was to add, and fits. -/
private theorem adds_expected {call : Call} (done : Bool) {q : Packer}
    (hq : q.packet.Holds capacity cmd (bs ++ call.expected done))
    (hfits : Fits (capacity - bs.length) call)
    (hspace : capacity - (bs ++ call.expected done).length =
      spaceAfter (capacity - bs.length) call) :
    Adds capacity cmd bs call (.ok (done, q)) :=
  ⟨done, q, call.expected done, rfl, hq, .refl _ hfits,
    fun _ => ⟨rfl, hspace⟩⟩

/-- A call that is refused, adds nothing and fits. -/
private theorem adds_nothing {call : Call}
    (h : p.packet.Holds capacity cmd bs)
    (hfits : Fits (capacity - bs.length) call)
    (hspace : capacity - bs.length = spaceAfter (capacity - bs.length) call) :
    Adds capacity cmd bs call (.ok (false, p)) := by
  have hbs : bs ++ call.expected false = bs := List.append_nil bs
  apply adds_expected false
  · rw [hbs]
    exact h
  · exact hfits
  · rw [hbs]
    exact hspace

/-- A call that does not fit, and adds something else. -/
private theorem adds_misfit {call : Call} (done : Bool) {q : Packer}
    {added : List UInt8} (hq : q.packet.Holds capacity cmd (bs ++ added))
    (hweighs : ∀ ok, Weighs added (call.expected done) ok)
    (hnot : ¬ Fits (capacity - bs.length) call) :
    Adds capacity cmd bs call (.ok (done, q)) :=
  ⟨done, q, added, rfl, hq, hweighs _, fun hfits => absurd hfits hnot⟩

private theorem adds_value {T : Type} [Pod T]
    (h : p.packet.Holds capacity cmd bs) (data : T) :
    Adds capacity cmd bs (.value data) (p.pack data) := by
  have hfits := h.length_le
  by_cases hroom : bs.length + Pod.size T ≤ capacity
  · obtain ⟨q, hpack, hq⟩ := Packer.pack_room h data hroom
    rw [hpack]
    apply adds_expected true hq
    · exact trivial
    · show capacity - (bs ++ Pod.toBytes data).length = if _ then _ else _
      rw [if_neg (by omega), List.length_append, Pod.length_toBytes]
      omega
  · rw [Packer.pack_full h (by omega) data]
    apply adds_nothing h
    · exact trivial
    · show _ = if _ then _ else _
      rw [if_pos (by omega)]

/-- There is space for the length byte and what it counts. -/
private theorem adds_str_room (h : p.packet.Holds capacity cmd bs)
    (s : CString)
    (hroom : bs.length + 1 + (lengthByte s.ptr).toNat ≤ capacity) :
    Adds capacity cmd bs (.str s) (p.packStr s.ptr) := by
  obtain ⟨q, hpack, hq⟩ := Packer.packStr_room h s.ptr hroom
    (Nat.le_trans s.toNat_lengthByte_le s.length_lt)
  rw [hpack]
  by_cases hshort : s.chars.length ≤ 254
  · have hcount := s.toNat_lengthByte
    rw [if_pos hshort] at hcount
    have hbyte : lengthByte s.ptr = UInt8.ofNat (s.chars.length + 1) := by
      rw [s.lengthByte_eq, Nat.min_eq_left (by omega)]
    rw [s.take_short hshort, hbyte] at hq
    apply adds_expected true hq
    · exact .inr ⟨hshort, by omega⟩
    · show capacity - (bs ++ _ :: (s.chars ++ [0])).length =
        capacity - bs.length - (s.chars.length + 2)
      rw [List.length_append, List.length_cons, List.length_append,
        List.length_singleton]
      omega
  · apply adds_misfit true hq
    · intro ok
      exact weighs_cut (Nat.not_le.mp hshort)
    · intro hfits
      cases hfits with
      | inl hnone => omega
      | inr hfits => exact absurd hfits.1 hshort

/-- There is space for the length byte alone. -/
private theorem adds_str_partial (h : p.packet.Holds capacity cmd bs)
    (s : CString) (hbyte : bs.length < capacity)
    (hfull : capacity < bs.length + 1 + (lengthByte s.ptr).toNat) :
    Adds capacity cmd bs (.str s) (p.packStr s.ptr) := by
  obtain ⟨q, hpack, hq⟩ := Packer.packStr_partial h s.ptr hbyte hfull
  rw [hpack]
  apply adds_misfit false hq
  · intro ok
    exact weighs_lengthByte (by omega)
  · intro hfits
    have hcount := s.toNat_lengthByte
    cases hfits with
    | inl hnone => omega
    | inr hfits =>
        rw [if_pos hfits.1] at hcount
        omega

private theorem adds_str (h : p.packet.Holds capacity cmd bs) (s : CString) :
    Adds capacity cmd bs (.str s) (p.packStr s.ptr) := by
  have hfits := h.length_le
  by_cases hfull : bs.length = capacity
  · rw [Packer.packStr_full h hfull]
    apply adds_nothing h
    · exact .inl (by omega)
    · show _ = capacity - bs.length - _
      omega
  · by_cases hroom : bs.length + 1 + (lengthByte s.ptr).toNat ≤ capacity
    · exact adds_str_room h s hroom
    · exact adds_str_partial h s (by omega) (Nat.not_le.mp hroom)

/-- **One call.** -/
theorem packCall_eq (h : p.packet.Holds capacity cmd bs) (call : Call) :
    Adds capacity cmd bs call (packCall p call) := by
  cases call with
  | value data => exact adds_value h data
  | str s => exact adds_str h s

/-- **Any calls** add some bytes, which weigh against what was packed
successfully, and are just that if every call fits. -/
theorem feed_packCall (h : p.packet.Holds capacity cmd bs)
    (calls : List Call) :
    ∃ answers q added, feed packCall p calls = .ok (answers, q) ∧
      q.packet.Holds capacity cmd (bs ++ added) ∧
      Weighs added (packed calls answers)
        (AllFit (capacity - bs.length) calls) ∧
      (AllFit (capacity - bs.length) calls →
        added = packed calls answers) := by
  induction calls generalizing p bs with
  | nil =>
      refine ⟨[], p, [], rfl, ?_, .refl [] trivial, fun _ => rfl⟩
      rw [List.append_nil]
      exact h
  | cons call calls ih =>
      obtain ⟨done, p₁, added, hcall, h₁, hweighs, hfit⟩ := packCall_eq h call
      obtain ⟨answers, p₂, added', hfeed, h₂, hweighs', hfit'⟩ := ih h₁
      refine ⟨done :: answers, p₂, added ++ added', ?_, ?_, ?_, ?_⟩
      · simp only [feed, hcall, hfeed]
      · rw [← List.append_assoc]
        exact h₂
      · rw [packed_cons, allFit_cons]
        apply (hweighs.append hweighs').imp
        rintro ⟨hfits, hrest⟩
        rw [(hfit hfits).2] at hrest
        exact ⟨hfits, hrest⟩
      · rw [packed_cons, allFit_cons]
        rintro ⟨hfits, hrest⟩
        rw [← (hfit hfits).2] at hrest
        rw [(hfit hfits).1, hfit' hrest]

end Packing

/-- **When packing leaves no trace of what failed.**  For every packet, its
initial data and all calls: the packet holds its initial data and the
encodings of what was packed successfully if and only if every string that is
packed has at most 254 characters and space for its encoding, or meets no
space at all. -/
theorem packs_iff {p : Packer} {capacity : Nat} {cmd : UInt8}
    {bs : List UInt8} (h : p.packet.Holds capacity cmd bs)
    (calls : List Call) :
    LeavesExactly p calls ↔ AllFit p.packet.getSpaceRemaining calls := by
  obtain ⟨answers, q, added, hfeed, hq, hweighs, hfit⟩ :=
    feed_packCall h calls
  rw [h.getSpaceRemaining]
  constructor
  · rintro ⟨answers', q', hfeed', hpayload⟩
    rw [hfeed] at hfeed'
    cases hfeed'
    rw [hq.payload, h.payload] at hpayload
    exact hweighs.ok_of_eq (List.append_cancel_left hpayload)
  · intro hall
    refine ⟨answers, q, hfeed, ?_⟩
    rw [hq.payload, h.payload, hfit hall]

/-- An empty packet with room for 16 bytes. -/
def emptyPacket : Packet := .new (List.replicate 16 0) 0

theorem holds_emptyPacket : emptyPacket.Holds 16 0 [] :=
  ⟨rfl, rfl, Nat.zero_le _, rfl⟩

/-- "123456789 123456". -/
def tooLong : CString where
  ptr := [0x31, 0x32, 0x33, 0x34, 0x35, 0x36, 0x37, 0x38, 0x39, 0x20, 0x31,
    0x32, 0x33, 0x34, 0x35, 0x36, 0x00]
  terminated := by decide

theorem packs_iff_twoFields :
    LeavesExactly ⟨emptyPacket⟩
        [.value (0x11 : UInt8), .str ⟨[0x41, 0x42, 0x43, 0x00], by decide⟩] ↔
      AllFit emptyPacket.getSpaceRemaining
        [.value (0x11 : UInt8), .str ⟨[0x41, 0x42, 0x43, 0x00], by decide⟩] :=
  packs_iff (p := ⟨emptyPacket⟩) holds_emptyPacket
    [.value (0x11 : UInt8), .str ⟨[0x41, 0x42, 0x43, 0x00], by decide⟩]

/-- A string that does not fit leaves its length byte. -/
theorem packs_fails :
    ¬ ∀ (p : Packer) (capacity : Nat) (cmd : UInt8) (bs : List UInt8),
      p.packet.Holds capacity cmd bs → ∀ calls : List Call,
        LeavesExactly p calls := by
  intro h
  obtain ⟨answers, q, hfeed, hpayload⟩ :=
    h ⟨emptyPacket⟩ 16 0 [] holds_emptyPacket [.str tooLong]
  have hrun : feed packCall ⟨emptyPacket⟩ [.str tooLong] = .ok ([false],
      ⟨⟨0, 16, 1, 0x11 :: List.replicate 15 0, 0, rfl⟩⟩) := rfl
  rw [hrun] at hfeed
  cases hfeed
  exact absurd hpayload (by decide)

end DuinoBus.DevicePacks
