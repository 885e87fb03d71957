import DuinoBus.DeviceFields
import DuinoBus.Verified.Along

/-!
# Reads of the device

An unpacker is called in any order, for values of any type, for bytes and for
strings, on data that need not be what the calls expect.  What a call does is
determined by the bytes that remain, and `reads_call` says which ones remain
after it.

Two things go wrong with strings.  `safeStrings_iff` says when every pointer
to a string that is handed out leads to a null inside the data, and
`refusals_iff` when every call that is refused leaves the unpacker as it was.
-/

namespace DuinoBus.DeviceReads

open DuinoBus.Wire
open DuinoBus.Verified
open DuinoBus.Cpp
open DuinoBus.Cpp.Unpacker (At Designates)
open DuinoBus.DeviceFields (cString cString_split)

/-- A call of `unpack`, with what the caller's variable contains before. -/
inductive Call : Type 1 where
  | value {T : Type} [Pod T] (var : T)
  | data (numBytes : Nat) (var : List UInt8)
  | str (var : List UInt8)

/-- The result of a call, and what the caller's variable contains then. -/
inductive Answer : Type 1 where
  | value {T : Type} (done : Bool) (var : T)
  | ptr (done : Bool) (var : List UInt8)

def Answer.done : Answer → Bool
  | .value done _ => done
  | .ptr done _ => done

def unpackCall (u : Unpacker) : Call → Except Fault (Answer × Unpacker)
  | @Call.value _ _ var => (u.unpackAs var).map fun r => (.value r.1 r.2.1, r.2.2)
  | .data numBytes var =>
      let r := u.unpackData numBytes var
      .ok (.ptr r.1 r.2.1, r.2.2)
  | .str var => (u.unpackStr var).map fun r => (.ptr r.1 r.2.1, r.2.2)

/-- What remains to be read after a call. -/
def remaining (rest : List UInt8) : Call → List UInt8
  | @Call.value T _ _ =>
      if rest.length < Pod.size T then rest else rest.drop (Pod.size T)
  | .data numBytes _ =>
      if rest.length < numBytes then rest else rest.drop numBytes
  | .str _ =>
      match rest with
      | [] => []
      | strLength :: text =>
          if text.length < strLength.toNat then text
          else text.drop strLength.toNat

section Calls

variable {packet : Packet} {u : Unpacker} {rest : List UInt8}

/-- **One call** returns, and leaves what it has not read. -/
theorem reads_call (h : At packet u rest) (call : Call) :
    ∃ answer u', unpackCall u call = .ok (answer, u') ∧
      At packet u' (remaining rest call) := by
  cases call with
  | @value T _ var =>
      rw [unpackCall, h.unpackAs_eq, remaining]
      split
      · exact ⟨_, _, rfl, h⟩
      · next hroom => exact ⟨_, _, rfl, h.drop (Nat.not_lt.mp hroom)⟩
  | data numBytes var =>
      rw [unpackCall, h.unpackData_eq, remaining]
      split
      · exact ⟨_, _, rfl, h⟩
      · next hroom => exact ⟨_, _, rfl, h.drop (Nat.not_lt.mp hroom)⟩
  | str var =>
      cases rest with
      | nil =>
          rw [unpackCall, h.unpackStr_nil]
          exact ⟨_, _, rfl, h⟩
      | cons strLength text =>
          rw [unpackCall, h.unpackStr_cons, remaining]
          split
          · exact ⟨_, _, rfl, h.pastLength⟩
          · next hroom =>
              exact ⟨_, _, rfl, h.pastLength.drop (Nat.not_lt.mp hroom)⟩

/-- **Any calls** return. -/
theorem feed_calls (h : At packet u rest) (calls : List Call) :
    ∃ answers u', feed unpackCall u calls = .ok (answers, u') := by
  induction calls generalizing u rest with
  | nil => exact ⟨[], u, rfl⟩
  | cons call calls ih =>
      obtain ⟨answer, u₁, hcall, h₁⟩ := reads_call h call
      obtain ⟨answers, u₂, hfeed⟩ := ih h₁
      exact ⟨answer :: answers, u₂, by simp only [feed, hcall, hfeed]⟩

/-- A condition on the bytes that remain at each call. -/
def MeetsAt (C : List UInt8 → Call → Prop) (rest : List UInt8)
    (calls : List Call) : Prop :=
  Meets C (fun rest call => some (remaining rest call)) rest calls

/-- A property of single calls that a condition on the bytes that remain
decides is decided by it over all calls. -/
theorem along_calls_iff {C : List UInt8 → Call → Prop}
    {P : Unpacker → Call → Except Fault (Answer × Unpacker) → Prop}
    (hcall : ∀ u rest call, At packet u rest →
      (P u call (unpackCall u call) ↔ C rest call))
    (h : At packet u rest) (calls : List Call) :
    Along unpackCall P u calls ↔ MeetsAt C rest calls := by
  have hgoverns : Governs C (fun rest call => some (remaining rest call))
      unpackCall P (At packet) := by
    refine ⟨fun u rest call hat => hcall u rest call hat, ?_, ?_⟩
    · intro u rest call answer u' hat _ hok
      obtain ⟨answer', u'', hreads, hat'⟩ := reads_call hat call
      rw [hok] at hreads
      cases hreads
      exact ⟨_, rfl, hat'⟩
    · intro u rest call e hat _ herror
      obtain ⟨answer', u'', hreads, _⟩ := reads_call hat call
      rw [herror] at hreads
      cases hreads
  exact hgoverns.along_iff h calls

end Calls

/-! ## Strings -/

/-- A null among some first bytes ends the string there. -/
theorem cString_of_null {ptr : List UInt8} {n : Nat} (h : 0 ∈ ptr.take n) :
    (cString ptr).length < n ∧ cString ptr ++ [0] <+: ptr := by
  obtain ⟨hnull, behind, hptr⟩ := cString_split (List.mem_of_mem_take h)
  constructor
  · apply Nat.lt_of_not_le
    intro hlen
    have htake : ptr.take n = (cString ptr).take n := by
      conv_lhs => rw [hptr]
      exact List.take_append_of_le_length hlen
    rw [htake] at h
    exact hnull (List.mem_of_mem_take h)
  · refine ⟨behind, ?_⟩
    rw [List.append_assoc]
    exact hptr.symm

/-- The call returns, and a pointer to a string that it hands out leads to a
null among the bytes that were consumed behind the length byte, so that the
string with its null lies inside the data. -/
def SafeString (packet : Packet) (u : Unpacker) (call : Call)
    (r : Except Fault (Answer × Unpacker)) : Prop :=
  ∃ answer u', r = .ok (answer, u') ∧
    ∀ old ptr, call = .str old → answer = .ptr true ptr →
      0 ∈ ptr.take (u.dataRemaining - 1 - u'.dataRemaining) ∧
        Designates packet ptr (cString ptr)

/-- A string that is all there has a null. -/
def Terminated (rest : List UInt8) : Call → Prop
  | .str _ => ∀ strLength text, rest = strLength :: text →
      strLength.toNat ≤ text.length → 0 ∈ text.take strLength.toNat
  | _ => True

section Strings

variable {packet : Packet} {u : Unpacker} {rest : List UInt8}

/-- A string that is read is safe exactly if its bytes have a null. -/
private theorem designates_iff {strLength : UInt8} {text : List UInt8}
    (h : At packet u (strLength :: text))
    (hroom : strLength.toNat ≤ text.length) :
    (0 ∈ u.pastLength.data.take
        (u.dataRemaining - 1 -
          (u.pastLength.dataRemaining - strLength.toNat)) ∧
      Designates packet u.pastLength.data (cString u.pastLength.data)) ↔
    0 ∈ text.take strLength.toNat := by
  have hpast := h.pastLength
  have hcount : u.pastLength.dataRemaining = text.length := hpast.remaining
  have hconsumed : u.dataRemaining - 1 -
      (u.pastLength.dataRemaining - strLength.toNat) = strLength.toNat := by
    have hsame : u.dataRemaining - 1 = u.pastLength.dataRemaining := rfl
    omega
  have htake : u.pastLength.data.take strLength.toNat =
      text.take strLength.toNat := hpast.take_eq hroom
  rw [hconsumed, htake]
  constructor
  · intro hsafe
    exact hsafe.1
  · intro hnull
    refine ⟨hnull, ?_, ?_⟩
    · obtain ⟨off, hplace, hoff⟩ := hpast.place
      rw [← htake] at hnull
      have hlen := (cString_of_null hnull).1
      refine ⟨off, hplace, ?_⟩
      omega
    · rw [← htake] at hnull
      exact (cString_of_null hnull).2

/-- A call for a string behind its length byte. -/
private theorem safeString_cons_iff {strLength : UInt8} {text : List UInt8}
    (h : At packet u (strLength :: text)) (var : List UInt8) :
    SafeString packet u (.str var) (unpackCall u (.str var)) ↔
      Terminated (strLength :: text) (.str var) := by
  rw [unpackCall, h.unpackStr_cons]
  by_cases hshort : text.length < strLength.toNat
  · rw [if_pos hshort]
    constructor
    · intro _ n text' hrest hroom
      cases hrest
      exact absurd hshort (Nat.not_lt.mpr hroom)
    · intro _
      refine ⟨_, _, rfl, ?_⟩
      intro old ptr _ hanswer
      cases hanswer
  · have hroom := Nat.not_lt.mp hshort
    rw [if_neg hshort]
    constructor
    · rintro ⟨answer, u', hok, hsafe⟩ n text' hrest _
      cases hok
      cases hrest
      exact (designates_iff h hroom).mp (hsafe var _ rfl rfl)
    · intro hnull
      refine ⟨_, _, rfl, ?_⟩
      intro old ptr _ hanswer
      cases hanswer
      exact (designates_iff h hroom).mpr (hnull strLength text rfl hroom)

/-- **One call** is safe exactly if the string that it finds has a null. -/
theorem safeString_iff (h : At packet u rest) (call : Call) :
    SafeString packet u call (unpackCall u call) ↔ Terminated rest call := by
  obtain ⟨answer, u', hreads, _⟩ := reads_call h call
  cases call with
  | value var =>
      refine ⟨fun _ => trivial, fun _ => ⟨answer, u', hreads, ?_⟩⟩
      intro old ptr hcall
      cases hcall
  | data numBytes var =>
      refine ⟨fun _ => trivial, fun _ => ⟨answer, u', hreads, ?_⟩⟩
      intro old ptr hcall
      cases hcall
  | str var =>
      cases rest with
      | nil =>
          rw [unpackCall, h.unpackStr_nil]
          constructor
          · intro _ strLength text hrest
            cases hrest
          · intro _
            refine ⟨_, _, rfl, ?_⟩
            intro old ptr _ hanswer
            cases hanswer
      | cons strLength text => exact safeString_cons_iff h var

end Strings

/-- **When strings are safe.**  For all data and all calls: every pointer to a
string that is handed out leads to a null inside the data if and only if every
string that is all there when it is unpacked has a null. -/
theorem safeStrings_iff {packet : Packet} {capacity : Nat} {cmd : UInt8}
    {bs : List UInt8} (h : packet.Holds capacity cmd bs) (u : Unpacker)
    (calls : List Call) :
    Along unpackCall (SafeString packet) (u.setData packet) calls ↔
      MeetsAt Terminated bs calls := by
  refine along_calls_iff ?_ (Unpacker.at_setData h u) calls
  intro u rest call hat
  exact safeString_iff hat call

/-- A packet with these data, and no more storage. -/
def packetOf (bs : List UInt8) : Packet :=
  { Packet.new bs 0 with dataLen := bs.length }

theorem holds_packetOf (bs : List UInt8) :
    (packetOf bs).Holds bs.length 0 bs :=
  ⟨rfl, rfl, Nat.le_refl _, List.take_length⟩

theorem safeStrings_iff_twoFields :
    Along unpackCall (SafeString (packetOf [0x07, 0x02, 0x41, 0x00]))
        (Unpacker.setData ⟨[], 0⟩ (packetOf [0x07, 0x02, 0x41, 0x00]))
        [.value (0 : UInt8), .str []] ↔
      MeetsAt Terminated [0x07, 0x02, 0x41, 0x00]
        [.value (0 : UInt8), .str []] :=
  safeStrings_iff (holds_packetOf [0x07, 0x02, 0x41, 0x00]) ⟨[], 0⟩
    [.value (0 : UInt8), .str []]

/-- A length byte of 0 is a string without a null. -/
theorem safeStrings_fails :
    ¬ ∀ (packet : Packet) (capacity : Nat) (cmd : UInt8) (bs : List UInt8),
      packet.Holds capacity cmd bs → ∀ (u : Unpacker) (calls : List Call),
        Along unpackCall (SafeString packet) (u.setData packet) calls := by
  intro h
  have hholds := holds_packetOf [0x00]
  have hat := Unpacker.at_setData hholds ⟨[], 0⟩
  have hsafe := (h _ _ _ _ hholds ⟨[], 0⟩ [.str []]).1
  have hnull : 0 ∈ ([] : List UInt8) :=
    (safeString_iff hat (.str [])).mp hsafe 0x00 [] rfl (Nat.le_refl 0)
  cases hnull

/-! ## Refused calls -/

/-- The text of a string that is unpacked is all there. -/
def Complete (rest : List UInt8) : Call → Prop
  | .str _ => ∀ strLength text, rest = strLength :: text →
      strLength.toNat ≤ text.length
  | _ => True

/-- A call that is refused leaves the unpacker as it was, and leaving out the
calls that are refused changes nothing for the others. -/
def RefusalsLeaveNoTrace (u : Unpacker) (calls : List Call) : Prop :=
  Along unpackCall (Unmoved Answer.done) u calls ∧
    ∃ answers u', feed unpackCall u calls = .ok (answers, u') ∧
      feed unpackCall u (acceptedInputs Answer.done calls answers) =
        .ok (answers.filter Answer.done, u')

section Refusals

variable {packet : Packet} {u : Unpacker} {rest : List UInt8}

/-- A call for a string behind its length byte. -/
private theorem unmoved_cons_iff {strLength : UInt8} {text : List UInt8}
    (h : At packet u (strLength :: text)) (var : List UInt8) :
    Unmoved Answer.done u (Call.str var) (unpackCall u (.str var)) ↔
      Complete (strLength :: text) (.str var) := by
  rw [unpackCall, h.unpackStr_cons]
  by_cases hshort : text.length < strLength.toNat
  · rw [if_pos hshort]
    constructor
    · intro hunmoved
      have hsame : u.pastLength = u := hunmoved _ _ rfl rfl
      have hcount := congrArg Unpacker.dataRemaining hsame
      change u.dataRemaining - 1 = u.dataRemaining at hcount
      have hremaining : u.dataRemaining = text.length + 1 := h.remaining
      omega
    · intro hcomplete
      exact absurd hshort (Nat.not_lt.mpr (hcomplete strLength text rfl))
  · rw [if_neg hshort]
    constructor
    · intro _ n text' hrest
      cases hrest
      exact Nat.not_lt.mp hshort
    · intro _ answer u' hok hdone
      cases hok
      cases hdone

/-- **One call** that is refused leaves the unpacker as it was, unless it is
for a string that breaks off. -/
theorem unmoved_iff (h : At packet u rest) (call : Call) :
    Unmoved Answer.done u call (unpackCall u call) ↔ Complete rest call := by
  cases call with
  | value var =>
      refine ⟨fun _ => trivial, fun _ => ?_⟩
      intro answer u' hok hdone
      rw [unpackCall, h.unpackAs_eq] at hok
      split at hok
      · cases hok
        rfl
      · cases hok
        cases hdone
  | data numBytes var =>
      refine ⟨fun _ => trivial, fun _ => ?_⟩
      intro answer u' hok hdone
      rw [unpackCall, h.unpackData_eq] at hok
      split at hok
      · cases hok
        rfl
      · cases hok
        cases hdone
  | str var =>
      cases rest with
      | nil =>
          rw [unpackCall, h.unpackStr_nil]
          constructor
          · intro _ strLength text hrest
            cases hrest
          · intro _ answer u' hok _
            cases hok
            rfl
      | cons strLength text => exact unmoved_cons_iff h var

/-- What is refused leaves no trace exactly if each such call leaves the
unpacker as it was. -/
theorem refusalsLeaveNoTrace_iff (h : At packet u rest) (calls : List Call) :
    RefusalsLeaveNoTrace u calls ↔
      Along unpackCall (Unmoved Answer.done) u calls := by
  constructor
  · intro hnone
    exact hnone.1
  · intro hunmoved
    obtain ⟨answers, u', hfeed⟩ := feed_calls h calls
    exact ⟨hunmoved, answers, u', hfeed,
      feed_accepted Answer.done hunmoved hfeed⟩

end Refusals

/-- **When refused calls leave no trace.**  For all data and all calls: what
is refused leaves no trace if and only if the text of every string is all
there when it is unpacked. -/
theorem refusals_iff {packet : Packet} {capacity : Nat} {cmd : UInt8}
    {bs : List UInt8} (h : packet.Holds capacity cmd bs) (u : Unpacker)
    (calls : List Call) :
    RefusalsLeaveNoTrace (u.setData packet) calls ↔
      MeetsAt Complete bs calls := by
  have hat := Unpacker.at_setData h u
  rw [refusalsLeaveNoTrace_iff hat]
  refine along_calls_iff ?_ hat calls
  intro u rest call hat
  exact unmoved_iff hat call

theorem refusals_iff_twoFields :
    RefusalsLeaveNoTrace
        (Unpacker.setData ⟨[], 0⟩ (packetOf [0x02, 0x41, 0x00, 0x07]))
        [.str [], .value (0 : UInt16)] ↔
      MeetsAt Complete [0x02, 0x41, 0x00, 0x07]
        [.str [], .value (0 : UInt16)] :=
  refusals_iff (holds_packetOf [0x02, 0x41, 0x00, 0x07]) ⟨[], 0⟩
    [.str [], .value (0 : UInt16)]

/-- A string that breaks off has its length byte consumed. -/
theorem refusals_fails :
    ¬ ∀ (packet : Packet) (capacity : Nat) (cmd : UInt8) (bs : List UInt8),
      packet.Holds capacity cmd bs → ∀ (u : Unpacker) (calls : List Call),
        RefusalsLeaveNoTrace (u.setData packet) calls := by
  intro h
  have hholds := holds_packetOf [0x05, 0x41]
  have hat := Unpacker.at_setData hholds ⟨[], 0⟩
  have hunmoved := (h _ _ _ _ hholds ⟨[], 0⟩ [.str []]).1.1
  have hcomplete : (0x05 : UInt8).toNat ≤ [(0x41 : UInt8)].length :=
    (unmoved_iff hat (.str [])).mp hunmoved 0x05 [0x41] rfl
  exact absurd hcomplete (by decide)

end DuinoBus.DeviceReads
