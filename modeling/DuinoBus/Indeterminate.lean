import DuinoBus.Cpp.CorePacketHandler

/-!
# Indeterminate memory

`handleDebug` unpacks the flags of a `DEBUG` command into an uninitialised
variable, and uses the variable whether or not there were any.

`noLeak_iff` compares two runs of the handler that differ in what the variable
contains before.  They come to the same for every command but a `DEBUG`
command with less than four bytes of data, and for that one only if the
response packet has no space for the flags, so that both stop.
-/

namespace DuinoBus.Indeterminate

open DuinoBus.Wire
open DuinoBus.Cpp
open DuinoBus.Cpp.CorePacketHandler

/-- The same return value, the same response packet, with its command, its
length and its data, and the same debug setting. -/
structure SameHandled (a b : Handled) : Prop where
  handled : a.handled = b.handled
  command : a.rsp.command = b.rsp.command
  dataLen : a.rsp.dataLen = b.rsp.dataLen
  payload : a.rsp.payload = b.rsp.payload
  debug : a.debug = b.debug

/-- Both calls return, and come to the same, or both stop alike. -/
def SameOutcome : Except Fault Handled → Except Fault Handled → Prop
  | .ok a, .ok b => SameHandled a b
  | .error e, .error e' => e = e'
  | _, _ => False

theorem SameOutcome.refl (r : Except Fault Handled) : SameOutcome r r := by
  cases r with
  | error e => rfl
  | ok a => exact ⟨rfl, rfl, rfl, rfl, rfl⟩

/-- Whatever the uninitialised variable contains, the handler comes to the
same. -/
def NoLeak (env : Surroundings) (cmd rsp : Packet) : Prop :=
  ∀ flags flags', SameOutcome
    (handlePacket { env with flags := flags } cmd rsp)
    (handlePacket { env with flags := flags' } cmd rsp)

section Debug

variable {cmdPacket rsp : Packet} {N capacity : Nat} {cmd c : UInt8}
  {data bs : List UInt8}

/-- The other handlers have no part in the variable. -/
private theorem handlePacket_flags (env : Surroundings) (flags : UInt32)
    (hcmd : cmdPacket.command ≠ DEBUG) :
    handlePacket { env with flags := flags } cmdPacket rsp =
      handlePacket env cmdPacket rsp := by
  rw [handlePacket, handlePacket, if_neg hcmd, if_neg hcmd]
  rfl

/-- The response to a `DEBUG` command, as a function of the flags. -/
def respondFlags (rsp : Packet) (flags : UInt32) : Except Fault Handled := do
  let rsp ← (rsp.setCommand DEBUG).append flags
  return ⟨true, rsp, some (decide (flags &&& 0x01 ≠ 0))⟩

/-- A `DEBUG` command is answered with its flags, or with what the variable
contains. -/
private theorem handlePacket_debug (env : Surroundings)
    (hc : cmdPacket.Holds N DEBUG data) :
    handlePacket env cmdPacket rsp =
      respondFlags rsp (debugFlags env data) := by
  obtain ⟨done, u, hunpack⟩ : ∃ done u,
      (Unpacker.new cmdPacket).unpack env.flags =
        .ok (done, debugFlags env data, u) := Unpacker.unpack_new hc env.flags
  have hping : ¬ cmdPacket.command = PING := by
    rw [hc.command]
    decide
  rw [handlePacket, if_neg hping, if_pos hc.command, handleDebug, hunpack]
  rfl

/-- Flags that there is space for are found in the response. -/
private theorem respondFlags_room (h : rsp.Holds capacity c bs)
    (hroom : bs.length + 4 ≤ capacity) (flags : UInt32) :
    ∃ q, respondFlags rsp flags =
        .ok ⟨true, q, some (decide (flags &&& 0x01 ≠ 0))⟩ := by
  obtain ⟨q, happend, _⟩ :=
    (h.setCommand DEBUG).appendData (Packet.bytesOf flags) hroom
  refine ⟨q, ?_⟩
  rw [respondFlags, Packet.append, Packet.appendAs, happend]
  rfl

/-- Flags that there is no space for trip the assertion. -/
private theorem respondFlags_full (h : rsp.Holds capacity c bs)
    (hfull : capacity < bs.length + 4) (flags : UInt32) :
    respondFlags rsp flags = .error .assertFailed := by
  have hdataLen := h.dataLen
  have hmax := h.maxDataLen
  have hfails : (rsp.setCommand DEBUG).append flags =
      .error .assertFailed := by
    apply Packet.appendData_fails
    show rsp.maxDataLen < rsp.dataLen + 4
    omega
  rw [respondFlags, hfails]
  rfl

/-- A command with all of its flags leaves nothing of the variable. -/
private theorem noLeak_long (env : Surroundings)
    (hc : cmdPacket.Holds N DEBUG data) (hlong : 4 ≤ data.length) :
    NoLeak env cmdPacket rsp := by
  intro flags flags'
  have hsame : ∀ flags, debugFlags { env with flags := flags } data =
      Unpacker.valueOf (data.take 4) := by
    intro flags
    rw [debugFlags, if_neg (Nat.not_lt.mpr hlong)]
  rw [handlePacket_debug _ hc, handlePacket_debug _ hc, hsame, hsame]
  exact .refl _

/-- A command without them leaks the variable, if there is space for it. -/
private theorem noLeak_short_iff (env : Surroundings)
    (hc : cmdPacket.Holds N DEBUG data) (hshort : data.length < 4)
    (hr : rsp.Holds capacity c bs) :
    NoLeak env cmdPacket rsp ↔ capacity < bs.length + 4 := by
  have hflags : ∀ flags, handlePacket { env with flags := flags }
      cmdPacket rsp = respondFlags rsp flags := by
    intro flags
    rw [handlePacket_debug _ hc, debugFlags, if_pos hshort]
  constructor
  · intro hnone
    by_contra hroom
    obtain ⟨q, hq⟩ := respondFlags_room hr (Nat.not_lt.mp hroom) 0
    obtain ⟨q', hq'⟩ := respondFlags_room hr (Nat.not_lt.mp hroom) 1
    have hsame := hnone 0 1
    rw [hflags, hflags, hq, hq'] at hsame
    have hdebug : decide ((0 : UInt32) &&& 0x01 ≠ 0) =
        decide ((1 : UInt32) &&& 0x01 ≠ 0) :=
      Option.some.inj hsame.debug
    exact absurd hdebug (by decide)
  · intro hfull flags flags'
    rw [hflags, hflags, respondFlags_full hr hfull,
      respondFlags_full hr hfull]
    exact .refl _

/-- The other commands have no part in the variable. -/
private theorem noLeak_other (env : Surroundings)
    (hcmd : cmdPacket.command ≠ DEBUG) : NoLeak env cmdPacket rsp := by
  intro flags flags'
  rw [handlePacket_flags env flags hcmd, handlePacket_flags env flags' hcmd]
  exact .refl _

/-- **When nothing leaks.**  For every command packet and response packet: the
handler comes to the same, whatever the uninitialised variable contains, if
and only if the command is not `DEBUG`, or has the four bytes of its flags, or
the response packet has no space for the flags. -/
theorem noLeak_iff (env : Surroundings) (hc : cmdPacket.Holds N cmd data)
    (hr : rsp.Holds capacity c bs) :
    NoLeak env cmdPacket rsp ↔
      cmd ≠ DEBUG ∨ 4 ≤ data.length ∨ rsp.getSpaceRemaining < 4 := by
  rw [hr.getSpaceRemaining]
  have hfits := hr.length_le
  by_cases hcmd : cmd = DEBUG
  · rw [hcmd] at hc
    by_cases hlong : 4 ≤ data.length
    · exact ⟨fun _ => .inr (.inl hlong), fun _ => noLeak_long env hc hlong⟩
    · rw [noLeak_short_iff env hc (Nat.not_le.mp hlong) hr]
      constructor
      · intro hfull
        exact .inr (.inr (by omega))
      · intro hcases
        rcases hcases with hne | hroom | hspace
        · exact absurd hcmd hne
        · exact absurd hroom hlong
        · omega
  · have hne : cmdPacket.command ≠ DEBUG := by
      rw [hc.command]
      exact hcmd
    exact ⟨fun _ => .inl hcmd, fun _ => noLeak_other env hne⟩

end Debug

/-- Nothing to report. -/
def noStatistics : Surroundings := ⟨0, 0, 0, 0, 0, 0, 0, 0, 0⟩

/-- A `DEBUG` command with these data. -/
def debugPacket (data : List UInt8) : Packet :=
  { Packet.new data 0 with command := DEBUG, dataLen := data.length }

theorem holds_debugPacket (data : List UInt8) :
    (debugPacket data).Holds data.length DEBUG data :=
  ⟨rfl, rfl, Nat.le_refl _, List.take_length⟩

/-- An empty response packet with room for the flags. -/
def rspPacket : Packet := .new [0, 0, 0, 0] 0

theorem holds_rspPacket : rspPacket.Holds 4 0 [] :=
  ⟨rfl, rfl, Nat.zero_le _, rfl⟩

theorem noLeak_iff_fourBytes :
    NoLeak noStatistics (debugPacket [0x01, 0, 0, 0]) rspPacket ↔
      DEBUG ≠ DEBUG ∨ 4 ≤ [(0x01 : UInt8), 0, 0, 0].length ∨
        rspPacket.getSpaceRemaining < 4 :=
  noLeak_iff noStatistics (holds_debugPacket [0x01, 0, 0, 0]) holds_rspPacket

/-- A `DEBUG` command without data is answered with what the variable
contains. -/
theorem noLeak_fails :
    ¬ ∀ (env : Surroundings) (cmdPacket rsp : Packet),
      cmdPacket.dataLen ≤ cmdPacket.maxDataLen →
        rsp.dataLen ≤ rsp.maxDataLen → NoLeak env cmdPacket rsp := by
  intro h
  have hsame := h noStatistics (debugPacket []) rspPacket (by decide)
    (by decide) 0 1
  have hdebug : (some false : Option Bool) = some true := hsame.debug
  cases hdebug

end DuinoBus.Indeterminate
