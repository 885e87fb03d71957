import DuinoBus.LoggingDevice

/-!
# What a peer can do to a device that logs over its bus

With debugging off, a device with its own logger answers and complains, and
the host sorts that out: `reaches_host`.  But a peer can switch debugging on.
`harmless_or_hangs` says that the `DEBUG` commands that do so are the only
input that stops the device, whatever else it receives, and that each of them
does.
-/

namespace DuinoBus.RemoteDebug

open DuinoBus.Wire
open DuinoBus.Verified
open DuinoBus.Cpp
open DuinoBus.Cpp.CorePacketHandler (replyLength replyLength_le)
open DuinoBus.LoggingDevice
open DuinoBus.HostDemux (Demultiplexes runThread_new)

/-- A packet that the decoder accepts, in the surroundings in which it does,
leaves debugging off. -/
def Harmless : Verdict UInt8 × Surroundings → Prop
  | (.accepted cmd data _, env) => ¬ SwitchesOn env cmd data
  | _ => True

section Hang

variable (crc8 : UInt8 → UInt8 → UInt8) (lib : DuinoErrorLog)
  {capacity rspCapacity logCapacity : Nat} {log : PacketPtr}

/-- The receiver in the device loop. -/
def loop (capacity : Nat) : Transducer (Phase UInt8)
    (Bus.Round Surroundings) (Verdict UInt8 × Surroundings) where
  step ph r :=
    let next := (deviceReceiver crc8 capacity).step ph r.received
    (next.1, next.2, r.env)

theorem outputs_loop (capacity : Nat) (ph : Phase UInt8)
    (rounds : List (Bus.Round Surroundings)) :
    (loop crc8 capacity).outputs ph rounds =
      ((deviceReceiver crc8 capacity).machine.outputs ph
        (rounds.map Bus.Round.received)).zip (rounds.map Bus.Round.env) := by
  induction rounds generalizing ph with
  | nil => rfl
  | cons r rounds ih =>
      rw [Transducer.outputs_cons, ih]
      rfl

/-- With room for every reply, only a command that switches debugging on stops
the device. -/
private theorem reaction_eq {d : LoggingBus Surroundings} {ph : Phase UInt8}
    (h : Serving capacity rspCapacity logCapacity log false d ph)
    (hrsp : capacity = 0 ∨ max 20 (capacity - 1) ≤ rspCapacity)
    (r : Bus.Round Surroundings) :
    (Harmless ((loop crc8 capacity).out ph r) →
      ∃ packets, reaction crc8 lib rspCapacity logCapacity false r.env ph
        ((deviceReceiver crc8 capacity).step ph r.received).2 =
          .ok packets) ∧
      (¬ Harmless ((loop crc8 capacity).out ph r) →
        reaction crc8 lib rspCapacity logCapacity false r.env ph
          ((deviceReceiver crc8 capacity).step ph r.received).2 =
            .error .deep) := by
  have hout : (loop crc8 capacity).out ph r =
      (((deviceReceiver crc8 capacity).step ph r.received).2, r.env) := rfl
  rw [hout]
  cases hverdict : ((deviceReceiver crc8 capacity).step ph r.received).2 with
  | accepted cmd data sum =>
      have hbuf := (Receiver.step_accepted_iff _ _ _ _ _ _).mp hverdict
      have htracks := h.tracks
      rw [hbuf.2.1] at htracks
      have hlen := htracks.2.2.length_le
      rw [List.length_append, List.length_singleton] at hlen
      have hreply := replyLength_le cmd data
      have hfits : ¬ rspCapacity < replyLength cmd data := by omega
      have hanswer : reaction crc8 lib rspCapacity logCapacity false r.env ph
          (.accepted cmd data sum) =
          answer lib rspCapacity logCapacity r.env cmd data := rfl
      rw [hanswer, answer, if_neg hfits]
      constructor
      · intro hharmless
        rw [if_neg (show ¬ SwitchesOn r.env cmd data from hharmless)]
        split
        · exact ⟨_, rfl⟩
        · exact ⟨_, rfl⟩
      · intro hharmful
        rw [if_pos (not_not.mp hharmful)]
  | mismatch => exact ⟨fun _ => ⟨_, rfl⟩, fun hnot => absurd trivial hnot⟩
  | pending => exact ⟨fun _ => ⟨_, rfl⟩, fun hnot => absurd trivial hnot⟩
  | short => exact ⟨fun _ => ⟨_, rfl⟩, fun hnot => absurd trivial hnot⟩
  | overflow => exact ⟨fun _ => ⟨_, rfl⟩, fun hnot => absurd trivial hnot⟩

/-- The device goes on as long as nothing switches debugging on, and does not
get beyond what does. -/
theorem drivesWhile (hrsp : capacity = 0 ∨ max 20 (capacity - 1) ≤ rspCapacity)
    (hroom : 3 ≤ logCapacity) (depth : Nat) :
    DrivesWhile (LoggingBus.serve crc8 lib (depth + 1)) (loop crc8 capacity) id
      (Serving capacity rspCapacity logCapacity log false) Harmless
      .deep where
  step_ok := by
    intro d ph r h hharmless
    obtain ⟨packets, hreaction⟩ := (reaction_eq crc8 lib h hrsp r).1 hharmless
    have halike := alike_serve crc8 lib depth h hroom r
    simp only [react, hreaction, bind, Except.bind, pure, Except.pure] at halike
    generalize d.serve crc8 lib (depth + 1) r = outcome at halike ⊢
    cases halike with
    | ok _ hserving => exact ⟨_, _, rfl, hserving⟩
  step_error := by
    intro d ph r h hharmful
    have hreaction := (reaction_eq crc8 lib h hrsp r).2 hharmful
    have halike := alike_serve crc8 lib depth h hroom r
    simp only [react, hreaction, bind, Except.bind] at halike
    generalize d.serve crc8 lib (depth + 1) r = outcome at halike ⊢
    cases halike with
    | error _ => rfl

end Hang

/-- No packet that the decoder accepts, in the surroundings in which it does,
switches debugging on. -/
def NeverSwitchesOn (crc8 : UInt8 → UInt8 → UInt8) (cmdPacket : Packet)
    (rounds : List (Bus.Round Surroundings)) : Prop :=
  ∀ reports d, (PacketDecoder.new cmdPacket).decodeAll crc8
      (rounds.map Bus.Round.received) = .ok (reports, d) →
    ∀ cmd data sum env,
      (.packet cmd data sum, env) ∈ reports.zip (rounds.map Bus.Round.env) →
        ¬ SwitchesOn env cmd data

private theorem neverSwitchesOn_iff (crc8 : UInt8 → UInt8 → UInt8)
    (cmdPacket : Packet) (rounds : List (Bus.Round Surroundings)) :
    NeverSwitchesOn crc8 cmdPacket rounds ↔
      ∀ o ∈ (loop crc8 cmdPacket.maxDataLen).outputs .idle rounds,
        Harmless o := by
  obtain ⟨d, hdecode, _⟩ := PacketDecoder.decodeAll_eq crc8
    cmdPacket.maxDataLen (PacketDecoder.tracks_new cmdPacket)
    (rounds.map Bus.Round.received)
  rw [outputs_loop]
  constructor
  · rintro hnever ⟨v, env⟩ hmem
    have hall := hnever _ d hdecode
    rw [List.zip_map_left] at hall
    cases v with
    | accepted cmd data sum =>
        exact hall cmd data sum env (List.mem_map_of_mem hmem)
    | pending => exact trivial
    | mismatch => exact trivial
    | short => exact trivial
    | overflow => exact trivial
  · intro hall reports d' hreports cmd data sum env hmem
    rw [hdecode] at hreports
    cases hreports
    rw [List.zip_map_left] at hmem
    obtain ⟨⟨v, env'⟩, hmem, heq⟩ := List.mem_map.mp hmem
    obtain ⟨hreport, rfl⟩ := Prod.mk.inj heq
    have hverdict : v = .accepted cmd data sum := report_injective hreport
    subst hverdict
    exact hall _ hmem

/-- **Stopped by `DEBUG` commands, and by nothing else.**  A device in quiet
mode, with three packets, its logger on its own bus, and room for every reply
and an empty message: on any received bytes, it serves all rounds if no packet
that its decoder accepts switches debugging on, and otherwise the calls of
`writePacket` nest deeper than any bound. -/
theorem harmless_or_hangs (crc8 : UInt8 → UInt8 → UInt8) (lib : DuinoErrorLog)
    (store : PacketPtr → Packet) {cmd rsp log : PacketPtr} (escapeChar : UInt8)
    (hcmd_rsp : cmd ≠ rsp) (hcmd_log : cmd ≠ log) (hrsp_log : rsp ≠ log)
    (hrsp : (store cmd).maxDataLen = 0 ∨
      max 20 ((store cmd).maxDataLen - 1) ≤ (store rsp).maxDataLen)
    (hroom : 3 ≤ (store log).maxDataLen)
    (rounds : List (Bus.Round Surroundings)) (depth : Nat) :
    (NeverSwitchesOn crc8 (store cmd) rounds →
      ∃ written d', (device store cmd rsp log escapeChar false).serveAll crc8
        lib (depth + 1) rounds = .ok (written, d')) ∧
    (¬ NeverSwitchesOn crc8 (store cmd) rounds →
      (device store cmd rsp log escapeChar false).serveAll crc8 lib (depth + 1)
        rounds = .error .deep) := by
  have hstart := serving_new store escapeChar false hcmd_rsp hcmd_log hrsp_log
  have hdrives := @drivesWhile crc8 lib _ _ _ log hrsp hroom depth
  rw [neverSwitchesOn_iff, ← List.map_id rounds]
  constructor
  · intro hall
    rw [List.map_id]
    obtain ⟨written, d', hserve, _⟩ := hdrives.feed_ok hstart hall
    exact ⟨written, d', hserve⟩
  · intro hnot
    rw [List.map_id]
    exact hdrives.feed_error hstart hnot

/-- A `PING`, and a `DEBUG` command with the lowest flag. -/
theorem harmless_or_hangs_debug :
    (NeverSwitchesOn crc8Poly07 (packets 0) (roundsOf
        (frames crc8Poly07 [(0x01, [7]), (0x02, [1, 0, 0, 0])])) →
      ∃ written d', (device packets 0 1 2 0 false).serveAll crc8Poly07
        plainLog (0 + 1) (roundsOf
          (frames crc8Poly07 [(0x01, [7]), (0x02, [1, 0, 0, 0])])) =
            .ok (written, d')) ∧
    (¬ NeverSwitchesOn crc8Poly07 (packets 0) (roundsOf
        (frames crc8Poly07 [(0x01, [7]), (0x02, [1, 0, 0, 0])])) →
      (device packets 0 1 2 0 false).serveAll crc8Poly07 plainLog (0 + 1)
        (roundsOf (frames crc8Poly07 [(0x01, [7]), (0x02, [1, 0, 0, 0])])) =
          .error .deep) :=
  harmless_or_hangs crc8Poly07 plainLog packets 0 (by decide) (by decide)
    (by decide) (.inr (by decide)) (by decide) _ 0

/-! ## On the host -/

/-- Everything that such a device sends fits into the packet of the host, if
its own packets are no larger. -/
private theorem fits_of_reaction {crc8 : UInt8 → UInt8 → UInt8}
    {lib : DuinoErrorLog} {rspCapacity logCapacity : Nat}
    (hrsp : rspCapacity ≤ 255) (hroom : 3 ≤ logCapacity)
    (hlog : logCapacity ≤ 255) {debug : Bool} {env : Surroundings}
    {ph : Phase UInt8} {v : Verdict UInt8} {ps : List (UInt8 × List UInt8)}
    (h : reaction crc8 lib rspCapacity logCapacity debug env ph v = .ok ps) :
    ∀ f ∈ ps, HostArrival.Fits f := by
  have hcomplaint : ∀ fmt args,
      HostArrival.Fits (complaint lib logCapacity fmt args) := by
    intro fmt args
    show (LogDelivery.logData logCapacity lib.errorLevel
      (lib.vStrXPrintf fmt args)).length + 1 ≤ 256
    simp only [LogDelivery.logData, LogMessages.message, LogBus.logged,
      List.length_cons, List.length_append, List.length_take, List.length_nil]
    omega
  cases v with
  | pending =>
      cases h
      exact fun f hf => by cases hf
  | short =>
      cases h
      exact fun f hf => by cases hf
  | overflow =>
      rw [reaction] at h
      split at h
      · cases h
      · cases h
        exact fun f hf => by cases hf
  | mismatch =>
      rw [reaction] at h
      split at h
      · cases h
      · cases h
        intro f hf
        rw [List.mem_singleton.mp hf]
        exact hcomplaint _ _
  | accepted cmd data sum =>
      rw [reaction] at h
      split at h
      · cases h
      · rw [answer] at h
        split at h
        · cases h
        · next hreply =>
            split at h
            · cases h
            · split at h
              · next rsp hrsp' =>
                  cases h
                  intro f hf
                  rw [List.mem_singleton.mp hf]
                  have hlen := CorePacketHandler.length_reply env cmd data
                  rw [hrsp', Option.getD_some] at hlen
                  show rsp.length + 1 ≤ 256
                  omega
              · cases h
                intro f hf
                rw [List.mem_singleton.mp hf]
                exact hcomplaint _ _

/-- **Responses and complaints reach the host.**  Whatever a device in quiet
mode receives, with a response packet and a log packet of at most 255 bytes,
as long as nothing should stop it: it writes the frames of what it should send,
and the receive thread of a host that polls them, with any polls that find
nothing in between, queues every response and logs every complaint, in order,
up to the first complaint that cannot be read. -/
theorem reaches_host (crc8 : UInt8 → UInt8 → UInt8) (lib : DuinoErrorLog)
    (store : PacketPtr → Packet) {cmd rsp log : PacketPtr} (escapeChar : UInt8)
    (hcmd_rsp : cmd ≠ rsp) (hcmd_log : cmd ≠ log) (hrsp_log : rsp ≠ log)
    (hrsp : (store rsp).maxDataLen ≤ 255) (hroom : 3 ≤ (store log).maxDataLen)
    (hlog : (store log).maxDataLen ≤ 255) (depth : Nat)
    {rounds : List (Bus.Round Surroundings)}
    {sent : List (List (UInt8 × List UInt8))} {ph : Phase UInt8}
    (hreact : feed (react crc8 lib (store cmd).maxDataLen
      (store rsp).maxDataLen (store log).maxDataLen false) .idle rounds =
        .ok (sent, ph)) :
    ∃ d', (device store cmd rsp log escapeChar false).serveAll crc8 lib
        (depth + 1) rounds = .ok (sent.map (frames crc8), d') ∧
      ∀ inputs : List (Option UInt8),
        inputs.filterMap id = (sent.map (frames crc8)).flatten →
          Demultiplexes crc8 inputs sent.flatten := by
  have halike := alike_serveAll crc8 lib store escapeChar false hcmd_rsp
    hcmd_log hrsp_log hroom depth rounds
  rw [hreact] at halike
  generalize (device store cmd rsp log escapeChar false).serveAll crc8 lib
    (depth + 1) rounds = outcome at halike ⊢
  cases halike with
  | @ok d' _ _ _ =>
      refine ⟨d', rfl, fun inputs hinputs => ?_⟩
      have hall := feed_forall (P := fun ps => ∀ f ∈ ps, HostArrival.Fits f)
        (fun ph r ps ph' hstep => by
          obtain ⟨packets, hreaction, hreturn⟩ := bind_ok hstep
          cases hreturn
          exact fits_of_reaction hrsp hroom hlog hreaction) hreact
      have hfits : ∀ f ∈ sent.flatten, HostArrival.Fits f := by
        intro f hf
        obtain ⟨ps, hps, hf⟩ := List.mem_flatten.mp hf
        exact hall ps hps f hf
      have hframes : inputs.filterMap id =
          sent.flatten.flatMap fun f => frame crc8 f.1 f.2 := by
        rw [hinputs, List.flatMap_def, List.map_flatten, List.flatten_flatten,
          List.map_map]
        rfl
      obtain ⟨host, hrun, hleft⟩ := runThread_new crc8 hfits hframes
      exact hleft.done hrun

/-- What is sent for a `PING` and a command that is not known. -/
def sentUnknown : List (List (UInt8 × List UInt8)) :=
  [[], [], [], [], [(0x01, [7])], [], [], [],
    [(LogBus.LOG, [2, 2, 0x3F, 0])]]

set_option maxRecDepth 10000 in
/-- The response is queued, and the complaint is logged. -/
theorem reaches_host_unknown :
    ∃ d', (device packets 0 1 2 0 false).serveAll crc8Poly07 plainLog (0 + 1)
        (roundsOf (frames crc8Poly07 [(0x01, [7]), (0x10, [])])) =
          .ok (sentUnknown.map (frames crc8Poly07), d') ∧
      ∀ inputs : List (Option UInt8),
        inputs.filterMap id =
            (sentUnknown.map (frames crc8Poly07)).flatten →
          Demultiplexes crc8Poly07 inputs sentUnknown.flatten :=
  @reaches_host crc8Poly07 plainLog packets 0 1 2 0 (by decide) (by decide)
    (by decide) (by decide) (by decide) (by decide) 0
    (roundsOf (frames crc8Poly07 [(0x01, [7]), (0x10, [])])) sentUnknown .idle
    rfl

end DuinoBus.RemoteDebug
