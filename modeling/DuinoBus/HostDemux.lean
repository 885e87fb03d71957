import DuinoBus.HostArrival
import DuinoBus.HostSurvival
import DuinoBus.Verified.Incoming
import DuinoBus.Verified.Reentrant

/-!
# Responses and log messages

The receive thread tells two kinds of packets apart: a log message is unpacked
and logged, any other packet is put in the queue.  `outcomes` is what should
come of a list of packets, up to the first log message that cannot be read,
which ends the thread.

`demultiplexes` says that this is what the thread does with any mixture of
frames, however its polls are spread over them.  What it puts in the queue is
always the packet of the decoder, which holds a response when it is put there,
and in the end whatever was processed last.
-/

namespace DuinoBus.HostDemux

open DuinoBus.Wire
open DuinoBus.Verified
open DuinoBus.Py
open DuinoBus.HostThread
open DuinoBus.HostArrival (Fits)
open DuinoBus.HostSurvival (logText unpackLog_cons)

/-- A packet that was processed, and what became of it. -/
abbrev Outcome := (UInt8 × List UInt8) × Except Fault Processed

/-- The thread until it ends: what its packet held each time it was processed,
what became of it, and the bus that the thread leaves. -/
def runThread (crc8 : UInt8 → UInt8 → UInt8) :
    Bus → List (Option UInt8) → List Outcome × Bus
  | bus, [] => ([], bus)
  | bus, input :: inputs =>
      match bus.receive crc8 input with
      | (.error f, bus') =>
          ([((bus'.packet.cmd, bus'.packet.data), .error f)], bus')
      | (.ok none, bus') => runThread crc8 bus' inputs
      | (.ok (some processed), bus') =>
          let (rest, bus'') := runThread crc8 bus' inputs
          (((bus'.packet.cmd, bus'.packet.data), .ok processed) :: rest, bus'')

/-! ## What should become of packets -/

/-- The level of the `logging` module for that of a log message: `NOTSET`,
`CRITICAL`, `ERROR`, `WARNING`, `INFO` and `DEBUG`, and `ERROR` for a level
that there is not. -/
def loggingLevel (level : UInt8) : Nat :=
  match level.toNat with
  | 0 => 0
  | 1 => 50
  | 2 => 40
  | 3 => 30
  | 4 => 20
  | 5 => 10
  | _ => 40

/-- What should become of a log message: its text is logged, without the null
at its end. -/
def logOutcome : List UInt8 → Except Fault Processed
  | level :: strLen :: cStr =>
      match String.fromUTF8? ⟨(logText (cStr.take strLen.toNat)).toArray⟩ with
      | some msg => .ok (.logged (loggingLevel level) msg)
      | none => .error .unicodeDecodeError
  | _ => .error .indexError

/-- What should become of a packet. -/
def outcome (f : UInt8 × List UInt8) : Except Fault Processed :=
  if f.1 = Bus.LOG then logOutcome f.2 else .ok .queued

/-- What should become of packets one after the other: nothing is done after
an exception. -/
def outcomes : List (UInt8 × List UInt8) → List Outcome
  | [] => []
  | f :: fs =>
      match outcome f with
      | .error e => [(f, .error e)]
      | .ok processed => (f, .ok processed) :: outcomes fs

/-- The packets that are put in the queue. -/
def queued (done : List Outcome) : List (UInt8 × List UInt8) :=
  (done.filter fun x => x.2 matches .ok .queued).map Prod.fst

theorem loggingLevel_eq (level : UInt8) :
    Bus.PYTHON_LOG_LEVEL.getD level.toNat Bus.ERROR_LEVEL =
      loggingLevel level := by
  unfold loggingLevel
  generalize level.toNat = n
  rcases n with _ | _ | _ | _ | _ | _ | n <;> rfl

/-- `unpackLog` does with log messages what should become of them. -/
theorem unpackLog_eq (pkt : Packet) :
    Bus.unpackLog pkt = logOutcome pkt.data := by
  rcases hdata : pkt.data with _ | ⟨level, _ | ⟨strLen, cStr⟩⟩
  · rw [Bus.unpackLog, hdata]
    rfl
  · rw [Bus.unpackLog, hdata]
    rfl
  · rw [unpackLog_cons hdata, Unpacker.decodeUtf8, loggingLevel_eq, logOutcome]
    cases String.fromUTF8? ⟨(logText (cStr.take strLen.toNat)).toArray⟩ with
    | none => rfl
    | some msg => rfl

theorem outcomes_eq_nil_iff (fs : List (UInt8 × List UInt8)) :
    outcomes fs = [] ↔ fs = [] := by
  cases fs with
  | nil => exact ⟨fun _ => rfl, fun _ => rfl⟩
  | cons f fs =>
      rw [outcomes]
      cases outcome f with
      | error e => simp
      | ok processed => simp

theorem queued_cons (x : Outcome) (done : List Outcome) :
    queued (x :: done) = queued [x] ++ queued done := by
  rw [queued, queued, queued, ← List.map_append, ← List.filter_append,
    List.singleton_append]

/-! ## One poll -/

section Polls

variable (crc8 : UInt8 → UInt8 → UInt8) {bus : Bus} {ph : Phase UInt8}

/-- A log message is not put in the queue. -/
theorem queued_of_log {f : UInt8 × List UInt8} (h : f.1 = Bus.LOG) :
    queued [(f, outcome f)] = [] := by
  rw [outcome, if_pos h]
  rcases f.2 with _ | ⟨level, _ | ⟨strLen, cStr⟩⟩
  · rfl
  · rfl
  · rw [logOutcome]
    cases String.fromUTF8? ⟨(logText (cStr.take strLen.toNat)).toArray⟩ with
    | none => rfl
    | some msg => rfl

/-- Processing the packet of the bus has its outcome, and puts the packet in
the queue if it is one for the queue. -/
theorem processDecoded_eq (bus : Bus) {f : UInt8 × List UInt8}
    (hf : (bus.packet.cmd, bus.packet.data) = f) :
    bus.processDecoded = ((outcome f).map some,
      { bus with
        recvQueue := bus.recvQueue ++
          (queued [(f, outcome f)]).map fun _ => bus.decoder.packet }) := by
  subst hf
  by_cases hlog : bus.packet.cmd = Bus.LOG
  · have houtcome : outcome (bus.packet.cmd, bus.packet.data) =
        logOutcome bus.packet.data := if_pos hlog
    have hprocess : bus.processPacket bus.decoder.packet = (do
        let processed ← logOutcome bus.packet.data
        return (processed, bus)) := by
      rw [← unpackLog_eq]
      exact if_pos hlog
    rw [queued_of_log hlog, List.map_nil, List.append_nil, Bus.processDecoded,
      hprocess, houtcome]
    cases logOutcome bus.packet.data with
    | error e => rfl
    | ok processed => rfl
  · have houtcome : outcome (bus.packet.cmd, bus.packet.data) = .ok .queued :=
      if_neg hlog
    rw [houtcome, Bus.processDecoded_queued hlog]
    rfl

theorem runThread_error {bus bus' : Bus} {input : Option UInt8} {e : Fault}
    (h : bus.receive crc8 input = (.error e, bus'))
    (inputs : List (Option UInt8)) :
    runThread crc8 bus (input :: inputs) =
      ([((bus'.packet.cmd, bus'.packet.data), .error e)], bus') := by
  rw [runThread, h]

theorem runThread_processed {bus bus' : Bus} {input : Option UInt8}
    {processed : Processed}
    (h : bus.receive crc8 input = (.ok (some processed), bus'))
    (inputs : List (Option UInt8)) :
    runThread crc8 bus (input :: inputs) =
      (((bus'.packet.cmd, bus'.packet.data), .ok processed) ::
        (runThread crc8 bus' inputs).1, (runThread crc8 bus' inputs).2) := by
  rw [runThread, h]

end Polls

/-! ## The thread -/

/-- What the thread leaves of the packet, the queue and the decoder when it has
processed some packets. -/
structure Left (bus : Bus) (done : List Outcome) (bus' : Bus) : Prop where
  /-- The packet of the decoder was put in the queue once for each response. -/
  queue : bus'.recvQueue = bus.recvQueue ++
    (queued done).map fun _ => bus.decoder.packet
  /-- It holds what was processed last. -/
  packet : ∀ x, done.getLast? = some x →
    (bus'.packet.cmd, bus'.packet.data) = x.1
  untouched : done = [] → bus'.packet = bus.packet
  owner : bus.SameOwner bus'

/-- **The receive thread tells responses from log messages.**  From anywhere
in a stream of frames that fit, with any number of polls that find nothing in
between: the packets have their outcomes, in order, up to the first log message
that cannot be read. -/
theorem runThread_eq (crc8 : UInt8 → UInt8 → UInt8) {bus : Bus}
    {ph : Phase UInt8} (htracks : bus.Tracks ph)
    {todo : List (UInt8 × List UInt8)} (hfits : ∀ f ∈ todo, Fits f)
    (inputs : List (Option UInt8))
    (hincoming : (hostReceiver crc8 Packet.MAX_DATA_LEN).Incoming todo
      (inputs.filterMap id) ph) :
    ∃ bus', runThread crc8 bus inputs = (outcomes todo, bus') ∧
      Left bus (outcomes todo) bus' := by
  induction inputs generalizing bus ph todo with
  | nil =>
      have htodo := hincoming.eq_nil_iff.mp rfl
      subst htodo
      refine ⟨bus, rfl, (List.append_nil _).symm, ?_, fun _ => rfl, rfl, rfl⟩
      intro x hx
      cases hx
  | cons input inputs ih =>
      cases input with
      | none => exact ih htracks hfits hincoming
      | some byte =>
        rw [List.filterMap_cons_some (show id (some byte) = some byte from rfl)]
          at hincoming
        rcases hincoming.next hfits with
          ⟨hout, hnext⟩ | ⟨f, todo', rfl, hout, _, hnext⟩
        · obtain ⟨bus₁, hreceive, htracks₁, hqueue₁, howner₁, _⟩ :=
            Bus.receive_pending crc8 htracks hout
          obtain ⟨bus₂, hrun, hleft⟩ := ih htracks₁ hfits hnext
          refine ⟨bus₂, ?_, ?_⟩
          · rw [runThread, hreceive]
            exact hrun
          · exact
              { queue := by rw [hleft.queue, hqueue₁, howner₁.1]
                packet := hleft.packet
                untouched := by
                  -- there are bytes left, so there are frames
                  intro hnone
                  rw [(outcomes_eq_nil_iff todo).mp hnone] at hincoming
                  have hbytes := hincoming.eq_nil_iff.mpr rfl
                  cases hbytes
                owner := ⟨hleft.owner.1.trans howner₁.1,
                  hleft.owner.2.trans howner₁.2⟩ }
        · obtain ⟨bus₁, htracks₁, hcmd, hdata, hqueue₁, howner₁, hreceive⟩ :=
            Bus.receive_accepted crc8 htracks hout
          have hf : (bus₁.packet.cmd, bus₁.packet.data) = f := by
            rw [hcmd, hdata]
          rw [processDecoded_eq bus₁ hf] at hreceive
          cases houtcome : outcome f with
          | error e =>
              have houtcomes : outcomes (f :: todo') = [(f, .error e)] := by
                simp only [outcomes, houtcome]
              have hnone : queued [(f, .error e)] = [] := rfl
              rw [houtcome, hnone, List.map_nil, List.append_nil] at hreceive
              refine ⟨bus₁, ?_, ?_⟩
              · have hrun := runThread_error crc8 hreceive inputs
                rw [hrun, houtcomes, ← hf]
              · rw [houtcomes]
                exact
                  { queue := by
                      rw [hqueue₁, hnone, List.map_nil, List.append_nil]
                    packet := by
                      intro x hx
                      rw [← Option.some.inj hx]
                      exact hf
                    untouched := fun hnil => by cases hnil
                    owner := howner₁ }
          | ok processed =>
              have houtcomes : outcomes (f :: todo') =
                  (f, .ok processed) :: outcomes todo' := by
                simp only [outcomes, houtcome]
              rw [houtcome] at hreceive
              -- the thread goes on with the packet put where it belongs
              obtain ⟨bus₂, hrun, hleft⟩ := @ih
                { bus₁ with
                  recvQueue := bus₁.recvQueue ++ (queued
                    [(f, .ok processed)]).map fun _ => bus₁.decoder.packet }
                _ htracks₁ _
                (fun g hg => hfits g (List.mem_cons_of_mem f hg)) hnext
              refine ⟨bus₂, ?_, ?_⟩
              · rw [runThread_processed crc8 hreceive inputs, hrun, houtcomes,
                  ← hf]
                rfl
              · rw [houtcomes]
                exact
                  { queue := by
                      rw [hleft.queue, hqueue₁, howner₁.1,
                        queued_cons (f, .ok processed) (outcomes todo'),
                        List.append_assoc, ← List.map_append]
                    packet := by
                      intro x hx
                      rw [List.getLast?_cons] at hx
                      cases hlast : (outcomes todo').getLast? with
                      | none =>
                          rw [hlast] at hx
                          rw [hleft.untouched (List.getLast?_eq_none_iff.mp
                            hlast), ← Option.some.inj hx]
                          exact hf
                      | some y =>
                          rw [hlast] at hx
                          rw [← Option.some.inj hx]
                          exact hleft.packet y hlast
                    untouched := fun hnil => by cases hnil
                    owner := ⟨hleft.owner.1.trans howner₁.1,
                      hleft.owner.2.trans howner₁.2⟩ }

/-- The thread here is the thread of `HostThread`, whose polls say what became
of the packets. -/
theorem filterMap_processed (crc8 : UInt8 → UInt8 → UInt8) {bus : Bus}
    {ph : Phase UInt8} (htracks : bus.Tracks ph)
    (inputs : List (Option UInt8)) :
    (incomingDataThread crc8 bus inputs).filterMap Poll.processed =
      (runThread crc8 bus inputs).1.map Prod.snd := by
  induction inputs generalizing bus ph with
  | nil => rfl
  | cons input inputs ih =>
      obtain ⟨err, bus', ph', hprocess, htracks'⟩ :=
        processByte_tracks crc8 htracks input
      rw [incomingDataThread]
      simp only [hprocess]
      by_cases hdone : err = .notDone
      · rw [if_pos hdone, runThread, Bus.receive]
        simp only [hprocess, if_pos hdone]
        exact ih htracks'
      · rw [if_neg hdone]
        cases hpacket : bus'.processPacket bus'.decoder.packet with
        | error f =>
            have hreceive : bus.receive crc8 input = (.error f, bus') := by
              simp only [Bus.receive, hprocess, if_neg hdone,
                Bus.processDecoded, hpacket]
            rw [runThread_error crc8 hreceive]
            rfl
        | ok r =>
            have hreceive : bus.receive crc8 input = (.ok (some r.1), r.2) := by
              simp only [Bus.receive, hprocess, if_neg hdone,
                Bus.processDecoded, hpacket]
            rw [runThread_processed crc8 hreceive]
            have hnext : r.2.Tracks ph' := by
              rw [Bus.Tracks, Bus.openDecoder_of_processPacket hpacket]
              exact htracks'
            have hfirst : Poll.processed
                ⟨bus.openDecoder, input, err, some (.ok r.1)⟩ =
                some (.ok r.1) := rfl
            rw [List.filterMap_cons_some hfirst, ih hnext, List.map_cons]

/-- What a thread that starts between frames does with the packets in what it
polls. -/
structure Demultiplexes (crc8 : UInt8 → UInt8 → UInt8)
    (inputs : List (Option UInt8)) (fs : List (UInt8 × List UInt8)) :
    Prop where
  results : (incomingDataThread crc8 .new inputs).filterMap Poll.processed =
    (outcomes fs).map Prod.snd
  /-- The packet of the decoder holds each of them when it is processed. -/
  held : (runThread crc8 .new inputs).1 = outcomes fs
  /-- That packet is put in the queue, once for each response. -/
  queue : (runThread crc8 .new inputs).2.recvQueue =
    (queued (outcomes fs)).map fun _ => 0
  /-- In the end it holds what was processed last. -/
  last : ∀ x, (outcomes fs).getLast? = some x →
    (((runThread crc8 .new inputs).2.store 0).cmd,
      ((runThread crc8 .new inputs).2.store 0).data) = x.1

/-- A thread that starts between frames. -/
theorem runThread_new (crc8 : UInt8 → UInt8 → UInt8)
    {fs : List (UInt8 × List UInt8)} (hfits : ∀ f ∈ fs, Fits f)
    {inputs : List (Option UInt8)}
    (hinputs : inputs.filterMap id = fs.flatMap fun f => frame crc8 f.1 f.2) :
    ∃ bus', runThread crc8 .new inputs = (outcomes fs, bus') ∧
      Left .new (outcomes fs) bus' :=
  runThread_eq crc8 Bus.tracks_new hfits inputs
    (by rw [hinputs]; exact Receiver.incoming_frames _ (.inl rfl) fs)

theorem Left.done {crc8 : UInt8 → UInt8 → UInt8}
    {inputs : List (Option UInt8)} {fs : List (UInt8 × List UInt8)} {bus : Bus}
    (hleft : Left .new (outcomes fs) bus)
    (hrun : runThread crc8 .new inputs = (outcomes fs, bus)) :
    Demultiplexes crc8 inputs fs := by
  have howner : bus.decoder.packet = 0 := hleft.owner.1
  exact
    { results := by rw [filterMap_processed crc8 Bus.tracks_new, hrun]
      held := by rw [hrun]
      queue := by
        rw [hrun]
        exact hleft.queue
      last := by
        intro x hx
        rw [hrun, ← hleft.packet x hx, Bus.packet, howner] }

/-- **Responses and log messages in any mixture.**  A thread that starts
between frames and polls frames that fit, one after the other, with polls that
find nothing anywhere between their bytes: every log message is logged and
every other packet is put in the queue once, in order, up to the first log
message that cannot be read. -/
theorem demultiplexes (crc8 : UInt8 → UInt8 → UInt8)
    (fs : List (UInt8 × List UInt8)) (hfits : ∀ f ∈ fs, Fits f)
    (inputs : List (Option UInt8))
    (hinputs : inputs.filterMap id = fs.flatMap fun f => frame crc8 f.1 f.2) :
    Demultiplexes crc8 inputs fs := by
  obtain ⟨bus, hrun, hleft⟩ := runThread_new crc8 hfits hinputs
  exact hleft.done hrun

/-- A response, a log message, and another response. -/
def mixed : List (UInt8 × List UInt8) :=
  [(0x01, [7]), (Bus.LOG, [4, 3, 0x48, 0x69, 0]), (0x02, [0, 0, 0, 0])]

/-- Their bytes, with a poll that finds nothing before each. -/
def mixedPolls : List (Option UInt8) :=
  (mixed.flatMap fun f => frame crc8Poly07 f.1 f.2).flatMap fun byte =>
    [none, some byte]

theorem demultiplexes_mixed : Demultiplexes crc8Poly07 mixedPolls mixed :=
  demultiplexes crc8Poly07 _ (by decide) _ (by decide +kernel)

example : outcomes mixed =
    [((0x01, [7]), .ok .queued),
      ((Bus.LOG, [4, 3, 0x48, 0x69, 0]), .ok (.logged 20 "Hi")),
      ((0x02, [0, 0, 0, 0]), .ok .queued)] := by decide +kernel

end DuinoBus.HostDemux
