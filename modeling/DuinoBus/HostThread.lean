import DuinoBus.Py.Bus

/-!
# The receive thread of the host

The thread processes the packet of its decoder whenever `process_byte`
returns something else than `NOT_DONE`.  That includes the refusals, so a
frame that was refused is delivered too, with whatever the packet holds then.

`delivers_accepted_iff` is the exact condition: the thread only processes
packets that the decoder accepted if and only if the decoder never rejects a
byte.
-/

namespace DuinoBus.HostThread

open DuinoBus.Wire
open DuinoBus.Verified
open DuinoBus.Py

/-- One poll of the thread: the decoder before it, what was read, what
`process_byte` returned, and what became of a call of `process_packet` if
there was one. -/
structure Poll where
  before : PacketDecoder Packet
  input : Option UInt8
  err : ErrorCode
  processed : Option (Except Fault Processed)

/-- The polls of the thread, up to the first exception. -/
def incomingDataThread (crc8 : UInt8 → UInt8 → UInt8) :
    Bus → List (Option UInt8) → List Poll
  | _, [] => []
  | bus, input :: inputs =>
      match bus.processByte crc8 input with
      | .error _ => []
      | .ok (err, bus') =>
          if err = .notDone then
            ⟨bus.openDecoder, input, err, none⟩ ::
              incomingDataThread crc8 bus' inputs
          else
            match bus'.processPacket bus'.decoder.packet with
            | .error f => [⟨bus.openDecoder, input, err, some (.error f)⟩]
            | .ok (processed, bus'') =>
                ⟨bus.openDecoder, input, err, some (.ok processed)⟩ ::
                  incomingDataThread crc8 bus'' inputs

/-- The decoder rejects the byte: it ends a frame that is too small or has a
wrong CRC, or it completes a byte of data and the packet is full. -/
def Rejects (crc8 : UInt8 → UInt8 → UInt8) (d : PacketDecoder Packet)
    (byte : UInt8) : Prop :=
  d.state = .data ∧
    if byte = END ∧ d.escape = false then
      ¬ ∃ body sum, d.packet.data = body ++ [sum] ∧
        sum = checksum crc8 d.packet.cmd body
    else (d.escape = true ∨ byte ≠ ESC) ∧
      Packet.MAX_DATA_LEN ≤ d.packet.data.length

/-! ## What is rejected -/

section Rejections

variable (crc8 : UInt8 → UInt8 → UInt8) {d : PacketDecoder Packet}

private theorem store_pending_iff (cmd : UInt8) (buf : List UInt8)
    (b : UInt8) :
    ((hostReceiver crc8 Packet.MAX_DATA_LEN).store cmd buf b).2 = .pending ↔
      ¬ Packet.MAX_DATA_LEN ≤ buf.length := by
  rw [Receiver.store_verdict]
  show (if Packet.MAX_DATA_LEN ≤ buf.length then _ else _ : Verdict UInt8) =
    _ ↔ _
  split
  · next h => simp [h]
  · next h => simp [h]

/-- A byte that is stored is not rejected if there is room. -/
private theorem store_goes_on_iff (cmd : UInt8) (buf : List UInt8)
    (b : UInt8) :
    ¬ Packet.MAX_DATA_LEN ≤ buf.length ↔
      (((hostReceiver crc8 Packet.MAX_DATA_LEN).store cmd buf b).2 = .pending ∨
        ∃ c data sum, ((hostReceiver crc8 Packet.MAX_DATA_LEN).store cmd buf
          b).2 = .accepted c data sum) := by
  rw [store_pending_iff]
  constructor
  · exact .inl
  · rintro (h | ⟨c, data, sum, h⟩)
    · exact h
    · exact absurd h (Receiver.store_ne_accepted _ cmd buf b c data sum)

/-- A closing `END` is not rejected if the data ends in the CRC. -/
private theorem close_goes_on_iff (cmd : UInt8) (buf : List UInt8) :
    (∃ body sum, buf = body ++ [sum] ∧ sum = checksum crc8 cmd body) ↔
      (((hostReceiver crc8 Packet.MAX_DATA_LEN).close cmd buf).2 = .pending ∨
        ∃ c data sum, ((hostReceiver crc8 Packet.MAX_DATA_LEN).close cmd
          buf).2 = .accepted c data sum) := by
  constructor
  · rintro ⟨body, sum, hbuf, hsum⟩
    exact .inr ⟨cmd, body, sum,
      (Receiver.close_accepted_iff _ _ _ _ _ _).mpr ⟨rfl, hbuf, hsum⟩⟩
  · rintro (h | ⟨c, data, sum, h⟩)
    · exact absurd h (Receiver.close_ne_pending _ cmd buf)
    · obtain ⟨rfl, hbuf, hsum⟩ :=
        (Receiver.close_accepted_iff _ _ _ _ _ _).mp h
      exact ⟨data, sum, hbuf, hsum⟩

/-- The receiver goes on, or accepts, exactly when the byte is not
rejected. -/
private theorem not_rejects_iff {ph : Phase UInt8} (h : d.Tracks ph)
    (byte : UInt8) :
    ¬ Rejects crc8 d byte ↔
      ((hostReceiver crc8 Packet.MAX_DATA_LEN).machine.out ph byte =
          .pending ∨
        ∃ cmd data sum, (hostReceiver crc8
          Packet.MAX_DATA_LEN).machine.out ph byte =
            .accepted cmd data sum) := by
  match ph, h with
  | .idle, h =>
      have hstate : d.state ≠ .data := by rw [h.1]; decide
      exact ⟨fun _ => .inl rfl, fun _ hrej => hstate hrej.1⟩
  | .command e, h =>
      have hstate : d.state ≠ .data := by rw [h.1]; decide
      exact ⟨fun _ => .inl (Receiver.out_command _ e byte),
        fun _ hrej => hstate hrej.1⟩
  | .body true cmd buf, h =>
      obtain ⟨hstate, hescape, _, rfl⟩ := h
      rw [Receiver.out_eq, Receiver.step, ← store_goes_on_iff, Rejects,
        hstate, hescape, if_neg fun hend => absurd hend.2 (by decide)]
      simp only [true_and, true_or]
  | .body false cmd buf, h =>
      obtain ⟨hstate, hescape, rfl, rfl⟩ := h
      rw [Receiver.out_eq, Receiver.step, Rejects, hstate, hescape]
      by_cases hesc : byte = ESC
      · have hend : byte ≠ END := by rw [hesc]; decide
        rw [if_pos (show byte = (hostReceiver crc8
          Packet.MAX_DATA_LEN).esc from hesc), if_neg fun h => hend h.1]
        simp [hesc]
      · rw [if_neg (show ¬ byte = (hostReceiver crc8
          Packet.MAX_DATA_LEN).esc from hesc)]
        by_cases hend : byte = END
        · rw [if_pos (show byte = (hostReceiver crc8
            Packet.MAX_DATA_LEN).fin from hend), ← close_goes_on_iff,
            if_pos ⟨hend, rfl⟩]
          simp only [true_and, not_not]
        · rw [if_neg (show ¬ byte = (hostReceiver crc8
            Packet.MAX_DATA_LEN).fin from hend), ← store_goes_on_iff,
            if_neg fun h => hend h.1]
          simp [hesc]

/-- What `process_byte` returned tells a rejection from the rest. -/
private theorem err_iff {ph : Phase UInt8} {d' : PacketDecoder Packet}
    {err : ErrorCode} {byte : UInt8} (h : d.Tracks ph)
    (hreport : d'.report err = Wire.report ((hostReceiver crc8
      Packet.MAX_DATA_LEN).machine.out ph byte)) :
    (err ≠ .notDone → err = .none) ↔ ¬ Rejects crc8 d byte := by
  rw [not_rejects_iff crc8 h]
  by_cases hnone : err = .none
  · subst hnone
    cases hout : (hostReceiver crc8 Packet.MAX_DATA_LEN).machine.out ph byte <;>
      simp [hout, PacketDecoder.report, observe, Wire.report] at hreport ⊢
  · cases hout : (hostReceiver crc8 Packet.MAX_DATA_LEN).machine.out ph byte <;>
      simp [hout, PacketDecoder.report, observe, Wire.report, hnone]
        at hreport ⊢ <;> simp [hreport]

end Rejections

/-! ## The thread -/

section Polls

variable (crc8 : UInt8 → UInt8 → UInt8)

/-- A poll of a bus whose decoder is in a phase of the receiver: a packet was
processed if `process_byte` returned something else than `NOT_DONE`. -/
def Polled (p : Poll) : Prop :=
  ∃ (bus : Bus) (ph : Phase UInt8) (bus' : Bus), bus.Tracks ph ∧
    p.before = bus.openDecoder ∧
    bus.processByte crc8 p.input = .ok (p.err, bus') ∧
    (p.processed.isSome ↔ p.err ≠ .notDone)

/-- Processing input of any kind goes on. -/
theorem processByte_tracks {bus : Bus} {ph : Phase UInt8}
    (h : bus.Tracks ph) (input : Option UInt8) :
    ∃ err bus' ph', bus.processByte crc8 input = .ok (err, bus') ∧
      bus'.Tracks ph' := by
  cases input with
  | none => exact ⟨.notDone, bus, ph, rfl, h⟩
  | some byte =>
      obtain ⟨err, d, _, hprocess, _, htracks⟩ :=
        Bus.processByte_eq crc8 h byte
      have hclosed : (bus.closeDecoder d).Tracks ((hostReceiver crc8
          Packet.MAX_DATA_LEN).machine.next ph byte) := by
        rw [Bus.Tracks, Bus.openDecoder_closeDecoder]
        exact htracks
      exact ⟨err, bus.closeDecoder d, _, hprocess, hclosed⟩

/-- A poll in full: from what bus it was made, and to which bus the input was
processed. -/
structure PollOf (p : Poll) (bus bus' : Bus) (ph : Phase UInt8) : Prop where
  tracks : bus.Tracks ph
  before : p.before = bus.openDecoder
  process : bus.processByte crc8 p.input = .ok (p.err, bus')
  processed : p.processed =
    if p.err = .notDone then none
    else some ((bus'.processPacket bus'.decoder.packet).map Prod.fst)

/-- Every poll of the thread is made from a bus in a phase of the receiver. -/
theorem pollOf_of_mem {bus : Bus} {ph : Phase UInt8} (h : bus.Tracks ph)
    (inputs : List (Option UInt8)) :
    ∀ p ∈ incomingDataThread crc8 bus inputs,
      ∃ bus₁ bus₂ ph₁, PollOf crc8 p bus₁ bus₂ ph₁ := by
  induction inputs generalizing bus ph with
  | nil =>
      intro p hp
      cases hp
  | cons input inputs ih =>
      obtain ⟨err, bus', ph', hprocess, htracks⟩ :=
        processByte_tracks crc8 h input
      intro p hp
      simp only [incomingDataThread, hprocess] at hp
      by_cases hdone : err = .notDone
      · rw [if_pos hdone, List.mem_cons] at hp
        rcases hp with rfl | hp
        · exact ⟨bus, bus', ph, h, rfl, hprocess, (if_pos hdone).symm⟩
        · exact ih htracks p hp
      · rw [if_neg hdone] at hp
        cases hpacket : bus'.processPacket bus'.decoder.packet with
        | error f =>
            rw [hpacket, List.mem_singleton] at hp
            subst hp
            refine ⟨bus, bus', ph, h, rfl, hprocess, ?_⟩
            rw [if_neg hdone, hpacket]
            rfl
        | ok r =>
            rw [hpacket, List.mem_cons] at hp
            rcases hp with rfl | hp
            · refine ⟨bus, bus', ph, h, rfl, hprocess, ?_⟩
              rw [if_neg hdone, hpacket]
              rfl
            · have hkeep := Bus.openDecoder_of_processPacket hpacket
              have hnext : r.2.Tracks ph' := by
                rw [Bus.Tracks, hkeep]
                exact htracks
              exact ih hnext p hp

private theorem polled_of_mem {bus : Bus} {ph : Phase UInt8}
    (h : bus.Tracks ph) (inputs : List (Option UInt8)) :
    ∀ p ∈ incomingDataThread crc8 bus inputs, Polled crc8 p := by
  intro p hp
  obtain ⟨bus₁, bus₂, ph₁, hpoll⟩ := pollOf_of_mem crc8 h inputs p hp
  refine ⟨bus₁, ph₁, bus₂, hpoll.tracks, hpoll.before, hpoll.process, ?_⟩
  rw [hpoll.processed]
  by_cases hdone : p.err = .notDone
  · rw [if_pos hdone]
    simp [hdone]
  · rw [if_neg hdone]
    simp [hdone]

/-- A poll that does not end the thread is followed by the next. -/
theorem length_incomingDataThread {bus : Bus} {ph : Phase UInt8}
    (h : bus.Tracks ph) {inputs : List (Option UInt8)}
    (hok : ∀ p ∈ incomingDataThread crc8 bus inputs, ∀ f,
      p.processed ≠ some (.error f)) :
    (incomingDataThread crc8 bus inputs).length = inputs.length := by
  induction inputs generalizing bus ph with
  | nil => rfl
  | cons input inputs ih =>
      obtain ⟨err, bus', ph', hprocess, htracks⟩ :=
        processByte_tracks crc8 h input
      simp only [incomingDataThread, hprocess] at hok ⊢
      by_cases hdone : err = .notDone
      · rw [if_pos hdone] at hok ⊢
        have hrest := ih htracks
          (fun p hp => hok p (List.mem_cons_of_mem _ hp))
        rw [List.length_cons, List.length_cons, hrest]
      · rw [if_neg hdone] at hok ⊢
        cases hpacket : bus'.processPacket bus'.decoder.packet with
        | error f =>
            rw [hpacket] at hok
            exact absurd rfl (hok _ List.mem_cons_self f)
        | ok r =>
            rw [hpacket] at hok
            have hkeep := Bus.openDecoder_of_processPacket hpacket
            have hnext : r.2.Tracks ph' := by
              rw [Bus.Tracks, hkeep]
              exact htracks
            have hrest := ih hnext
              (fun p hp => hok p (List.mem_cons_of_mem _ hp))
            show (_ :: incomingDataThread crc8 r.2 inputs).length = _
            rw [List.length_cons, List.length_cons, hrest]

/-- At a poll, a packet was processed only if the decoder accepted it, exactly
when no byte was rejected. -/
private theorem accepted_iff {p : Poll} (h : Polled crc8 p) :
    (p.processed.isSome → p.err = .none) ↔
      ∀ byte, p.input = some byte → ¬ Rejects crc8 p.before byte := by
  obtain ⟨bus, ph, bus', htracks, hbefore, hprocess, hiff⟩ := h
  rw [hiff, hbefore]
  cases hinput : p.input with
  | none =>
      rw [hinput] at hprocess
      have herr : p.err = .notDone :=
        (congrArg Prod.fst (Except.ok.inj hprocess)).symm
      constructor
      · intro _ byte hbyte
        cases hbyte
      · intro _ hne
        exact absurd herr hne
  | some byte =>
      obtain ⟨err, d, _, hprocess', hreport, _⟩ :=
        Bus.processByte_eq crc8 htracks byte
      rw [hinput, hprocess'] at hprocess
      have herr : err = p.err := congrArg Prod.fst (Except.ok.inj hprocess)
      rw [← herr, err_iff crc8 htracks hreport]
      constructor
      · intro hnot byte' hbyte
        rw [← Option.some.inj hbyte]
        exact hnot
      · intro hnot
        exact hnot byte rfl

end Polls

/-- **When the host only processes accepted packets.**  In every run of the
receive thread, every packet that is processed comes from a byte for which
the decoder returned `NONE`, if and only if no byte that the thread reads is
rejected by the decoder. -/
theorem delivers_accepted_iff (crc8 : UInt8 → UInt8 → UInt8)
    (inputs : List (Option UInt8)) :
    (∀ p ∈ incomingDataThread crc8 .new inputs,
      p.processed.isSome → p.err = .none) ↔
    ∀ p ∈ incomingDataThread crc8 .new inputs, ∀ byte,
      p.input = some byte → ¬ Rejects crc8 p.before byte := by
  have hpolled := polled_of_mem crc8 Bus.tracks_new inputs
  constructor
  · intro h p hp
    exact (accepted_iff crc8 (hpolled p hp)).mp (h p hp)
  · intro h p hp
    exact (accepted_iff crc8 (hpolled p hp)).mpr (h p hp)

/-- A frame that is too small is processed all the same. -/
theorem delivers_accepted_fails :
    ¬ ∀ inputs : List (Option UInt8),
      ∀ p ∈ incomingDataThread crc8Poly07 .new inputs,
        p.processed.isSome → p.err = .none := by
  intro h
  have hpolls := h [some END, some 0x01, some END]
  exact absurd hpolls (by decide +kernel)

end DuinoBus.HostThread
