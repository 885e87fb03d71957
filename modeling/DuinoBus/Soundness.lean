import DuinoBus.Link

/-!
# What the decoders decide, and what their packets were made of

* `device_grammar`: the first result of the device's decoder that is not
  `NOT_DONE`, and the byte it comes at, are those of the reference parser of
  `DuinoBus.Verified.Grammar`.
* `device_sound_iff` and `host_sound_iff`: which accepted packets are the
  whole content of the wire frame since the nearest delimiter, an `END` read
  with the escape flag clear.

The host's packet is that content exactly when the frame did not overflow the
buffer.  The device's may also have begun in a frame that was refused
earlier: its decoder then never saw the delimiter as one.
-/

namespace DuinoBus.Soundness

open DuinoBus.Wire
open DuinoBus.Verified
open DuinoBus.Link

/-! ## The grammar of the device -/

/-- **The device's decoder decides what the grammar says**: the first report
that does not ask for more bytes, and its position, are the reference
parser's. -/
theorem device_grammar (crc8 : UInt8 → UInt8 → UInt8) (packet : Cpp.Packet)
    (bytes : List UInt8) :
    ∃ reports d, (Cpp.PacketDecoder.new packet).decodeAll crc8 bytes =
        .ok (reports, d) ∧
      firstLoud Report.waiting reports =
        (Grammar.parse (deviceReceiver crc8 packet.maxDataLen) bytes).map
          fun r => (r.1, report r.2) := by
  obtain ⟨d, hdecode, _⟩ := Cpp.PacketDecoder.decodeAll_eq crc8
    packet.maxDataLen (Cpp.PacketDecoder.tracks_new packet) bytes
  refine ⟨_, d, hdecode, ?_⟩
  rw [firstLoud_map Report.waiting Grammar.quiet report waiting_report,
    Grammar.firstLoud_outputs]

/-! ## Delimiters -/

/-- The bytes that some escaped bytes stand for. -/
def unescape (bytes : List UInt8) : List UInt8 := slip.unstuff false bytes

/-- The nearest delimiter before the end of `xs`: `xs` is `pre`, the
delimiter, and `w`.  `escapeAfter` is the escape flag of the decoder after
some bytes. -/
structure LastDelimiter (escapeAfter : List UInt8 → Except Fault Bool)
    (xs pre w : List UInt8) : Prop where
  split : xs = pre ++ END :: w
  delimits : escapeAfter pre = .ok false
  nearest : ∀ u v, w = u ++ END :: v →
    escapeAfter (pre ++ END :: u) = .ok true

private theorem lastDelimiter_iff {escapeAfter : List UInt8 → Except Fault Bool}
    {R : Receiver UInt8} (hfin : R.fin = END)
    (hescape : ∀ front, escapeAfter front =
      .ok (R.machine.run .idle front).escaped) {xs pre w : List UInt8} :
    LastDelimiter escapeAfter xs pre w ↔ R.LastDelimiter xs pre w := by
  constructor
  · intro h
    refine ⟨by rw [hfin]; exact h.split, ?_, ?_⟩
    · have hclear := h.delimits
      rw [hescape] at hclear
      exact Except.ok.inj hclear
    · intro u v huv
      rw [hfin] at huv ⊢
      have hset := h.nearest u v huv
      rw [hescape] at hset
      exact Except.ok.inj hset
  · intro h
    refine ⟨by rw [← hfin]; exact h.split, ?_, ?_⟩
    · rw [hescape, h.delimits]
    · intro u v huv
      rw [← hfin] at huv ⊢
      rw [hescape, h.nearest u v huv]

/-- A receiver inside a frame has read a delimiter. -/
private theorem exists_lastDelimiter {escapeAfter : List UInt8 →
    Except Fault Bool} {R : Receiver UInt8} (hfin : R.fin = END)
    (hescape : ∀ front, escapeAfter front =
      .ok (R.machine.run .idle front).escaped) {xs : List UInt8} {cmd : UInt8}
    {buf : List UInt8} (hrun : R.machine.run .idle xs = .body false cmd buf) :
    ∃ pre w, LastDelimiter escapeAfter xs pre w := by
  have hinside : R.machine.run .idle xs ≠ .idle := by
    rw [hrun]
    intro hidle
    cases hidle
  obtain ⟨pre, w, hlast⟩ := R.exists_lastDelimiter xs hinside
  exact ⟨pre, w, (lastDelimiter_iff hfin hescape).mpr hlast⟩

/-- A receiver that accepts at an `END` had the packet in its buffer. -/
private theorem run_of_accepted {R : Receiver UInt8} (hfin : R.fin = END)
    {ph : Phase UInt8} {cmd sum : UInt8} {data : List UInt8}
    (h : (Except.ok ((R.machine.outputs ph [END]).map report) :
      Except Fault (List Report)) = .ok [.packet cmd data sum]) :
    ph = .body false cmd (data ++ [sum]) ∧ sum = R.check cmd data := by
  have hreport : report (R.machine.out ph END) =
      report (.accepted cmd data sum) :=
    List.head_eq_of_cons_eq (Except.ok.inj h)
  have hout := report_injective hreport
  rw [← hfin, Receiver.out_eq, Receiver.step_accepted_iff] at hout
  exact hout.2

/-! ## The device -/

/-- The frame that starts at a delimiter is accepted whole.  Either the
delimiter opened it, and it fits into the buffer; or the delimiter was
refused, the buffer fills up, and the frame repeats what the buffer held at
the delimiter over and over. -/
def Whole (crc8 : UInt8 → UInt8 → UInt8) (packet : Cpp.Packet)
    (pre w : List UInt8) : Prop :=
  ∃ d, Cpp.PacketDecoder.after crc8 packet (pre ++ [END]) = .ok d ∧
    (d.state = .command ∧ (unescape w).length ≤ packet.maxDataLen + 1 ∨
      d.state = .data ∧ (unescape w).length = packet.maxDataLen + 1 ∧
        GoesRound (d.packet.command :: d.packet.payload) (unescape w))

/-- The bytes since the delimiter are what is stored exactly if the frame that
starts there is accepted whole. -/
private theorem unescape_iff_whole (crc8 : UInt8 → UInt8 → UInt8)
    (packet : Cpp.Packet) {xs pre w : List UInt8} {cmd sum : UInt8}
    {data : List UInt8}
    (hlast : (deviceReceiver crc8 packet.maxDataLen).LastDelimiter xs pre w)
    (hrun : (deviceReceiver crc8 packet.maxDataLen).machine.run .idle xs =
      .body false cmd (data ++ [sum])) :
    unescape w = cmd :: (data ++ [sum]) ↔ Whole crc8 packet pre w := by
  have hsettled : ((deviceReceiver crc8 packet.maxDataLen).phaseAfter
      pre).Settled := by
    rw [Receiver.phaseAfter_eq]
    exact (deviceReceiver crc8 packet.maxDataLen).settled_next_fin
      (fun c => .inr ⟨c, [], rfl⟩) (fun c b => .inr ⟨c, b, rfl⟩) _
  obtain ⟨d, hafter, htracks⟩ :=
    Cpp.PacketDecoder.after_eq crc8 packet (pre ++ [END])
  have hphase : (deviceReceiver crc8 packet.maxDataLen).machine.run .idle
      (pre ++ [END]) = (deviceReceiver crc8 packet.maxDataLen).phaseAfter
        pre := rfl
  rw [hphase] at htracks
  rw [Whole, hafter]
  simp only [Except.ok.injEq, exists_eq_left']
  rcases hlast.inside _ hsettled hrun with hopen | ⟨cmd₀, old, hopen⟩
  · rw [hopen] at htracks
    have hstate : d.state = .command := htracks.1
    have hopened : unescape w = cmd :: (data ++ [sum]) ↔
        (unescape w).length ≤ packet.maxDataLen + 1 :=
      hlast.opened_iff _ hopen hrun
    rw [hopened, hstate]
    simp only [true_and, reduceCtorEq, false_and, or_false]
  · rw [hopen] at htracks
    obtain ⟨hstate, _, hp⟩ := htracks
    have hresumed : unescape w = cmd :: (data ++ [sum]) ↔
        (unescape w).length = packet.maxDataLen + 1 ∧
          GoesRound (cmd₀ :: old) (unescape w) :=
      hlast.resumed_iff _ hopen hp.length_le hrun
    rw [hresumed, hstate, hp.command, hp.payload]
    simp only [true_and, reduceCtorEq, false_and, false_or]

/-- **When the device's packet is the frame since the delimiter.**  Whenever
the decoder accepts a packet at an `END`, there is a nearest delimiter before
it, and the bytes since then are the packet if and only if the frame that
starts there is accepted whole. -/
theorem device_sound_iff (crc8 : UInt8 → UInt8 → UInt8) (packet : Cpp.Packet)
    (xs : List UInt8) (cmd sum : UInt8) (data : List UInt8)
    (h : Cpp.PacketDecoder.decodeAfter crc8 packet xs [END] =
      .ok [.packet cmd data sum]) :
    sum = checksum crc8 cmd data ∧
      (∃ pre w, LastDelimiter (Cpp.PacketDecoder.escapeAfter crc8 packet)
        xs pre w) ∧
      ∀ pre w, LastDelimiter (Cpp.PacketDecoder.escapeAfter crc8 packet)
        xs pre w →
        (unescape w = cmd :: (data ++ [sum]) ↔ Whole crc8 packet pre w) := by
  rw [Cpp.PacketDecoder.decodeAfter_eq] at h
  obtain ⟨hrun, hsum⟩ := run_of_accepted
    (R := deviceReceiver crc8 packet.maxDataLen) rfl h
  have hescape := Cpp.PacketDecoder.escapeAfter_eq crc8 packet
  refine ⟨hsum, exists_lastDelimiter rfl hescape hrun, ?_⟩
  intro pre w hdelim
  have hlast := (lastDelimiter_iff rfl hescape).mp hdelim
  exact unescape_iff_whole crc8 packet hlast hrun

/-- A frame with an escaped command, after noise. -/
theorem device_sound_escaped :
    0x4E = checksum crc8Poly07 END [] ∧
      (∃ pre w, LastDelimiter (Cpp.PacketDecoder.escapeAfter crc8Poly07
        (.new [0, 0] 0)) [0x11, END, ESC, ESC_END, 0x4E] pre w) ∧
      ∀ pre w, LastDelimiter (Cpp.PacketDecoder.escapeAfter crc8Poly07
        (.new [0, 0] 0)) [0x11, END, ESC, ESC_END, 0x4E] pre w →
        (unescape w = END :: ([] ++ [0x4E]) ↔
          Whole crc8Poly07 (.new [0, 0] 0) pre w) :=
  device_sound_iff crc8Poly07 (.new [0, 0] 0) [0x11, END, ESC, ESC_END, 0x4E]
    END 0x4E [] (by decide +kernel)

/-- A frame without data or CRC is refused, and the device stays in it: the
byte after the delimiter completes the old command. -/
theorem device_sound_fails :
    ¬ ∀ (packet : Cpp.Packet) (xs : List UInt8) (cmd sum : UInt8)
      (data pre w : List UInt8),
      Cpp.PacketDecoder.decodeAfter crc8Poly07 packet xs [END] =
        .ok [.packet cmd data sum] →
      LastDelimiter (Cpp.PacketDecoder.escapeAfter crc8Poly07 packet)
        xs pre w →
      unescape w = cmd :: (data ++ [sum]) := by
  intro h
  have hlast : LastDelimiter (Cpp.PacketDecoder.escapeAfter crc8Poly07
      (.new [0, 0] 0)) [END, 0x01, END, 0x07] [END, 0x01] [0x07] := by
    refine ⟨rfl, by decide +kernel, ?_⟩
    intro u v huv
    have hmem : END ∈ [(0x07 : UInt8)] := by
      rw [huv]
      simp
    exact absurd hmem (by decide)
  have hwhole := h (.new [0, 0] 0) [END, 0x01, END, 0x07] 0x01 0x07 []
    [END, 0x01] [0x07] (by decide +kernel) hlast
  exact absurd hwhole (by decide)

/-! ## The host -/

/-- **When the host's packet is the frame since the delimiter.**  Whenever the
decoder accepts a packet at an `END`, there is a nearest delimiter before it;
the bytes since then are the packet, and none of them was answered
`TOO_MUCH_DATA`, if and only if they fit into a packet with its CRC. -/
theorem host_sound_iff (crc8 : UInt8 → UInt8 → UInt8) (pkt : Py.Packet)
    (xs : List UInt8) (cmd sum : UInt8) (data : List UInt8)
    (h : Py.PacketDecoder.decodeAfter crc8 pkt xs [END] =
      .ok [.packet cmd data sum]) :
    sum = checksum crc8 cmd data ∧
      (∃ pre w, LastDelimiter (Py.PacketDecoder.escapeAfter crc8 pkt)
        xs pre w) ∧
      ∀ pre w, LastDelimiter (Py.PacketDecoder.escapeAfter crc8 pkt)
        xs pre w →
        ((unescape w = cmd :: (data ++ [sum]) ∧
          ∃ reports, Py.PacketDecoder.decodeAfter crc8 pkt (pre ++ [END]) w =
            .ok reports ∧ .code .tooMuchData ∉ reports) ↔
          (unescape w).length ≤ Py.Packet.MAX_DATA_LEN + 1) := by
  rw [Py.PacketDecoder.decodeAfter_eq] at h
  obtain ⟨hrun, hsum⟩ := run_of_accepted
    (R := hostReceiver crc8 Py.Packet.MAX_DATA_LEN) rfl h
  have hescape := Py.PacketDecoder.escapeAfter_eq crc8 pkt
  refine ⟨hsum, exists_lastDelimiter rfl hescape hrun, ?_⟩
  intro pre w hdelim
  have hlast := (lastDelimiter_iff rfl hescape).mp hdelim
  have hopen := hlast.opens _ (fun _ => .inr rfl) (fun _ _ => .inl rfl) hrun
  have hopened : unescape w = cmd :: (data ++ [sum]) ↔
      (unescape w).length ≤ Py.Packet.MAX_DATA_LEN + 1 :=
    hlast.opened_iff _ hopen hrun
  constructor
  · intro hwhole
    exact hopened.mp hwhole.1
  · intro hroom
    have hquiet := hlast.outputs_of_room _ hopen hroom
    refine ⟨hopened.mpr hroom, _, Py.PacketDecoder.decodeAfter_eq crc8 pkt
      (pre ++ [END]) w, ?_⟩
    rw [show (hostReceiver crc8 Py.Packet.MAX_DATA_LEN).machine.run .idle
      (pre ++ [END]) = (hostReceiver crc8
        Py.Packet.MAX_DATA_LEN).phaseAfter pre from rfl, hquiet,
      List.map_replicate]
    intro hmem
    exact absurd (List.eq_of_mem_replicate hmem) (by decide)

/-- A frame with an escaped command, behind another `END`. -/
theorem host_sound_escaped :
    0x4E = checksum crc8Poly07 END [] ∧
      (∃ pre w, LastDelimiter (Py.PacketDecoder.escapeAfter crc8Poly07
        (.new 0 [])) [END, END, ESC, ESC_END, 0x4E] pre w) ∧
      ∀ pre w, LastDelimiter (Py.PacketDecoder.escapeAfter crc8Poly07
        (.new 0 [])) [END, END, ESC, ESC_END, 0x4E] pre w →
        ((unescape w = END :: ([] ++ [0x4E]) ∧
          ∃ reports, Py.PacketDecoder.decodeAfter crc8Poly07 (.new 0 [])
            (pre ++ [END]) w = .ok reports ∧
            .code .tooMuchData ∉ reports) ↔
          (unescape w).length ≤ Py.Packet.MAX_DATA_LEN + 1) :=
  host_sound_iff crc8Poly07 (.new 0 []) [END, END, ESC, ESC_END, 0x4E]
    END 0x4E [] (by decide +kernel)

/-! ### A frame that is too long for the host

Zeros are not escaped, and the CRC of zeros is zero.  So 257 zeros behind the
command make a frame whose first 256 fill the buffer and end in their CRC.
-/

private theorem stuffAll_zeros (n : Nat) :
    slip.stuffAll (List.replicate n 0) = List.replicate n 0 := by
  induction n with
  | zero => rfl
  | succ n ih =>
      rw [List.replicate_succ, Stuffing.stuffAll_cons, ih,
        slip.stuff_plain (by decide) (by decide)]
      rfl

private theorem checksum_zeros (n : Nat) :
    checksum crc8Poly07 0 (List.replicate n 0) = 0 := by
  have hstep : crc8Poly07 0 0 = 0 := by decide +kernel
  rw [checksum, hstep]
  induction n with
  | zero => rfl
  | succ n ih => rw [List.replicate_succ, List.foldl_cons, hstep, ih]

/-- Zeros are stored up to the size of the buffer. -/
private theorem run_zeros (n : Nat) :
    (hostReceiver crc8Poly07 Py.Packet.MAX_DATA_LEN).machine.run .idle
        (END :: List.replicate (n + 1) 0) =
      .body false 0 ((List.replicate n 0).take 256) := by
  have hclean := slip.clean_stuffAll false (List.replicate (n + 1) 0)
  have hpending := slip.pending_stuffAll (List.replicate (n + 1) 0)
  have hunstuff := slip.unstuff_stuffAll (List.replicate (n + 1) 0)
  rw [stuffAll_zeros] at hclean hpending hunstuff
  have hcommand := (hostReceiver crc8Poly07
    Py.Packet.MAX_DATA_LEN).run_command false _ hclean
  rw [show (hostReceiver crc8Poly07 Py.Packet.MAX_DATA_LEN).toStuffing = slip
    from rfl, hpending, hunstuff] at hcommand
  exact hcommand

/-- The host accepts the truncated frame. -/
private theorem decodeAfter_zeros (pkt : Py.Packet) :
    Py.PacketDecoder.decodeAfter crc8Poly07 pkt
      (END :: List.replicate 258 0) [END] =
        .ok [.packet 0 (List.replicate 255 0) 0] := by
  have hsum : (0 : UInt8) = (hostReceiver crc8Poly07
      Py.Packet.MAX_DATA_LEN).check 0 (List.replicate 255 0) := by
    rw [hostReceiver_check, checksum_zeros]
  have hbuf : (List.replicate 257 (0 : UInt8)).take 256 =
      List.replicate 255 0 ++ [0] := by
    rw [List.take_replicate, ← List.replicate_succ', Nat.min_eq_left (by decide)]
  rw [Py.PacketDecoder.decodeAfter_eq, run_zeros 257, hbuf,
    Transducer.outputs_cons, Receiver.out_eq, show END = (hostReceiver
      crc8Poly07 Py.Packet.MAX_DATA_LEN).fin from rfl,
    Receiver.step_fin_body, Receiver.close_concat, if_pos hsum]
  rfl

/-- The last of 257 zeros behind the command is answered `TOO_MUCH_DATA` and
dropped, and the frame is accepted at its end. -/
theorem host_sound_fails :
    ¬ ∀ (pkt : Py.Packet) (xs : List UInt8) (cmd sum : UInt8)
      (data pre w : List UInt8),
      Py.PacketDecoder.decodeAfter crc8Poly07 pkt xs [END] =
        .ok [.packet cmd data sum] →
      LastDelimiter (Py.PacketDecoder.escapeAfter crc8Poly07 pkt) xs pre w →
      unescape w = cmd :: (data ++ [sum]) := by
  intro h
  have hlast : LastDelimiter (Py.PacketDecoder.escapeAfter crc8Poly07
      (.new 0 [])) (END :: List.replicate 258 0) []
        (List.replicate 258 0) := by
    refine ⟨rfl, by decide +kernel, ?_⟩
    intro u v huv
    have hmem : END ∈ List.replicate 258 (0 : UInt8) := by
      rw [huv]
      simp
    exact absurd (List.eq_of_mem_replicate hmem) (by decide)
  have hwhole := h _ _ _ _ _ _ _ (decodeAfter_zeros (.new 0 [])) hlast
  rw [unescape, ← stuffAll_zeros, slip.unstuff_stuffAll] at hwhole
  have hlen := congrArg List.length hwhole
  rw [List.length_replicate, List.length_cons, List.length_append,
    List.length_replicate, List.length_singleton] at hlen
  exact absurd hlen (by decide)

end DuinoBus.Soundness
