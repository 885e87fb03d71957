import DuinoBus.HexDump
import DuinoBus.Py.Debugging
import DuinoBus.Verified.OutOfStep

/-!
# Debugging on the host

A dump of a packet raises `ValueError` exactly when the packet has more than
64 KiB of data (`dump_ok`, `dump_wide`), for then the address of some line has
five digits.  A decoder never dumps that much, so `transparent` says of every
input that debugging changes nothing but what is shown, and what that is.
`mirrors_iff` is about two hosts with debugging on, and `call_eq` about
`send_command_get_response`, which dumps its command when something went wrong.

`Instruments` is what carries a step to a run, and `Sees` says what a byte of a
frame shows.
-/

namespace DuinoBus.HostDebug

open DuinoBus.Wire
open DuinoBus.Verified
open DuinoBus.Py
open DuinoBus.Py.Debugging
open DuinoBus.HexDump

/-! ## Dumps -/

/-- The largest packet that can be dumped. -/
def DUMP_LIMIT : Nat := 0x10000

/-- A dump that does not raise. -/
def dumpText (label : String) (p : Packet) : List Shown :=
  .print (header label p) ::
    (expectedLines p.data label 0 16 true true).map .print

theorem fits_dump_iff {len : Nat} (hlen : 0 < len) :
    (∀ o ∈ DumpMem.offsets len 16, 0 + o < 0x10000) ↔ len ≤ DUMP_LIMIT := by
  rw [fits_iff (by decide) hlen, DUMP_LIMIT]
  omega

theorem lt_of_mem_offsets {len o : Nat} (ho : o ∈ DumpMem.offsets len 16) :
    o < len := by
  obtain ⟨k, rfl, hk⟩ := (mem_offsets_iff (by decide)).mp ho
  exact hk

/-- `dump_mem` with its default arguments. -/
theorem dumpMem_default {buf : List UInt8} (hbuf : buf ≠ []) (label : String) :
    (buf.length ≤ DUMP_LIMIT →
      DumpMem.dumpMem (some buf) label 0 16 true true =
        ⟨expectedLines buf label 0 16 true true, .ok ()⟩) ∧
      (¬ buf.length ≤ DUMP_LIMIT →
        (DumpMem.dumpMem (some buf) label 0 16 true true).result =
          .error .valueError) := by
  have hlen := List.length_pos_iff.mpr hbuf
  obtain ⟨c, front, outLine, hc, hline, hascii, haddr, hfront, htext, hcolumns,
    hdump⟩ := dumpMem_eq hbuf label 0 (show (16 : Int) ≠ 0 by decide) true true
  have hwidth : c.lineWidth = 16 := hline
  have hin : ∀ o ∈ DumpMem.offsets buf.length 16, o < buf.length :=
    fun o => lt_of_mem_offsets
  rw [hdump, ← fits_dump_iff hlen, expectedLines]
  show (_ → DumpMem.dumpLines c buf (DumpMem.offsets buf.length 16) 0 _ = _) ∧
    (_ → (DumpMem.dumpLines c buf (DumpMem.offsets buf.length 16) 0 _).result = _)
  rw [DumpMem.offsets, ← hwidth] at hin ⊢
  constructor
  · intro hfits
    have hok := dumpLines_ok hc hfront htext hin (fun o ho _ => hfits o ho)
      hcolumns
    rw [hok, hascii, haddr]
    exact congrArg (Traced.mk · (.ok ()))
      (map_offsets _ buf.length c.lineWidth)
  · intro hwide
    have hwide' : ∃ o ∈ List.range' 0
        ((buf.length + c.lineWidth - 1) / c.lineWidth) c.lineWidth,
          ¬ 0 + o < 0x10000 := by
      simpa using hwide
    exact dumpLines_error hc hfront htext haddr hin hwide' hcolumns

theorem dump_ok {p : Packet} (h : p.getDataLen ≤ DUMP_LIMIT) (label : String) :
    dump label p = ⟨dumpText label p, .ok ()⟩ := by
  rw [dump, dumpText]
  by_cases hdata : p.data = []
  · rw [if_neg (by rw [Packet.getDataLen, hdata]; decide), hdata]
    rfl
  · have hpos : 0 < p.getDataLen := List.length_pos_iff.mpr hdata
    rw [if_pos hpos, (dumpMem_default hdata label).1 h]
    rfl

/-- The address of some line does not fit its column. -/
theorem dump_wide {p : Packet} (h : ¬ p.getDataLen ≤ DUMP_LIMIT)
    (label : String) : (dump label p).result = .error (.dump .valueError) := by
  have hdata : p.data ≠ [] := by
    intro hnil
    rw [Packet.getDataLen, hnil] at h
    exact h (Nat.zero_le _)
  have hpos : 0 < p.getDataLen := List.length_pos_iff.mpr hdata
  rw [dump, if_pos hpos, Traced.result_bind]
  show Except.mapError _ (DumpMem.dumpMem _ _ _ _ _ _).result = _
  rw [(dumpMem_default hdata label).2 h]
  rfl

theorem dumpIf_ok {p : Packet} (h : p.getDataLen ≤ DUMP_LIMIT) (debug : Bool)
    (label : String) :
    dumpIf debug label p =
      ⟨if debug then dumpText label p else [], .ok ()⟩ := by
  cases debug with
  | false => rfl
  | true => exact dump_ok h label

/-! ## The decoder -/

section Decoder

variable (crc8 : UInt8 → UInt8 → UInt8)

/-- What a byte shows, from the result and the packet after it. -/
def shown (debug : Bool) (err : ErrorCode) (p : Packet) : List Shown :=
  match err with
  | .none => if debug then dumpText "Rcvd" p else []
  | .crc => .error (crcError p.crc (p.calcCrc crc8)) ::
      if debug then dumpText "CRC " p else []
  | .tooMuchData => (if debug then dumpText "2Big" p else []) ++ [noRoom]
  | _ => []

/-- What the decoder stores can be dumped. -/
def Fits (d : PacketDecoder Packet) : Prop :=
  d.state = .data → d.packet.getDataLen ≤ Packet.MAX_DATA_LEN

/-- The decoder does what it does without debugging, and shows that. -/
def Plain (debug : Bool)
    (plain : Except Fault (ErrorCode × PacketDecoder Packet))
    (traced : Traced Shown Raised (ErrorCode × PacketDecoder Packet)) : Prop :=
  ∃ err d', plain = .ok (err, d') ∧
    traced = ⟨shown crc8 debug err d'.packet, .ok (err, d')⟩ ∧ Fits d'

variable {crc8} {debug : Bool} {d : PacketDecoder Packet}

theorem plain_notDone (h : Fits d) :
    Plain crc8 debug (.ok (.notDone, d)) (pure (.notDone, d)) :=
  ⟨.notDone, d, rfl, rfl, h⟩

theorem plain_decodeByteIdle (hstate : d.state = .idle) (byte : UInt8) :
    Plain crc8 debug (.ok (d.decodeByteIdle byte))
      (pure (d.decodeByteIdle byte)) := by
  rw [PacketDecoder.decodeByteIdle]
  split
  · exact plain_notDone fun h => (by cases h)
  · exact plain_notDone fun h => (by rw [hstate] at h; cases h)

theorem plain_decodeByteCommand (hstate : d.state = .command) (byte : UInt8) :
    Plain crc8 debug (.ok (d.decodeByteCommand byte))
      (pure (d.decodeByteCommand byte)) := by
  rw [PacketDecoder.decodeByteCommand]
  split
  · exact plain_notDone fun h => (by rw [hstate] at h; cases h)
  · exact plain_notDone fun _ => Nat.zero_le _

theorem plain_decodeByteData (hstate : d.state = .data) (h : Fits d)
    (byte : UInt8) :
    Plain crc8 debug (d.decodeByteData crc8 byte)
      (decodeByteData crc8 debug d byte) := by
  have hroom := h hstate
  rw [PacketDecoder.decodeByteData, decodeByteData]
  split
  · -- the END of the frame
    rcases List.eq_nil_or_concat d.packet.data with hnil | ⟨data, sum, hdata⟩
    · have hzero : d.packet.getDataLen = 0 := congrArg List.length hnil
      rw [if_pos hzero, if_pos hzero]
      exact ⟨.tooSmall, _, rfl, rfl, fun h => (by cases h)⟩
    · rw [List.concat_eq_append] at hdata
      have hlen : d.packet.getDataLen = data.length + 1 := by
        rw [Packet.getDataLen, hdata, List.length_append,
          List.length_singleton]
      obtain ⟨p, hp⟩ : ∃ p : Packet, p = ⟨d.packet.cmd, data, sum⟩ := ⟨_, rfl⟩
      have hextract : d.packet.extractCrc = .ok (sum, p) := by
        rw [hp]
        exact Packet.extractCrc_concat hdata
      have hcrc : p.crc = sum := by rw [hp]
      have hfits : p.getDataLen ≤ DUMP_LIMIT := by
        rw [hlen] at hroom
        rw [hp]
        exact Nat.le_trans (Nat.le_of_succ_le hroom) (by decide)
      have hne : d.packet.getDataLen ≠ 0 := by omega
      rw [if_neg hne, if_neg hne, hextract]
      show Plain crc8 debug
        (if sum = p.calcCrc crc8 then _ else _)
        (if sum = p.calcCrc crc8 then _ else _)
      split
      · refine ⟨.none, { d with packet := p, state := .idle }, rfl, ?_,
          fun h => (by cases h)⟩
        rw [Traced.bind_ok (dumpIf_ok hfits debug _), Traced.pure_eq,
          List.append_nil]
        rfl
      · refine ⟨.crc, { d with packet := p, state := .idle }, rfl, ?_,
          fun h => (by cases h)⟩
        show Traced.emit (Shown.error (crcError sum (p.calcCrc crc8))) >>= _ = _
        rw [← hcrc, Traced.emit_bind, Traced.bind_ok (dumpIf_ok hfits debug _),
          Traced.pure_eq, List.append_nil]
        rfl
  · split
    · refine ⟨.tooMuchData, _, rfl, ?_, fun _ => hroom⟩
      rw [Traced.bind_ok (dumpIf_ok (Nat.le_trans hroom (by decide)) debug _)]
      rfl
    · next hfull =>
        refine plain_notDone fun _ => ?_
        show (d.packet.data ++ [byte]).length ≤ _
        rw [List.length_append]
        exact Nat.lt_of_not_le hfull

/-- Every handler but the one of the body shows nothing. -/
theorem plain_decodeByteState (h : Fits d) (byte : UInt8) :
    Plain crc8 debug (d.decodeByteState crc8 byte)
      (decodeByteState crc8 debug d byte) := by
  rw [PacketDecoder.decodeByteState, decodeByteState]
  cases hstate : d.state with
  | idle => exact plain_decodeByteIdle hstate byte
  | command => exact plain_decodeByteCommand hstate byte
  | data => exact plain_decodeByteData hstate h byte
  | other => exact ⟨.badState, d, rfl, rfl, h⟩

variable (crc8 debug) in
/-- **One byte**, with debugging or without. -/
theorem plain_decodeByte (h : Fits d) (byte : UInt8) :
    Plain crc8 debug (d.decodeByte crc8 byte) (decodeByte crc8 debug d byte) := by
  have hstate : ∀ b, Plain crc8 debug (d.decodeByteState crc8 b)
      (decodeByteState crc8 debug d b) := fun b => plain_decodeByteState h b
  rw [PacketDecoder.decodeByte, decodeByte]
  split
  · exact hstate byte
  · split
    · split
      · exact hstate END
      · split
        · exact hstate ESC
        · exact hstate byte
    · split
      · exact plain_notDone h
      · exact hstate byte

variable (crc8)

/-- A byte, after the flag was set. -/
theorem receive_eq {d : Decoder} (hfits : Fits d.decoder)
    (input : Bool × UInt8) :
    ∃ err d', d.decoder.decodeByte crc8 input.2 = .ok (err, d') ∧
      d.receive crc8 input = ⟨shown crc8 input.1 err d'.packet,
        .ok (err, ⟨d', input.1⟩)⟩ ∧ Fits d' := by
  obtain ⟨err, d', hplain, htraced, hfits'⟩ :=
    plain_decodeByte crc8 input.1 hfits input.2
  refine ⟨err, d', hplain, ?_, hfits'⟩
  show decodeByte crc8 input.1 d.decoder input.2 >>= _ = _
  rw [Traced.bind_ok htraced]
  exact congrArg (Traced.mk · _) (List.append_nil _)

/-- The flag is whatever it was last set to. -/
theorem instruments :
    Instruments (Decoder.receive crc8) (PacketDecoder.decodeByte crc8) Prod.snd
      (fun d plain => d.decoder = plain ∧ Fits plain)
      (fun input err plain => shown crc8 input.1 err plain.packet) where
  step := by
    rintro d plain input ⟨rfl, hfits⟩
    obtain ⟨err, d', hplain, hreceive, hfits'⟩ := receive_eq crc8 hfits input
    exact ⟨err, _, d', hplain, hreceive, rfl, hfits'⟩

/-- **Debugging changes nothing but what is shown.**  A decoder receives any
bytes, and its debug flag is set to anything before each of them.  The results
and the packet after each byte are those of a decoder without the flag, no
exception is raised, and each byte shows what the flag, its result and the
packet tell. -/
theorem transparent (d : Decoder)
    (hfits : d.decoder.state = .data →
      d.decoder.packet.getDataLen ≤ Packet.MAX_DATA_LEN)
    (inputs : List (Bool × UInt8)) :
    ∃ answers d', feed (watch (PacketDecoder.decodeByte crc8)) d.decoder
        (inputs.map Prod.snd) = .ok (answers, d'.decoder) ∧
      Traced.feed (Decoder.receive crc8) d inputs =
        ⟨(inputs.zip answers).flatMap fun a =>
            shown crc8 a.1.1 a.2.1 a.2.2.packet,
          .ok (answers.map Prod.fst, d')⟩ := by
  obtain ⟨answers, d', plain, hplain, htraced, rfl, _⟩ :=
    (instruments crc8).feed ⟨rfl, hfits⟩ inputs
  exact ⟨answers, d', hplain, htraced⟩

/-- The flag is set before the last byte of a frame. -/
theorem transparent_lateFlag :
    ∃ answers d', feed (watch (PacketDecoder.decodeByte crc8Poly07))
        (.new (.new 0 [])) [END, 0x01, 0x41, 0x55, END] =
          .ok (answers, d'.decoder) ∧
      Traced.feed (Decoder.receive crc8Poly07) ⟨.new (.new 0 []), false⟩
          [(false, END), (false, 0x01), (false, 0x41), (false, 0x55),
            (true, END)] =
        ⟨([(false, END), (false, 0x01), (false, 0x41), (false, 0x55),
            (true, END)].zip answers).flatMap fun a =>
            shown crc8Poly07 a.1.1 a.2.1 a.2.2.packet,
          .ok (answers.map Prod.fst, d')⟩ :=
  transparent crc8Poly07 ⟨.new (.new 0 []), false⟩
    (fun hstate => (by cases hstate))
    [(false, END), (false, 0x01), (false, 0x41), (false, 0x55), (true, END)]

end Decoder

/-! ## Both ends of a line -/

/-- What an answer of the receiver shows, if it refuses nothing. -/
def seen : Verdict UInt8 → List Shown
  | .accepted cmd body sum => dumpText "Rcvd" ⟨cmd, body, sum⟩
  | _ => []

/-- What is shown goes with an answer of the receiver. -/
def Sees (es : List Shown) : Verdict UInt8 → Prop
  | .overflow => noRoom ∈ es
  | .mismatch => True
  | v => es = seen v

/-- A line that begins with the label is not the one about the room. -/
theorem label_ne (s : String) : "Rcvd" ++ s ≠ "Returning TOO_MUCH_DATA" := by
  intro h
  have hsecond := congrArg (fun line : String => line.toList[1]?) h
  rw [String.toList_append] at hsecond
  exact absurd hsecond (by simp)

theorem noRoom_notMem_dumpText (p : Packet) : noRoom ∉ dumpText "Rcvd" p := by
  intro hmem
  rcases List.mem_cons.mp hmem with hheader | hline
  · have h := Shown.print.inj hheader
    simp only [header, String.append_assoc] at h
    exact label_ne _ h.symm
  · obtain ⟨line, hline, hprint⟩ := List.mem_map.mp hline
    obtain ⟨k, _, rfl⟩ := List.mem_map.mp hline
    have h := Shown.print.inj hprint
    rw [lineText, frontText, if_neg (by decide)] at h
    simp only [String.append_assoc] at h
    exact label_ne _ h

theorem flatten_seen {ess : List (List Shown)} {vs : List (Verdict UInt8)}
    (h : List.Forall₂ Sees ess vs)
    (hread : ∀ v ∈ vs, v = .pending ∨ ∃ cmd body sum,
      v = .accepted cmd body sum) : ess.flatten = vs.flatMap seen := by
  induction h with
  | nil => rfl
  | @cons es v ess vs hsees _ ih =>
      have hfirst : es = seen v := by
        rcases hread v List.mem_cons_self with rfl | ⟨cmd, body, sum, rfl⟩
        · exact hsees
        · exact hsees
      rw [List.flatten_cons, List.flatMap_cons, hfirst,
        ih fun v hv => hread v (List.mem_cons_of_mem _ hv)]

theorem noRoom_mem_flatten {ess : List (List Shown)}
    {vs : List (Verdict UInt8)} (h : List.Forall₂ Sees ess vs)
    (hv : .overflow ∈ vs) : noRoom ∈ ess.flatten := by
  induction h with
  | nil => cases hv
  | @cons es v ess vs hsees _ ih =>
      rw [List.flatten_cons, List.mem_append]
      rcases List.mem_cons.mp hv with rfl | hv
      · exact .inl hsees
      · exact .inr (ih hv)

section Ends

variable (crc8 : UInt8 → UInt8 → UInt8)

theorem sees_shown {d : PacketDecoder Packet} {err : ErrorCode}
    {v : Verdict UInt8} (h : d.report err = Wire.report v) :
    Sees (shown crc8 true err d.packet) v := by
  have herr := eq_errorCode h
  rw [herr]
  cases v with
  | pending => rfl
  | mismatch => trivial
  | short => rfl
  | overflow => exact List.mem_append_right _ (List.mem_singleton.mpr rfl)
  | accepted cmd body sum =>
      rw [herr] at h
      obtain ⟨rfl, rfl, rfl⟩ := Report.packet.inj h
      rfl

/-- What a decoder with debugging on shows of any bytes. -/
theorem sees_feed {d : PacketDecoder Packet} {ph : Phase UInt8}
    (htracks : d.Tracks ph) (hfits : Fits d) (debug : Bool)
    (bytes : List UInt8) :
    ∃ ess results d', Traced.feed (Decoder.receive crc8) ⟨d, debug⟩
        (bytes.map fun b => (true, b)) = ⟨ess.flatten, .ok (results, d')⟩ ∧
      List.Forall₂ Sees ess
        ((hostReceiver crc8 Packet.MAX_DATA_LEN).machine.outputs ph bytes) := by
  induction bytes generalizing d ph debug with
  | nil => exact ⟨[], [], _, rfl, .nil⟩
  | cons b bytes ih =>
      obtain ⟨err, d₁, hplain, hstep, hfits₁⟩ := receive_eq crc8
        (show Fits (⟨d, debug⟩ : Decoder).decoder from hfits) (true, b)
      obtain ⟨err', d₁', hplain', hreport, htracks₁⟩ :=
        PacketDecoder.shows_decodeByte crc8 htracks b
      cases hplain.symm.trans hplain'
      obtain ⟨ess, results, d', hrest, hsees⟩ := ih htracks₁ hfits₁ true
      refine ⟨shown crc8 true err d₁.packet :: ess, err :: results, d', ?_,
        .cons (sees_shown crc8 hreport) hsees⟩
      rw [List.map_cons, Traced.feed, Traced.bind_ok hstep]
      simp only [Traced.bind_ok hrest, Traced.pure_eq, List.append_nil,
        List.flatten_cons]

/-- What is shown of frames that are all read. -/
theorem flatten_seen_readsAll {capacity : Nat} {ess : List (List Shown)}
    {fs : List (UInt8 × List UInt8)}
    (h : List.Forall₂ Sees ess ((hostReceiver crc8 capacity).readsAll fs)) :
    ess.flatten = fs.flatMap fun f =>
      dumpText "Rcvd" ⟨f.1, f.2, checksum crc8 f.1 f.2⟩ := by
  have hreads : ∀ f ∈ fs, ((hostReceiver crc8 capacity).reads f.1 f.2).flatMap
      seen = dumpText "Rcvd" ⟨f.1, f.2, checksum crc8 f.1 f.2⟩ := by
    intro f _
    rw [Framing.reads, List.flatMap_append, List.flatMap_replicate,
      show seen .pending = [] from rfl, List.flatten_replicate_nil,
      List.nil_append, List.flatMap_singleton]
    rfl
  rw [flatten_seen h, Receiver.readsAll, List.flatMap_assoc,
    List.flatMap_congr hreads]
  intro v hv
  obtain ⟨f, _, hmem⟩ := List.mem_flatMap.mp hv
  rw [Framing.reads] at hmem
  rcases List.mem_append.mp hmem with hmem | hmem
  · exact .inl (List.eq_of_mem_replicate hmem)
  · exact .inr ⟨_, _, _, List.mem_singleton.mp hmem⟩

/-- **The receiving end**: a decoder between frames shows a dump of every
packet, and nothing else, exactly if all of them fit together with their
CRCs. -/
theorem shows_packets_iff {d : PacketDecoder Packet} {ph : Phase UInt8}
    (htracks : d.Tracks ph) (hready : ph.Ready) (hfits : Fits d)
    (debug : Bool) (ps : List Packet) :
    (∃ results d', Traced.feed (Decoder.receive crc8) ⟨d, debug⟩
        ((ps.flatMap fun p => frame crc8 p.cmd p.data).map fun b => (true, b)) =
      ⟨ps.flatMap fun p => dumpText "Rcvd" (p.calcAndStoreCrc crc8),
        .ok (results, d')⟩) ↔
      ∀ p ∈ ps, p.getDataLen < Packet.MAX_DATA_LEN := by
  obtain ⟨R, hR⟩ : ∃ R, R = hostReceiver crc8 Packet.MAX_DATA_LEN := ⟨_, rfl⟩
  obtain ⟨fs, hfs⟩ : ∃ fs : List (UInt8 × List UInt8),
    fs = ps.map fun p => (p.cmd, p.data) := ⟨_, rfl⟩
  have hbytes : ps.flatMap (fun p => frame crc8 p.cmd p.data) =
      R.frames fs := by
    rw [hfs, hR, Receiver.frames, List.flatMap_map]
    rfl
  obtain ⟨ess, results, d', hreceive, hsees⟩ :=
    sees_feed crc8 htracks hfits debug (R.frames fs)
  rw [← hR] at hsees
  rw [hbytes, hreceive]
  constructor
  · rintro ⟨results', d'', hshows⟩
    by_contra hlong
    simp only [not_forall, Nat.not_lt] at hlong
    obtain ⟨p, hp, hlong⟩ := hlong
    have hover : .overflow ∈ R.machine.outputs ph (R.frames fs) := by
      refine R.overflow_mem_outputs_frames hready ⟨(p.cmd, p.data), ?_, ?_⟩
      · rw [hfs]
        exact List.mem_map_of_mem hp
      · rw [hR]
        exact Nat.lt_succ_of_le hlong
    -- a dump has no line about the room
    have hmem := noRoom_mem_flatten hsees hover
    rw [show ess.flatten = _ from congrArg Traced.events hshows] at hmem
    obtain ⟨q, _, hq⟩ := List.mem_flatMap.mp hmem
    exact noRoom_notMem_dumpText _ hq
  · intro hroom
    have hread : R.machine.outputs ph (R.frames fs) = R.readsAll fs := by
      refine (R.outputs_frames hready fs fun f hf => ?_).2
      rw [hfs] at hf
      obtain ⟨p, hp, rfl⟩ := List.mem_map.mp hf
      rw [hR]
      exact hroom p hp
    rw [hread, hR] at hsees
    refine ⟨results, d', ?_⟩
    rw [flatten_seen_readsAll crc8 hsees, hfs, List.flatMap_map]
    rfl

/-- `write_packet` with debugging, on a line that accepts every byte. -/
def write (bus : Bus) (p : Packet) :
    Traced Shown Raised ((ErrorCode × List UInt8) × Bus) := do
  let (err, bytes, bus) ← writePacket crc8 true bus p []
  return ((err, bytes), bus)

/-- A write without a dump, or with one that does not raise. -/
theorem writePacket_eq {debug : Bool} (bus : Bus) {p : Packet}
    (h : debug = true → p.getDataLen ≤ DUMP_LIMIT) (accepts : List Bool) :
    writePacket crc8 debug bus p accepts =
      ⟨if debug then dumpText "Sent" (p.calcAndStoreCrc crc8) else [],
        (bus.writePacket crc8 p accepts).mapError .fault⟩ := by
  have hdump : dumpIf debug "Sent" (p.calcAndStoreCrc crc8) =
      ⟨if debug then dumpText "Sent" (p.calcAndStoreCrc crc8) else [],
        .ok ()⟩ := by
    cases debug with
    | false => rfl
    | true =>
        have hfits : (p.calcAndStoreCrc crc8).getDataLen ≤ DUMP_LIMIT := h rfl
        exact dump_ok hfits "Sent"
  have hstart : encodeStart crc8 debug bus.encoder p =
      ⟨if debug then dumpText "Sent" (p.calcAndStoreCrc crc8) else [],
        .ok (bus.encoder.encodeStart crc8 p)⟩ := by
    show dumpIf debug "Sent" (p.calcAndStoreCrc crc8) >>= _ = _
    rw [Traced.bind_ok hdump]
    exact congrArg (Traced.mk · _) (List.append_nil _)
  rw [writePacket, Traced.bind_ok hstart, Bus.writePacket]
  cases (Bus.writer crc8).drain (bus.encoder.encodeStart crc8 p, accepts) with
  | error f => exact congrArg (Traced.mk · _) (List.append_nil _)
  | ok r => exact congrArg (Traced.mk · _) (List.append_nil _)

/-- The dump raises before anything is written. -/
theorem writePacket_wide (bus : Bus) {p : Packet}
    (h : ¬ p.getDataLen ≤ DUMP_LIMIT) (accepts : List Bool) :
    (writePacket crc8 true bus p accepts).result =
      .error (.dump .valueError) := by
  have hwide : ¬ (p.calcAndStoreCrc crc8).getDataLen ≤ DUMP_LIMIT := h
  have hdump : (dumpIf true "Sent" (p.calcAndStoreCrc crc8)).result =
      .error (.dump .valueError) := by
    rw [dumpIf, if_pos rfl, dump_wide hwide]
  rw [writePacket, Traced.result_bind, encodeStart, Traced.result_bind, hdump]
  rfl

/-- What is shown of packets that are written one after the other. -/
theorem feed_write {ps : List Packet}
    (h : ∀ p ∈ ps, p.getDataLen ≤ DUMP_LIMIT) (bus : Bus) :
    ∃ bus', Traced.feed (write crc8) bus ps =
      ⟨ps.flatMap fun p => dumpText "Sent" (p.calcAndStoreCrc crc8),
        .ok (ps.map fun p => (.none, frame crc8 p.cmd p.data), bus')⟩ := by
  induction ps generalizing bus with
  | nil => exact ⟨bus, rfl⟩
  | cons p ps ih =>
      obtain ⟨encoder, hsend⟩ := bus.sendCommand_eq crc8 p
      have hwrite : write crc8 bus p =
          ⟨dumpText "Sent" (p.calcAndStoreCrc crc8),
            .ok ((.none, frame crc8 p.cmd p.data), { bus with encoder })⟩ := by
        have hpacket := writePacket_eq crc8 bus
          (fun _ : true = true => h p List.mem_cons_self) []
        rw [show bus.writePacket crc8 p [] = _ from hsend] at hpacket
        rw [write, Traced.bind_ok hpacket]
        exact congrArg (Traced.mk · _) (List.append_nil _)
      obtain ⟨bus', hrest⟩ :=
        ih (fun q hq => h q (List.mem_cons_of_mem _ hq)) { bus with encoder }
      refine ⟨bus', ?_⟩
      rw [Traced.feed, Traced.bind_ok hwrite]
      simp only [Traced.bind_ok hrest, Traced.pure_eq, List.append_nil,
        List.flatMap_cons, List.map_cons]

/-- A packet that cannot be dumped ends the row. -/
theorem feed_write_wide {ps : List Packet}
    (h : ∃ p ∈ ps, ¬ p.getDataLen ≤ DUMP_LIMIT) (bus : Bus) :
    ∃ e, (Traced.feed (write crc8) bus ps).result = .error e := by
  induction ps generalizing bus with
  | nil =>
      obtain ⟨p, hp, _⟩ := h
      cases hp
  | cons p ps ih =>
      rw [Traced.feed, Traced.result_bind]
      cases hwrite : (write crc8 bus p).result with
      | error e => exact ⟨e, rfl⟩
      | ok r =>
          have hfits : p.getDataLen ≤ DUMP_LIMIT := by
            by_contra hwide
            rw [write, Traced.result_bind,
              writePacket_wide crc8 bus hwide []] at hwrite
            cases hwrite
          obtain ⟨q, hq, hwide⟩ := h
          rcases List.mem_cons.mp hq with rfl | hq
          · exact absurd hfits hwide
          · obtain ⟨e, hrest⟩ := ih ⟨q, hq, hwide⟩ r.2
            refine ⟨e, ?_⟩
            show (Traced.feed (write crc8) r.2 ps >>= _).result = _
            rw [Traced.result_bind, hrest]
            rfl

/-- One host writes packets, the other receives their bytes, both with
debugging on: nothing is raised, and the receiver shows of every packet what
the sender showed of it, under its own label, and nothing else. -/
def Mirrors (bus : Bus) (d : Decoder) (ps : List Packet) : Prop :=
  ∃ answers bus' results d',
    Traced.feed (write crc8) bus ps =
      ⟨ps.flatMap fun p => dumpText "Sent" (p.calcAndStoreCrc crc8),
        .ok (answers, bus')⟩ ∧
    Traced.feed (Decoder.receive crc8) d
        ((answers.flatMap Prod.snd).map fun b => (true, b)) =
      ⟨ps.flatMap fun p => dumpText "Rcvd" (p.calcAndStoreCrc crc8),
        .ok (results, d')⟩

/-- **What both ends show.**  A host writes packets to one whose decoder is
between frames, both with debugging on.  Their dumps are the same but for the
label if and only if every packet fits the decoder together with its CRC. -/
theorem mirrors_iff (bus : Bus) {d : PacketDecoder Packet}
    (hstate : d.state = .idle ∨ d.state = .command)
    (hescape : d.escape = false) (debug : Bool) (ps : List Packet) :
    Mirrors crc8 bus ⟨d, debug⟩ ps ↔
      ∀ p ∈ ps, p.getDataLen < Packet.MAX_DATA_LEN := by
  have hready : ∃ ph, d.Tracks ph ∧ ph.Ready := by
    rcases hstate with hidle | hcommand
    · exact ⟨.idle, ⟨hidle, hescape⟩, .inl rfl⟩
    · exact ⟨.command false, ⟨hcommand, hescape⟩, .inr rfl⟩
  obtain ⟨ph, htracks, hready⟩ := hready
  have hfits : Fits d := by
    intro hdata
    rcases hstate with hstate | hstate
    · cases hstate.symm.trans hdata
    · cases hstate.symm.trans hdata
  have hbytes : (ps.map fun p => (ErrorCode.none,
      frame crc8 p.cmd p.data)).flatMap Prod.snd =
        ps.flatMap fun p => frame crc8 p.cmd p.data := by
    rw [List.flatMap_map]
  rw [← shows_packets_iff crc8 htracks hready hfits debug ps]
  constructor
  · rintro ⟨answers, bus', results, d', hsent, hreceived⟩
    have hdumped : ∀ p ∈ ps, p.getDataLen ≤ DUMP_LIMIT := by
      by_contra hwide
      obtain ⟨e, herror⟩ := feed_write_wide crc8 (by simpa using hwide) bus
      rw [hsent] at herror
      cases herror
    obtain ⟨bus'', hsent'⟩ := feed_write crc8 hdumped bus
    rw [hsent'] at hsent
    cases hsent
    rw [hbytes] at hreceived
    exact ⟨results, d', hreceived⟩
  · intro hshows
    have hroom := (shows_packets_iff crc8 htracks hready hfits debug ps).mp hshows
    obtain ⟨bus', hsent⟩ := feed_write crc8 (fun p hp =>
      Nat.le_trans (Nat.le_of_lt (hroom p hp)) (by decide)) bus
    obtain ⟨results, d', hreceived⟩ := hshows
    refine ⟨_, bus', results, d', hsent, ?_⟩
    rw [hbytes]
    exact hreceived

/-- Two packets: one without data, and one whose data is escaped. -/
theorem mirrors_iff_twoPackets :
    Mirrors crc8Poly07 .new ⟨.new (.new 0 []), false⟩
      [.new 0x01 [], .new 0x05 [0xC0, 0xDB]] :=
  (mirrors_iff crc8Poly07 .new (.inl rfl) rfl false
    [.new 0x01 [], .new 0x05 [0xC0, 0xDB]]).mpr (by decide)

end Ends

/-! ## A call -/

section Call

variable (crc8 : UInt8 → UInt8 → UInt8)

/-- The line refuses a byte of the frame. -/
def Refused (p : Packet) (accepts : List Bool) : Prop :=
  false ∈ accepts.take (frame crc8 p.cmd p.data).length

instance (p : Packet) (accepts : List Bool) :
    Decidable (Refused crc8 p accepts) :=
  inferInstanceAs (Decidable (_ ∈ _))

/-- What a call is to return: it fails on a bus that is not open, on a line
that refuses a byte and without a packet in the queue, and returns the first
packet of the queue otherwise. -/
def answer (isOpen : Bool) (p : Packet) (accepts : List Bool)
    (queue : List Ref) : ErrorCode × Option Ref :=
  if isOpen then
    if Refused crc8 p accepts then (.os, none)
    else
      match queue with
      | [] => (.timeout, none)
      | rspPkt :: _ => (.none, some rspPkt)
  else (.notOpen, none)

theorem result_dump (label : String) (p : Packet) :
    (dump label p).result =
      if p.getDataLen ≤ DUMP_LIMIT then .ok ()
      else .error (.dump .valueError) := by
  split
  · next hfits => rw [dump_ok hfits]
  · next hwide => exact dump_wide hwide label

theorem result_writePacket (debug : Bool) (bus : Bus) (p : Packet)
    (accepts : List Bool) :
    ∃ bytes encoder, (writePacket crc8 debug bus p accepts).result =
      if debug = true ∧ ¬ p.getDataLen ≤ DUMP_LIMIT then
        .error (.dump .valueError)
      else .ok (if Refused crc8 p accepts then .os else .none, bytes,
        { bus with encoder }) := by
  obtain ⟨bytes, encoder, hwrite⟩ := bus.writePacket_any crc8 p accepts
  refine ⟨bytes, encoder, ?_⟩
  split
  · next hwide =>
      rw [hwide.1]
      exact writePacket_wide crc8 bus hwide.2 accepts
  · next hfits =>
      rw [writePacket_eq crc8 bus (fun hdebug => by
        by_contra hwide
        exact hfits ⟨hdebug, hwide⟩), hwrite]
      rfl

/-- An error is logged, and the command dumped. -/
theorem result_failed {α : Type} (msg label : String) (p : Packet) (a : α) :
    Traced.result (do
      Traced.emit (Shown.error msg)
      dump label p
      return a) =
      if p.getDataLen ≤ DUMP_LIMIT then .ok a
      else .error (.dump .valueError) := by
  rw [Traced.emit_bind, Traced.result_bind, result_dump]
  split
  · rfl
  · rfl

/-- What an open bus returns, once the command was written or not. -/
theorem result_call {debug : Bool} {bus bus' : Bus} {p : Packet}
    {accepts : List Bool} {err : ErrorCode} {bytes : List UInt8}
    (h : (writePacket crc8 debug bus p accepts).result = .ok (err, bytes, bus'))
    (arrived : List Ref) :
    (sendCommandGetResponse crc8 true debug bus p accepts arrived).result =
      if err ≠ .none then
        if p.getDataLen ≤ DUMP_LIMIT then .ok ((err, none), bytes, bus')
        else .error (.dump .valueError)
      else
        match bus'.recvQueue ++ arrived with
        | [] =>
            if p.getDataLen ≤ DUMP_LIMIT then
              .ok ((.timeout, none), bytes, bus')
            else .error (.dump .valueError)
        | rspPkt :: rest =>
            .ok ((.none, some rspPkt), bytes,
              { bus' with recvQueue := rest }) := by
  rw [sendCommandGetResponse, if_pos rfl, Traced.result_bind, h]
  show Traced.result (if err ≠ .none then _ else _) = _
  split
  · exact result_failed _ _ (p.calcAndStoreCrc crc8) _
  · cases bus'.recvQueue ++ arrived with
    | nil => exact result_failed _ _ (p.calcAndStoreCrc crc8) _
    | cons rspPkt rest => rfl

/-- No dump of a call is too long: the command has at most 64 KiB of data, or
debugging is off and nothing goes wrong. -/
def Dumps (debug : Bool) (p : Packet) (accepts : List Bool)
    (queue : List Ref) : Prop :=
  p.getDataLen ≤ DUMP_LIMIT ∨
    debug = false ∧ ¬ Refused crc8 p accepts ∧ queue ≠ []

instance (debug : Bool) (p : Packet) (accepts : List Bool)
    (queue : List Ref) : Decidable (Dumps crc8 debug p accepts queue) :=
  inferInstanceAs (Decidable (_ ∨ _))

/-- When something goes wrong, the command is dumped. -/
theorem dumps_iff_of_failed {debug : Bool} {p : Packet} {accepts : List Bool}
    {queue : List Ref} (h : Refused crc8 p accepts ∨ queue = []) :
    Dumps crc8 debug p accepts queue ↔ p.getDataLen ≤ DUMP_LIMIT := by
  refine ⟨?_, .inl⟩
  rintro (hfits | ⟨_, hrefused, hqueue⟩)
  · exact hfits
  · rcases h with h | h
    · exact absurd h hrefused
    · exact absurd h hqueue

/-- A call on a bus that is open. -/
theorem call_open (debug : Bool) (bus : Bus) (p : Packet)
    (accepts : List Bool) (arrived : List Ref) :
    ∃ bytes bus', (sendCommandGetResponse crc8 true debug bus p accepts
        arrived).result =
      if Dumps crc8 debug p accepts (bus.recvQueue ++ arrived) then
        .ok (answer crc8 true p accepts (bus.recvQueue ++ arrived), bytes, bus')
      else .error (.dump .valueError) := by
  obtain ⟨bytes, encoder, hwrite⟩ :=
    result_writePacket crc8 debug bus p accepts
  obtain ⟨queue, hqueue⟩ : ∃ queue, queue = bus.recvQueue ++ arrived :=
    ⟨_, rfl⟩
  by_cases hdumps : debug = true ∧ ¬ p.getDataLen ≤ DUMP_LIMIT
  · -- the dump of the encoder raises
    rw [if_pos hdumps] at hwrite
    have hnot : ¬ Dumps crc8 debug p accepts queue := by
      rintro (hfits | ⟨hdebug, _⟩)
      · exact hdumps.2 hfits
      · rw [hdumps.1] at hdebug
        cases hdebug
    refine ⟨[], bus, ?_⟩
    rw [sendCommandGetResponse, if_pos rfl, Traced.result_bind, hwrite,
      ← hqueue, if_neg hnot]
    rfl
  · rw [if_neg hdumps] at hwrite
    have hcall := result_call crc8 hwrite arrived
    rw [← hqueue] at hcall ⊢
    by_cases hrefused : Refused crc8 p accepts
    · refine ⟨bytes, { bus with encoder }, ?_⟩
      simp only [dumps_iff_of_failed crc8 (.inl hrefused)]
      simp only [if_pos hrefused] at hcall
      rw [hcall, if_pos (by decide)]
      simp only [answer, if_pos hrefused, if_true]
    · simp only [if_neg hrefused, ne_eq, not_true_eq_false, if_false] at hcall
      cases queue with
      | nil =>
          refine ⟨bytes, { bus with encoder }, ?_⟩
          rw [hcall]
          simp only [dumps_iff_of_failed crc8 (.inr rfl), answer,
            if_neg hrefused, if_true]
      | cons rspPkt rest =>
          refine ⟨bytes, { bus with encoder, recvQueue := rest }, ?_⟩
          have hdumps' : Dumps crc8 debug p accepts (rspPkt :: rest) := by
            by_cases hfits : p.getDataLen ≤ DUMP_LIMIT
            · exact .inl hfits
            · refine .inr ⟨?_, hrefused, List.cons_ne_nil _ _⟩
              cases debug with
              | false => rfl
              | true => exact absurd ⟨rfl, hfits⟩ hdumps
          rw [hcall, if_pos hdumps']
          simp only [answer, if_neg hrefused, if_true]

/-- **A call returns what it is to return**, if the bus is not open or no dump
is too long, whatever the line accepts and the receive thread queues meanwhile.
Otherwise it raises `ValueError`. -/
theorem call_eq (isOpen debug : Bool) (bus : Bus) (p : Packet)
    (accepts : List Bool) (arrived : List Ref) :
    ∃ bytes bus', (sendCommandGetResponse crc8 isOpen debug bus p accepts
        arrived).result =
      if isOpen = false ∨ Dumps crc8 debug p accepts (bus.recvQueue ++ arrived)
      then .ok (answer crc8 isOpen p accepts (bus.recvQueue ++ arrived),
        bytes, bus')
      else .error (.dump .valueError) := by
  cases isOpen with
  | false => exact ⟨[], bus, (if_pos (.inl rfl)).symm⟩
  | true =>
      simp only [Bool.true_eq_false, false_or]
      exact call_open crc8 debug bus p accepts arrived

end Call

end DuinoBus.HostDebug
