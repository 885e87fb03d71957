import DuinoBus.Py.DumpMem

/-!
# What a dump of memory looks like

`lineText` is the line for some bytes, in terms of what is to be read in it,
and `dumps_iff` compares the lines that `dump_mem` logs with it.  They are
these lines, for every buffer, as long as no address has more than four digits
in hex.  A fifth digit does not fit the column for the address: assigning it
raises `ValueError`, although the format asks for at least four digits.

The proof writes the line buffer down as its columns.  `Columns` is what holds
of it between two lines, `dumpLine_ok` says what one line does, and
`dumpLines_ok` and `dumpLines_error` are about all of them.
-/

namespace DuinoBus.HexDump

open DuinoBus.Verified
open DuinoBus.Py
open DuinoBus.Py.DumpMem

/-! ## The lines -/

/-- The character of a byte, or a dot. -/
def asciiChar (b : UInt8) : Char :=
  if b < 0x20 ∨ 0x7e < b then '.' else Char.ofNat b.toNat

/-- What every line begins with. -/
def frontText (prefixStr : String) : String :=
  if prefixStr = "" then "" else prefixStr ++ ": "

/-- The line for some bytes: the prefix, the address, the bytes in hex, and
behind as many blanks as the column is wide their characters. -/
def lineText (prefixStr : String) (width : Nat) (showAscii showAddr : Bool)
    (addr : Nat) (bs : List UInt8) : String :=
  frontText prefixStr ++
    (if showAddr then String.ofList (addrText addr) else "") ++
    String.ofList (hexText bs) ++
    (if showAscii then
      String.ofList (List.replicate (width * 3 - 1 - (hexText bs).length) ' ') ++
        " " ++ String.ofList (bs.map asciiChar)
    else "")

/-- A line for every `width` bytes. -/
def expectedLines (buf : List UInt8) (prefixStr : String) (addr width : Nat)
    (showAscii showAddr : Bool) : List String :=
  (List.range ((buf.length + width - 1) / width)).map fun k =>
    lineText prefixStr width showAscii showAddr (addr + k * width)
      ((buf.drop (k * width)).take width)

/-- The width that is used. -/
def usedWidth (lineWidth : Int) : Nat :=
  if lineWidth < 0 then 16 else lineWidth.toNat

/-- Nothing is raised, and these lines are logged. -/
def Dumps (buf : List UInt8) (prefixStr : String) (addr : Nat)
    (lineWidth : Int) (showAscii showAddr : Bool) : Prop :=
  dumpMem (some buf) prefixStr addr lineWidth showAscii showAddr =
    ⟨expectedLines buf prefixStr addr (usedWidth lineWidth) showAscii showAddr,
      .ok ()⟩

/-! ## The columns -/

/-- A byte that cannot be printed becomes a dot. -/
def dotByte (b : UInt8) : UInt8 := if b < 0x20 ∨ 0x7e < b then 0x2e else b

theorem asciiChar_byte : ∀ n < 256, IsAscii (asciiChar (UInt8.ofNat n)) ∧
    (asciiChar (UInt8.ofNat n)).val.toUInt8 = dotByte (UInt8.ofNat n) := by
  decide +kernel

theorem encode_asciiChars (bs : List UInt8) :
    encode (String.ofList (bs.map asciiChar)) = bs.map dotByte := by
  have hbyte : ∀ b : UInt8, IsAscii (asciiChar b) ∧
      (asciiChar b).val.toUInt8 = dotByte b := by
    intro b
    have h := asciiChar_byte b.toNat b.toNat_lt
    rw [UInt8.ofNat_toNat] at h
    exact h
  rw [encode_ascii, List.map_map]
  · exact List.map_congr_left fun b _ => (hbyte b).2
  · intro c hc
    obtain ⟨b, _, rfl⟩ := List.mem_map.mp hc
    exact (hbyte b).1

theorem encode_blanks (n : Nat) :
    encode (String.ofList (List.replicate n ' ')) = List.replicate n 0x20 := by
  rw [encode_ascii, List.map_replicate]
  · rfl
  · intro c hc
    rw [List.eq_of_mem_replicate hc]
    decide

/-- The offsets fit together. -/
structure LayoutOk (c : Layout) : Prop where
  width : 0 < c.lineWidth
  hex : c.hexOffset = c.prefixLen + if c.showAddr then 6 else 0
  ascii : c.showAscii = true → c.asciiOffset = c.hexOffset + c.lineWidth * 3 ∧
    c.maxLen = c.hexOffset + c.lineWidth * 3 + c.lineWidth
  noAscii : c.showAscii = false → c.maxLen = c.hexOffset + (c.lineWidth * 3 - 1)

theorem layoutOk_layout (prefixBytes : List UInt8) {lineWidth : Nat}
    (hwidth : 0 < lineWidth) (showAscii showAddr : Bool) :
    LayoutOk (layout prefixBytes lineWidth showAscii showAddr) := by
  cases showAscii with
  | true =>
      refine ⟨hwidth, ?_, fun _ => ⟨?_, ?_⟩, fun h => (by cases h)⟩
      · cases showAddr <;> rfl
      · show _ + (lineWidth * 3 - 1) + 1 = _
        simp only [layout, if_true]
        omega
      · simp only [layout, if_true]
        omega
  | false =>
      refine ⟨hwidth, ?_, fun h => (by cases h), fun _ => rfl⟩
      cases showAddr <;> rfl

/-- The line buffer between two lines: what is in front of all of them, room
for an address, room for the bytes in hex, and if there are characters a blank
and room for them. -/
def Columns (c : Layout) (front outLine : List UInt8) : Prop :=
  ∃ adr hex asc, outLine = front ++ adr ++ hex ++ asc ∧
    adr.length = (if c.showAddr then 6 else 0) ∧
    hex.length = c.lineWidth * 3 - 1 ∧
    if c.showAscii then ∃ old, asc = 0x20 :: old ∧ old.length = c.lineWidth
    else asc = []

section Line

variable {c : Layout} {front : List UInt8}

theorem columns_hex (hshow : c.showAscii = false) {adr hex : List UInt8}
    (hadr : adr.length = if c.showAddr then 6 else 0)
    (hhex : hex.length = c.lineWidth * 3 - 1) :
    Columns c front (front ++ adr ++ hex) := by
  refine ⟨adr, hex, [], (List.append_nil _).symm, hadr, hhex, ?_⟩
  rw [hshow, if_neg Bool.false_ne_true]

theorem columns_ascii (hshow : c.showAscii = true) {adr hex old : List UInt8}
    (hadr : adr.length = if c.showAddr then 6 else 0)
    (hhex : hex.length = c.lineWidth * 3 - 1)
    (hold : old.length = c.lineWidth) :
    Columns c front (front ++ adr ++ hex ++ 0x20 :: old) := by
  refine ⟨adr, hex, 0x20 :: old, rfl, hadr, hhex, ?_⟩
  rw [hshow, if_pos rfl]
  exact ⟨old, rfl, hold⟩

/-- A part of the whole line. -/
theorem outLine_slice {i j : Nat} (hij : i ≤ j) (hj : j ≤ c.maxLen) :
    c.outLine.slice i j = ⟨i, j - i⟩ := by
  rw [View.slice_eq hij hj, Layout.outLine, Nat.zero_add]

theorem lineHex_eq (hc : LayoutOk c) : c.lineHex =
    ⟨c.hexOffset, if c.showAscii then c.lineWidth * 3
      else c.lineWidth * 3 - 1⟩ := by
  have hwidth := hc.width
  cases hshow : c.showAscii with
  | true =>
      have hmax := (hc.ascii hshow).2
      rw [Layout.lineHex, outLine_slice (by omega) (by omega), if_pos rfl,
        Nat.add_sub_cancel_left]
  | false =>
      have hmax := hc.noAscii hshow
      rw [Layout.lineHex, View.slice]
      simp [Layout.outLine]
      omega

theorem lineAscii_eq (hc : LayoutOk c) (hshow : c.showAscii = true) :
    c.lineAscii = ⟨c.asciiOffset, c.lineWidth⟩ := by
  have hmax := (hc.ascii hshow).2
  have hoffset := (hc.ascii hshow).1
  rw [Layout.lineAscii, if_pos hshow, outLine_slice (by omega) (by omega),
    Nat.add_sub_cancel_left]

/-- Assigning a part of the line. -/
theorem assign_ok {v : View} {front elems elems' back : List UInt8}
    (hstart : v.start = front.length) (hlen : v.len = elems.length)
    (hsize : elems'.length = elems.length) :
    assign v (front ++ elems ++ back) elems' =
      .ok (front ++ elems' ++ back) := by
  rw [assign, View.assign_eq hstart hlen hsize]
  rfl

/-- What stands in the address column. -/
def adrBytes (c : Layout) (addr : Nat) : List UInt8 :=
  if c.showAddr then encode (String.ofList (addrText addr)) else []

theorem hexOffset_le (hc : LayoutOk c) : c.hexOffset ≤ c.maxLen := by
  cases hshow : c.showAscii with
  | true =>
      have hmax := (hc.ascii hshow).2
      omega
  | false =>
      have hmax := hc.noAscii hshow
      omega

theorem addrSlice_eq (hc : LayoutOk c) (hshow : c.showAddr = true) :
    c.outLine.slice c.prefixLen (c.prefixLen + 6) = ⟨c.prefixLen, 6⟩ := by
  have hmax := hexOffset_le hc
  rw [hc.hex, if_pos hshow] at hmax
  rw [outLine_slice (Nat.le_add_right _ _) hmax, Nat.add_sub_cancel_left]

theorem writeAddr_ok (hc : LayoutOk c) {adr : List UInt8}
    (rest : List UInt8) {addr : Nat} (hfront : front.length = c.prefixLen)
    (hadr : adr.length = if c.showAddr then 6 else 0)
    (haddr : c.showAddr = true → addr < 0x10000) :
    writeAddr c addr (front ++ adr ++ rest) =
      .ok (front ++ adrBytes c addr ++ rest) := by
  rw [writeAddr, adrBytes]
  cases hshow : c.showAddr with
  | true =>
      rw [hshow, if_pos rfl] at hadr
      have hlen := (length_addrText_iff addr).mpr (haddr hshow)
      rw [if_pos rfl, if_pos rfl, addrSlice_eq hc hshow]
      exact assign_ok hfront.symm hadr.symm (hlen.trans hadr.symm)
  | false =>
      rw [hshow, if_neg (by decide)] at hadr
      rw [List.eq_nil_of_length_eq_zero hadr]
      rfl

/-- A fifth digit does not fit. -/
theorem writeAddr_error (hc : LayoutOk c) {outLine : List UInt8} {addr : Nat}
    (hshow : c.showAddr = true) (haddr : ¬ addr < 0x10000) :
    writeAddr c addr outLine = .error .valueError := by
  have hsize : (encode (String.ofList (addrText addr))).length ≠ 6 :=
    fun hlen => haddr ((length_addrText_iff addr).mp hlen)
  rw [writeAddr, if_pos hshow, addrSlice_eq hc hshow, assign,
    View.assign_none hsize]
  rfl

theorem length_adrBytes (hc : LayoutOk c) {addr : Nat}
    (haddr : c.showAddr = true → addr < 0x10000)
    (hfront : front.length = c.prefixLen) :
    (front ++ adrBytes c addr).length = c.hexOffset := by
  rw [List.length_append, hfront, hc.hex, adrBytes]
  cases hshow : c.showAddr with
  | true =>
      rw [if_pos rfl, if_pos rfl, (length_addrText_iff addr).mpr (haddr hshow)]
  | false => rfl

/-- The bytes in hex overwrite the beginning of their column. -/
theorem writeHex_ok (hc : LayoutOk c) {pre hex bytes : List UInt8}
    (rest : List UInt8) (hpre : pre.length = c.hexOffset)
    (hhex : hex.length = c.lineWidth * 3 - 1) (hne : bytes ≠ [])
    (hle : bytes.length ≤ c.lineWidth) :
    writeHex c bytes.length bytes (pre ++ hex ++ rest) =
      .ok (pre ++ hexlify bytes ++
        (hex.drop (bytes.length * 3 - 1) ++ rest)) := by
  have hpos := List.length_pos_iff.mpr hne
  have hlen := length_hexlify hne
  have hslice : c.lineHex.slice 0 (bytes.length * 3 - 1) =
      ⟨c.hexOffset, bytes.length * 3 - 1⟩ := by
    rw [lineHex_eq hc, View.slice_eq (Nat.zero_le _)]
    · rfl
    · simp only
      split <;> omega
  have htake : (hex.take (bytes.length * 3 - 1)).length =
      bytes.length * 3 - 1 := by
    rw [List.length_take]
    omega
  have hsplit : pre ++ hex ++ rest = pre ++ hex.take (bytes.length * 3 - 1) ++
      (hex.drop (bytes.length * 3 - 1) ++ rest) := by
    simp only [List.append_assoc]
    rw [← List.append_assoc (hex.take _), List.take_append_drop]
  rw [writeHex, hslice, hsplit]
  exact assign_ok hpre.symm htake.symm (hlen.trans htake.symm)

/-- Blanks from the end of the hex digits up to the characters. -/
theorem blanks_ok (hc : LayoutOk c) (hshow : c.showAscii = true) {n : Nat}
    {pre rest old : List UInt8} (hn : n ≤ c.lineWidth * 3)
    (hpre : pre.length = c.hexOffset + n)
    (hrest : rest.length = c.lineWidth * 3 - n) :
    (List.range' n (c.lineWidth * 3 - n)).foldlM (blank c)
        (pre ++ rest ++ old) =
      .ok (pre ++ List.replicate (c.lineWidth * 3 - n) 0x20 ++ old) := by
  have hloop : (List.range' n rest.length).foldlM (blank c)
      (pre ++ rest ++ old) =
        .ok (pre ++ rest.map (fun _ => 0x20) ++ old) := by
    apply foldlM_range' hpre
    intro front' x back' i hfront' hi hlt
    have hslice : c.lineHex.slice i (i + 1) = ⟨c.hexOffset + i, 1⟩ := by
      rw [lineHex_eq hc, if_pos hshow, View.slice_eq (Nat.le_succ i)]
      · simp
      · simp only
        omega
    have hassign : assign ⟨c.hexOffset + i, 1⟩ (front' ++ [x] ++ back') [0x20] =
        .ok (front' ++ [0x20] ++ back') := assign_ok hfront'.symm rfl rfl
    rw [blank, hslice]
    simpa using hassign
  rw [List.map_const', hrest] at hloop
  exact hloop

/-- Dots for what cannot be printed. -/
theorem dots_ok (hc : LayoutOk c) (hshow : c.showAscii = true)
    {pre bytes rest : List UInt8} (hpre : pre.length = c.asciiOffset)
    (hle : bytes.length ≤ c.lineWidth) :
    (List.range' 0 bytes.length).foldlM (dot c) (pre ++ bytes ++ rest) =
      .ok (pre ++ bytes.map dotByte ++ rest) := by
  have hpre' : pre.length = c.asciiOffset + 0 := hpre
  apply foldlM_range' hpre'
  intro front' x back' i hfront' _ hlt
  have hin : i < c.lineWidth := by omega
  rw [dot, lineAscii_eq hc hshow, View.get_eq hin hfront'.symm]
  show (if x < 0x20 ∨ 0x7e < x then _ else _) = _
  rw [dotByte]
  split
  · rw [View.set_eq hin hfront'.symm]
    rfl
  · rfl

/-- In a full line, the only blank is the one before the characters. -/
theorem writeBlanks_ok (hc : LayoutOk c) (hshow : c.showAscii = true) {b : Nat}
    {pre rest : List UInt8} (old : List UInt8) (hpos : 0 < b)
    (hle : b ≤ c.lineWidth) (hpre : pre.length = c.hexOffset + (b * 3 - 1))
    (hrest : rest.length = c.lineWidth * 3 - 1 - (b * 3 - 1)) :
    writeBlanks c b (pre ++ (rest ++ 0x20 :: old)) =
      .ok (pre ++ List.replicate (c.lineWidth * 3 - (b * 3 - 1)) 0x20 ++
        old) := by
  have hsplit : pre ++ (rest ++ 0x20 :: old) =
      pre ++ (rest ++ [0x20]) ++ old := by simp
  have hlen : (rest ++ [0x20]).length = c.lineWidth * 3 - (b * 3 - 1) := by
    rw [List.length_append, hrest, List.length_singleton]
    omega
  rw [writeBlanks, hsplit]
  split
  · exact blanks_ok hc hshow (by omega) hpre hlen
  · have hnil : rest = [] := List.eq_nil_of_length_eq_zero (by omega)
    have hone : c.lineWidth * 3 - (b * 3 - 1) = 1 := by omega
    rw [hnil, hone]
    rfl

/-- The characters of a line. -/
theorem writeAscii_ok (hc : LayoutOk c) (hshow : c.showAscii = true)
    {pre rest old bytes : List UInt8}
    (hpre : pre.length = c.hexOffset + (bytes.length * 3 - 1))
    (hne : bytes ≠ []) (hle : bytes.length ≤ c.lineWidth)
    (hrest : rest.length = c.lineWidth * 3 - 1 - (bytes.length * 3 - 1))
    (hold : old.length = c.lineWidth) :
    writeAscii c bytes.length bytes (pre ++ (rest ++ 0x20 :: old)) =
      .ok (pre ++ List.replicate (c.lineWidth * 3 - (bytes.length * 3 - 1)) 0x20
        ++ bytes.map dotByte ++ old.drop bytes.length) := by
  have hpos := List.length_pos_iff.mpr hne
  have hblanks := writeBlanks_ok hc hshow old hpos hle hpre hrest
  obtain ⟨mid, hmid⟩ : ∃ mid, mid = pre ++ List.replicate
      (c.lineWidth * 3 - (bytes.length * 3 - 1)) (0x20 : UInt8) := ⟨_, rfl⟩
  rw [← hmid] at hblanks ⊢
  have hmidlen : mid.length = c.asciiOffset := by
    rw [hmid, List.length_append, List.length_replicate, hpre,
      (hc.ascii hshow).1]
    omega
  have hslice : c.lineAscii.slice 0 bytes.length =
      ⟨c.asciiOffset, bytes.length⟩ := by
    rw [lineAscii_eq hc hshow, View.slice_eq (Nat.zero_le _) hle]
    rfl
  have htake : (old.take bytes.length).length = bytes.length := by
    rw [List.length_take]
    omega
  have hassign : assign (c.lineAscii.slice 0 bytes.length) (mid ++ old) bytes =
      .ok (mid ++ bytes ++ old.drop bytes.length) := by
    have hold' : mid ++ old =
        mid ++ old.take bytes.length ++ old.drop bytes.length := by
      rw [List.append_assoc, List.take_append_drop]
    rw [hslice, hold']
    exact assign_ok hmidlen.symm htake.symm htake.symm
  rw [writeAscii]
  simp only [hblanks, bind, Except.bind, hassign]
  exact dots_ok hc hshow hmidlen hle

/-! ### A whole line -/

/-- The bytes of a line. -/
theorem encode_lineText (prefixStr : String) {width : Nat}
    (showAscii showAddr : Bool) (addr : Nat) {bs : List UInt8} (hne : bs ≠ [])
    (hle : bs.length ≤ width) :
    encode (lineText prefixStr width showAscii showAddr addr bs) =
      encode (frontText prefixStr) ++
        (if showAddr then encode (String.ofList (addrText addr)) else []) ++
        hexlify bs ++
        (if showAscii then
          List.replicate (width * 3 - (bs.length * 3 - 1)) 0x20 ++
            bs.map dotByte
        else []) := by
  have hpos := List.length_pos_iff.mpr hne
  have hcount : width * 3 - (bs.length * 3 - 1) =
      width * 3 - 1 - (hexText bs).length + 1 := by
    rw [length_hexText hne]
    omega
  have hempty : encode "" = [] := rfl
  have hblank : encode " " = [0x20] := by decide
  rw [lineText, encode_append, encode_append, encode_append, hexlify, hcount,
    List.replicate_succ']
  cases showAscii <;> cases showAddr <;>
    simp only [if_true, Bool.false_eq_true, if_false, encode_append,
      encode_blanks, encode_asciiChars, hempty, hblank]

/-- What `dumpLine` takes from the buffer. -/
theorem bytes_eq (buf : List UInt8) (offset width : Nat) :
    (buf.drop offset).take (min (buf.length - offset) width) =
      (buf.drop offset).take width := by
  rw [← List.length_drop, Nat.min_comm, ← List.take_eq_take_min]

/-- The text is the part of the line buffer that was written. -/
theorem decode_take {line : String} {written : List UInt8}
    (rest : List UInt8) {n : Nat} (hline : encode line = written)
    (hn : n = written.length) :
    decode ((written ++ rest).take n) = .ok line := by
  rw [hn, List.take_left, ← hline, decode_encode]

/-- The bytes of a line. -/
theorem length_bytes {buf : List UInt8} {offset width : Nat}
    (hoffset : offset < buf.length) (hwidth : 0 < width) :
    ((buf.drop offset).take width).length = min (buf.length - offset) width ∧
      (buf.drop offset).take width ≠ [] ∧
      ((buf.drop offset).take width).length ≤ width := by
  have hlen : ((buf.drop offset).take width).length =
      min (buf.length - offset) width := by
    rw [List.length_take, List.length_drop, Nat.min_comm]
  refine ⟨hlen, ?_, ?_⟩
  · rw [← List.length_pos_iff, hlen]
    omega
  · rw [hlen]
    exact Nat.min_le_right _ _

/-- The line is logged, and the line buffer is in columns again. -/
def Yields (c : Layout) (front : List UInt8) (line : String)
    (r : Except Raised (String × List UInt8)) : Prop :=
  ∃ outLine, r = .ok (line, outLine) ∧ Columns c front outLine

variable {prefixStr : String} {buf : List UInt8} {addr offset : Nat}

/-- The first two columns of a line. -/
theorem dumpLine_eq (hc : LayoutOk c) {adr hex : List UInt8}
    (asc : List UInt8) (hfront : front.length = c.prefixLen)
    (hadr : adr.length = if c.showAddr then 6 else 0)
    (hhex : hex.length = c.lineWidth * 3 - 1) (hoffset : offset < buf.length)
    (haddr : c.showAddr = true → addr < 0x10000) {bytes : List UInt8}
    (hbytes : bytes = (buf.drop offset).take c.lineWidth) :
    dumpLine c buf addr offset (front ++ adr ++ hex ++ asc) =
      finishLine c bytes.length bytes (front ++ adrBytes c addr ++ hexlify bytes ++
        (hex.drop (bytes.length * 3 - 1) ++ asc)) := by
  obtain ⟨hlen, hne, hle⟩ := length_bytes hoffset hc.width
  rw [← hbytes] at hlen hne hle
  have hpre := length_adrBytes hc haddr hfront
  have hwriteAddr := writeAddr_ok hc (hex ++ asc) hfront hadr haddr
  have hwriteHex := writeHex_ok hc asc hpre hhex hne hle
  rw [← List.append_assoc, ← List.append_assoc] at hwriteAddr
  have htake : (buf.drop offset).take bytes.length = bytes := by
    rw [hlen, bytes_eq, hbytes]
  rw [dumpLine]
  simp only [hwriteAddr, bind, Except.bind, ← hlen, htake, hwriteHex]

/-- Nothing follows the hex digits. -/
theorem finish_hex (hshow : c.showAscii = false) {pre bytes rest : List UInt8}
    {line : String} (hne : bytes ≠ []) (hline : encode line = pre)
    (hpre : pre.length = c.hexOffset + (bytes.length * 3 - 1)) :
    finishLine c bytes.length bytes (pre ++ rest) = .ok (line, pre ++ rest) := by
  have hpos := List.length_pos_iff.mpr hne
  have hdecode := decode_take rest hline (n := c.hexOffset + bytes.length * 3 - 1)
    (by omega)
  rw [finishLine, hshow, if_neg (by decide), hdecode]
  rfl

/-- Blanks and characters follow the hex digits. -/
theorem finish_ascii (hc : LayoutOk c) (hshow : c.showAscii = true)
    {pre bytes rest old : List UInt8} {line : String} (hne : bytes ≠ [])
    (hle : bytes.length ≤ c.lineWidth)
    (hpre : pre.length = c.hexOffset + (bytes.length * 3 - 1))
    (hrest : rest.length = c.lineWidth * 3 - 1 - (bytes.length * 3 - 1))
    (hold : old.length = c.lineWidth)
    (hline : encode line = pre ++
      (List.replicate (c.lineWidth * 3 - (bytes.length * 3 - 1)) 0x20 ++
        bytes.map dotByte)) :
    finishLine c bytes.length bytes (pre ++ (rest ++ 0x20 :: old)) =
      .ok (line, pre ++
        List.replicate (c.lineWidth * 3 - (bytes.length * 3 - 1)) 0x20 ++
          bytes.map dotByte ++ old.drop bytes.length) := by
  have hpos := List.length_pos_iff.mpr hne
  have hascii := writeAscii_ok hc hshow hpre hne hle hrest hold
  rw [← List.append_assoc] at hline
  have hlen : c.asciiOffset + bytes.length = (pre ++
      List.replicate (c.lineWidth * 3 - (bytes.length * 3 - 1)) (0x20 : UInt8)
        ++ bytes.map dotByte).length := by
    rw [List.length_append, List.length_append, List.length_replicate,
      List.length_map, hpre, (hc.ascii hshow).1]
    omega
  have hdecode := decode_take (old.drop bytes.length) hline hlen
  rw [finishLine, hshow, if_pos rfl, hascii]
  simp only [bind, Except.bind, hdecode]
  rfl

/-- A line without characters leaves the line buffer in columns. -/
theorem yields_hex (hshow : c.showAscii = false) {adr bytes rest : List UInt8}
    {line : String} (hne : bytes ≠ []) (hle : bytes.length ≤ c.lineWidth)
    (hadr : adr.length = if c.showAddr then 6 else 0)
    (hrest : rest.length = c.lineWidth * 3 - 1 - (bytes.length * 3 - 1))
    (hpre : (front ++ adr ++ hexlify bytes).length =
      c.hexOffset + (bytes.length * 3 - 1))
    (hline : encode line = front ++ adr ++ hexlify bytes) :
    Yields c front line (finishLine c bytes.length bytes
      (front ++ adr ++ hexlify bytes ++ rest)) := by
  refine ⟨_, finish_hex hshow hne hline hpre, ?_⟩
  rw [List.append_assoc _ (hexlify bytes)]
  apply columns_hex hshow hadr
  rw [List.length_append, length_hexlify hne, hrest]
  omega

/-- So does a line with characters. -/
theorem yields_ascii (hc : LayoutOk c) (hshow : c.showAscii = true)
    {adr bytes rest old : List UInt8} {line : String} (hne : bytes ≠ [])
    (hle : bytes.length ≤ c.lineWidth)
    (hadr : adr.length = if c.showAddr then 6 else 0)
    (hrest : rest.length = c.lineWidth * 3 - 1 - (bytes.length * 3 - 1))
    (hold : old.length = c.lineWidth)
    (hpre : (front ++ adr ++ hexlify bytes).length =
      c.hexOffset + (bytes.length * 3 - 1))
    (hline : encode line = front ++ adr ++ hexlify bytes ++
      (List.replicate (c.lineWidth * 3 - (bytes.length * 3 - 1)) 0x20 ++
        bytes.map dotByte)) :
    Yields c front line (finishLine c bytes.length bytes
      (front ++ adr ++ hexlify bytes ++ (rest ++ 0x20 :: old))) := by
  refine ⟨_, finish_ascii hc hshow hne hle hpre hrest hold hline, ?_⟩
  have hpos := List.length_pos_iff.mpr hne
  have hcount : c.lineWidth * 3 - (bytes.length * 3 - 1) =
      c.lineWidth * 3 - 1 - (bytes.length * 3 - 1) + 1 := by omega
  have hhex : (hexlify bytes ++ List.replicate
      (c.lineWidth * 3 - 1 - (bytes.length * 3 - 1)) 0x20).length =
        c.lineWidth * 3 - 1 := by
    rw [List.length_append, length_hexlify hne, List.length_replicate]
    omega
  have hchars : (bytes.map dotByte ++ old.drop bytes.length).length =
      c.lineWidth := by
    rw [List.length_append, List.length_map, List.length_drop, hold]
    omega
  have hcolumns : Columns c front _ := columns_ascii hshow hadr hhex hchars
  rw [hcount, List.replicate_succ']
  simpa only [List.append_assoc, List.cons_append, List.nil_append]
    using hcolumns

/-- **One line** whose address fits. -/
theorem dumpLine_ok (hc : LayoutOk c) (hfront : front.length = c.prefixLen)
    (htext : encode (frontText prefixStr) = front)
    (hoffset : offset < buf.length)
    (haddr : c.showAddr = true → addr < 0x10000) {outLine : List UInt8}
    (hcolumns : Columns c front outLine) :
    Yields c front
      (lineText prefixStr c.lineWidth c.showAscii c.showAddr addr
        ((buf.drop offset).take c.lineWidth))
      (dumpLine c buf addr offset outLine) := by
  obtain ⟨adr, hex, asc, rfl, hadr, hhex, hasc⟩ := hcolumns
  obtain ⟨bytes, hbytes⟩ :
      ∃ bytes, bytes = (buf.drop offset).take c.lineWidth := ⟨_, rfl⟩
  obtain ⟨_, hne, hle⟩ := length_bytes hoffset hc.width
  rw [dumpLine_eq hc asc hfront hadr hhex hoffset haddr hbytes]
  rw [← hbytes] at hne hle ⊢
  have hadrlen := length_adrBytes hc haddr hfront
  have hpre : (front ++ adrBytes c addr ++ hexlify bytes).length =
      c.hexOffset + (bytes.length * 3 - 1) := by
    rw [List.length_append, hadrlen, length_hexlify hne]
  have hadr' : (adrBytes c addr).length = if c.showAddr then 6 else 0 := by
    rw [List.length_append, hfront, hc.hex] at hadrlen
    omega
  have hline := encode_lineText prefixStr c.showAscii c.showAddr addr hne hle
  rw [htext] at hline
  have hrest : (hex.drop (bytes.length * 3 - 1)).length =
      c.lineWidth * 3 - 1 - (bytes.length * 3 - 1) := by
    rw [List.length_drop, hhex]
  cases hshow : c.showAscii with
  | false =>
      rw [hshow, if_neg Bool.false_ne_true] at hasc
      rw [hshow, if_neg Bool.false_ne_true, List.append_nil] at hline
      rw [hasc, List.append_nil]
      exact yields_hex hshow hne hle hadr' hrest hpre hline
  | true =>
      rw [hshow, if_pos rfl] at hasc hline
      obtain ⟨old, rfl, hold⟩ := hasc
      exact yields_ascii hc hshow hne hle hadr' hrest hold hpre hline

/-- A line whose address does not fit. -/
theorem dumpLine_error (hc : LayoutOk c) (hshow : c.showAddr = true)
    (haddr : ¬ addr < 0x10000) (outLine : List UInt8) :
    dumpLine c buf addr offset outLine = .error .valueError := by
  rw [dumpLine, writeAddr_error hc hshow haddr]
  rfl

/-! ### All lines -/

theorem dumpLines_cons {line : String} {outLine outLine' : List UInt8}
    (h : dumpLine c buf addr offset outLine = .ok (line, outLine'))
    (offsets : List Nat) :
    dumpLines c buf (offset :: offsets) addr outLine =
      ⟨line :: (dumpLines c buf offsets (addr + c.lineWidth) outLine').events,
        (dumpLines c buf offsets (addr + c.lineWidth) outLine').result⟩ := by
  rw [dumpLines, h]
  rfl

/-- **The loop** logs a line for every offset, if all addresses fit. -/
theorem dumpLines_ok (hc : LayoutOk c) (hfront : front.length = c.prefixLen)
    (htext : encode (frontText prefixStr) = front) {n start : Nat}
    (hin : ∀ o ∈ List.range' start n c.lineWidth, o < buf.length)
    (hfits : ∀ o ∈ List.range' start n c.lineWidth, c.showAddr = true →
      addr + o < 0x10000)
    {outLine : List UInt8} (hcolumns : Columns c front outLine) :
    dumpLines c buf (List.range' start n c.lineWidth) (addr + start) outLine =
      ⟨(List.range' start n c.lineWidth).map fun o =>
        lineText prefixStr c.lineWidth c.showAscii c.showAddr (addr + o)
          ((buf.drop o).take c.lineWidth), .ok ()⟩ := by
  induction n generalizing start outLine with
  | zero => rfl
  | succ n ih =>
      rw [List.range'_succ] at hin hfits ⊢
      obtain ⟨outLine', hline, hcolumns'⟩ := dumpLine_ok hc hfront htext
        (hin start List.mem_cons_self) (hfits start List.mem_cons_self) hcolumns
      have hrest := ih (fun o ho => hin o (List.mem_cons_of_mem _ ho))
        (fun o ho => hfits o (List.mem_cons_of_mem _ ho)) hcolumns'
      have haddr : addr + start + c.lineWidth = addr + (start + c.lineWidth) :=
        Nat.add_assoc _ _ _
      rw [dumpLines_cons hline, haddr, hrest]
      rfl

/-- It raises, if some address does not. -/
theorem dumpLines_error (hc : LayoutOk c) (hfront : front.length = c.prefixLen)
    (htext : encode (frontText prefixStr) = front)
    (hshow : c.showAddr = true) {n start : Nat}
    (hin : ∀ o ∈ List.range' start n c.lineWidth, o < buf.length)
    (hwide : ∃ o ∈ List.range' start n c.lineWidth, ¬ addr + o < 0x10000)
    {outLine : List UInt8} (hcolumns : Columns c front outLine) :
    (dumpLines c buf (List.range' start n c.lineWidth) (addr + start)
      outLine).result = .error .valueError := by
  induction n generalizing start outLine with
  | zero =>
      obtain ⟨o, ho, _⟩ := hwide
      cases ho
  | succ n ih =>
      rw [List.range'_succ] at hin hwide ⊢
      by_cases hfirst : addr + start < 0x10000
      · obtain ⟨outLine', hline, hcolumns'⟩ := dumpLine_ok hc hfront htext
          (hin start List.mem_cons_self) (fun _ => hfirst) hcolumns
        have hrest := ih (fun o ho => hin o (List.mem_cons_of_mem _ ho)) (by
          obtain ⟨o, ho, hnot⟩ := hwide
          rcases List.mem_cons.mp ho with rfl | ho
          · exact absurd hfirst hnot
          · exact ⟨o, ho, hnot⟩) hcolumns'
        have haddr : addr + start + c.lineWidth = addr + (start + c.lineWidth) :=
          Nat.add_assoc _ _ _
        rw [dumpLines_cons hline, haddr]
        exact hrest
      · rw [dumpLines, dumpLine_error hc hshow hfirst]
        rfl

end Line

/-! ## Before the first line -/

section Prepare

variable {c : Layout} {front pb : List UInt8}

/-- The prefix and the space behind it. -/
theorem writePrefix_ok (hc : LayoutOk c)
    (hlen : c.prefixLen = if 0 < pb.length then pb.length + 1 else 0) :
    writePrefix c pb (List.replicate c.maxLen 0) =
      .ok ((if 0 < pb.length then pb ++ [0x20] else []) ++
        List.replicate (c.maxLen - c.prefixLen) 0) := by
  rw [writePrefix]
  by_cases hpos : 0 < pb.length
  · rw [if_pos hpos] at hlen
    have hmax := hexOffset_le hc
    have hhex := hc.hex
    have hsplit : List.replicate c.maxLen (0 : UInt8) =
        [] ++ List.replicate pb.length 0 ++
          List.replicate (c.maxLen - pb.length) 0 := by
      have hcount : pb.length + (c.maxLen - pb.length) = c.maxLen := by omega
      rw [List.nil_append, List.replicate_append_replicate, hcount]
    have hone : c.maxLen - pb.length = 1 + (c.maxLen - c.prefixLen) := by omega
    have hfirst : c.outLine.slice 0 (c.prefixLen - 1) = ⟨0, pb.length⟩ := by
      rw [outLine_slice (Nat.zero_le _) (by omega), hlen]
      rfl
    have hsecond : c.outLine.slice (c.prefixLen - 1) c.prefixLen =
        ⟨pb.length, 1⟩ := by
      rw [outLine_slice (by omega) (by omega), hlen, Nat.add_sub_cancel,
        Nat.add_sub_cancel_left]
    have hassign : assign ⟨0, pb.length⟩ (List.replicate c.maxLen 0) pb =
        .ok ([] ++ pb ++ List.replicate (c.maxLen - pb.length) 0) := by
      rw [hsplit]
      exact assign_ok rfl List.length_replicate.symm List.length_replicate.symm
    have hassign' : assign ⟨pb.length, 1⟩
        (pb ++ [0] ++ List.replicate (c.maxLen - c.prefixLen) 0) [0x20] =
          .ok (pb ++ [0x20] ++ List.replicate (c.maxLen - c.prefixLen) 0) :=
      assign_ok rfl rfl rfl
    rw [if_pos (by omega), if_pos hpos, hfirst, hassign, hsecond, hone,
      ← List.replicate_append_replicate, ← List.append_assoc]
    exact hassign'
  · rw [if_neg hpos] at hlen
    rw [if_neg (by omega), if_neg hpos, hlen]
    rfl

/-- Without characters there is nothing else to write. -/
theorem columns_zeros (hc : LayoutOk c) (hshow : c.showAscii = false) :
    Columns c front (front ++ List.replicate (c.maxLen - c.prefixLen) 0) := by
  have hhex := hc.hex
  have hmax := hc.noAscii hshow
  have hsplit : c.maxLen - c.prefixLen =
      (if c.showAddr then 6 else 0) + (c.lineWidth * 3 - 1) := by omega
  rw [hsplit, ← List.replicate_append_replicate, ← List.append_assoc]
  exact columns_hex hshow List.length_replicate List.length_replicate

/-- The space before the characters. -/
theorem separate_ok (hc : LayoutOk c) (hshow : c.showAscii = true)
    (hfront : front.length = c.prefixLen) :
    ∃ outLine, assign (c.outLine.slice (c.asciiOffset - 1) c.asciiOffset)
        (front ++ List.replicate (c.maxLen - c.prefixLen) 0) [0x20] =
          .ok outLine ∧ Columns c front outLine := by
  have hhex := hc.hex
  have hwidth := hc.width
  obtain ⟨hoffset, hmax⟩ := hc.ascii hshow
  obtain ⟨n, hn⟩ : ∃ n, n = if c.showAddr then 6 else 0 := ⟨_, rfl⟩
  rw [← hn] at hhex
  have hslice : c.outLine.slice (c.asciiOffset - 1) c.asciiOffset =
      ⟨c.asciiOffset - 1, 1⟩ := by
    have hone : c.asciiOffset - (c.asciiOffset - 1) = 1 := by omega
    rw [outLine_slice (by omega) (by omega), hone]
  have hpre : (front ++ List.replicate n 0 ++
      List.replicate (c.lineWidth * 3 - 1) 0).length = c.asciiOffset - 1 := by
    rw [List.length_append, List.length_append, List.length_replicate,
      List.length_replicate, hfront]
    omega
  have hsplit : front ++ List.replicate (c.maxLen - c.prefixLen) 0 =
      front ++ List.replicate n 0 ++ List.replicate (c.lineWidth * 3 - 1) 0 ++
        [0] ++ List.replicate c.lineWidth 0 := by
    have hcount : c.maxLen - c.prefixLen =
        n + ((c.lineWidth * 3 - 1) + (1 + c.lineWidth)) := by omega
    rw [hcount]
    simp only [← List.replicate_append_replicate, List.append_assoc]
    rfl
  rw [hslice, hsplit]
  refine ⟨_, assign_ok hpre.symm rfl rfl, ?_⟩
  rw [List.append_assoc]
  apply columns_ascii hshow
  · rw [List.length_replicate, hn]
  · exact List.length_replicate
  · exact List.length_replicate

/-- **The line buffer is in columns** before the first line. -/
theorem prepare_ok (hc : LayoutOk c)
    (hlen : c.prefixLen = if 0 < pb.length then pb.length + 1 else 0)
    (hfront : front = if 0 < pb.length then pb ++ [0x20] else []) :
    front.length = c.prefixLen ∧
      ∃ outLine, prepare c pb = .ok outLine ∧ Columns c front outLine := by
  have hlength : front.length = c.prefixLen := by
    rw [hfront, hlen]
    split
    · rw [List.length_append, List.length_singleton]
    · rfl
  refine ⟨hlength, ?_⟩
  have hprefix := writePrefix_ok hc hlen
  rw [← hfront] at hprefix
  rw [prepare, hprefix]
  cases hshow : c.showAscii with
  | false => exact ⟨_, rfl, columns_zeros hc hshow⟩
  | true => exact separate_ok hc hshow hlength

end Prepare

/-! ## The whole dump -/

/-- The prefix as the code has it. -/
def withColon (prefixStr : String) : String :=
  if 0 < prefixStr.length then prefixStr ++ ":" else prefixStr

theorem encode_frontText (prefixStr : String) :
    encode (frontText prefixStr) =
      if 0 < (encode (withColon prefixStr)).length then
        encode (withColon prefixStr) ++ [0x20]
      else [] := by
  rw [frontText, withColon]
  by_cases hempty : prefixStr = ""
  · rw [if_pos hempty, hempty]
    rfl
  · have hpos : 0 < prefixStr.length := by
      rw [Nat.pos_iff_ne_zero]
      exact fun h => hempty (String.length_eq_zero_iff.mp h)
    have hcolon : encode (prefixStr ++ ": ") =
        encode (prefixStr ++ ":") ++ [0x20] := by
      rw [encode_append, encode_append, List.append_assoc]
      rfl
    rw [if_neg hempty, if_pos hpos, if_pos, hcolon]
    rw [encode_append, List.length_append]
    exact Nat.lt_add_left _ (by decide)

/-- There is a line exactly for the offsets within the buffer. -/
theorem lt_lines_iff {k len width : Nat} (hwidth : 0 < width) :
    k < (len + width - 1) / width ↔ k * width < len := by
  rw [Nat.lt_iff_add_one_le, Nat.le_div_iff_mul_le hwidth, Nat.add_mul,
    Nat.one_mul]
  omega

theorem mem_offsets_iff {len width o : Nat} (hwidth : 0 < width) :
    o ∈ offsets len width ↔ ∃ k, o = k * width ∧ k * width < len := by
  rw [offsets, List.mem_range']
  constructor
  · rintro ⟨k, hk, rfl⟩
    refine ⟨k, ?_, (lt_lines_iff hwidth).mp hk⟩
    rw [Nat.zero_add, Nat.mul_comm]
  · rintro ⟨k, rfl, hk⟩
    refine ⟨k, (lt_lines_iff hwidth).mpr hk, ?_⟩
    rw [Nat.zero_add, Nat.mul_comm]

/-- The last line has the highest address. -/
theorem fits_iff {addr len width : Nat} (hwidth : 0 < width) (hlen : 0 < len) :
    (∀ o ∈ offsets len width, addr + o < 0x10000) ↔
      addr + (len - 1) / width * width < 0x10000 := by
  have hlast := Nat.div_mul_le_self (len - 1) width
  constructor
  · intro hall
    apply hall
    exact (mem_offsets_iff hwidth).mpr ⟨_, rfl, by omega⟩
  · rintro hfits o ho
    obtain ⟨k, rfl, hk⟩ := (mem_offsets_iff hwidth).mp ho
    have hle : k ≤ (len - 1) / width := by
      rw [Nat.le_div_iff_mul_le hwidth]
      omega
    have hmul := Nat.mul_le_mul_right width hle
    omega

theorem map_offsets {α : Type} (f : Nat → α) (bufLen width : Nat) :
    (offsets bufLen width).map f =
      (List.range ((bufLen + width - 1) / width)).map fun k =>
        f (k * width) := by
  apply List.ext_getElem
  · simp [offsets]
  · intro k h h'
    simp [offsets, Nat.mul_comm]

theorem usedWidth_pos {lineWidth : Int} (h : lineWidth ≠ 0) :
    0 < usedWidth lineWidth := by
  rw [usedWidth]
  split
  · decide
  · omega

/-- The dump is its loop, with the line buffer in columns. -/
theorem dumpMem_eq {buf : List UInt8} (hbuf : buf ≠ []) (prefixStr : String)
    (addr : Nat) {lineWidth : Int} (hwidth : lineWidth ≠ 0)
    (showAscii showAddr : Bool) :
    ∃ c front outLine, LayoutOk c ∧ c.lineWidth = usedWidth lineWidth ∧
      c.showAscii = showAscii ∧ c.showAddr = showAddr ∧
      front.length = c.prefixLen ∧ encode (frontText prefixStr) = front ∧
      Columns c front outLine ∧
      dumpMem (some buf) prefixStr addr lineWidth showAscii showAddr =
        dumpLines c buf (offsets buf.length (usedWidth lineWidth)) addr
          outLine := by
  have hpos := usedWidth_pos hwidth
  have hlen : buf.length ≠ 0 :=
    fun h => hbuf (List.eq_nil_of_length_eq_zero h)
  obtain ⟨c, hc⟩ : ∃ c, c = layout (encode (withColon prefixStr))
      (usedWidth lineWidth) showAscii showAddr := ⟨_, rfl⟩
  have hok : LayoutOk c := by
    rw [hc]
    exact layoutOk_layout _ hpos showAscii showAddr
  have hfields : c.lineWidth = usedWidth lineWidth ∧ c.showAscii = showAscii ∧
      c.showAddr = showAddr ∧ c.prefixLen =
        if 0 < (encode (withColon prefixStr)).length then
          (encode (withColon prefixStr)).length + 1 else 0 := by
    rw [hc]
    cases showAscii <;> exact ⟨rfl, rfl, rfl, rfl⟩
  obtain ⟨hline, hascii, haddr, hprefix⟩ := hfields
  obtain ⟨hfront, outLine, hprepare, hcolumns⟩ :=
    prepare_ok hok hprefix (encode_frontText prefixStr)
  refine ⟨c, _, outLine, hok, hline, hascii, haddr, hfront, rfl, hcolumns, ?_⟩
  show (if buf.length = 0 then _ else if usedWidth lineWidth = 0 then _
    else dumpBuf buf (encode (withColon prefixStr)) addr (usedWidth lineWidth)
      showAscii showAddr) = _
  rw [if_neg hlen, if_neg (Nat.ne_of_gt hpos), dumpBuf, ← hc, hprepare]
  rfl

/-- **When a dump is faithful.**  For every buffer that is not empty, every
prefix, address, width and choice of columns: `dump_mem` raises nothing and
logs the lines it is to log if and only if the address of the last line, if it
is shown, has at most four digits in hex. -/
theorem dumps_iff {buf : List UInt8} (hbuf : buf ≠ []) (prefixStr : String)
    (addr : Nat) {lineWidth : Int} (hwidth : lineWidth ≠ 0)
    (showAscii showAddr : Bool) :
    Dumps buf prefixStr addr lineWidth showAscii showAddr ↔
      (showAddr = true → addr +
        (buf.length - 1) / usedWidth lineWidth * usedWidth lineWidth <
          0x10000) := by
  have hpos := usedWidth_pos hwidth
  have hlen := List.length_pos_iff.mpr hbuf
  obtain ⟨c, front, outLine, hc, hline, hascii, haddr, hfront, htext, hcolumns,
    hdump⟩ := dumpMem_eq hbuf prefixStr addr hwidth showAscii showAddr
  have hin : ∀ o ∈ offsets buf.length (usedWidth lineWidth),
      o < buf.length := by
    intro o ho
    obtain ⟨k, rfl, hk⟩ := (mem_offsets_iff hpos).mp ho
    exact hk
  rw [Dumps, hdump, ← fits_iff hpos hlen, expectedLines]
  rw [offsets, ← hline] at hin ⊢
  rw [← hascii, ← haddr]
  constructor
  · intro hlines hshow
    by_contra hnot
    have hwide : ∃ o ∈ List.range' 0
        ((buf.length + c.lineWidth - 1) / c.lineWidth) c.lineWidth,
          ¬ addr + o < 0x10000 := by
      simpa using hnot
    have herror := dumpLines_error hc hfront htext hshow hin hwide hcolumns
    rw [Nat.add_zero, hlines] at herror
    cases herror
  · intro hfits
    have hok := dumpLines_ok hc hfront htext hin
      (fun o ho hshow => hfits hshow o ho) hcolumns
    rw [Nat.add_zero] at hok
    rw [hok]
    exact congrArg (Traced.mk · (.ok ())) (map_offsets _ buf.length c.lineWidth)

/-- A buffer with two lines, at an address of four digits. -/
theorem dumps_iff_twoLines :
    Dumps [0x30, 0x31, 0x32, 0x33, 0x07] "Rcvd" 0x1230 4 true true ↔
      (true = true → 0x1230 + (5 - 1) / usedWidth 4 * usedWidth 4 < 0x10000) :=
  dumps_iff (List.cons_ne_nil _ _) "Rcvd" 0x1230 (by decide) true true

/-- An address of five digits is not printed, but raises. -/
theorem dumps_fails :
    ¬ ∀ (buf : List UInt8), buf ≠ [] → ∀ (prefixStr : String) (addr : Nat)
      (lineWidth : Int), lineWidth ≠ 0 → ∀ showAscii showAddr : Bool,
        Dumps buf prefixStr addr lineWidth showAscii showAddr := by
  intro h
  have hdumps := h [0x41] (List.cons_ne_nil _ _) "" 0x10000 16 (by decide) true
    true
  have hresult : (dumpMem (some [0x41]) "" 0x10000 16 true true).result =
      .error .valueError := by decide
  rw [hdumps] at hresult
  cases hresult

end DuinoBus.HexDump
