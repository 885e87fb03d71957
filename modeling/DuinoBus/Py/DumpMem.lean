import DuinoBus.Py.Unpacker
import DuinoBus.Verified.Traced
import DuinoBus.Verified.Views

/-!
# Dumping memory

`dumpMem` logs a buffer in hex, line by line.  It builds the lines in one
`bytearray`, which it fills through views: one of the whole line, and one each
of the columns for the hex digits and for the characters.  Assigning to a view
raises `ValueError` when the sizes differ.

What is logged is the trace of the computation, so it is there also when an
exception ends it.  A `str` is a `String`, which has no lone surrogates, and
addresses are not negative.  The version of `hexlify` for MicroPython is left
out; it yields the same.

`decode_encode` is what makes the lines readable again, and `length_hexlify`
and `length_formatHex` are what the columns rely on.
-/

namespace DuinoBus.Py.DumpMem

open DuinoBus.Verified

/-- The exceptions. -/
inductive Raised where
  | valueError
  | indexError
  | unicodeDecodeError
  deriving DecidableEq, Repr

/-! ## Text -/

/-- `bytes(s, 'utf-8')`, and `bytes(s, 'ascii')` where there is nothing but
ASCII. -/
def encode (s : String) : List UInt8 := s.toUTF8.data.toList

/-- `decode('utf-8')`. -/
def decode (bytes : List UInt8) : Except Raised String :=
  match Unpacker.decodeUtf8 bytes with
  | .ok s => .ok s
  | .error _ => .error .unicodeDecodeError

/-- `f'{n:0{width}x}'`. -/
def formatHex (width n : Nat) : List Char :=
  List.leftpad width '0' (Nat.toDigits 16 n)

/-- `' '.join([f'{b:02x}' for b in buf])`. -/
def hexText (buf : List UInt8) : List Char :=
  [' '].intercalate (buf.map fun b => formatHex 2 b.toNat)

def hexlify (buf : List UInt8) : List UInt8 :=
  encode (String.ofList (hexText buf))

/-- The address column. -/
def addrText (addr : Nat) : List Char := formatHex 4 addr ++ [':', ' ']

/-! ## The code -/

/-- A result that is missing is an exception. -/
def orRaise {α : Type} (e : Raised) : Option α → Except Raised α
  | some a => .ok a
  | none => .error e

/-- The local variables that are computed once. -/
structure Layout where
  lineWidth : Nat
  showAscii : Bool
  showAddr : Bool
  prefixLen : Nat
  hexOffset : Nat
  asciiOffset : Nat
  maxLen : Nat
  deriving DecidableEq

def layout (prefixBytes : List UInt8) (lineWidth : Nat)
    (showAscii showAddr : Bool) : Layout :=
  -- one more for the space between prefix and address
  let prefixLen := if 0 < prefixBytes.length then prefixBytes.length + 1 else 0
  let hexOffset := if showAddr then prefixLen + 6 else prefixLen
  let maxLen := hexOffset + (lineWidth * 3 - 1)
  if showAscii then
    ⟨lineWidth, showAscii, showAddr, prefixLen, hexOffset, maxLen + 1,
      maxLen + (lineWidth + 1)⟩
  else ⟨lineWidth, showAscii, showAddr, prefixLen, hexOffset, 0, maxLen⟩

namespace Layout

variable (c : Layout)

def outLine : View := ⟨0, c.maxLen⟩

def lineHex : View :=
  c.outLine.slice c.hexOffset (c.hexOffset + c.lineWidth * 3)

def lineAscii : View :=
  if c.showAscii then
    c.outLine.slice c.asciiOffset (c.asciiOffset + c.lineWidth)
  else ⟨0, 0⟩

end Layout

/-- `view[:] = bytes`. -/
def assign (v : View) (outLine bytes : List UInt8) :
    Except Raised (List UInt8) := orRaise .valueError (v.assign outLine bytes)

/-- The prefix, and the space behind it. -/
def writePrefix (c : Layout) (prefixBytes outLine : List UInt8) :
    Except Raised (List UInt8) :=
  if 0 < c.prefixLen then do
    let outLine ←
      assign (c.outLine.slice 0 (c.prefixLen - 1)) outLine prefixBytes
    assign (c.outLine.slice (c.prefixLen - 1) c.prefixLen) outLine [0x20]
  else .ok outLine

/-- The line before the first one is written: the prefix and the space before
the characters are the same in all of them. -/
def prepare (c : Layout) (prefixBytes : List UInt8) :
    Except Raised (List UInt8) := do
  let outLine ← writePrefix c prefixBytes (List.replicate c.maxLen 0)
  if c.showAscii then
    assign (c.outLine.slice (c.asciiOffset - 1) c.asciiOffset) outLine [0x20]
  else .ok outLine

/-- The address column of a line. -/
def writeAddr (c : Layout) (addr : Nat) (outLine : List UInt8) :
    Except Raised (List UInt8) :=
  if c.showAddr then
    assign (c.outLine.slice c.prefixLen (c.prefixLen + 6)) outLine
      (encode (String.ofList (addrText addr)))
  else .ok outLine

/-- The hex column of a line. -/
def writeHex (c : Layout) (lineBytes : Nat) (bytes outLine : List UInt8) :
    Except Raised (List UInt8) :=
  assign (c.lineHex.slice 0 (lineBytes * 3 - 1)) outLine (hexlify bytes)

/-- `line_hex[i:i + 1] = b' '`. -/
def blank (c : Layout) (outLine : List UInt8) (i : Nat) :
    Except Raised (List UInt8) :=
  assign (c.lineHex.slice i (i + 1)) outLine [0x20]

/-- A character that cannot be printed becomes a dot. -/
def dot (c : Layout) (outLine : List UInt8) (i : Nat) :
    Except Raised (List UInt8) := do
  let char ← orRaise .indexError (c.lineAscii.get outLine i)
  if char < 0x20 ∨ 0x7e < char then
    orRaise .indexError (c.lineAscii.set outLine i 0x2e)
  else .ok outLine

/-- Blanks behind the hex digits of a line that is not full. -/
def writeBlanks (c : Layout) (lineBytes : Nat) (outLine : List UInt8) :
    Except Raised (List UInt8) :=
  if lineBytes < c.lineWidth then
    let start := lineBytes * 3 - 1
    (List.range' start (c.lineWidth * 3 - start)).foldlM (blank c) outLine
  else .ok outLine

/-- The characters of a line, and blanks up to them. -/
def writeAscii (c : Layout) (lineBytes : Nat) (bytes outLine : List UInt8) :
    Except Raised (List UInt8) := do
  let outLine ← writeBlanks c lineBytes outLine
  let outLine ← assign (c.lineAscii.slice 0 lineBytes) outLine bytes
  (List.range' 0 lineBytes).foldlM (dot c) outLine

/-- The rest of a line, and the text that is logged. -/
def finishLine (c : Layout) (lineBytes : Nat) (bytes outLine : List UInt8) :
    Except Raised (String × List UInt8) :=
  if c.showAscii then do
    let outLine ← writeAscii c lineBytes bytes outLine
    let line ← decode (outLine.take (c.asciiOffset + lineBytes))
    return (line, outLine)
  else do
    let line ← decode (outLine.take (c.hexOffset + lineBytes * 3 - 1))
    return (line, outLine)

/-- One line: the text that is logged, and the buffer after it. -/
def dumpLine (c : Layout) (buf : List UInt8) (addr offset : Nat)
    (outLine : List UInt8) : Except Raised (String × List UInt8) := do
  let outLine ← writeAddr c addr outLine
  let lineBytes := min (buf.length - offset) c.lineWidth
  let bytes := (buf.drop offset).take lineBytes
  let outLine ← writeHex c lineBytes bytes outLine
  finishLine c lineBytes bytes outLine

/-- The loop over the lines. -/
def dumpLines (c : Layout) (buf : List UInt8) :
    List Nat → Nat → List UInt8 → Traced String Raised Unit
  | [], _, _ => return ()
  | offset :: offsets, addr, outLine => do
      let (line, outLine) ← .lift (dumpLine c buf addr offset outLine)
      .emit line
      dumpLines c buf offsets (addr + c.lineWidth) outLine

/-- `range(0, buf_len, line_width)`. -/
def offsets (bufLen lineWidth : Nat) : List Nat :=
  List.range' 0 ((bufLen + lineWidth - 1) / lineWidth) lineWidth

/-- The dump of a buffer that is not empty. -/
def dumpBuf (buf prefixBytes : List UInt8) (addr lineWidth : Nat)
    (showAscii showAddr : Bool) : Traced String Raised Unit := do
  let c := layout prefixBytes lineWidth showAscii showAddr
  let outLine ← .lift (prepare c prefixBytes)
  dumpLines c buf (offsets buf.length lineWidth) addr outLine

/-- `dump_mem`. -/
def dumpMem (buf : Option (List UInt8)) (prefixStr : String) (addr : Nat)
    (lineWidth : Int) (showAscii showAddr : Bool) :
    Traced String Raised Unit :=
  let lineWidth := if lineWidth < 0 then 16 else lineWidth.toNat
  let prefixStr :=
    if 0 < prefixStr.length then prefixStr ++ ":" else prefixStr
  match buf with
  | none => .emit (prefixStr ++ "No data")
  | some buf =>
      if buf.length = 0 then .emit (prefixStr ++ "No data")
      -- `bytearray` or `range` does not take it, and nothing was logged
      else if lineWidth = 0 then .lift (.error .valueError)
      else dumpBuf buf (encode prefixStr) addr lineWidth showAscii showAddr

/-! ## What the columns rely on -/

theorem encode_append (s t : String) : encode (s ++ t) = encode s ++ encode t :=
  ByteArray.toList_data_append

theorem decode_encode (s : String) : decode (encode s) = .ok s := by
  rw [decode, encode, Unpacker.decodeUtf8_toUTF8]

/-- A character that is encoded in a single byte. -/
def IsAscii (c : Char) : Prop := c.val ≤ 127

instance (c : Char) : Decidable (IsAscii c) :=
  inferInstanceAs (Decidable (c.val ≤ 127))

theorem encode_ofList (cs : List Char) :
    encode (String.ofList cs) = cs.flatMap String.utf8EncodeChar := by
  show (List.toByteArray _).data.toList = _
  simp

theorem encode_ascii {cs : List Char} (h : ∀ c ∈ cs, IsAscii c) :
    encode (String.ofList cs) = cs.map fun c => c.val.toUInt8 := by
  rw [encode_ofList]
  induction cs with
  | nil => rfl
  | cons c cs ih =>
      have hc : c.utf8Size = 1 :=
        Char.utf8Size_eq_one_iff.mpr (h c List.mem_cons_self)
      rw [List.flatMap_cons, String.utf8EncodeChar_eq_singleton hc, List.map_cons,
        ih fun d hd => h d (List.mem_cons_of_mem _ hd)]
      rfl

theorem digitChar_ascii : ∀ d < 16, IsAscii (Nat.digitChar d) := by decide

theorem toDigits_ascii (n : Nat) : ∀ c ∈ Nat.toDigits 16 n, IsAscii c := by
  induction n using Nat.strongRecOn with
  | ind n ih =>
      rw [Nat.toDigits_eq_if (by decide)]
      split
      · next hn =>
          intro c hc
          rw [List.mem_singleton.mp hc]
          exact digitChar_ascii n hn
      · intro c hc
        rcases List.mem_append.mp hc with hc | hc
        · exact ih (n / 16) (by omega) c hc
        · rw [List.mem_singleton.mp hc]
          exact digitChar_ascii (n % 16) (Nat.mod_lt _ (by decide))

theorem formatHex_ascii (width n : Nat) : ∀ c ∈ formatHex width n, IsAscii c := by
  intro c hc
  rw [formatHex, List.leftpad] at hc
  rcases List.mem_append.mp hc with hc | hc
  · rw [List.eq_of_mem_replicate hc]
    decide
  · exact toDigits_ascii n c hc

theorem addrText_ascii (addr : Nat) : ∀ c ∈ addrText addr, IsAscii c := by
  intro c hc
  rcases List.mem_append.mp hc with hc | hc
  · exact formatHex_ascii 4 addr c hc
  · rcases List.mem_cons.mp hc with rfl | hc
    · decide
    · obtain rfl := List.mem_singleton.mp hc
      decide

theorem hexText_cons (b b' : UInt8) (bs : List UInt8) :
    hexText (b :: b' :: bs) =
      formatHex 2 b.toNat ++ ' ' :: hexText (b' :: bs) := by
  rw [hexText, List.map_cons, List.map_cons, List.intercalate_cons_cons,
    List.append_assoc]
  rfl

theorem hexText_singleton (b : UInt8) : hexText [b] = formatHex 2 b.toNat :=
  List.intercalate_singleton

theorem hexText_ascii (bs : List UInt8) : ∀ c ∈ hexText bs, IsAscii c := by
  induction bs with
  | nil => exact fun c hc => (by cases hc)
  | cons b bs ih =>
      cases bs with
      | nil =>
          rw [hexText_singleton]
          exact formatHex_ascii 2 b.toNat
      | cons b' bs =>
          rw [hexText_cons]
          intro c hc
          rcases List.mem_append.mp hc with hc | hc
          · exact formatHex_ascii 2 b.toNat c hc
          · rcases List.mem_cons.mp hc with rfl | hc
            · decide
            · exact ih c hc

/-- A number is as wide as the column exactly if it has no more digits. -/
theorem length_formatHex_iff {width : Nat} (hwidth : 0 < width) (n : Nat) :
    (formatHex width n).length = width ↔ n < 16 ^ width := by
  rw [formatHex, List.length_leftpad,
    ← Nat.length_toDigits_le_iff (by decide) hwidth]
  omega

theorem length_formatHex_byte (b : UInt8) :
    (formatHex 2 b.toNat).length = 2 :=
  (length_formatHex_iff (by decide) _).mpr b.toNat_lt

theorem length_hexText {bs : List UInt8} (h : bs ≠ []) :
    (hexText bs).length = bs.length * 3 - 1 := by
  induction bs with
  | nil => exact absurd rfl h
  | cons b bs ih =>
      cases bs with
      | nil => rw [hexText_singleton, length_formatHex_byte, List.length_singleton]
      | cons b' bs =>
          rw [hexText_cons, List.length_append, List.length_cons,
            length_formatHex_byte, ih (List.cons_ne_nil _ _)]
          simp only [List.length_cons]
          omega

theorem length_hexlify {bs : List UInt8} (h : bs ≠ []) :
    (hexlify bs).length = bs.length * 3 - 1 := by
  rw [hexlify, encode_ascii (hexText_ascii bs), List.length_map,
    length_hexText h]

/-- The address column has room for four digits. -/
theorem length_addrText_iff (addr : Nat) :
    (encode (String.ofList (addrText addr))).length = 6 ↔ addr < 0x10000 := by
  rw [encode_ascii (addrText_ascii addr), List.length_map, addrText,
    List.length_append]
  have hformat := length_formatHex_iff (show 0 < 4 by decide) addr
  simp only [List.length_cons, List.length_nil]
  omega

end DuinoBus.Py.DumpMem
