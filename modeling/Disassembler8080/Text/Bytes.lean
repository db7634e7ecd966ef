/-
# Texts as bytes

A text is written as the bytes of its UTF-8 encoding.  Bytes are read as a text character by
character, and where they are no text, what could have been the beginning of one character is
replaced by one replacement character.  That happens to a text only if it has been cut inside a
character: the bytes of a whole text are read as that text (`ofBytes_toByteArray`).
-/

namespace Disassembler8080.Text

/-! ## 1. The bytes of a text -/

/-- The bytes of a text. -/
def bytes (text : String) : List UInt8 := text.toByteArray.data.toList

theorem bytes_append (first second : String) :
    bytes (first ++ second) = bytes first ++ bytes second := by
  simp [bytes, String.toByteArray_append]

theorem bytes_inj {first second : String} : bytes first = bytes second ↔ first = second := by
  rw [bytes, bytes, Array.toList_inj, ← String.toByteArray_inj]
  exact ⟨ByteArray.ext, congrArg ByteArray.data⟩

/-! ## 2. Bytes as a text -/

/-- The character that stands for bytes that are no text. -/
def replacement : Char := '\uFFFD'

/-- Whether a byte can be one behind the first byte of a character. -/
def isContinuation (byte : UInt8) : Bool := 0x80 ≤ byte && byte ≤ 0xbf

/-- Whether the first two bytes of a character of three or four bytes can be these two.  The range
of the second one is smaller where the character would have a shorter encoding, would be a surrogate
or would lie beyond the last code point. -/
def canBegin (first second : UInt8) : Bool :=
  0xe0 ≤ first && first ≤ 0xf4 && isContinuation second &&
    (first ≠ 0xe0 || 0xa0 ≤ second) && (first ≠ 0xed || second ≤ 0x9f) &&
    (first ≠ 0xf0 || 0x90 ≤ second) && (first ≠ 0xf4 || second ≤ 0x8f)

/-- How many bytes are replaced together at a place where no character is: the first one, and those
behind it with which it could begin a character. -/
def brokenSize (bytes : ByteArray) (place : Nat) : Nat :=
  match bytes[place]?, bytes[place + 1]? with
  | some first, some second =>
    if !canBegin first second then 1
    else if bytes[place + 2]?.any isContinuation then 3
    else 2
  | _, _ => 1

theorem brokenSize_pos (bytes : ByteArray) (place : Nat) : 0 < brokenSize bytes place := by
  unfold brokenSize
  split
  · split
    · decide
    · split <;> decide
  · decide

/-- Reads bytes from a place on, behind a text that has been read. -/
def readFrom (bytes : ByteArray) (place : Nat) (read : String) : String :=
  if place < bytes.size then
    match bytes.utf8DecodeChar? place with
    | some c => readFrom bytes (place + c.utf8Size) (read.push c)
    | none => readFrom bytes (place + brokenSize bytes place) (read.push replacement)
  else read
termination_by bytes.size - place
decreasing_by
  · have := c.utf8Size_pos
    omega
  · have := brokenSize_pos bytes place
    omega

/-- The text of bytes. -/
def ofBytes (bytes : ByteArray) : String := readFrom bytes 0 ""

/-- Where the bytes of characters stand, those characters are read. -/
theorem readFrom_utf8Encode {chars : List Char} {bytes : ByteArray} {place : Nat}
    (h : bytes.extract place bytes.size = chars.utf8Encode) (read : String) :
    readFrom bytes place read = read ++ String.ofList chars := by
  induction chars generalizing place read with
  | nil =>
    have hend : ¬ place < bytes.size := by
      rw [List.utf8Encode_nil, ByteArray.extract_eq_empty_iff] at h
      omega
    rw [readFrom, if_neg hend]
    simp
  | cons c rest ih =>
    have hchar : bytes.utf8DecodeChar? place = some c := by
      rw [ByteArray.utf8DecodeChar?_eq_utf8DecodeChar?_extract, h,
        List.utf8DecodeChar?_utf8Encode_cons]
    have hsize := ByteArray.le_size_of_utf8DecodeChar?_eq_some hchar
    have hpos := c.utf8Size_pos
    have hrest : bytes.extract (place + c.utf8Size) bytes.size = rest.utf8Encode := by
      have hcut : bytes.extract (place + c.utf8Size) bytes.size =
          (bytes.extract place bytes.size).extract c.utf8Size (bytes.size - place) := by
        rw [ByteArray.extract_extract]
        congr 1
        omega
      have hfront : [c].utf8Encode.size = c.utf8Size := by
        rw [List.utf8Encode_singleton, List.size_toByteArray, String.length_utf8EncodeChar]
      have hwhole := congrArg ByteArray.size h
      rw [List.utf8Encode_cons, ByteArray.size_append, ByteArray.size_extract] at hwhole
      rw [hcut, h, List.utf8Encode_cons]
      exact ByteArray.extract_append_eq_right hfront.symm (by omega)
    rw [readFrom, if_pos (by omega), hchar]
    simp only
    rw [ih hrest, String.ofList_cons, ← String.append_assoc, String.append_singleton]

/-- **A text is read back from its bytes.** -/
theorem ofBytes_toByteArray (text : String) : ofBytes text.toByteArray = text := by
  have h : text.toByteArray.extract 0 text.toByteArray.size = text.toList.utf8Encode := by
    rw [ByteArray.extract_zero_size, String.utf8Encode_toList]
  rw [ofBytes, readFrom_utf8Encode h, String.ofList_toList, String.empty_append]

end Disassembler8080.Text
