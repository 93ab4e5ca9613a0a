/-
Module: StyleAudit.Format.Encoded
Purpose: Bytes of text files as characters, and how far a file with a fault can be read.
Trusted boundary: none
Main exports: decode, normalizeLineEnds, leadingText, readableLength
-/
import StyleAudit.Format.Fault

namespace StyleAudit.Format

/-!
### Whole files
-/

/-- The characters that bytes encode. -/
def decode (bytes : ByteArray) : Except Fault (List Char) :=
  match String.fromUTF8? bytes with
  | some text => .ok text.toList
  | none => .error .undecodable

/-- A text with every line end made a line feed. -/
def normalizeLineEnds : List Char → List Char
  | '\r' :: '\n' :: rest => '\n' :: normalizeLineEnds rest
  | '\r' :: rest => '\n' :: normalizeLineEnds rest
  | c :: rest => c :: normalizeLineEnds rest
  | [] => []

/-!
### The start of a file with a fault

A file that is not read as a whole is read in chunks, until the characters asked for are
there.  A chunk may end within a character, which the next one then completes.  A fault is a
byte that no character has at its place, and reading fails at the chunk that holds it; when
the file ends within a character, reading fails behind the last chunk.
-/

/-- The characters before the first fault, from a place on. -/
def leadingCharacters (bytes : ByteArray) : Nat → Nat → List Char
  | 0, _ => []
  | fuel + 1, place =>
      match bytes.utf8DecodeChar? place with
      | some c => c :: leadingCharacters bytes fuel (place + c.utf8Size)
      | none => []

/-- The characters of a file before its first fault. -/
def leadingText (bytes : ByteArray) : List Char :=
  leadingCharacters bytes bytes.size 0

/-- Bytes one of which completes every start of a character. -/
def completions : List (List UInt8) :=
  [[0x80], [0x80, 0x80], [0xA0, 0x80], [0x80, 0x80, 0x80], [0x90, 0x80, 0x80]]

/-- Some character starts with the bytes and has more of them. -/
def startsCharacter (bytes : List UInt8) : Bool :=
  completions.any fun others =>
    match String.fromUTF8? ⟨(bytes ++ others).toArray⟩ with
    | some text => text.length = 1
    | none => false

/-- How many bytes characters take. -/
def byteCount : List Char → Nat
  | [] => 0
  | c :: rest => c.utf8Size + byteCount rest

/-- The place of the first byte that no character has there; the end of the file when it
ends within a character. -/
def faultPlace (bytes : ByteArray) (leading : List Char) : Nat :=
  let place := byteCount leading
  let isStart (count : Nat) : Bool :=
    place + count ≤ bytes.size && startsCharacter (bytes.extract place (place + count)).toList
  place + (([3, 2, 1].find? isStart).getD 0)

/-- The characters that end within the given number of bytes. -/
def charactersWithin : Nat → List Char → List Char
  | _, [] => []
  | room, c :: rest =>
      if c.utf8Size ≤ room then c :: charactersWithin (room - c.utf8Size) rest else []

/-- Characters within a number of bytes take no more bytes than that. -/
theorem size_charactersWithin (room : Nat) (text : List Char) :
    byteCount (charactersWithin room text) ≤ room := by
  induction text generalizing room with
  | nil => simp [charactersWithin, byteCount]
  | cons c rest ih =>
      by_cases h : c.utf8Size ≤ room
      · have := ih (room - c.utf8Size)
        simp [charactersWithin, h, byteCount]
        omega
      · simp [charactersWithin, h, byteCount]

/-- How many characters the bytes before a place give.  A carriage return there may be half
of a line end, and so waits. -/
def lengthBefore (place : Nat) (leading : List Char) : Nat :=
  let within := charactersWithin place leading
  (normalizeLineEnds (if within.getLast? = some '\r' then within.dropLast else within)).length

/-- How far reading has come, in bytes and in characters, and what the last chunk held. -/
structure Progress where
  place : Nat
  length : Nat
  chunkBytes : Nat
  chunkLength : Nat

/-- The least number of bytes in a chunk that does not end the file. -/
def leastChunk : Nat := 8192

/-- How many bytes are read for more characters: as many as these would take by the measure
of the last chunk, and not too few. -/
def Progress.chunkFor (p : Progress) (missing : Nat) : Nat :=
  max leastChunk (p.chunkBytes * missing / p.chunkLength)

/-- How many characters are read before reading fails, when they are asked for piece by
piece. -/
def readFrom (bytes : ByteArray) (leading : List Char) (faultAt piece : Nat) :
    Nat → Nat → Progress → Nat
  | 0, _, p => p.length
  | fuel + 1, asked, p =>
      if asked ≤ p.length then readFrom bytes leading faultAt piece fuel (asked + piece) p
      else
        let next := min bytes.size (p.place + p.chunkFor (asked - p.length))
        if faultAt < next || p.place = next then p.length
        else
          let length := lengthBefore next leading
          readFrom bytes leading faultAt piece fuel asked
            ⟨next, length, next - p.place, length - p.length⟩

/-- How many characters of a file with a fault are read before reading fails. -/
def readableLength (bytes : ByteArray) (piece : Nat) : Nat :=
  let leading := leadingText bytes
  readFrom bytes leading (faultPlace bytes leading) piece (bytes.size + 2) piece ⟨0, 0, 0, 0⟩

example : leadingText ⟨#[0x61, 0xC3, 0xA4, 0xE0, 0xA0]⟩ = ['a', 'ä'] := by decide +kernel
example : faultPlace ⟨#[0x61, 0xE0, 0xA0]⟩ ['a'] = 3 := by decide +kernel
example : faultPlace ⟨#[0x61, 0xE0, 0x80]⟩ ['a'] = 2 := by decide +kernel
example : faultPlace ⟨#[0x61, 0xFF]⟩ ['a'] = 1 := by decide +kernel

end StyleAudit.Format
