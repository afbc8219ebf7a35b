import TrigPainting.Picture.Raster

/-!
# Picture files

Pictures are written in the Portable Network Graphics format, eight bits to a
channel. The rows are stored without compression.

## Main definitions

- `Image.checkFormat` — whether the format has a place for a picture
- `Image.png` — the bytes of the file of a picture
- `Png.crc`, `Png.adler` — the two checksums of the format

## Design notes

A file is a signature followed by chunks: a header, the rows, an end. The rows
form one stream of stored blocks, each row behind a byte that names its filter,
here none.
-/

namespace TrigPainting

namespace Png

/-- Why the format has no place for a picture. -/
inductive FormatError where
  | zeroWidth
  | zeroHeight
deriving DecidableEq, Repr

/-- The wording of an error. -/
def FormatError.message : FormatError → String
  | zeroWidth => "Zero width not allowed"
  | zeroHeight => "Zero height not allowed"

/-- A word of 32 bits as four bytes, the upper one first. -/
def word (n : UInt32) : ByteArray :=
  ⟨#[(n >>> 24).toUInt8, (n >>> 16).toUInt8, (n >>> 8).toUInt8, n.toUInt8]⟩

/-- A word of 16 bits as two bytes, the lower one first. -/
def shortWord (n : UInt16) : ByteArray :=
  ⟨#[n.toUInt8, (n >>> 8).toUInt8]⟩

/-- The remainder after `bits` more zero bits of a message. -/
def crcBits : Nat → UInt32 → UInt32
  | 0, r => r
  | bits + 1, r =>
    crcBits bits (if r &&& 1 = 1 then (r >>> 1) ^^^ 0xEDB88320 else r >>> 1)

/-- The remainder after one more byte of a message. -/
def crcByte (r : UInt32) (byte : UInt8) : UInt32 :=
  crcBits 8 (r ^^^ byte.toUInt32)

/-- The checksum of a chunk: a remainder of polynomial division. -/
def crc (bytes : ByteArray) : UInt32 :=
  bytes.foldl crcByte 0xFFFFFFFF ^^^ 0xFFFFFFFF

/-- The checksum of a stream: two sums modulo 65521. -/
def adler (bytes : ByteArray) : UInt32 :=
  let (a, b) := bytes.foldl (fun (sums : UInt32 × UInt32) byte =>
    let a := (sums.1 + byte.toUInt32) % 65521
    (a, (sums.2 + a) % 65521)) (1, 0)
  (b <<< 16) ||| a

/-- A chunk: its length, its kind, its contents and their checksum. -/
def chunk (kind : String) (contents : ByteArray) : ByteArray :=
  let body := kind.toUTF8 ++ contents
  word contents.size.toUInt32 ++ body ++ word (crc body)

/-- The greatest length of a stored block. -/
def blockLength : Nat := 65535

/-- The stored blocks of the bytes from `start` on, of which there are enough
for `more` blocks in front of the last. -/
def blocks (bytes : ByteArray) (start : Nat) : Nat → ByteArray
  | 0 =>
    let block := bytes.extract start bytes.size
    ⟨#[1]⟩ ++ shortWord block.size.toUInt16 ++ shortWord (~~~ block.size.toUInt16) ++ block
  | more + 1 =>
    let block := bytes.extract start (start + blockLength)
    ⟨#[0]⟩ ++ shortWord block.size.toUInt16 ++ shortWord (~~~ block.size.toUInt16) ++ block ++
      blocks bytes (start + blockLength) more

/-- A stream of stored blocks with its header and checksum. -/
def stream (bytes : ByteArray) : ByteArray :=
  ⟨#[0x78, 0x01]⟩ ++ blocks bytes 0 ((bytes.size - 1) / blockLength) ++ word (adler bytes)

/-- The bytes that every file starts with. -/
def signature : ByteArray :=
  ⟨#[0x89, 0x50, 0x4E, 0x47, 0x0D, 0x0A, 0x1A, 0x0A]⟩

example : crc "123456789".toUTF8 = 0xCBF43926 := by decide +kernel
example : adler "Wikipedia".toUTF8 = 0x11E60398 := by decide +kernel

end Png

namespace Image

/-- The first reason why the format has no place for a picture, if there is one. -/
def checkFormat (image : Image) : Except Png.FormatError Unit :=
  if image.width = 0 then .error .zeroWidth
  else if image.height = 0 then .error .zeroHeight
  else .ok ()

theorem checkFormat_eq_ok_iff (image : Image) : image.checkFormat = .ok () ↔ image.HasPixels := by
  rw [checkFormat, HasPixels]
  by_cases hwidth : image.width = 0
  · simp [hwidth]
  · by_cases hheight : image.height = 0 <;> simp [hwidth, hheight]

/-- The rows of a picture, each behind a byte that names no filter. -/
def filtered (image : Image) : ByteArray :=
  image.rows.foldl (fun bytes row => row.foldl ByteArray.push (bytes.push 0)) ByteArray.empty

/-- The bytes of the file of a picture. -/
def png (image : Image) : ByteArray :=
  let header := Png.word image.width ++ Png.word image.height ++ ⟨#[8, 2, 0, 0, 0]⟩
  Png.signature ++ Png.chunk "IHDR" header ++ Png.chunk "IDAT" (Png.stream image.filtered) ++
    Png.chunk "IEND" ByteArray.empty

end Image

end TrigPainting
