import TrigPainting.Palette.Details

/-!
# Fingerprints

Details files carry a tag that depends on what they hold, so that files of
different pictures can lie side by side.

## Main definitions

- `hash` — the number of a text, a polynomial in 25 modulo `2 ^ 64`
- `fingerprint` — its hexadecimal numeral, repeated or cut to a given length
- `computeFingerprint` — how it is computed if the length is a word
- `Palette.tag` — the tag of a palette

## Design notes

To be cut to a length, the numeral is repeated once more than it fits into that
length. This number is a word and wraps, and no text is longer than `textLimit`.
So computing a fingerprint has faults, but only for lengths that no file name has.
-/

namespace TrigPainting

namespace Storage

variable {text chars : List Char} {length times : UInt64}

/-- The number that hashing starts from. -/
def hashSeed : UInt64 := 0x666

/-- The number of a text that continues a text of number `h`. -/
def hashFrom (h : UInt64) (text : List Char) : UInt64 :=
  text.foldl (fun h c => h * 25 + c.val.toUInt64) h

/-- The number of a text. -/
def hash (text : List Char) : UInt64 :=
  hashFrom hashSeed text

/-- The hexadecimal numeral of a word, in lower case and without leading zeros. -/
def numeral (h : UInt64) : List Char :=
  Nat.toDigits 16 h.toNat

/-- Characters repeated until there are enough of them to be cut to the given length. -/
def repeated (chars : List Char) (length : Nat) : List Char :=
  (List.replicate (length / chars.length + 1) chars).flatten

/-- Characters repeated from the start, cut to the given length. -/
def cycle (chars : List Char) (length : Nat) : List Char :=
  (repeated chars length).take length

/-- The numeral of a text's number, repeated or cut to the given length. The
empty text has the empty fingerprint. -/
def fingerprint (text : List Char) (length : Nat) : List Char :=
  if text.isEmpty then [] else cycle (numeral (hash text)) length

/-- The length of a tag. -/
def tagLength : Nat := 25

example : fingerprint ['a'] tagLength = "a057a057a057a057a057a057a".toList := by decide +kernel

/-- Why there is no fingerprint of a length. -/
inductive Fault where
  /-- A text would be longer than any text can be. -/
  | capacity
  /-- A text is cut behind its end. -/
  | slice
deriving DecidableEq, Repr

/-- The greatest number of bytes in a text. -/
def textLimit : Nat := 0x7fffffffffffffff

/-- Characters of one byte each, repeated a number of times. -/
def repeatText (chars : List Char) (times : UInt64) : Except Fault (List Char) :=
  if textLimit < chars.length * times.toNat then .error .capacity
  else .ok (List.replicate times.toNat chars).flatten

/-- The first characters of a text, as many as asked for. -/
def cutText (text : List Char) (length : UInt64) : Except Fault (List Char) :=
  if text.length < length.toNat then .error .slice else .ok (text.take length.toNat)

/-- The numeral of a text's number, repeated and then cut to the given length. -/
def computeFingerprint (text : List Char) (length : UInt64) : Except Fault (List Char) :=
  if text.isEmpty then .ok []
  else do
    let digits := numeral (hash text)
    cutText (← repeatText digits (length / digits.length.toUInt64 + 1)) length

theorem repeatText_eq_ok (h : chars.length * times.toNat ≤ textLimit) :
    repeatText chars times = .ok (List.replicate times.toNat chars).flatten :=
  if_neg (Nat.not_lt.mpr h)

theorem repeatText_eq_error (h : textLimit < chars.length * times.toNat) :
    repeatText chars times = .error .capacity :=
  if_pos h

theorem cutText_eq_ok (h : length.toNat ≤ text.length) :
    cutText text length = .ok (text.take length.toNat) :=
  if_neg (Nat.not_lt.mpr h)

theorem cutText_eq_error (h : text.length < length.toNat) : cutText text length = .error .slice :=
  if_pos h

theorem hashFrom_append (h : UInt64) (a b : List Char) :
    hashFrom h (a ++ b) = hashFrom (hashFrom h a) b :=
  List.foldl_append ..

theorem hash_append (a b : List Char) : hash (a ++ b) = hashFrom (hash a) b :=
  hashFrom_append ..

theorem numeral_ne_nil (h : UInt64) : numeral h ≠ [] :=
  Nat.toDigits_ne_nil

theorem length_numeral_pos (h : UInt64) : 0 < (numeral h).length :=
  List.length_pos_iff.mpr (numeral_ne_nil h)

theorem length_numeral_le (h : UInt64) : (numeral h).length ≤ 16 :=
  (Nat.length_toDigits_le_iff (by decide) (by decide)).mpr h.toNat_lt

theorem length_repeated (chars : List Char) (length : Nat) :
    (repeated chars length).length = (length / chars.length + 1) * chars.length := by
  simp [repeated, List.length_flatten]

theorem le_length_repeated (hchars : chars ≠ []) (length : Nat) :
    length ≤ (repeated chars length).length := by
  rw [length_repeated, Nat.add_mul, Nat.one_mul]
  exact Nat.le_of_lt (Nat.lt_div_mul_add (List.length_pos_iff.mpr hchars))

theorem fingerprint_of_ne_nil (htext : text ≠ []) (length : Nat) :
    fingerprint text length = cycle (numeral (hash text)) length := by
  rw [fingerprint, if_neg (by simpa using htext)]

/-- How often a numeral is repeated, as a word. -/
theorem toNat_repetitions (h length : UInt64) :
    (length / (numeral h).length.toUInt64 + 1).toNat =
      (length.toNat / (numeral h).length + 1) % UInt64.size := by
  have hle := length_numeral_le h
  have hlength : (numeral h).length.toUInt64.toNat = (numeral h).length :=
    UInt64.toNat_ofNat_of_lt' (Nat.lt_of_le_of_lt hle (by decide))
  rw [UInt64.toNat_add, UInt64.toNat_div, hlength]
  rfl

theorem computeFingerprint_of_ne_nil (htext : text ≠ []) (length : UInt64) :
    computeFingerprint text length =
      (repeatText (numeral (hash text))
        (length / (numeral (hash text)).length.toUInt64 + 1)).bind (cutText · length) := by
  rw [computeFingerprint, if_neg (by simpa using htext)]
  rfl

/-- Where there is a text that is long enough, the fingerprint is cut from it. -/
theorem computeFingerprint_of_le (htext : text ≠ [])
    (h : (numeral (hash text)).length * (length.toNat / (numeral (hash text)).length + 1) ≤
      textLimit) :
    computeFingerprint text length = .ok (fingerprint text length.toNat) := by
  have hpos := length_numeral_pos (hash text)
  have hfits : length.toNat / (numeral (hash text)).length + 1 < UInt64.size :=
    Nat.lt_of_le_of_lt (Nat.le_trans (Nat.le_mul_of_pos_left _ hpos) h) (by decide)
  have htimes := toNat_repetitions (hash text) length
  rw [Nat.mod_eq_of_lt hfits] at htimes
  have henough := le_length_repeated (numeral_ne_nil (hash text)) length.toNat
  rw [computeFingerprint_of_ne_nil htext, repeatText_eq_ok (by rwa [htimes]), htimes,
    fingerprint_of_ne_nil htext]
  exact cutText_eq_ok henough

end Storage

namespace Palette

/-- The text that the tag of a palette is made from: its three expressions in
parentheses. -/
def tagText (p : Palette) : List Char :=
  '(' :: p.red.write (')' :: '_' :: '(' ::
    p.green.write (')' :: '_' :: '(' :: p.blue.write [')']))

theorem tagText_ne_nil (p : Palette) : p.tagText ≠ [] :=
  List.cons_ne_nil _ _

/-- The length of a tag is no fault. -/
theorem computeFingerprint_tagText (p : Palette) :
    Storage.computeFingerprint p.tagText Storage.tagLength.toUInt64 =
      .ok (Storage.fingerprint p.tagText Storage.tagLength) := by
  refine Storage.computeFingerprint_of_le p.tagText_ne_nil ?_
  have hle := Storage.length_numeral_le (Storage.hash p.tagText)
  have hdiv := Nat.div_le_self 25 (Storage.numeral (Storage.hash p.tagText)).length
  exact Nat.le_trans (Nat.mul_le_mul hle (Nat.succ_le_succ hdiv)) (by decide)

/-- The tag of a palette. -/
def tag (p : Palette) : String :=
  String.ofList <|
    (Storage.computeFingerprint p.tagText Storage.tagLength.toUInt64).toOption.get
      (by rw [computeFingerprint_tagText]; rfl)

theorem tag_eq (p : Palette) :
    p.tag = String.ofList (Storage.fingerprint p.tagText Storage.tagLength) := by
  simp only [tag, computeFingerprint_tagText]
  rfl

end Palette

end TrigPainting
