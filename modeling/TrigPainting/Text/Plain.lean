/-!
# Text without control sequences

Terminals are controlled by sequences of characters that begin with the escape
character. Lines that are not written to a terminal are freed of them, and of the
other control characters, blanks aside.

## Main definitions

- `Mode`, `Mode.after`, `Mode.shows` — how far a control sequence has been read
- `plain` — a text without control sequences

## Design notes

A blank that interrupts a sequence is shown, and with it what follows up to the
next character that cannot be shown. There the sequence goes on where it was
interrupted, unless a character beyond ASCII has been shown in between.
-/

namespace TrigPainting.Text

/-- How far a control sequence has been read. -/
inductive Mode where
  /-- No sequence is being read. -/
  | ground
  /-- The escape character has been read. -/
  | escape
  /-- A character between the escape character and the last one has been read. -/
  | escapeMiddle
  /-- A sequence of parameters begins. -/
  | control
  /-- A parameter has been read. -/
  | controlParameter
  /-- A character between the parameters and the last one has been read. -/
  | controlMiddle
  /-- The sequence is malformed. -/
  | controlIgnored
  /-- A sequence with a string for the device begins. -/
  | device
  /-- A parameter has been read. -/
  | deviceParameter
  /-- A character between the parameters and the string has been read. -/
  | deviceMiddle
  /-- The string is being read. -/
  | deviceString
  /-- The sequence is malformed. -/
  | deviceIgnored
  /-- A command for the operating system is being read. -/
  | systemCommand
  /-- Another string is being read. -/
  | otherString
deriving DecidableEq, Repr

/-- A code point lies between two others, both included. -/
private def within (c : Char) (first last : Nat) : Bool :=
  first ≤ c.toNat && c.toNat ≤ last

/-- Whether a character beyond ASCII is encoded with the byte `9C`, which ends
strings. -/
def holdsTerminator (c : Char) : Bool :=
  128 ≤ c.toNat && (String.singleton c).toUTF8.toList.contains 0x9C

namespace Mode

/-- The mode after the escape character and one more. -/
def afterEscape (c : Char) : Mode :=
  if within c 0x20 0x2F then escapeMiddle
  else if c = '[' then control
  else if c = ']' then systemCommand
  else if c = 'P' then device
  else if c = 'X' ∨ c = '^' ∨ c = '_' then otherString
  else if within c 0x30 0x7E then ground
  else escape

/-- The mode after one more character of a sequence. Every sequence is ended by
two of the control characters, and the escape character begins a new one. -/
def after (mode : Mode) (c : Char) : Mode :=
  if c = '\x18' ∨ c = '\x1A' then ground
  else if c = '\x1B' then escape
  else
    match mode with
    | ground => ground
    | escape => afterEscape c
    | escapeMiddle => if within c 0x30 0x7E then ground else escapeMiddle
    | control =>
      if within c 0x20 0x2F then controlMiddle
      else if within c 0x30 0x3F then controlParameter
      else if within c 0x40 0x7E then ground
      else control
    | controlParameter =>
      if within c 0x20 0x2F then controlMiddle
      else if within c 0x3C 0x3F then controlIgnored
      else if within c 0x40 0x7E then ground
      else controlParameter
    | controlMiddle =>
      if within c 0x30 0x3F then controlIgnored
      else if within c 0x40 0x7E then ground
      else controlMiddle
    | controlIgnored => if within c 0x40 0x7E then ground else controlIgnored
    | device =>
      if within c 0x20 0x2F then deviceMiddle
      else if within c 0x30 0x3F then deviceParameter
      else if within c 0x40 0x7E then deviceString
      else device
    | deviceParameter =>
      if within c 0x20 0x2F then deviceMiddle
      else if within c 0x3C 0x3F then deviceIgnored
      else if within c 0x40 0x7E then deviceString
      else deviceParameter
    | deviceMiddle =>
      if within c 0x30 0x3F then deviceIgnored
      else if within c 0x40 0x7E then deviceString
      else deviceMiddle
    | deviceString => if holdsTerminator c then ground else deviceString
    | deviceIgnored => if holdsTerminator c then ground else deviceIgnored
    | systemCommand => if c = '\x07' then ground else systemCommand
    | otherString => if holdsTerminator c then ground else otherString

/-- Whether blanks that interrupt a sequence are shown. -/
def showsBlanks : Mode → Bool
  | ground | escape | escapeMiddle => true
  | control | controlParameter | controlMiddle | controlIgnored => true
  | _ => false

/-- Whether a character is shown. -/
def shows (mode : Mode) (c : Char) : Bool :=
  (mode == ground && 0x20 ≤ c.toNat && c.toNat != 0x7F) ||
    (mode.showsBlanks && (c == '\t' || c == '\n' || c == '\x0C' || c == '\r'))

end Mode

/-- A text without control sequences, from a mode on. While characters are being
`shown`, each is judged as if no sequence had begun. -/
def plainFrom (mode : Mode) (shown : Bool) : List Char → List Char
  | [] => []
  | c :: rest =>
    if (if shown then Mode.ground else mode).shows c then
      c :: plainFrom (if c.toNat < 128 then mode else .ground) true rest
    else plainFrom (mode.after c) false rest

/-- A text without control sequences. -/
def plain (text : List Char) : List Char :=
  plainFrom .ground false text

example : plain "a\x1b[31mb\x1b[0m".toList = "ab".toList := by decide +kernel
example : plain "a\x1b]0;t\x07b".toList = "ab".toList := by decide +kernel
example : plain "a\x1b[3\n b\x01mc".toList = "a\n bc".toList := by decide +kernel

end TrigPainting.Text
