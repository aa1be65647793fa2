/-!
# Reading UTF-8

Bytes are read as UTF-8. What is not UTF-8 is not refused: each longest beginning of a character
that its next byte cannot continue (and each byte that starts no character) reads as the
replacement character.

## Main definitions

* `Text.lead?`: what the first byte of a character announces.
* `Text.decodeUtf8`: the text of a list of bytes.
-/

namespace CodeGrade.Text

/-- What the first byte of a character announces: its payload bits, how many bytes follow, and the
bounds of the first of them. -/
structure Utf8Lead where
  bits : Nat
  tails : Nat
  low : Nat
  high : Nat

/-- What the byte `b` announces as the first of a character of several bytes. -/
def lead? (b : Nat) : Option Utf8Lead :=
  if 0xC2 ≤ b && b ≤ 0xDF then some ⟨b - 0xC0, 1, 0x80, 0xBF⟩
  else if b == 0xE0 then some ⟨0, 2, 0xA0, 0xBF⟩
  else if b == 0xED then some ⟨0xD, 2, 0x80, 0x9F⟩
  else if 0xE1 ≤ b && b ≤ 0xEF then some ⟨b - 0xE0, 2, 0x80, 0xBF⟩
  else if b == 0xF0 then some ⟨0, 3, 0x90, 0xBF⟩
  else if b == 0xF4 then some ⟨4, 3, 0x80, 0x8F⟩
  else if 0xF1 ≤ b && b ≤ 0xF3 then some ⟨b - 0xF0, 3, 0x80, 0xBF⟩
  else none

/-- The character that stands for what is not UTF-8. -/
def replacement : Char := Char.ofNat 0xFFFD

/-- Reads bytes: `pending` is what is left of the character being read, if one is. The characters
read so far are in `done`, last one first. -/
def decodeFrom (done : List Char) (pending : Option Utf8Lead) : List Nat → List Char
  | [] => (if pending.isSome then replacement :: done else done).reverse
  | b :: rest =>
    let start (done : List Char) : List Char × Option Utf8Lead :=
      if b < 0x80 then (Char.ofNat b :: done, none)
      else
        match lead? b with
        | some lead => (done, some lead)
        | none => (replacement :: done, none)
    match pending with
    | none => let (done, pending) := start done; decodeFrom done pending rest
    | some lead =>
      if lead.low ≤ b && b ≤ lead.high then
        let bits := lead.bits * 64 + (b - 0x80)
        if lead.tails ≤ 1 then decodeFrom (Char.ofNat bits :: done) none rest
        else decodeFrom done (some ⟨bits, lead.tails - 1, 0x80, 0xBF⟩) rest
      else
        let (done, pending) := start (replacement :: done)
        decodeFrom done pending rest

/-- The text of a list of bytes. -/
def decodeUtf8 (bytes : List UInt8) : List Char := decodeFrom [] none (bytes.map UInt8.toNat)

end CodeGrade.Text
