import RecordService.Bytes

/-!
# Reading damaged UTF-8

`lossy` reads any bytes as text. Where the bytes are not UTF-8, each longest run that could still
have begun a character becomes one replacement character, and a byte that can begin none becomes
one of its own.
-/

namespace RecordService.Utf8

/-- The character shown in place of bytes that spell none. -/
def replacement : Char := Char.ofNat 0xFFFD

/-- What a first byte announces: how many bytes follow it, the range of the byte right after it
and the bits that it contributes. -/
structure Lead where
  following : Nat
  low : Nat
  high : Nat
  bits : Nat

/-- What the first byte of a character of two or more bytes announces. -/
def lead? (b : Nat) : Option Lead :=
  if 0xC2 ≤ b ∧ b ≤ 0xDF then some ⟨1, 0x80, 0xBF, b - 0xC0⟩
  else if b = 0xE0 then some ⟨2, 0xA0, 0xBF, 0⟩
  else if b = 0xED then some ⟨2, 0x80, 0x9F, 0xD⟩
  else if 0xE1 ≤ b ∧ b ≤ 0xEF then some ⟨2, 0x80, 0xBF, b - 0xE0⟩
  else if b = 0xF0 then some ⟨3, 0x90, 0xBF, 0⟩
  else if 0xF1 ≤ b ∧ b ≤ 0xF3 then some ⟨3, 0x80, 0xBF, b - 0xF0⟩
  else if b = 0xF4 then some ⟨3, 0x80, 0x8F, 4⟩
  else none

/-- Reads with the characters found so far held last first. Inside a character, `owed` bytes are
still to come, the next of them between `low` and `high`, and `bits` is what was read of it. -/
def read (owed low high bits : Nat) (done : List Char) : Bytes → List Char
  | [] => if owed = 0 then done.reverse else (replacement :: done).reverse
  | b :: rest =>
    let inside := owed ≠ 0 ∧ low ≤ b.toNat ∧ b.toNat ≤ high
    if inside then
      let bits := bits * 64 + b.toNat % 64
      if owed = 1 then read 0 0 0 0 (Char.ofNat bits :: done) rest
      else read (owed - 1) 0x80 0xBF bits done rest
    else
      let done := if owed = 0 then done else replacement :: done
      if b.toNat < 0x80 then read 0 0 0 0 (Char.ofNat b.toNat :: done) rest
      else
        match lead? b.toNat with
        | some l => read l.following l.low l.high l.bits done rest
        | none => read 0 0 0 0 (replacement :: done) rest

/-- The text of any bytes, damaged parts replaced. -/
def lossy (b : Bytes) : String := String.ofList (read 0 0 0 0 [] b)

end RecordService.Utf8
