import RecordService.Document.Json.Printer
import RecordService.Document.Json.Reader
import RecordService.Proofs.Bytes

/-!
# JSON strings are read back

* `readString_escape`: an escaped byte is read as the byte.
* `readString_escapes`: so the bytes of a text are, up to the quote behind them.
-/

namespace RecordService.Json

variable {done rest : Bytes} {sound : Bool} {fuel : Nat}

theorem charBytes_of_ascii {n : Nat} (h : n < 128) : charBytes n = [UInt8.ofNat n] := by
  have hchar : (Char.ofNat n).toNat = n := Bytes.toNat_ofNat_of_ascii h
  have hone : String.singleton (Char.ofNat n) = String.ofList [Char.ofNat n] := by
    simp
  rw [charBytes, hone, Bytes.utf8_ofList (by simpa [hchar] using h)]
  simp [Bytes.ofAscii, hchar]

/-- The two digits of a control character are read as its number. -/
theorem hex4?_control {n : Nat} (h : n < 32) (rest : Bytes) :
    hex4? (0x30 :: 0x30 :: UInt8.ofNat (0x30 + n / 16) ::
      UInt8.ofNat (Bytes.hexDigit (n % 16)).toNat :: rest) = some (n, rest) := by
  have hzero : Bytes.hexValue? (Char.ofNat (0x30 : UInt8).toNat) = some 0 := by decide
  have hdigits : ∀ n < 32,
      Bytes.hexValue? (Char.ofNat (UInt8.ofNat (0x30 + n / 16)).toNat) = some (n / 16) ∧
      Bytes.hexValue? (Char.ofNat (UInt8.ofNat (Bytes.hexDigit (n % 16)).toNat).toNat) =
        some (n % 16) := by decide
  obtain ⟨hhigh, hlow⟩ := hdigits n h
  simp only [hex4?, hzero, hhigh, hlow]
  congr 2
  omega

/-- An escaped byte is read as the byte. -/
theorem readString_escape (b : UInt8) (done : Bytes) (sound : Bool) (fuel : Nat) (rest : Bytes) :
    readString done sound (fuel + 1) (escape b ++ rest) =
      readString (b :: done) sound fuel rest := by
  unfold escape
  split
  · rename_i h; subst h; rfl
  split
  · rename_i h; subst h; rfl
  split
  · rename_i h; subst h; rfl
  split
  · rename_i h; subst h; rfl
  split
  · rename_i h; subst h; rfl
  split
  · rename_i h; subst h; rfl
  split
  · rename_i h; subst h; rfl
  split
  · rename_i h
    have hlt : b.toNat < 32 := UInt8.lt_iff_toNat_lt.mp h
    have hhex := hex4?_control hlt rest
    have hchar : charBytes b.toNat = [b] := by
      rw [charBytes_of_ascii (by omega), UInt8.ofNat_toNat]
    have hhigh : ¬(0xD800 ≤ b.toNat ∧ b.toNat ≤ 0xDBFF) := by omega
    have hlow : ¬(0xDC00 ≤ b.toNat ∧ b.toNat ≤ 0xDFFF) := by omega
    simp only [List.cons_append, List.nil_append, readString, hhex, if_neg hhigh, if_neg hlow,
      hchar]
    rfl
  · rename_i hquote hslash _ _ _ _ _ hctrl
    simp only [List.cons_append, List.nil_append, readString, if_neg hquote, if_neg hslash,
      if_neg hctrl]

/-- The bytes of a text are read from their escapes, up to the quote behind them. -/
theorem readString_escapes (b done : Bytes) (sound : Bool) (hfuel : b.length < fuel)
    (rest : Bytes) :
    readString done sound fuel (b.flatMap escape ++ 0x22 :: rest) =
      closeString (b.reverse ++ done) sound rest := by
  induction b generalizing done fuel with
  | nil =>
    cases fuel with
    | zero => exact absurd hfuel (Nat.not_lt_zero _)
    | succ fuel => rfl
  | cons x more ih =>
    cases fuel with
    | zero => exact absurd hfuel (Nat.not_lt_zero _)
    | succ fuel =>
      rw [List.flatMap_cons, List.append_assoc, readString_escape,
        ih (x :: done) (Nat.lt_of_succ_lt_succ hfuel), List.reverse_cons, List.append_assoc]
      rfl

theorem length_escape_pos (b : UInt8) : 0 < (escape b).length := by
  unfold escape
  repeat' split
  all_goals exact Nat.zero_lt_succ _

theorem length_le_escapes (b : Bytes) : b.length ≤ (b.flatMap escape).length := by
  induction b with
  | nil => exact Nat.le_refl 0
  | cons x more ih =>
    have hpos := length_escape_pos x
    rw [List.flatMap_cons, List.length_append, List.length_cons]
    omega

/-- A text is read from behind its opening quote. -/
theorem readString_quoted (s : String) (rest : Bytes)
    (hfuel : ((Bytes.utf8 s).flatMap escape ++ 0x22 :: rest).length < fuel) :
    readString [] true fuel ((Bytes.utf8 s).flatMap escape ++ 0x22 :: rest) =
      some (.text s, rest) := by
  have hlen := length_le_escapes (Bytes.utf8 s)
  rw [List.length_append] at hfuel
  rw [readString_escapes _ _ _ (by omega), List.append_nil, closeString, List.reverse_reverse,
    Bytes.text?_utf8]
  rfl

end RecordService.Json
