import RecordService.Bytes

/-!
# Numbers and texts in bytes

* `Bytes.ofBigEndian_bigEndian`: a number that fits the bytes is read from them.
* `Bytes.bigEndian_inj`, `Bytes.utf8_injective`: no other number or text has the same bytes.
* `Bytes.utf8_ofList`: the bytes of ASCII characters are the characters.
* `Bytes.length_utf8_le`: how many bytes a text takes.
* `Bytes.ofAscii_mem_utf8`: an ASCII character of a text is one of its bytes.
-/

namespace RecordService.Bytes

theorem ofBigEndian_append (front : Bytes) (b : UInt8) :
    ofBigEndian (front ++ [b]) = ofBigEndian front * 256 + b.toNat := by
  simp [ofBigEndian]

/-- The last base-256 digits of a number spell its remainder. -/
theorem ofBigEndian_bigEndian_mod (count n : Nat) :
    ofBigEndian (bigEndian count n) = n % 256 ^ count := by
  induction count generalizing n with
  | zero => simp [bigEndian, ofBigEndian, Nat.mod_one]
  | succ count ih =>
    have hpow : 256 ^ (count + 1) = 256 * 256 ^ count := Nat.pow_succ'
    rw [bigEndian, ofBigEndian_append, ih, UInt8.toNat_ofNat', hpow, Nat.mod_mul]
    omega

theorem ofBigEndian_bigEndian {count n : Nat} (h : n < 256 ^ count) :
    ofBigEndian (bigEndian count n) = n := by
  rw [ofBigEndian_bigEndian_mod, Nat.mod_eq_of_lt h]

theorem bigEndian_inj {count m n : Nat} (hm : m < 256 ^ count) (hn : n < 256 ^ count)
    (h : bigEndian count m = bigEndian count n) : m = n := by
  rw [← ofBigEndian_bigEndian hm, h, ofBigEndian_bigEndian hn]

theorem utf8_injective : Function.Injective utf8 := fun s t h => by
  have hread : text? (utf8 s) = text? (utf8 t) := congrArg text? h
  rw [text?_utf8, text?_utf8] at hread
  exact Option.some.inj hread

/-! ## ASCII -/

/-- The byte of an ASCII character. -/
def ofAscii (c : Char) : UInt8 := UInt8.ofNat c.toNat

theorem toNat_ofNat_of_ascii {n : Nat} (h : n < 128) : (Char.ofNat n).toNat = n := by
  have hvalid : n.isValidChar := .inl (by omega)
  rw [Char.ofNat, dif_pos hvalid]
  rfl

theorem toNat_ofAscii {c : Char} (h : c.toNat < 128) : (ofAscii c).toNat = c.toNat :=
  UInt8.toNat_ofNat_of_lt' (by omega : c.toNat < 256)

theorem ofNat_ofAscii {c : Char} (h : c.toNat < 128) : Char.ofNat (ofAscii c).toNat = c := by
  rw [toNat_ofAscii h, Char.ofNat_toNat]

theorem utf8EncodeChar_of_ascii {c : Char} (h : c.toNat < 128) :
    String.utf8EncodeChar c = [ofAscii c] := by
  have hsize : c.utf8Size = 1 := Char.utf8Size_eq_one_iff.mpr (UInt32.le_iff_toNat_le.mpr (by
    have : c.val.toNat < 128 := h
    simp
    omega))
  rw [String.utf8EncodeChar_eq_singleton hsize]
  rfl

theorem utf8_ofList {cs : List Char} (h : ∀ c ∈ cs, c.toNat < 128) :
    utf8 (String.ofList cs) = cs.map ofAscii := by
  rw [utf8, String.toByteArray_ofList]
  induction cs with
  | nil => rfl
  | cons c rest ih =>
    obtain ⟨hc, hrest⟩ := List.forall_mem_cons.mp h
    rw [List.utf8Encode_cons, List.utf8Encode_singleton, utf8EncodeChar_of_ascii hc,
      List.map_cons, ← ih hrest]
    simp

theorem utf8_eq_flatMap (s : String) : utf8 s = s.toList.flatMap String.utf8EncodeChar := by
  conv => lhs; rw [utf8, ← s.ofList_toList, String.toByteArray_ofList]
  simp [List.utf8Encode]

/-- A character takes four bytes at most. -/
theorem length_utf8_le (s : String) : (utf8 s).length ≤ 4 * s.toList.length := by
  rw [utf8_eq_flatMap]
  induction s.toList with
  | nil => exact Nat.le_refl 0
  | cons c rest ih =>
    have hc : (String.utf8EncodeChar c).length ≤ 4 := by
      rw [String.length_utf8EncodeChar]
      exact c.utf8Size_le_four
    rw [List.flatMap_cons, List.length_append, List.length_cons]
    omega

theorem ofAscii_mem_utf8 {s : String} {c : Char} (hc : c.toNat < 128) (h : c ∈ s.toList) :
    ofAscii c ∈ utf8 s := by
  rw [utf8_eq_flatMap]
  refine List.mem_flatMap.mpr ⟨c, h, ?_⟩
  rw [utf8EncodeChar_of_ascii hc]
  exact List.mem_singleton_self _

end RecordService.Bytes
