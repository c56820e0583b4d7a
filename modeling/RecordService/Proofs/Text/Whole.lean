import RecordService.Text.Whole

/-!
# Whole numbers read back

* `Text.digits?_toDigits`: the digits of a number spell it.
* `Text.signed64?_toString`: so does the text of a signed number of 64 bits, sign and all.
-/

namespace RecordService.Text

theorem isDigit_of_isDigit {c : Char} (h : c.isDigit) : isDigit c := by
  simp only [Char.isDigit, Bool.and_eq_true, decide_eq_true_eq] at h
  simp only [isDigit, Bool.and_eq_true, decide_eq_true_eq]
  exact h

/-- Digits are read from the left, each ten times the number before it and more. -/
theorem digitsFrom?_eq {cs : List Char} (h : ∀ c ∈ cs, c.isDigit) (n : Nat) :
    digitsFrom? n cs = some (Nat.ofDigitChars 10 cs n) := by
  induction cs generalizing n with
  | nil => rfl
  | cons c rest ih =>
    obtain ⟨hc, hrest⟩ := List.forall_mem_cons.mp h
    rw [digitsFrom?, if_pos (isDigit_of_isDigit hc), ih hrest, Nat.ofDigitChars_cons]
    rfl

theorem isDigit_of_mem_toDigits {n : Nat} {c : Char} (h : c ∈ Nat.toDigits 10 n) : c.isDigit :=
  Nat.isDigit_of_mem_toDigits (by decide) (by decide) h

theorem digits?_toDigits (n : Nat) : digits? (Nat.toDigits 10 n) = some n := by
  cases hd : Nat.toDigits 10 n with
  | nil => exact absurd hd Nat.toDigits_ne_nil
  | cons c cs =>
    show digitsFrom? 0 (c :: cs) = some n
    rw [← hd, digitsFrom?_eq fun _ => isDigit_of_mem_toDigits, Nat.ofDigitChars_ten_toDigits]

/-- A digit is no sign. -/
theorem head_toDigits_ne_sign {n : Nat} {c : Char} {cs : List Char}
    (h : Nat.toDigits 10 n = c :: cs) : c ≠ '+' ∧ c ≠ '-' := by
  have hc : c.isDigit := isDigit_of_mem_toDigits (n := n) (h ▸ List.mem_cons_self)
  constructor <;> (rintro rfl; exact absurd hc (by decide))

/-- The text of a signed number of 64 bits is read as that number. -/
theorem signed64?_toString (n : Int64) : signed64? (toString n.toInt) = some n := by
  have hrange : -2 ^ 63 ≤ n.toInt ∧ n.toInt < 2 ^ 63 := ⟨Int64.le_toInt n, Int64.toInt_lt n⟩
  unfold signed64?
  refine Option.bind_eq_some_iff.mpr ⟨n.toInt, ?_, by rw [if_pos hrange, Int64.ofInt_toInt]⟩
  cases n.toInt with
  | ofNat k =>
    have htext : (toString (Int.ofNat k)).toList = Nat.toDigits 10 k := by
      show (toString k).toList = _
      rw [Nat.toString_eq_ofList_toDigits, String.toList_ofList]
    rw [htext]
    split
    · rename_i hd
      exact absurd rfl (head_toDigits_ne_sign hd).1
    · rename_i hd
      exact absurd rfl (head_toDigits_ne_sign hd).2
    · rw [digits?_toDigits]
      rfl
  | negSucc k =>
    have htext : (toString (Int.negSucc k)).toList = '-' :: Nat.toDigits 10 (k + 1) := by
      simp [toString, Int.repr]
    rw [htext]
    simp only [digits?_toDigits, Option.map_some]
    rfl

end RecordService.Text
