import RecordService.Document.Json.Printer
import RecordService.Document.Json.Reader
import RecordService.Proofs.Bytes

/-!
# JSON numbers are read back

* `Delimited`: what may stand behind a value that is whole.
* `readNumber?_append`: what stands behind a number does not change it.
* `readNumber?_natural`, `readNumber?_negative`: integers are read back.
* `ReadsBack`: the doubles that are. Which ones they are is a matter of rounding.
-/

namespace RecordService.Json

variable {b rest : Bytes}

/-- What stands behind is nothing, or begins with a comma or a closing bracket. -/
def Delimited (rest : Bytes) : Prop :=
  ∀ x ∈ rest.head?, x = 0x2C ∨ x = 0x5D ∨ x = 0x7D

theorem delimited_nil : Delimited [] := nofun

theorem delimited_cons {x : UInt8} (h : x = 0x2C ∨ x = 0x5D ∨ x = 0x7D) (b : Bytes) :
    Delimited (x :: b) := by
  intro y hy
  cases hy
  exact h

/-- The cases of what may stand behind a whole value. -/
@[elab_as_elim]
theorem Delimited.elim {motive : Bytes → Prop} (h : Delimited rest) (nil : motive [])
    (comma : ∀ b, motive (0x2C :: b)) (bracket : ∀ b, motive (0x5D :: b))
    (brace : ∀ b, motive (0x7D :: b)) : motive rest := by
  cases rest with
  | nil => exact nil
  | cons x b =>
    rcases h x rfl with rfl | rfl | rfl
    · exact comma b
    · exact bracket b
    · exact brace b

/-! ## What stands behind a number -/

theorem spanDigits_nil_of_delimited (h : Delimited rest) : spanDigits rest = ([], rest) :=
  h.elim rfl (fun _ => rfl) (fun _ => rfl) fun _ => rfl

theorem spanDigits_cons (x : UInt8) (b : Bytes) :
    spanDigits (x :: b) =
      if isDigitByte x then (charOf x :: (spanDigits b).1, (spanDigits b).2) else ([], x :: b) := by
  simp only [spanDigits, List.takeWhile_cons, List.dropWhile_cons]
  split <;> rfl

theorem spanDigits_append (h : Delimited rest) (b : Bytes) :
    spanDigits (b ++ rest) = ((spanDigits b).1, (spanDigits b).2 ++ rest) := by
  induction b with
  | nil => exact spanDigits_nil_of_delimited h
  | cons x b ih =>
    rw [List.cons_append, spanDigits_cons, spanDigits_cons, ih]
    split <;> rfl

theorem readWhole?_append (h : Delimited rest) (b : Bytes) :
    readWhole? (b ++ rest) = (readWhole? b).map fun (ds, b') => (ds, b' ++ rest) := by
  unfold readWhole?
  rw [spanDigits_append h]
  rcases spanDigits b with ⟨ds, b'⟩
  match ds with
  | [] => rfl
  | [c] => simp
  | c :: c' :: ds =>
    by_cases hc : c = '0'
    · simp [hc]
    · simp [hc]

theorem readFraction?_append (h : Delimited rest) (b : Bytes) :
    readFraction? (b ++ rest) = (readFraction? b).map fun (ds, b') => (ds, b' ++ rest) := by
  cases b with
  | nil => exact h.elim rfl (fun _ => rfl) (fun _ => rfl) fun _ => rfl
  | cons x b =>
    by_cases hx : x = 0x2E
    · subst hx
      simp only [List.cons_append, readFraction?]
      rw [spanDigits_append h]
      rcases spanDigits b with ⟨_ | ⟨c, ds⟩, b'⟩ <;> rfl
    · simp [readFraction?, hx]

/-- The digits of an exponent behind its sign. -/
def readUnsignedPower? (negative : Bool) (b : Bytes) : Option (Int × Bytes) :=
  match spanDigits b with
  | ([], _) => none
  | (ds, rest) =>
    let n : Int := Double.cappedValue (2 ^ 31) ds
    some (if negative then -n else n, rest)

/-- The sign of an exponent, and what stands behind it. -/
def powerSign (b : Bytes) : Bool × Bytes :=
  match b with
  | 0x2B :: rest => (false, rest)
  | 0x2D :: rest => (true, rest)
  | b => (false, b)

theorem readPower?_eq (b : Bytes) :
    readPower? b = readUnsignedPower? (powerSign b).1 (powerSign b).2 := rfl

theorem readPower?_of_no_sign {x : UInt8} (hplus : x ≠ 0x2B) (hminus : x ≠ 0x2D) (b : Bytes) :
    readPower? (x :: b) = readUnsignedPower? false (x :: b) := by
  have hsign : powerSign (x :: b) = (false, x :: b) := by simp [powerSign, hplus, hminus]
  rw [readPower?_eq, hsign]

theorem readUnsignedPower?_append (h : Delimited rest) (negative : Bool) (b : Bytes) :
    readUnsignedPower? negative (b ++ rest) =
      (readUnsignedPower? negative b).map fun (e, b') => (e, b' ++ rest) := by
  unfold readUnsignedPower?
  rw [spanDigits_append h]
  rcases spanDigits b with ⟨_ | ⟨c, ds⟩, b'⟩ <;> rfl

theorem readPower?_append (h : Delimited rest) (b : Bytes) :
    readPower? (b ++ rest) = (readPower? b).map fun (e, b') => (e, b' ++ rest) := by
  cases b with
  | nil => exact h.elim rfl (fun _ => rfl) (fun _ => rfl) fun _ => rfl
  | cons x b =>
    by_cases hplus : x = 0x2B
    · exact hplus ▸ readUnsignedPower?_append h false b
    by_cases hminus : x = 0x2D
    · exact hminus ▸ readUnsignedPower?_append h true b
    · rw [List.cons_append, readPower?_of_no_sign hplus hminus,
        readPower?_of_no_sign hplus hminus]
      exact readUnsignedPower?_append h false (x :: b)

theorem readExponent?_append (h : Delimited rest) (b : Bytes) :
    readExponent? (b ++ rest) = (readExponent? b).map fun (e, b') => (e, b' ++ rest) := by
  cases b with
  | nil => exact h.elim rfl (fun _ => rfl) (fun _ => rfl) fun _ => rfl
  | cons x b =>
    simp only [List.cons_append, readExponent?]
    split
    · rw [readPower?_append h]
      cases readPower? b <;> rfl
    · rfl

/-- A number behind its sign. -/
def readUnsigned? (negative : Bool) (b : Bytes) : Option (NumberToken × Bytes) :=
  (readWhole? b).bind fun (whole, b) =>
    (readFraction? b).bind fun (fraction, b) =>
      (readExponent? b).bind fun (exponent, b) => some (⟨negative, whole, fraction, exponent⟩, b)

theorem readNumber?_of_no_sign {x : UInt8} (hminus : x ≠ 0x2D) (b : Bytes) :
    readNumber? (x :: b) = readUnsigned? false (x :: b) := by
  simp [readNumber?, readUnsigned?, hminus, bind, pure]

theorem readUnsigned?_append (h : Delimited rest) (negative : Bool) (b : Bytes) :
    readUnsigned? negative (b ++ rest) =
      (readUnsigned? negative b).map fun (t, b') => (t, b' ++ rest) := by
  unfold readUnsigned?
  rw [readWhole?_append h]
  rcases readWhole? b with _ | ⟨whole, b⟩
  · rfl
  simp only [Option.map_some, Option.bind_some, readFraction?_append h]
  rcases readFraction? b with _ | ⟨fraction, b⟩
  · rfl
  simp only [Option.map_some, Option.bind_some, readExponent?_append h]
  rcases readExponent? b with _ | ⟨exponent, b⟩ <;> rfl

/-- What stands behind a number does not change it. -/
theorem readNumber?_append (h : Delimited rest) (b : Bytes) :
    readNumber? (b ++ rest) = (readNumber? b).map fun (t, b') => (t, b' ++ rest) := by
  cases b with
  | nil => exact h.elim rfl (fun _ => rfl) (fun _ => rfl) fun _ => rfl
  | cons x b =>
    by_cases hminus : x = 0x2D
    · exact hminus ▸ readUnsigned?_append h true b
    · rw [List.cons_append, readNumber?_of_no_sign hminus, readNumber?_of_no_sign hminus]
      exact readUnsigned?_append h false (x :: b)

/-- A number begins with its sign or a digit. -/
theorem readNumber?_head {found : NumberToken × Bytes} (h : readNumber? b = some found) :
    ∃ x b', b = x :: b' ∧ (x = 0x2D ∨ isDigitByte x) := by
  cases b with
  | nil => cases h
  | cons x b' =>
    refine ⟨x, b', rfl, ?_⟩
    by_cases hminus : x = 0x2D
    · exact .inl hminus
    · refine .inr (Decidable.byContradiction fun hdigit => ?_)
      have hnone : readWhole? (x :: b') = none := by
        rw [readWhole?, spanDigits_cons, if_neg hdigit]
      rw [readNumber?_of_no_sign hminus, readUnsigned?, hnone] at h
      cases h

/-! ## Integers -/

theorem toNat_of_isDigit {c : Char} (h : c.isDigit) : 48 ≤ c.toNat ∧ c.toNat ≤ 57 := by
  simpa [Char.isDigit, UInt32.le_iff_toNat_le] using h

theorem isDigitByte_ofAscii {c : Char} (h : c.isDigit) : isDigitByte (Bytes.ofAscii c) := by
  obtain ⟨hlow, hhigh⟩ := toNat_of_isDigit h
  have hbyte : (Bytes.ofAscii c).toNat = c.toNat := Bytes.toNat_ofAscii (by omega)
  simp [isDigitByte, UInt8.le_iff_toNat_le, hbyte, hlow, hhigh]

theorem spanDigits_ofAscii {cs : List Char} (h : ∀ c ∈ cs, c.isDigit) :
    spanDigits (cs.map Bytes.ofAscii) = (cs, []) := by
  induction cs with
  | nil => rfl
  | cons c cs ih =>
    obtain ⟨hc, hcs⟩ := List.forall_mem_cons.mp h
    have hlt := (toNat_of_isDigit hc).2
    rw [List.map_cons, spanDigits_cons, if_pos (isDigitByte_ofAscii hc), ih hcs, charOf,
      Bytes.ofNat_ofAscii (by omega)]

theorem isDigit_of_mem_digits {n : Nat} {c : Char} (h : c ∈ digits n) : c.isDigit :=
  Nat.isDigit_of_mem_toDigits (by decide) (by decide) h

/-- No zero leads the digits of another number than zero. -/
theorem digits_head {n : Nat} (hn : 0 < n) : (digits n).head? ≠ some '0' := by
  induction n using Nat.strongRecOn with
  | _ n ih =>
    by_cases hlt : n < 10
    · rw [digits, Nat.toDigits_of_lt_base hlt]
      have hdigit : ∀ n < 10, 0 < n → n.digitChar ≠ '0' := by decide
      simpa using hdigit n hlt hn
    · have hge : 10 ≤ n := by omega
      have hhead := ih (n / 10) (by omega) (by omega)
      rw [digits, Nat.toDigits_of_base_le (by decide) hge]
      cases hd : Nat.toDigits 10 (n / 10) with
      | nil => exact absurd hd Nat.toDigits_ne_nil
      | cons c cs => rw [digits, hd] at hhead; exact hhead

theorem utf8_toString_nat (n : Nat) : Bytes.utf8 (toString n) = (digits n).map Bytes.ofAscii := by
  rw [Nat.toString_eq_ofList_toDigits]
  refine Bytes.utf8_ofList fun c hc => ?_
  have := (toNat_of_isDigit (isDigit_of_mem_digits hc)).2
  omega

theorem readWhole?_digits (n : Nat) :
    readWhole? ((digits n).map Bytes.ofAscii) = some (digits n, []) := by
  rw [readWhole?, spanDigits_ofAscii fun c hc => isDigit_of_mem_digits hc]
  by_cases hn : n = 0
  · subst hn
    rfl
  · have hhead := digits_head (Nat.pos_of_ne_zero hn)
    cases hd : digits n with
    | nil => exact absurd hd Nat.toDigits_ne_nil
    | cons c cs =>
      have hc : c ≠ '0' := by
        rw [hd] at hhead
        simpa using hhead
      simp [hc]

theorem readUnsigned?_digits (negative : Bool) (n : Nat) :
    readUnsigned? negative ((digits n).map Bytes.ofAscii) =
      some (⟨negative, digits n, none, none⟩, []) := by
  rw [readUnsigned?, readWhole?_digits]
  rfl

theorem digitsValue_digits (n : Nat) : Double.digitsValue 0 (digits n) = n :=
  Nat.ofDigitChars_ten_toDigits

theorem length_digits_le {n : Nat} (h : n < 2 ^ 64) : (digits n).length ≤ 20 :=
  (Nat.length_toDigits_le_iff (by decide) (by decide)).mpr (by omega)

/-- A natural number is read as one. -/
theorem readNumber?_natural {n : Nat} (h : n < 2 ^ 64) :
    ∃ t, readNumber? (Bytes.utf8 (toString n)) = some (t, []) ∧
      t.toDocument = Document.ofNat n := by
  refine ⟨⟨false, digits n, none, none⟩, ?_, ?_⟩
  · have hread := readUnsigned?_digits false n
    rw [utf8_toString_nat]
    cases hd : digits n with
    | nil => exact absurd hd Nat.toDigits_ne_nil
    | cons c cs =>
      have hdigit : isDigitByte (Bytes.ofAscii c) :=
        isDigitByte_ofAscii (isDigit_of_mem_digits (hd ▸ List.mem_cons_self))
      have hminus : Bytes.ofAscii c ≠ 0x2D := fun hc => by rw [hc] at hdigit; cases hdigit
      rw [hd] at hread
      rw [List.map_cons, readNumber?_of_no_sign hminus]
      exact hread
  · have hlen := length_digits_le h
    have hsmall : ¬2 ^ 64 ≤ n := by omega
    simp only [NumberToken.toDocument, digitsValue_digits, Option.isSome_none, Bool.or_self,
      Nat.not_lt.mpr hlen, decide_false, Bool.false_eq_true, if_false, if_neg hsmall,
      Bool.not_false, if_true]

theorem utf8_toString_negSucc (k : Nat) :
    Bytes.utf8 (toString (Int.negSucc k)) = 0x2D :: (digits (k + 1)).map Bytes.ofAscii := by
  have htext : toString (Int.negSucc k) = String.ofList ('-' :: digits (k + 1)) := by
    rw [← String.toList_inj, String.toList_ofList]
    simp [toString, Int.repr, digits]
  rw [htext, Bytes.utf8_ofList, List.map_cons]
  · rfl
  · intro c hc
    rcases List.mem_cons.mp hc with rfl | hc
    · decide
    · have := (toNat_of_isDigit (isDigit_of_mem_digits hc)).2
      omega

/-- A negative number is read as one. -/
theorem readNumber?_negative {m : Int} (hlow : -2 ^ 63 ≤ m) (hneg : m < 0) :
    ∃ t, readNumber? (Bytes.utf8 (toString m)) = some (t, []) ∧
      t.toDocument = Document.ofInt m := by
  obtain ⟨k, rfl⟩ := Int.eq_negSucc_of_lt_zero hneg
  have hk : k + 1 ≤ 2 ^ 63 := by omega
  refine ⟨⟨true, digits (k + 1), none, none⟩, ?_, ?_⟩
  · rw [utf8_toString_negSucc]
    exact readUnsigned?_digits true (k + 1)
  · have hlen := length_digits_le (n := k + 1) (by omega)
    have hsmall : ¬2 ^ 64 ≤ k + 1 := by omega
    have hrange : ¬(k + 1 = 0 ∨ 2 ^ 63 < k + 1) := by omega
    simp only [NumberToken.toDocument, digitsValue_digits, Option.isSome_none, Bool.or_self,
      Nat.not_lt.mpr hlen, decide_false, Bool.false_eq_true, if_false,
      if_neg hsmall, if_neg hrange, Bool.not_true]
    rfl

/-! ## Doubles -/

/-- The text of a double is read as the double. -/
def ReadsBack (x : Double) : Prop :=
  ∃ t, readNumber? (Bytes.utf8 (numberText x)) = some (t, []) ∧ t.toDocument = .float x

end RecordService.Json
