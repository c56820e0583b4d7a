import RecordService.Proofs.Bytes
import RecordService.Text.Percent

/-!
# Escaped path segments read back

A segment of a path may have any of its bytes escaped, and has to have its slashes and percent signs
so. Whoever splits the path at its slashes and resolves the escapes finds the segment again.

* `Percent.Escapes`: the ways to escape bytes. `Percent.EscapesText`: those that are texts again.
* `Percent.unescape_of_escapes`: the escapes are resolved to the bytes that they stand for.
* `Percent.splitAll_intercalate`: a list of texts without the separator is split where it was
  joined.
-/

namespace RecordService.Percent

/-- The second bytes are the first ones with some of them escaped: as a percent sign and two
hexadecimal digits, in either case. A slash and a percent sign do not stand for themselves. -/
inductive Escapes : Bytes → Bytes → Prop
  | nil : Escapes [] []
  | plain {b : UInt8} {bytes raw : Bytes} (hslash : b ≠ 0x2F) (hpercent : b ≠ 0x25)
    (h : Escapes bytes raw) : Escapes (b :: bytes) (b :: raw)
  | escaped {b high low : UInt8} {bytes raw : Bytes} (hhigh : digit? high = some (b.toNat / 16))
    (hlow : digit? low = some (b.toNat % 16)) (h : Escapes bytes raw) :
    Escapes (b :: bytes) (0x25 :: high :: low :: raw)

/-- The second text is an escaped form of the first one. -/
def EscapesText (s raw : String) : Prop := Escapes (Bytes.utf8 s) (Bytes.utf8 raw)

variable {bytes raw : Bytes}

theorem unescapeFrom_plain {b : UInt8} (h : b ≠ 0x25) (done rest : Bytes) :
    unescapeFrom done (b :: rest) = unescapeFrom (b :: done) rest := by
  rw [unescapeFrom]
  exact fun _ _ _ hb => absurd hb h

theorem unescapeFrom_escaped {b high low : UInt8} (hhigh : digit? high = some (b.toNat / 16))
    (hlow : digit? low = some (b.toNat % 16)) (done rest : Bytes) :
    unescapeFrom done (0x25 :: high :: low :: rest) = unescapeFrom (b :: done) rest := by
  have hb : UInt8.ofNat (16 * (b.toNat / 16) + b.toNat % 16) = b := by
    rw [Nat.div_add_mod, UInt8.ofNat_toNat]
  rw [unescapeFrom, hhigh, hlow]
  simp only [hb]

theorem unescapeFrom_of_escapes (h : Escapes bytes raw) (done : Bytes) :
    unescapeFrom done raw = done.reverse ++ bytes := by
  induction h generalizing done with
  | nil => rw [unescapeFrom, List.append_nil]
  | plain _ hpercent _ ih =>
    rw [unescapeFrom_plain hpercent, ih, List.reverse_cons, List.append_assoc,
      List.singleton_append]
  | escaped hhigh hlow _ ih =>
    rw [unescapeFrom_escaped hhigh hlow, ih, List.reverse_cons, List.append_assoc,
      List.singleton_append]

/-- The escapes of a text are resolved to its bytes. -/
theorem unescape_of_escapes {s raw : String} (h : EscapesText s raw) :
    unescape raw = Bytes.utf8 s := unescapeFrom_of_escapes h []

/-- No slash is left in escaped bytes. -/
theorem slash_notMem_of_escapes (h : Escapes bytes raw) : (0x2F : UInt8) ∉ raw := by
  -- An escape is a percent sign and two digits, and a slash is neither.
  have hdigit : digit? 0x2F = none := by decide
  induction h with
  | nil => exact List.not_mem_nil
  | plain hslash _ _ ih =>
    rw [List.mem_cons, not_or]
    exact ⟨hslash.symm, ih⟩
  | escaped hhigh hlow _ ih =>
    simp only [List.mem_cons, not_or]
    refine ⟨by decide, ?_, ?_, ih⟩
    · rintro rfl
      cases hdigit.symm.trans hhigh
    · rintro rfl
      cases hdigit.symm.trans hlow

/-! ## Splitting -/

theorem splitAll_append {sep : Char} {part : List Char} (h : sep ∉ part) (rest : List Char) :
    splitAll sep (part ++ sep :: rest) = part :: splitAll sep rest := by
  induction part with
  | nil => rw [List.nil_append, splitAll, if_pos rfl]
  | cons c cs ih =>
    rw [List.mem_cons, not_or] at h
    rw [List.cons_append, splitAll, if_neg (Ne.symm h.1), ih h.2]

theorem splitAll_of_notMem {sep : Char} {part : List Char} (h : sep ∉ part) :
    splitAll sep part = [part] := by
  induction part with
  | nil => rfl
  | cons c cs ih =>
    rw [List.mem_cons, not_or] at h
    rw [splitAll, if_neg (Ne.symm h.1), ih h.2]

/-- Parts without the separator are found again where they were joined by it. -/
theorem splitAll_intercalate {sep : Char} {parts : List (List Char)} (hne : parts ≠ [])
    (h : ∀ part ∈ parts, sep ∉ part) : splitAll sep ([sep].intercalate parts) = parts := by
  induction parts with
  | nil => exact absurd rfl hne
  | cons part rest ih =>
    obtain ⟨hpart, hrest⟩ := List.forall_mem_cons.mp h
    cases rest with
    | nil => rw [List.intercalate_singleton, splitAll_of_notMem hpart]
    | cons next rest =>
      rw [List.intercalate_cons_cons, List.append_assoc, List.singleton_append,
        splitAll_append hpart, ih (List.cons_ne_nil _ _) hrest]

end RecordService.Percent
