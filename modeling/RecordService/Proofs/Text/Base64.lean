import RecordService.Text.Base64

/-!
# Base64 text reads back

* `sextets`: the numbers below 64 that bytes are cut into; `bytesOf?` puts them together again.
* `Alphabet.Faithful`: every number has a symbol of its own, none of them the filling. Both
  alphabets are.
* `decode?_encode`: what is written with an alphabet reads back with it, for every way of filling
  that allows what was written.
* `eq_symbols_of_decode?`: nothing else is read, but for the filling.
* `decode?_bare_eq_some_iff`: a reader that takes no filling reads what is written without.
* `eq_empty_of_decode?`: only the empty text spells no bytes.
-/

namespace RecordService.Base64

/-- The numbers of six bits that bytes are cut into. -/
def sextets : Bytes → List Nat
  | [] => []
  | [x] => [x.toNat / 4, x.toNat % 4 * 16]
  | [x, y] => [x.toNat / 4, x.toNat % 4 * 16 + y.toNat / 16, y.toNat % 16 * 4]
  | x :: y :: z :: rest =>
    x.toNat / 4 :: (x.toNat % 4 * 16 + y.toNat / 16) :: (y.toNat % 16 * 4 + z.toNat / 64) ::
      z.toNat % 64 :: sextets rest

theorem symbols_eq (a : Alphabet) (b : Bytes) : symbols a b = (sextets b).map (symbol a) := by
  fun_induction symbols a b with
  | case1 => rfl
  | case2 => rfl
  | case3 => rfl
  | case4 x y z rest ih => simp only [sextets, List.map_cons, ih]

theorem sextet_lt {b : Bytes} : ∀ n ∈ sextets b, n < 64 := by
  fun_induction sextets b with
  | case1 => simp
  | case2 x =>
    have := x.toNat_lt
    simp only [List.mem_cons, List.not_mem_nil, or_false, forall_eq_or_imp, forall_eq]
    omega
  | case3 x y =>
    have := x.toNat_lt
    have := y.toNat_lt
    simp only [List.mem_cons, List.not_mem_nil, or_false, forall_eq_or_imp, forall_eq]
    omega
  | case4 x y z rest ih =>
    have := x.toNat_lt
    have := y.toNat_lt
    have := z.toNat_lt
    simp only [List.mem_cons, forall_eq_or_imp]
    exact ⟨by omega, by omega, by omega, by omega, ih⟩

theorem length_sextets (b : Bytes) : (sextets b).length = (4 * b.length + 2) / 3 := by
  fun_induction sextets b with
  | case1 => rfl
  | case2 => simp
  | case3 => simp
  | case4 x y z rest ih => simp only [List.length_cons, ih]; omega

/-- A byte is told by the bits that were cut off it, wherever the cut is. -/
theorem ofNat_eq_of_toNat {x : UInt8} {n : Nat} (h : n = x.toNat) : UInt8.ofNat n = x := by
  rw [h, UInt8.ofNat_toNat]

theorem bytesOf?_sextets (b done : Bytes) :
    bytesOf? (sextets b) done = some (done.reverse ++ b) := by
  fun_induction sextets b generalizing done with
  | case1 => simp [bytesOf?]
  | case2 x =>
    have := x.toNat_lt
    have hx : UInt8.ofNat (x.toNat / 4 * 4 + x.toNat % 4 * 16 / 16) = x :=
      ofNat_eq_of_toNat (by omega)
    rw [bytesOf?, if_pos (by omega), hx, List.reverse_cons]
  | case3 x y =>
    have := x.toNat_lt
    have := y.toNat_lt
    have hx : UInt8.ofNat (x.toNat / 4 * 4 + (x.toNat % 4 * 16 + y.toNat / 16) / 16) = x :=
      ofNat_eq_of_toNat (by omega)
    have hy : UInt8.ofNat ((x.toNat % 4 * 16 + y.toNat / 16) % 16 * 16 +
        y.toNat % 16 * 4 / 4) = y := ofNat_eq_of_toNat (by omega)
    rw [bytesOf?, if_pos (by omega), hx, hy]
    simp
  | case4 x y z rest ih =>
    have := x.toNat_lt
    have := y.toNat_lt
    have := z.toNat_lt
    have hx : UInt8.ofNat (x.toNat / 4 * 4 + (x.toNat % 4 * 16 + y.toNat / 16) / 16) = x :=
      ofNat_eq_of_toNat (by omega)
    have hy : UInt8.ofNat ((x.toNat % 4 * 16 + y.toNat / 16) % 16 * 16 +
        (y.toNat % 16 * 4 + z.toNat / 64) / 4) = y := ofNat_eq_of_toNat (by omega)
    have hz : UInt8.ofNat ((y.toNat % 16 * 4 + z.toNat / 64) % 4 * 64 + z.toNat % 64) = z :=
      ofNat_eq_of_toNat (by omega)
    rw [bytesOf?, ih, hx, hy, hz]
    simp

theorem toNat_ofNat_of_lt {n : Nat} (h : n < 256) : (UInt8.ofNat n).toNat = n :=
  UInt8.toNat_ofNat_of_lt' h

/-- Bytes are put together only from the numbers that they are cut into. -/
theorem eq_sextets_of_bytesOf? {ns : List Nat} {done b : Bytes} (h : bytesOf? ns done = some b)
    (hns : ∀ n ∈ ns, n < 64) : ∃ rest, b = done.reverse ++ rest ∧ ns = sextets rest := by
  fun_induction bytesOf? ns done with
  | case1 done =>
    cases h
    exact ⟨[], (List.append_nil _).symm, rfl⟩
  | case2 => cases h
  | case3 p q done hspare =>
    cases h
    obtain ⟨hp, hq⟩ : p < 64 ∧ q < 64 := by simpa using hns
    refine ⟨[UInt8.ofNat (p * 4 + q / 16)], by simp, ?_⟩
    have hp' : (p * 4 + q / 16) / 4 = p := by omega
    have hq' : (p * 4 + q / 16) % 4 * 16 = q := by omega
    rw [sextets, toNat_ofNat_of_lt (by omega), hp', hq']
  | case4 => cases h
  | case5 p q r done hspare =>
    cases h
    obtain ⟨hp, hq, hr⟩ : p < 64 ∧ q < 64 ∧ r < 64 := by simpa using hns
    refine ⟨[UInt8.ofNat (p * 4 + q / 16), UInt8.ofNat (q % 16 * 16 + r / 4)], by simp, ?_⟩
    have hp' : (p * 4 + q / 16) / 4 = p := by omega
    have hq' : (p * 4 + q / 16) % 4 * 16 + (q % 16 * 16 + r / 4) / 16 = q := by omega
    have hr' : (q % 16 * 16 + r / 4) % 16 * 4 = r := by omega
    rw [sextets, toNat_ofNat_of_lt (by omega), toNat_ofNat_of_lt (by omega), hp', hq', hr']
  | case6 => cases h
  | case7 p q r s rest done ih =>
    obtain ⟨hp, hq, hr, hs, hrest⟩ :
        p < 64 ∧ q < 64 ∧ r < 64 ∧ s < 64 ∧ ∀ n ∈ rest, n < 64 := by simpa using hns
    obtain ⟨more, rfl, rfl⟩ := ih h hrest
    refine ⟨UInt8.ofNat (p * 4 + q / 16) :: UInt8.ofNat (q % 16 * 16 + r / 4) ::
      UInt8.ofNat (r % 4 * 64 + s) :: more, by simp, ?_⟩
    have hp' : (p * 4 + q / 16) / 4 = p := by omega
    have hq' : (p * 4 + q / 16) % 4 * 16 + (q % 16 * 16 + r / 4) / 16 = q := by omega
    have hr' : (q % 16 * 16 + r / 4) % 16 * 4 + (r % 4 * 64 + s) / 64 = r := by omega
    have hs' : (r % 4 * 64 + s) % 64 = s := by omega
    rw [sextets, toNat_ofNat_of_lt (by omega), toNat_ofNat_of_lt (by omega),
      toNat_ofNat_of_lt (by omega), hp', hq', hr', hs']

/-! ## Alphabets -/

/-- Only the symbol of a number has that number. -/
theorem symbol_of_index? {a : Alphabet} {c : Char} {n : Nat} (h : index? a c = some n) :
    n < 64 ∧ symbol a n = c := by
  unfold index? at h
  split at h
  · rename_i hc
    obtain ⟨hlo, hhi⟩ : 65 ≤ c.toNat ∧ c.toNat ≤ 90 := hc
    obtain rfl := Option.some.inj h
    refine ⟨by omega, ?_⟩
    rw [symbol, if_pos (by omega), Nat.add_sub_cancel' hlo, Char.ofNat_toNat]
  split at h
  · rename_i hc
    obtain ⟨hlo, hhi⟩ : 97 ≤ c.toNat ∧ c.toNat ≤ 122 := hc
    obtain rfl := Option.some.inj h
    refine ⟨by omega, ?_⟩
    rw [symbol, if_neg (by omega), if_pos (by omega), Nat.add_sub_cancel' (by omega),
      Char.ofNat_toNat]
  split at h
  · rename_i hc
    obtain ⟨hlo, hhi⟩ : 48 ≤ c.toNat ∧ c.toNat ≤ 57 := hc
    obtain rfl := Option.some.inj h
    refine ⟨by omega, ?_⟩
    rw [symbol, if_neg (by omega), if_neg (by omega), if_pos (by omega), Nat.add_sub_cancel,
      Char.ofNat_toNat]
  split at h
  · rename_i hc
    cases h
    exact ⟨by decide, hc.symm⟩
  split at h
  · rename_i hc
    cases h
    exact ⟨by decide, hc.symm⟩
  · cases h

/-- Every number below 64 has a symbol of its own, which is not the filling. -/
def Alphabet.Faithful (a : Alphabet) : Prop :=
  ∀ n < 64, index? a (symbol a n) = some n ∧ symbol a n ≠ '='

theorem Alphabet.standard_faithful : Alphabet.standard.Faithful := by
  unfold Faithful; decide

theorem Alphabet.url_faithful : Alphabet.url.Faithful := by
  unfold Faithful; decide

theorem mapM_index?_symbols {a : Alphabet} (ha : a.Faithful) (b : Bytes) :
    (symbols a b).mapM (index? a) = some (sextets b) := by
  rw [symbols_eq]
  have h : ∀ ns : List Nat, (∀ n ∈ ns, n < 64) → (ns.map (symbol a)).mapM (index? a) = some ns := by
    intro ns hns
    induction ns with
    | nil => rfl
    | cons n rest ih =>
      obtain ⟨hn, hrest⟩ := List.forall_mem_cons.mp hns
      simp [List.mapM_cons, (ha n hn).1, ih hrest]
  exact h _ sextet_lt

/-- Characters that are all symbols are the symbols of their numbers. -/
theorem eq_map_of_mapM_index? {a : Alphabet} {cs : List Char} {ns : List Nat}
    (h : cs.mapM (index? a) = some ns) : cs = ns.map (symbol a) ∧ ∀ n ∈ ns, n < 64 := by
  induction cs generalizing ns with
  | nil =>
    cases h
    exact ⟨rfl, List.forall_mem_nil _⟩
  | cons c rest ih =>
    rw [List.mapM_cons] at h
    obtain ⟨n, hn, h⟩ := Option.bind_eq_some_iff.mp h
    obtain ⟨ns, hns, h⟩ := Option.bind_eq_some_iff.mp h
    cases h
    obtain ⟨rfl, hlt⟩ := ih hns
    obtain ⟨hn64, rfl⟩ := symbol_of_index? hn
    exact ⟨rfl, List.forall_mem_cons.mpr ⟨hn64, hlt⟩⟩

theorem symbols_ne_filling {a : Alphabet} (ha : a.Faithful) (b : Bytes) :
    ∀ c ∈ symbols a b, c ≠ '=' := by
  rw [symbols_eq]
  intro c hc
  obtain ⟨n, hn, rfl⟩ := List.mem_map.mp hc
  exact (ha n (sextet_lt n hn)).2

/-! ## Round trip -/

/-- Symbols with filling that is allowed spell their bytes. -/
theorem decode?_symbols {a : Alphabet} (ha : a.Faithful) {p : Padding} {n : Nat} {b : Bytes}
    (hp : p.allows (symbols a b).length n = true) :
    decode? a p (String.ofList (symbols a b ++ List.replicate n '=')) = some b := by
  have hne := symbols_ne_filling ha b
  have htake : (symbols a b ++ List.replicate n '=').takeWhile (· ≠ '=') = symbols a b := by
    rw [List.takeWhile_append_of_pos (by simpa using hne)]
    simp
  have hdrop : (symbols a b ++ List.replicate n '=').dropWhile (· ≠ '=') =
      List.replicate n '=' := by
    rw [List.dropWhile_append_of_pos (by simpa using hne)]
    simp
  rw [decode?]
  simp only [String.toList_ofList, htake, hdrop]
  rw [if_pos (by simp [hp]), mapM_index?_symbols ha]
  exact bytesOf?_sextets b []

/-- The count of filling characters that a text is written with. -/
def filling (fill : Bool) (b : Bytes) : Nat := if fill then (3 - b.length % 3) % 3 else 0

theorem encode_eq (a : Alphabet) (fill : Bool) (b : Bytes) :
    encode a fill b = String.ofList (symbols a b ++ List.replicate (filling fill b) '=') := by
  cases fill <;> rfl

/-- What is written reads back, if the reader allows the filling. -/
theorem decode?_encode {a : Alphabet} (ha : a.Faithful) {p : Padding} {fill : Bool} {b : Bytes}
    (hp : p.allows (symbols a b).length (filling fill b) = true) :
    decode? a p (encode a fill b) = some b := by
  rw [encode_eq]
  exact decode?_symbols ha hp

/-- Text without filling, for a reader that takes none. -/
theorem decode?_encode_bare {a : Alphabet} (ha : a.Faithful) (b : Bytes) :
    decode? a .absent (encode a false b) = some b :=
  decode?_encode ha (by simp [Padding.allows, filling])

/-- Text filled up to groups of four, for a reader that asks for that. -/
theorem decode?_encode_filled {a : Alphabet} (ha : a.Faithful) (b : Bytes) :
    decode? a .required (encode a true b) = some b := by
  refine decode?_encode ha ?_
  have hcount : (symbols a b).length = 4 * (b.length / 3) + (4 * (b.length % 3) + 2) / 3 := by
    rw [symbols_eq, List.length_map, length_sextets]
    omega
  simp only [Padding.allows, filling, hcount, if_true, decide_eq_true_eq]
  have hlast : b.length % 3 = 0 ∨ b.length % 3 = 1 ∨ b.length % 3 = 2 := by omega
  rcases hlast with h | h | h <;> rw [h] <;> omega

/-! ## What spells bytes -/

/-- A text that spells bytes is their symbols, with filling that is allowed. -/
theorem eq_symbols_of_decode? {a : Alphabet} {p : Padding} {s : String} {b : Bytes}
    (h : decode? a p s = some b) : ∃ n, p.allows (symbols a b).length n = true ∧
      s = String.ofList (symbols a b ++ List.replicate n '=') := by
  obtain ⟨hfilling, h⟩ := Option.ite_none_right_eq_some.mp h
  obtain ⟨hall, hallows⟩ := Bool.and_eq_true_iff.mp hfilling
  obtain ⟨ns, hns, hbytes⟩ := Option.bind_eq_some_iff.mp h
  obtain ⟨hbody, hlt⟩ := eq_map_of_mapM_index? hns
  obtain ⟨_, rfl, rfl⟩ := eq_sextets_of_bytesOf? hbytes hlt
  rw [← symbols_eq] at hbody
  have hrest : s.toList.dropWhile (· ≠ '=') =
      List.replicate (s.toList.dropWhile (· ≠ '=')).length '=' :=
    List.eq_replicate_iff.mpr ⟨rfl, by simpa using hall⟩
  refine ⟨_, hbody ▸ hallows, ?_⟩
  rw [← hbody, ← hrest, List.takeWhile_append_dropWhile, String.ofList_toList]

/-- A reader that takes no filling reads what is written without, and nothing else. -/
theorem decode?_bare_eq_some_iff {a : Alphabet} (ha : a.Faithful) {s : String} {b : Bytes} :
    decode? a .absent s = some b ↔ s = encode a false b := by
  constructor
  · intro h
    obtain ⟨n, hn, rfl⟩ := eq_symbols_of_decode? h
    obtain rfl : n = 0 := of_decide_eq_true hn
    exact (encode_eq a false b).symm
  · rintro rfl
    exact decode?_encode_bare ha b

/-- Only the empty text spells no bytes: where there are no symbols there is no place to fill. -/
theorem eq_empty_of_decode? {a : Alphabet} {p : Padding} {s : String}
    (h : decode? a p s = some []) : s = "" := by
  obtain ⟨n, hn, rfl⟩ := eq_symbols_of_decode? h
  have hallowed : p.allows 0 n = true := hn
  have hnone : n = 0 := by
    cases p with
    | required | absent => exact of_decide_eq_true hallowed
    | optional => exact Nat.le_zero.mp (of_decide_eq_true hallowed)
  rw [hnone]
  rfl

end RecordService.Base64
