import RecordService.Document.MessagePack.Printer
import RecordService.Document.MessagePack.Reader
import RecordService.Proofs.Bytes

/-!
# MessagePack documents are read back

* `readHeader_textHeader` and its like: a header is read back at each of its widths.
* `Legible`: the documents that the bytes tell from all others.
* `Comes`: the loop gets from some bytes to a step. What it needs of its fuel is left out of the
  statements about it.
* `Legible.lands`: the bytes of a document put it in its place, whatever containers are open and
  whatever comes after it.
* `read_print`: so a legible document is read back.
* `Printable.legible`: a document of few enough bytes has no part that is too long to be legible.
-/

namespace RecordService.MessagePack

variable {n : Nat} {rest : Bytes}

/-! ## Headers -/

theorem take?_append (front rest : Bytes) :
    take? front.length (front ++ rest) = some (front, rest) := by
  simp [take?]

theorem number?_bigEndian {count : Nat} (h : n < 256 ^ count) (rest : Bytes) :
    number? count (Bytes.bigEndian count n ++ rest) = some (n, rest) := by
  have htake := take?_append (Bytes.bigEndian count n) rest
  rw [Bytes.length_bigEndian] at htake
  simp only [number?, htake, Option.map_some, Bytes.ofBigEndian_bigEndian h]

theorem lengthOf_bigEndian (header : Nat → Header) (count : Nat) (h : n < 256 ^ count)
    (rest : Bytes) :
    lengthOf header count (Bytes.bigEndian count n ++ rest) = .ok (header n, rest) := by
  rw [lengthOf, number?_bigEndian h]

theorem numberLeaf_bigEndian (leaf : Nat → Document) (count : Nat) (h : n < 256 ^ count)
    (rest : Bytes) :
    numberLeaf leaf count (Bytes.bigEndian count n ++ rest) = .ok (.leaf (leaf n), rest) := by
  rw [numberLeaf, number?_bigEndian h]

theorem readHeader_textHeader (h : n < 2 ^ 32) (rest : Bytes) :
    readHeader (textHeader n ++ rest) = .ok (.text n, rest) := by
  unfold textHeader
  split
  · have hcode : (UInt8.ofNat (0xA0 + n)).toNat = 0xA0 + n :=
      UInt8.toNat_ofNat_of_lt' (by omega : 0xA0 + n < 256)
    simp only [List.singleton_append, readHeader, hcode]
    rw [if_neg (by omega), if_neg (by omega), if_neg (by omega), if_pos (by omega),
      Nat.add_sub_cancel_left]
  · split
    · exact lengthOf_bigEndian .text 1 (by omega) rest
    · split
      · exact lengthOf_bigEndian .text 2 (by omega) rest
      · exact lengthOf_bigEndian .text 4 (by omega) rest

theorem readHeader_bytesHeader (h : n < 2 ^ 32) (rest : Bytes) :
    readHeader (bytesHeader n ++ rest) = .ok (.bytes n, rest) := by
  unfold bytesHeader
  split
  · exact lengthOf_bigEndian .bytes 1 (by omega) rest
  · split
    · exact lengthOf_bigEndian .bytes 2 (by omega) rest
    · exact lengthOf_bigEndian .bytes 4 (by omega) rest

theorem readHeader_listHeader (h : n < 2 ^ 32) (rest : Bytes) :
    readHeader (listHeader n ++ rest) = .ok (.list n, rest) := by
  unfold listHeader
  split
  · have hcode : (UInt8.ofNat (0x90 + n)).toNat = 0x90 + n :=
      UInt8.toNat_ofNat_of_lt' (by omega : 0x90 + n < 256)
    simp only [List.singleton_append, readHeader, hcode]
    rw [if_neg (by omega), if_neg (by omega), if_pos (by omega), Nat.add_sub_cancel_left]
  · split
    · exact lengthOf_bigEndian .list 2 (by omega) rest
    · exact lengthOf_bigEndian .list 4 (by omega) rest

theorem readHeader_mapHeader (h : n < 2 ^ 32) (rest : Bytes) :
    readHeader (mapHeader n ++ rest) = .ok (.map n, rest) := by
  unfold mapHeader
  split
  · have hcode : (UInt8.ofNat (0x80 + n)).toNat = 0x80 + n :=
      UInt8.toNat_ofNat_of_lt' (by omega : 0x80 + n < 256)
    simp only [List.singleton_append, readHeader, hcode]
    rw [if_neg (by omega), if_pos (by omega), Nat.add_sub_cancel_left]
  · split
    · exact lengthOf_bigEndian .map 2 (by omega) rest
    · exact lengthOf_bigEndian .map 4 (by omega) rest

theorem readHeader_naturalBytes (h : n < 2 ^ 64) (rest : Bytes) :
    readHeader (naturalBytes (Document.roomOfNat n) n ++ rest) =
      .ok (.leaf (.natural (Document.roomOfNat n) n), rest) := by
  unfold Document.roomOfNat
  split
  · simp only [naturalBytes]
    split
    · have hcode : (UInt8.ofNat n).toNat = n :=
        UInt8.toNat_ofNat_of_lt' (by omega : n < 256)
      simp only [List.singleton_append, readHeader, hcode]
      rw [if_pos (by omega)]
    · exact numberLeaf_bigEndian (.natural .one) 1 (by omega) rest
  · split
    · exact numberLeaf_bigEndian (.natural .two) 2 (by omega) rest
    · split
      · exact numberLeaf_bigEndian (.natural .four) 4 (by omega) rest
      · exact numberLeaf_bigEndian (.natural .eight) 8 (by omega) rest

theorem signed_of_negative {bits : Nat} {m : Int} (hbits : 1 ≤ bits) (hlow : -2 ^ (bits - 1) ≤ m)
    (hneg : m < 0) : signed bits (m % (2 ^ bits : Nat)).toNat = m := by
  have hpow : (2 : Int) ^ bits = 2 * 2 ^ (bits - 1) := by
    rw [← Int.pow_succ', Nat.sub_add_cancel hbits]
  have hcast : ((2 ^ bits : Nat) : Int) = 2 ^ bits := Int.natCast_pow 2 bits
  have hcast' : ((2 ^ (bits - 1) : Nat) : Int) = 2 ^ (bits - 1) := Int.natCast_pow 2 (bits - 1)
  have hmod : m % (2 ^ bits : Nat) = m + 2 ^ bits := by
    rw [hcast, ← Int.add_emod_right, Int.emod_eq_of_lt (by omega) (by omega)]
  unfold signed
  rw [hmod, if_neg (by omega)]
  omega

theorem signedLeaf_bigEndian {m : Int} (hneg : m < 0) (room : Room)
    (hlow : -2 ^ (8 * room.bytes - 1) ≤ m) (rest : Bytes) :
    signedLeaf room (Bytes.bigEndian room.bytes (m % (256 ^ room.bytes : Nat)).toNat ++ rest) =
      .ok (.leaf (.integer room m), rest) := by
  have hpow : (256 : Nat) ^ room.bytes = 2 ^ (8 * room.bytes) := by rw [Nat.pow_mul]
  have hpos : 1 ≤ 8 * room.bytes := by cases room <;> decide
  have hlt : (m % (256 ^ room.bytes : Nat)).toNat < 256 ^ room.bytes := by
    have hmod := Int.emod_lt_of_pos m (b := ((256 ^ room.bytes : Nat) : Int))
      (Int.natCast_pos.mpr (Nat.pow_pos (by decide)))
    omega
  rw [signedLeaf, numberLeaf_bigEndian _ _ hlt, hpow, signed_of_negative hpos hlow hneg]

theorem readHeader_integerBytes {m : Int} (hlow : -2 ^ 63 ≤ m) (hneg : m < 0) (rest : Bytes) :
    readHeader (integerBytes (Document.roomOfNegative m) m ++ rest) =
      .ok (.leaf (.integer (Document.roomOfNegative m) m), rest) := by
  unfold Document.roomOfNegative
  split
  · simp only [integerBytes]
    split
    · have hcode : (UInt8.ofNat (m % (256 ^ 1 : Nat)).toNat).toNat = (m + 256).toNat := by
        rw [UInt8.toNat_ofNat']
        omega
      simp only [List.singleton_append, readHeader, hcode]
      rw [if_neg (by omega), if_neg (by omega), if_neg (by omega), if_neg (by omega),
        if_neg (by omega)]
      have hback : ((m + 256).toNat : Int) - 256 = m := by omega
      rw [hback]
    · exact signedLeaf_bigEndian hneg .one (by assumption) rest
  · split
    · exact signedLeaf_bigEndian hneg .two (by assumption) rest
    · split
      · exact signedLeaf_bigEndian hneg .four (by assumption) rest
      · exact signedLeaf_bigEndian hneg .eight hlow rest

/-! ## Documents -/

/-- The documents that are read back. A number stands in the least room that holds it, and nothing
is longer than its header can tell. -/
inductive Legible : Document → Prop
  | null : Legible .null
  | bool (b : Bool) : Legible (.bool b)
  | natural {n : Nat} (h : n < 2 ^ 64) : Legible (.natural (Document.roomOfNat n) n)
  | negative {m : Int} (hlow : -2 ^ 63 ≤ m) (hneg : m < 0) :
    Legible (.integer (Document.roomOfNegative m) m)
  | float (x : Double) : Legible (.float x)
  | text {s : String} (h : (Bytes.utf8 s).length < 2 ^ 32) : Legible (.text s)
  | bytes {b : Bytes} (h : b.length < 2 ^ 32) : Legible (.bytes b)
  | list {items : List Document} (h : items.length < 2 ^ 32) (hitems : ∀ d ∈ items, Legible d) :
    Legible (.list items)
  | map {entries : List (Document × Document)} (h : entries.length < 2 ^ 32)
    (hkeys : ∀ e ∈ entries, Legible e.1) (hvalues : ∀ e ∈ entries, Legible e.2) :
    Legible (.map entries)

/-- What the loop makes of a step with some fuel left. -/
def goOn (fuel : Nat) : Step → Reading
  | .inl reading => reading
  | .inr (stack, b) => run fuel stack b

theorem run_succ (fuel : Nat) (stack : List Open) (b : Bytes) :
    run (fuel + 1) stack b = goOn fuel (step stack b) := by
  rw [run]
  rcases step stack b with reading | ⟨stack, rest⟩ <;> rfl

/-- From the bytes the loop gets to a step that leaves other bytes to read. Its fuel exceeds the
number of the bytes before and after. -/
def Comes (stack : List Open) (b : Bytes) (s : Step) (rest : Bytes) : Prop :=
  ∀ fuel, b.length < fuel → ∃ fuel', rest.length < fuel' ∧ run fuel stack b = goOn fuel' s

theorem Comes.of_step {stack : List Open} {front : Bytes} {s : Step} (hpos : 0 < front.length)
    (h : step stack (front ++ rest) = s) : Comes stack (front ++ rest) s rest := by
  intro fuel hfuel
  rw [List.length_append] at hfuel
  cases fuel with
  | zero => exact absurd hfuel (Nat.not_lt_zero _)
  | succ fuel => exact ⟨fuel, by omega, by rw [run_succ, h]⟩

theorem Comes.trans {stack stack' : List Open} {b b' : Bytes} {s : Step}
    (h : Comes stack b (.inr (stack', b')) b') (h' : Comes stack' b' s rest) :
    Comes stack b s rest := by
  intro fuel hfuel
  obtain ⟨fuel', hfuel', hrun⟩ := h fuel hfuel
  obtain ⟨fuel'', hfuel'', hrun'⟩ := h' fuel' hfuel'
  exact ⟨fuel'', hfuel'', hrun.trans hrun'⟩

/-- Whatever containers are open and whatever comes behind it, the bytes of the document put it in
its place. -/
def Lands (d : Document) : Prop :=
  ∀ stack rest, Comes stack (print d ++ rest) (placed d stack rest) rest

theorem length_pos_of_header {header : Bytes} {found : Header}
    (h : ∀ rest, readHeader (header ++ rest) = .ok (found, rest)) : 0 < header.length := by
  cases header with
  | nil => exact absurd (h []) nofun
  | cons b front => exact Nat.zero_lt_succ _

theorem lands_of_leaf {d : Document}
    (h : ∀ rest, readHeader (print d ++ rest) = .ok (.leaf d, rest)) : Lands d := by
  intro stack rest
  refine .of_step (length_pos_of_header h) ?_
  rw [step, h]

theorem lands_text {s : String} (h : (Bytes.utf8 s).length < 2 ^ 32) : Lands (.text s) := by
  intro stack rest
  have hpos := length_pos_of_header (readHeader_textHeader h)
  refine .of_step (by rw [print, List.length_append]; omega) ?_
  simp only [step, print, List.append_assoc, readHeader_textHeader h, take?_append, textLeaf,
    Bytes.text?_utf8]

theorem lands_bytes {b : Bytes} (h : b.length < 2 ^ 32) : Lands (.bytes b) := by
  intro stack rest
  have hpos := length_pos_of_header (readHeader_bytesHeader h)
  refine .of_step (by rw [print, List.length_append]; omega) ?_
  simp only [step, print, List.append_assoc, readHeader_bytesHeader h, take?_append]

theorem placed_list_last (d : Document) (done : List Document) (outer : List Open)
    (rest : Bytes) :
    placed d (.list 1 done :: outer) rest = placed (.list (done.reverse ++ [d])) outer rest := by
  simp [placed, place]

theorem placed_list_more (d : Document) (left : Nat) (done : List Document) (outer : List Open)
    (rest : Bytes) :
    placed d (.list (left + 2) done :: outer) rest =
      .inr (.list (left + 1) (d :: done) :: outer, rest) := by
  simp [placed, place]

/-- The items that are still to come complete a list. -/
theorem comes_items {items : List Document} (hitems : ∀ d ∈ items, Lands d) (hne : items ≠ [])
    (done : List Document) (outer : List Open) (rest : Bytes) :
    Comes (.list items.length done :: outer) (printItems items ++ rest)
      (placed (.list (done.reverse ++ items)) outer rest) rest := by
  induction items generalizing done with
  | nil => exact absurd rfl hne
  | cons d more ih =>
    obtain ⟨hd, hmore⟩ := List.forall_mem_cons.mp hitems
    rw [printItems, List.append_assoc]
    cases more with
    | nil =>
      have hlast := hd (.list 1 done :: outer) rest
      rwa [placed_list_last] at hlast
    | cons d' more =>
      have hfirst := hd (.list (more.length + 2) done :: outer) (printItems (d' :: more) ++ rest)
      rw [placed_list_more] at hfirst
      have hnext := ih hmore (List.cons_ne_nil _ _) (d :: done)
      rw [List.reverse_cons, List.append_assoc] at hnext
      exact hfirst.trans hnext

theorem placed_value_last (key d : Document) (done : List (Document × Document))
    (outer : List Open) (rest : Bytes) :
    placed d (.value 1 done key :: outer) rest =
      placed (.map (done.reverse ++ [(key, d)])) outer rest := by
  simp [placed, place]

theorem placed_value_more (key d : Document) (left : Nat) (done : List (Document × Document))
    (outer : List Open) (rest : Bytes) :
    placed d (.value (left + 2) done key :: outer) rest =
      .inr (.key (left + 1) ((key, d) :: done) :: outer, rest) := by
  simp [placed, place]

/-- The entries that are still to come complete a map. -/
theorem comes_entries {entries : List (Document × Document)}
    (hentries : ∀ e ∈ entries, Lands e.1 ∧ Lands e.2) (hne : entries ≠ [])
    (done : List (Document × Document)) (outer : List Open) (rest : Bytes) :
    Comes (.key entries.length done :: outer) (printEntries entries ++ rest)
      (placed (.map (done.reverse ++ entries)) outer rest) rest := by
  induction entries generalizing done with
  | nil => exact absurd rfl hne
  | cons e more ih =>
    obtain ⟨key, d⟩ := e
    obtain ⟨⟨hkey, hd⟩, hmore⟩ := List.forall_mem_cons.mp hentries
    rw [printEntries, List.append_assoc, List.append_assoc]
    -- A key is never the last thing in its map.
    have hbefore : Comes (.key (more.length + 1) done :: outer)
        (print key ++ (print d ++ (printEntries more ++ rest)))
        (.inr (.value (more.length + 1) done key :: outer,
          print d ++ (printEntries more ++ rest))) _ := hkey _ _
    refine hbefore.trans ?_
    cases more with
    | nil =>
      have hlast := hd (.value 1 done key :: outer) rest
      rwa [placed_value_last] at hlast
    | cons e' more =>
      have hfirst := hd (.value (more.length + 2) done key :: outer)
        (printEntries (e' :: more) ++ rest)
      rw [placed_value_more] at hfirst
      have hnext := ih hmore (List.cons_ne_nil _ _) ((key, d) :: done)
      rw [List.reverse_cons, List.append_assoc] at hnext
      exact hfirst.trans hnext

/-- The header of a list opens it, unless it is empty. -/
theorem comes_listHeader (h : n < 2 ^ 32) (stack : List Open) (rest : Bytes) :
    Comes stack (listHeader n ++ rest)
      (if n = 0 then placed (.list []) stack rest else .inr (.list n [] :: stack, rest)) rest :=
  .of_step (length_pos_of_header (readHeader_listHeader h))
    (by rw [step, readHeader_listHeader h])

theorem lands_list {items : List Document} (h : items.length < 2 ^ 32)
    (hitems : ∀ d ∈ items, Lands d) : Lands (.list items) := by
  intro stack rest
  have hheader := comes_listHeader h stack (printItems items ++ rest)
  rw [print, List.append_assoc]
  cases items with
  | nil => exact hheader
  | cons d more =>
    rw [if_neg (by simp)] at hheader
    exact hheader.trans (comes_items hitems (List.cons_ne_nil _ _) [] stack rest)

/-- The header of a map opens it, unless it is empty. -/
theorem comes_mapHeader (h : n < 2 ^ 32) (stack : List Open) (rest : Bytes) :
    Comes stack (mapHeader n ++ rest)
      (if n = 0 then placed (.map []) stack rest else .inr (.key n [] :: stack, rest)) rest :=
  .of_step (length_pos_of_header (readHeader_mapHeader h))
    (by rw [step, readHeader_mapHeader h])

theorem lands_map {entries : List (Document × Document)} (h : entries.length < 2 ^ 32)
    (hentries : ∀ e ∈ entries, Lands e.1 ∧ Lands e.2) : Lands (.map entries) := by
  intro stack rest
  have hheader := comes_mapHeader h stack (printEntries entries ++ rest)
  rw [print, List.append_assoc]
  cases entries with
  | nil => exact hheader
  | cons e more =>
    rw [if_neg (by simp)] at hheader
    exact hheader.trans (comes_entries hentries (List.cons_ne_nil _ _) [] stack rest)

/-- The bytes of a legible document put it in its place. -/
theorem Legible.lands {d : Document} (h : Legible d) : Lands d := by
  induction h with
  | null => exact lands_of_leaf fun _ => rfl
  | bool b => cases b <;> exact lands_of_leaf fun _ => rfl
  | natural h => exact lands_of_leaf (readHeader_naturalBytes h)
  | negative hlow hneg => exact lands_of_leaf (readHeader_integerBytes hlow hneg)
  | float x =>
    refine lands_of_leaf fun rest => ?_
    have hlt : x.bits.toNat < 256 ^ 8 := x.bits.toNat_lt
    have hread := numberLeaf_bigEndian (fun n => .float ⟨UInt64.ofNat n⟩) 8 hlt rest
    rwa [UInt64.ofNat_toNat] at hread
  | text h => exact lands_text h
  | bytes h => exact lands_bytes h
  | list h _ ih => exact lands_list h ih
  | map h _ _ ihkeys ihvalues => exact lands_map h fun e he => ⟨ihkeys e he, ihvalues e he⟩

/-- A legible document is read back, and nothing is left of its bytes. -/
theorem read_print {d : Document} (h : Legible d) : read (print d) = ⟨d, some []⟩ := by
  have hlands := h.lands [] []
  rw [List.append_nil] at hlands
  obtain ⟨fuel, -, hrun⟩ := hlands _ (Nat.lt_succ_self _)
  exact hrun

/-! ## What is not too long -/

/-- The documents that are legible if their bytes are few enough. -/
inductive Printable : Document → Prop
  | null : Printable .null
  | bool (b : Bool) : Printable (.bool b)
  | natural {n : Nat} (h : n < 2 ^ 64) : Printable (.natural (Document.roomOfNat n) n)
  | negative {m : Int} (hlow : -2 ^ 63 ≤ m) (hneg : m < 0) :
    Printable (.integer (Document.roomOfNegative m) m)
  | float (x : Double) : Printable (.float x)
  | text (s : String) : Printable (.text s)
  | bytes (b : Bytes) : Printable (.bytes b)
  | list {items : List Document} (hitems : ∀ d ∈ items, Printable d) : Printable (.list items)
  | map {entries : List (Document × Document)} (hkeys : ∀ e ∈ entries, Printable e.1)
    (hvalues : ∀ e ∈ entries, Printable e.2) : Printable (.map entries)

theorem Printable.length_pos {d : Document} (h : Printable d) : 0 < (print d).length := by
  cases h with
  | bool b => cases b <;> exact Nat.zero_lt_succ _
  | natural h => exact length_pos_of_header (readHeader_naturalBytes h)
  | negative hlow hneg => exact length_pos_of_header (readHeader_integerBytes hlow hneg)
  | _ =>
    simp only [print, textHeader, bytesHeader, listHeader, mapHeader, wide]
    repeat' split
    all_goals exact Nat.zero_lt_succ _

/-- The items of a list are together as long as their bytes, and each is within these. -/
theorem length_printItems {items : List Document} (h : ∀ d ∈ items, 0 < (print d).length) :
    items.length ≤ (printItems items).length ∧
      ∀ d ∈ items, (print d).length ≤ (printItems items).length := by
  induction items with
  | nil => exact ⟨Nat.le_refl _, List.forall_mem_nil _⟩
  | cons d rest ih =>
    obtain ⟨hd, hrest⟩ := List.forall_mem_cons.mp h
    obtain ⟨hcount, hitems⟩ := ih hrest
    simp only [printItems, List.length_append, List.length_cons, List.forall_mem_cons]
    exact ⟨by omega, by omega, fun d hd => Nat.le_trans (hitems d hd) (Nat.le_add_left _ _)⟩

theorem length_printEntries {entries : List (Document × Document)}
    (h : ∀ e ∈ entries, 0 < (print e.1).length) :
    entries.length ≤ (printEntries entries).length ∧
      ∀ e ∈ entries, (print e.1).length ≤ (printEntries entries).length ∧
        (print e.2).length ≤ (printEntries entries).length := by
  induction entries with
  | nil => exact ⟨Nat.le_refl _, List.forall_mem_nil _⟩
  | cons e rest ih =>
    obtain ⟨he, hrest⟩ := List.forall_mem_cons.mp h
    obtain ⟨hcount, hentries⟩ := ih hrest
    simp only [printEntries, List.length_append, List.length_cons, List.forall_mem_cons]
    refine ⟨by omega, by omega, fun e he => ?_⟩
    obtain ⟨hkey, hvalue⟩ := hentries e he
    omega

/-- A document of less than 2 ^ 32 bytes has no part that is too long for its header. -/
theorem Printable.legible {d : Document} (h : Printable d) (hlen : (print d).length < 2 ^ 32) :
    Legible d := by
  induction h with
  | null => exact .null
  | bool b => exact .bool b
  | natural h => exact .natural h
  | negative hlow hneg => exact .negative hlow hneg
  | float x => exact .float x
  | text s =>
    rw [print, List.length_append] at hlen
    exact .text (by omega)
  | bytes b =>
    rw [print, List.length_append] at hlen
    exact .bytes (by omega)
  | list hitems ih =>
    obtain ⟨hcount, hparts⟩ := length_printItems fun d hd => (hitems d hd).length_pos
    rw [print, List.length_append] at hlen
    refine .list (by omega) fun d hd => ih d hd ?_
    have := hparts d hd
    omega
  | map hkeys _ ihkeys ihvalues =>
    obtain ⟨hcount, hparts⟩ := length_printEntries fun e he => (hkeys e he).length_pos
    rw [print, List.length_append] at hlen
    refine .map (by omega) (fun e he => ihkeys e he ?_) fun e he => ihvalues e he ?_
    all_goals
      have := hparts e he
      omega

end RecordService.MessagePack
