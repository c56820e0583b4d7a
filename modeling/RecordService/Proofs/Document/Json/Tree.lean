import RecordService.Proofs.Document.Json.Number
import RecordService.Proofs.Document.Json.Text

/-!
# JSON documents are read back

* `Legible`: the documents that a text tells from all others.
* `Comes`: the loop gets from one place in the text to another. What it needs of its fuel is left
  out of the statements about it.
* `Lands`: behind the text of a document its separator is due, whatever containers are open.
* `Legible.lands`, by induction over documents, and from it `read_print`.
-/

namespace RecordService.Json

variable {rest : Bytes}

/-- The documents that are read back. -/
inductive Legible : Document → Prop
  | null : Legible .null
  | bool (b : Bool) : Legible (.bool b)
  | natural {n : Nat} (h : n < 2 ^ 64) : Legible (.natural (Document.roomOfNat n) n)
  | negative {m : Int} (hlow : -2 ^ 63 ≤ m) (hneg : m < 0) :
    Legible (.integer (Document.roomOfNegative m) m)
  | float {x : Double} (h : ReadsBack x) : Legible (.float x)
  | text (s : String) : Legible (.text s)
  | list {items : List Document} (hitems : ∀ d ∈ items, Legible d) : Legible (.list items)
  | map {entries : List (Document × Document)} (hkeys : ∀ e ∈ entries, ∃ k, e.1 = .text k)
    (hvalues : ∀ e ∈ entries, Legible e.2) : Legible (.map entries)

/-! ## The loop -/

/-- From one place the loop gets to another. Its fuel exceeds the number of bytes there and here. -/
def Comes (due : Due) (stack : List Open) (b : Bytes) (due' : Due) (stack' : List Open)
    (b' : Bytes) : Prop :=
  ∀ fuel, b.length < fuel →
    ∃ fuel', b'.length < fuel' ∧ run fuel due stack b = run fuel' due' stack' b'

theorem Comes.trans {due due' due'' : Due} {stack stack' stack'' : List Open} {b b' b'' : Bytes}
    (h : Comes due stack b due' stack' b') (h' : Comes due' stack' b' due'' stack'' b'') :
    Comes due stack b due'' stack'' b'' := by
  intro fuel hfuel
  obtain ⟨fuel', hfuel', hrun⟩ := h fuel hfuel
  obtain ⟨fuel'', hfuel'', hrun'⟩ := h' fuel' hfuel'
  exact ⟨fuel'', hfuel'', hrun.trans hrun'⟩

/-- A step that reads at least one byte. -/
theorem Comes.of_step {due due' : Due} {stack stack' : List Open} {b b' : Bytes}
    (hless : b'.length < b.length)
    (h : ∀ fuel, b.length ≤ fuel → run (fuel + 1) due stack b = run fuel due' stack' b') :
    Comes due stack b due' stack' b' := by
  intro fuel hfuel
  cases fuel with
  | zero => exact absurd hfuel (Nat.not_lt_zero _)
  | succ fuel => exact ⟨fuel, by omega, h fuel (by omega)⟩

/-- A value begins with a byte that is no white space and closes no list. -/
def Starts (b : Bytes) : Prop := ∃ x b', b = x :: b' ∧ isSpace x = false ∧ x ≠ 0x5D

theorem Starts.skipSpace {b : Bytes} (h : Starts b) (rest : Bytes) :
    skipSpace (b ++ rest) = b ++ rest := by
  obtain ⟨x, b', rfl, hspace, -⟩ := h
  simp [Json.skipSpace, hspace]

/-- Whatever containers are open, the text of the document is read as the document. -/
structure Lands (d : Document) : Prop where
  starts : Starts (print d)
  comes : ∀ stack rest, Delimited rest →
    Comes .value stack (print d ++ rest) (.separator d) stack rest

/-! ## Leaves -/

/-- A token that is no container is read as what its first byte makes it. -/
theorem lands_of_atom {d : Document} (hstarts : Starts (print d))
    (hopen : ∀ x ∈ (print d).head?, x ≠ 0x5B ∧ x ≠ 0x7B)
    (hatom : ∀ fuel rest, Delimited rest → (print d ++ rest).length ≤ fuel →
      readAtom? fuel (print d ++ rest) = some (d, rest)) : Lands d := by
  refine ⟨hstarts, fun stack rest hrest => .of_step ?_ fun fuel hfuel => ?_⟩
  · obtain ⟨x, b', hb, -⟩ := hstarts
    rw [hb, List.length_append, List.length_cons]
    omega
  · have hread := hatom fuel rest hrest hfuel
    have hskip := hstarts.skipSpace rest
    obtain ⟨x, b', hb, -⟩ := hstarts
    obtain ⟨hlist, hmap⟩ := hopen x (by rw [hb]; rfl)
    rw [hb, List.cons_append] at hread hskip ⊢
    simp only [run, hskip, if_neg hlist, if_neg hmap, hread]

theorem print_null : print .null = [0x6E, 0x75, 0x6C, 0x6C] := by
  have htext : "null" = String.ofList ['n', 'u', 'l', 'l'] := rfl
  rw [print, nullToken, htext, Bytes.utf8_ofList (by simp)]
  rfl

theorem print_bool (b : Bool) :
    print (.bool b) = bif b then [0x74, 0x72, 0x75, 0x65] else [0x66, 0x61, 0x6C, 0x73, 0x65] := by
  cases b with
  | false =>
    have htext : "false" = String.ofList ['f', 'a', 'l', 's', 'e'] := rfl
    rw [print, htext, Bytes.utf8_ofList (by simp)]
    rfl
  | true =>
    have htext : "true" = String.ofList ['t', 'r', 'u', 'e'] := rfl
    rw [print, htext, Bytes.utf8_ofList (by simp)]
    rfl

theorem lands_null : Lands .null := by
  refine lands_of_atom ?_ ?_ ?_ <;> rw [print_null]
  · exact ⟨_, _, rfl, rfl, by decide⟩
  · simp
  · intro _ _ _ _
    rfl

theorem lands_bool (b : Bool) : Lands (.bool b) := by
  refine lands_of_atom ?_ ?_ ?_ <;> rw [print_bool]
  · cases b <;> exact ⟨_, _, rfl, rfl, by decide⟩
  · cases b <;> simp
  · intro _ _ _ _
    cases b <;> rfl

theorem lands_text (s : String) : Lands (.text s) := by
  refine lands_of_atom ⟨0x22, _, rfl, rfl, by decide⟩ (by simp [print, quoted]) ?_
  intro fuel rest _ hfuel
  simp only [print, quoted, List.cons_append, List.append_assoc, List.nil_append,
    List.length_cons] at hfuel ⊢
  rw [readAtom?, if_pos rfl]
  exact readString_quoted s rest (by omega)

/-- Neither a sign nor a digit begins anything but a number. -/
theorem number_first {x : UInt8} (hx : x = 0x2D ∨ isDigitByte x) :
    isSpace x = false ∧ x ≠ 0x5D ∧ x ≠ 0x5B ∧ x ≠ 0x7B ∧ x ≠ 0x22 ∧ x ≠ 0x6E ∧ x ≠ 0x74 ∧
      x ≠ 0x66 := by
  have hne : ∀ y : UInt8, ¬(y = 0x2D ∨ isDigitByte y) → x ≠ y := fun y hy hxy => hy (hxy ▸ hx)
  refine ⟨?_, hne _ (by decide), hne _ (by decide), hne _ (by decide), hne _ (by decide),
    hne _ (by decide), hne _ (by decide), hne _ (by decide)⟩
  have h20 : x ≠ 0x20 := hne _ (by decide)
  have h09 : x ≠ 0x09 := hne _ (by decide)
  have h0A : x ≠ 0x0A := hne _ (by decide)
  have h0D : x ≠ 0x0D := hne _ (by decide)
  simp [isSpace, h20, h09, h0A, h0D]

/-- A number is read as the leaf of its token. -/
theorem lands_of_number {d : Document} {t : NumberToken}
    (hread : readNumber? (print d) = some (t, [])) (hleaf : t.toDocument = d) : Lands d := by
  obtain ⟨x, b', hb, hx⟩ := readNumber?_head hread
  obtain ⟨hspace, hclose, hlist, hmap, hquote, hn, ht, hf⟩ := number_first hx
  refine lands_of_atom ⟨x, b', hb, hspace, hclose⟩ ?_ fun fuel rest hrest _ => ?_
  · rw [hb]
    intro y hy
    cases hy
    exact ⟨hlist, hmap⟩
  · have happend := readNumber?_append hrest (print d)
    rw [hread, hb, List.cons_append] at happend
    rw [hb, List.cons_append, readAtom?, if_neg hquote, if_neg hn, if_neg ht, if_neg hf, happend,
      ← hleaf]
    rfl

/-! ## Lists -/

/-- The items of a list behind its first one. -/
def behind : List Bytes → Bytes
  | [] => []
  | items => 0x2C :: separated items

theorem separated_cons (item : Bytes) (items : List Bytes) :
    separated (item :: items) = item ++ behind items := by
  cases items with
  | nil => exact (List.append_nil item).symm
  | cons => rfl

/-- An item is the last one of its list. -/
theorem comes_closing_list (d : Document) (done : List Document) (outer : List Open)
    (rest : Bytes) :
    Comes (.separator d) (.list done :: outer) (0x5D :: rest)
      (.separator (.list (done.reverse ++ [d]))) outer rest := by
  refine .of_step (Nat.lt_succ_self _) fun fuel _ => ?_
  rw [← List.reverse_cons]
  rfl

/-- Another item follows. -/
theorem comes_next_item (d : Document) (done : List Document) (outer : List Open) (b : Bytes) :
    Comes (.separator d) (.list done :: outer) (0x2C :: b) .value (.list (d :: done) :: outer) b :=
  .of_step (Nat.lt_succ_self _) fun _ _ => rfl

/-- The items that are still to come complete a list. -/
theorem comes_items {d : Document} {more : List Document} (hitems : ∀ d' ∈ d :: more, Lands d')
    (done : List Document) (outer : List Open) (rest : Bytes) :
    Comes .value (.list done :: outer) (separated (printItems (d :: more)) ++ 0x5D :: rest)
      (.separator (.list (done.reverse ++ d :: more))) outer rest := by
  have hd := hitems d List.mem_cons_self
  induction more generalizing d done with
  | nil =>
    have hlast := hd.comes (.list done :: outer) (0x5D :: rest) (delimited_cons (by decide) rest)
    exact hlast.trans (comes_closing_list d done outer rest)
  | cons d' more ih =>
    have hmore : ∀ d'' ∈ d' :: more, Lands d'' :=
      fun d'' hd'' => hitems d'' (List.mem_cons_of_mem _ hd'')
    have hfirst := hd.comes (.list done :: outer)
      (0x2C :: (separated (printItems (d' :: more)) ++ 0x5D :: rest))
      (delimited_cons (by decide) _)
    have hnext := ih hmore (d :: done) (hmore d' List.mem_cons_self)
    rw [List.reverse_cons, List.append_assoc] at hnext
    rw [printItems, separated_cons, List.append_assoc]
    exact (hfirst.trans (comes_next_item d done outer _)).trans hnext

theorem lands_list {items : List Document} (hitems : ∀ d ∈ items, Lands d) :
    Lands (.list items) := by
  refine ⟨⟨0x5B, _, rfl, rfl, by decide⟩, fun stack rest _ => ?_⟩
  have hprint : print (.list items) ++ rest =
      0x5B :: (separated (printItems items) ++ 0x5D :: rest) := by simp [print]
  rw [hprint]
  cases items with
  | nil =>
    refine .of_step ?_ fun fuel _ => rfl
    show rest.length < rest.length + 1 + 1
    omega
  | cons d more =>
    have hopen : Comes .value stack
        (0x5B :: (separated (printItems (d :: more)) ++ 0x5D :: rest)) .value (.list [] :: stack)
        (separated (printItems (d :: more)) ++ 0x5D :: rest) := by
      refine .of_step (Nat.lt_succ_self _) fun fuel _ => ?_
      have hstarts := (hitems d List.mem_cons_self).starts
      rw [printItems, separated_cons, List.append_assoc]
      have hskip := hstarts.skipSpace (behind (printItems more) ++ 0x5D :: rest)
      obtain ⟨x, b', hb, -, hclose⟩ := hstarts
      rw [hb, List.cons_append] at hskip ⊢
      have hbracket : skipSpace (0x5B :: x :: (b' ++ (behind (printItems more) ++ 0x5D :: rest))) =
          0x5B :: x :: (b' ++ (behind (printItems more) ++ 0x5D :: rest)) := rfl
      simp only [run, hbracket, ↓reduceIte, hskip]
      split
      · rename_i heq
        exact absurd (List.cons.inj heq).1 hclose
      · rfl
    exact hopen.trans (comes_items hitems [] stack rest)

/-! ## Maps -/

/-- The name of an entry is read up to its colon. -/
theorem entryKey_quoted {fuel : Nat} (k : String) (done : List (Document × Document))
    (outer : List Open) (b : Bytes) (hfuel : (quoted k ++ 0x3A :: b).length ≤ fuel) :
    entryKey fuel done outer (quoted k ++ 0x3A :: b) = .inr (.map done (.text k) :: outer, b) := by
  simp only [quoted, List.cons_append, List.append_assoc, List.nil_append,
    List.length_cons] at hfuel ⊢
  have hread : readString [] true fuel ((Bytes.utf8 k).flatMap escape ++ 0x22 :: 0x3A :: b) =
      some (.text k, 0x3A :: b) := readString_quoted k (0x3A :: b) (by omega)
  have hcolon : skipSpace (0x3A :: b) = 0x3A :: b := rfl
  simp only [entryKey, readKey, hread, hcolon]

/-- An entry is the last one of its map. -/
theorem comes_closing_map (key d : Document) (done : List (Document × Document))
    (outer : List Open) (rest : Bytes) :
    Comes (.separator d) (.map done key :: outer) (0x7D :: rest)
      (.separator (.map (done.reverse ++ [(key, d)]))) outer rest := by
  refine .of_step (Nat.lt_succ_self _) fun fuel _ => ?_
  rw [← List.reverse_cons]
  rfl

/-- Another entry follows, and its name is read at once. -/
theorem comes_next_entry (key d : Document) (done : List (Document × Document))
    (outer : List Open) (k : String) (b : Bytes) :
    Comes (.separator d) (.map done key :: outer) (0x2C :: (quoted k ++ 0x3A :: b))
      .value (.map ((key, d) :: done) (.text k) :: outer) b := by
  refine .of_step (by simp; omega) fun fuel hfuel => ?_
  have hcomma : skipSpace (0x2C :: (quoted k ++ 0x3A :: b)) =
      0x2C :: (quoted k ++ 0x3A :: b) := rfl
  have hquote : skipSpace (quoted k ++ 0x3A :: b) = quoted k ++ 0x3A :: b := rfl
  rw [List.length_cons] at hfuel
  simp only [run, hcomma, hquote, entryKey_quoted k _ outer b (by omega : _ ≤ fuel)]

theorem printEntries_cons (k : String) (d : Document) (more : List (Document × Document))
    (rest : Bytes) :
    separated (printEntries ((.text k, d) :: more)) ++ rest =
      quoted k ++ 0x3A :: (print d ++ (behind (printEntries more) ++ rest)) := by
  rw [printEntries, separated_cons, print]
  simp

theorem behind_printEntries (k : String) (d : Document) (more : List (Document × Document))
    (rest : Bytes) :
    behind (printEntries ((.text k, d) :: more)) ++ rest =
      0x2C :: (quoted k ++ 0x3A :: (print d ++ (behind (printEntries more) ++ rest))) := by
  rw [← printEntries_cons]
  rfl

/-- The rest of an entry and the entries that are still to come complete a map. -/
theorem comes_entries {k : String} {d : Document} {more : List (Document × Document)}
    (hd : Lands d) (hkeys : ∀ e ∈ more, ∃ k, e.1 = .text k) (hvalues : ∀ e ∈ more, Lands e.2)
    (done : List (Document × Document)) (outer : List Open) (rest : Bytes) :
    Comes .value (.map done (.text k) :: outer)
      (print d ++ (behind (printEntries more) ++ 0x7D :: rest))
      (.separator (.map (done.reverse ++ (.text k, d) :: more))) outer rest := by
  induction more generalizing k d done with
  | nil =>
    have hlast := hd.comes (.map done (.text k) :: outer) (0x7D :: rest)
      (delimited_cons (by decide) rest)
    exact hlast.trans (comes_closing_map (.text k) d done outer rest)
  | cons e more ih =>
    obtain ⟨key, d'⟩ := e
    obtain ⟨⟨k', rfl⟩, hmorekeys⟩ := List.forall_mem_cons.mp hkeys
    obtain ⟨hd', hmorevalues⟩ := List.forall_mem_cons.mp hvalues
    have hfirst := hd.comes (.map done (.text k) :: outer) (0x2C ::
      (quoted k' ++ 0x3A :: (print d' ++ (behind (printEntries more) ++ 0x7D :: rest))))
      (delimited_cons (by decide) _)
    have hnext := ih (k := k') hd' hmorekeys hmorevalues ((.text k, d) :: done)
    rw [List.reverse_cons, List.append_assoc] at hnext
    rw [behind_printEntries]
    exact (hfirst.trans (comes_next_entry (.text k) d done outer k' _)).trans hnext

theorem lands_map {entries : List (Document × Document)}
    (hkeys : ∀ e ∈ entries, ∃ k, e.1 = .text k) (hvalues : ∀ e ∈ entries, Lands e.2) :
    Lands (.map entries) := by
  refine ⟨⟨0x7B, _, rfl, rfl, by decide⟩, fun stack rest _ => ?_⟩
  have hprint : print (.map entries) ++ rest =
      0x7B :: (separated (printEntries entries) ++ 0x7D :: rest) := by simp [print]
  rw [hprint]
  cases entries with
  | nil =>
    refine .of_step ?_ fun fuel _ => rfl
    show rest.length < rest.length + 1 + 1
    omega
  | cons e more =>
    obtain ⟨key, d⟩ := e
    obtain ⟨⟨k, rfl⟩, hmorekeys⟩ := List.forall_mem_cons.mp hkeys
    obtain ⟨hd, hmorevalues⟩ := List.forall_mem_cons.mp hvalues
    rw [printEntries_cons]
    refine .trans ?_ (comes_entries hd hmorekeys hmorevalues [] stack rest)
    refine .of_step (by simp; omega) fun fuel hfuel => ?_
    generalize print d ++ (behind (printEntries more) ++ 0x7D :: rest) = b at hfuel ⊢
    have hbrace : skipSpace (0x7B :: (quoted k ++ 0x3A :: b)) =
        0x7B :: (quoted k ++ 0x3A :: b) := rfl
    have hquote : skipSpace (quoted k ++ 0x3A :: b) = quoted k ++ 0x3A :: b := rfl
    rw [List.length_cons] at hfuel
    have hkey := entryKey_quoted k [] stack b (by omega : _ ≤ fuel)
    simp only [run, hbrace, hquote]
    rw [if_neg (by decide), if_pos trivial]
    split
    · rename_i heq
      exact absurd (List.cons.inj heq).1 (by decide)
    · rw [hkey]

/-! ## Documents -/

/-- The text of a legible document is read as the document. -/
theorem Legible.lands {d : Document} (h : Legible d) : Lands d := by
  induction h with
  | null => exact lands_null
  | bool b => exact lands_bool b
  | natural h =>
    obtain ⟨t, hread, hleaf⟩ := readNumber?_natural h
    exact lands_of_number (by rw [print]; exact hread) hleaf
  | @negative m hlow hneg =>
    obtain ⟨t, hread, hleaf⟩ := readNumber?_negative hlow hneg
    refine lands_of_number (by rw [print]; exact hread) ?_
    rw [hleaf, Document.ofInt, if_neg (by omega)]
  | float h =>
    obtain ⟨t, hread, hleaf⟩ := h
    exact lands_of_number (by rw [print]; exact hread) hleaf
  | text s => exact lands_text s
  | list _ ih => exact lands_list ih
  | map hkeys _ ih => exact lands_map hkeys ih

/-- A legible document is read back, and nothing is left of its text. -/
theorem read_print {d : Document} (h : Legible d) : read (print d) = ⟨d, some []⟩ := by
  have hcomes := h.lands.comes [] [] delimited_nil
  rw [List.append_nil] at hcomes
  obtain ⟨fuel, hfuel, hrun⟩ := hcomes ((print d).length + 2) (by omega)
  cases fuel with
  | zero => exact absurd hfuel (Nat.lt_irrefl _)
  | succ fuel => exact hrun

end RecordService.Json
