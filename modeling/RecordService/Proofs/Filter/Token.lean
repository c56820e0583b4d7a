import RecordService.Filter.Token
import RecordService.Proofs.Filter.Check
import RecordService.Proofs.Payload.RoundTrip

/-!
# Filters as tokens, and back

A token is made of any expression, and read back only if the expression is a filter.

* `Document.nesting`: how many containers stand inside each other in a document.
* `Expression.ofDocument_toDocument`: an expression is read back from its document, if that nests
  no deeper than the reader follows.
* `Expression.ofBytes_toBytes`: so it is read back from its bytes, for the checker to decide.
* `Expression.ofToken_token`: and from its token.
-/

namespace RecordService

/-! ## Nesting -/

namespace Document

mutual

/-- How many containers stand inside each other in a document. -/
def nesting : Document → Nat
  | list items => itemsNesting items + 1
  | map entries => entriesNesting entries + 1
  | _ => 0

/-- The greatest nesting among the items of a list. -/
def itemsNesting : List Document → Nat
  | [] => 0
  | d :: rest => max (nesting d) (itemsNesting rest)

/-- The greatest nesting among the keys and the values of a map. -/
def entriesNesting : List (Document × Document) → Nat
  | [] => 0
  | (k, d) :: rest => max (max (nesting k) (nesting d)) (entriesNesting rest)

end

variable {n : Nat}

theorem itemsNesting_le {items : List Document} :
    itemsNesting items ≤ n ↔ ∀ d ∈ items, d.nesting ≤ n := by
  induction items with
  | nil => simp [itemsNesting]
  | cons d rest ih => rw [itemsNesting, Nat.max_le, ih, List.forall_mem_cons]

theorem entriesNesting_le {entries : List (Document × Document)} :
    entriesNesting entries ≤ n ↔ ∀ e ∈ entries, e.1.nesting ≤ n ∧ e.2.nesting ≤ n := by
  induction entries with
  | nil => simp [entriesNesting]
  | cons e rest ih => rw [entriesNesting, Nat.max_le, Nat.max_le, ih, List.forall_mem_cons]

theorem nesting_list_le {items : List Document} :
    (list items).nesting ≤ n + 1 ↔ ∀ d ∈ items, d.nesting ≤ n := by
  rw [nesting, Nat.add_le_add_iff_right, itemsNesting_le]

theorem nesting_map_le {entries : List (Document × Document)} :
    (map entries).nesting ≤ n + 1 ↔ ∀ e ∈ entries, e.1.nesting ≤ n ∧ e.2.nesting ≤ n := by
  rw [nesting, Nat.add_le_add_iff_right, entriesNesting_le]

end Document

/-- A value nests as deep as its document. -/
theorem Value.nesting_toDocument_le {v : Value} {n : Nat} :
    (v.toDocument .messagePack).nesting ≤ n ↔ v.nesting .messagePack ≤ n := by
  induction v using Value.induct generalizing n with
  | leaf v hv =>
    cases v with
    | int m =>
      have hzero : ((int m).toDocument .messagePack).nesting = 0 := by
        show (Document.ofInt m.toInt).nesting = 0
        unfold Document.ofInt
        split <;> rfl
      rw [hzero]
      rfl
    | list => exact hv.elim
    | map => exact hv.elim
    | _ => rfl
  | list items ih =>
    rw [toDocument, itemDocuments_eq_map]
    cases n with
    | zero => exact iff_of_false (Nat.not_succ_le_zero _) (Nat.not_succ_le_zero _)
    | succ n =>
      rw [Document.nesting_list_le, Value.nesting_list_le, List.forall_mem_map]
      exact forall₂_congr fun v hv => ih v hv
  | map entries ih =>
    rw [toDocument, entryDocuments_eq_map]
    cases n with
    | zero => exact iff_of_false (Nat.not_succ_le_zero _) (Nat.not_succ_le_zero _)
    | succ n =>
      rw [Document.nesting_map_le, Value.nesting_map_le, List.forall_mem_map]
      exact forall₂_congr fun e he => (and_iff_right (Nat.zero_le n)).trans (ih e he)

namespace Expression

variable {e : Expression} {depth : Nat}

/-! ## Documents -/

theorem operandDocuments_eq_map (operands : List Expression) :
    operandDocuments operands = operands.map toDocument := by
  induction operands with
  | nil => rfl
  | cons e rest ih => rw [operandDocuments, ih, List.map_cons]

/-- Each form is found by its name. -/
theorem formOf_name (form : Form) : formOf depth (.text form.name) = .ok form := by
  cases form with
  | compare op => cases op <;> rfl
  | _ => rfl

theorem nesting_formDocument (form : Form) (content : Document) :
    (formDocument form content).nesting = content.nesting + 1 := by
  simp [formDocument, Document.object, Document.nesting, Document.entriesNesting]

/-- The content of a form nests no deeper than the form. -/
theorem content_nesting_le {form : Form} {content : Document}
    (h : (formDocument form content).nesting ≤ depth) : content.nesting ≤ depth := by
  rw [nesting_formDocument] at h
  exact Nat.le_of_succ_le h

/-- What a literal holds is a value as all others are, in which no map spells a tagged value. -/
def Plain : Expression → Prop
  | literal v => v.WellFormed ∧ v.Untagged
  | _ => True

/-- What the reader makes of the content of a form, in documents that are written here. -/
theorem ofDocument_formDocument (form : Form) (content : Document) :
    ofDocument depth (formDocument form content) =
      match form with
      | .compare op =>
        (listOf depth (some 2) content).bind fun
          | [left, right] => .ok (compare op left right)
          | _ => .error .other
      | .and => (listOf depth none content).map and
      | .or => (listOf depth none content).map or
      | .not => (ofDocument depth content).map not
      | .bin => binOf depth content
      | .binExists => (content.asText depth).map binExists
      | .generation => ofEmpty content
      | .literal => (Value.ofDocument depth content).map literal := by
  rw [formDocument, Document.object, List.map_singleton, ofDocument, formOf_name]
  cases form <;> rfl

theorem itemsOf_operandDocuments {operands : List Expression}
    (h : ∀ e ∈ operands, ofDocument depth e.toDocument = .ok e) :
    itemsOf depth none (operandDocuments operands) = .ok operands := by
  induction operands with
  | nil => rfl
  | cons e rest ih =>
    obtain ⟨he, hrest⟩ := List.forall_mem_cons.mp h
    rw [operandDocuments, itemsOf, if_neg nofun, he]
    show (itemsOf depth none (operandDocuments rest)).map (e :: ·) = .ok (e :: rest)
    rw [ih hrest]
    rfl

/-- Operands are read back one level below their list. -/
theorem listOf_operandDocuments {operands : List Expression}
    (hnesting : (Document.list (operandDocuments operands)).nesting ≤ depth)
    (h : ∀ e ∈ operands, ∀ {depth}, e.toDocument.nesting ≤ depth →
      ofDocument depth e.toDocument = .ok e) :
    listOf depth none (.list (operandDocuments operands)) = .ok operands := by
  cases depth with
  | zero => exact absurd hnesting (Nat.not_succ_le_zero _)
  | succ depth =>
    rw [operandDocuments_eq_map, Document.nesting_list_le, List.forall_mem_map] at hnesting
    exact itemsOf_operandDocuments fun e he => h e he (hnesting e he)

/-- The two operands of a comparison are read back one level below their list. -/
theorem listOf_pair {left right : Expression}
    (hnesting : (Document.list [left.toDocument, right.toDocument]).nesting ≤ depth)
    (hleft : ∀ {depth}, left.toDocument.nesting ≤ depth →
      ofDocument depth left.toDocument = .ok left)
    (hright : ∀ {depth}, right.toDocument.nesting ≤ depth →
      ofDocument depth right.toDocument = .ok right) :
    listOf depth (some 2) (.list [left.toDocument, right.toDocument]) = .ok [left, right] := by
  cases depth with
  | zero => exact absurd hnesting (Nat.not_succ_le_zero _)
  | succ depth =>
    rw [Document.nesting_list_le, List.forall_mem_cons, List.forall_mem_singleton] at hnesting
    rw [listOf, itemsOf, if_neg nofun, hleft hnesting.1]
    show ((itemsOf depth (some 1) [right.toDocument]).map (left :: ·)) = _
    rw [itemsOf, if_neg nofun, hright hnesting.2]
    rfl

/-- A bin is read back from the list of its name and its kind. -/
theorem binOf_fields {name : String} {kind : BinKind}
    (hnesting : (Document.list [.text name, .text kind.name]).nesting ≤ depth) :
    binOf depth (.list [.text name, .text kind.name]) = .ok (bin name kind) := by
  cases depth with
  | zero => exact absurd hnesting (Nat.not_succ_le_zero _)
  | succ depth => cases kind <;> rfl

/-- An expression is read back from its document, if that nests no deeper than the reader
follows. -/
theorem ofDocument_toDocument {level : Nat} (hplain : Throughout (fun _ f => f.Plain) level e)
    (hnesting : e.toDocument.nesting ≤ depth) : ofDocument depth e.toDocument = .ok e := by
  induction e using induct generalizing depth level with
  | generation => rfl
  | compare op left right ihl ihr =>
    obtain ⟨-, hleft, hright⟩ := throughout_compare.mp hplain
    rw [toDocument, ofDocument_formDocument]
    show (listOf depth (some 2) _).bind _ = _
    rw [listOf_pair (content_nesting_le hnesting) (ihl hleft) (ihr hright)]
    rfl
  | and operands ih =>
    obtain ⟨-, hoperands⟩ := throughout_and.mp hplain
    rw [toDocument, ofDocument_formDocument]
    show (listOf depth none _).map and = _
    rw [listOf_operandDocuments (content_nesting_le hnesting) fun e he => ih e he (hoperands e he)]
    rfl
  | or operands ih =>
    obtain ⟨-, hoperands⟩ := throughout_or.mp hplain
    rw [toDocument, ofDocument_formDocument]
    show (listOf depth none _).map or = _
    rw [listOf_operandDocuments (content_nesting_le hnesting) fun e he => ih e he (hoperands e he)]
    rfl
  | not operand ih =>
    obtain ⟨-, hoperand⟩ := throughout_not.mp hplain
    rw [toDocument, ofDocument_formDocument]
    show (ofDocument depth _).map not = _
    rw [ih hoperand (content_nesting_le hnesting)]
    rfl
  | bin name kind =>
    rw [toDocument, ofDocument_formDocument]
    exact binOf_fields (content_nesting_le hnesting)
  | binExists name =>
    rw [toDocument, ofDocument_formDocument]
    rfl
  | literal v =>
    obtain ⟨hwf, huntagged⟩ := hplain.root
    have hv : v.nesting .messagePack ≤ depth :=
      Value.nesting_toDocument_le.mp (content_nesting_le hnesting)
    rw [toDocument, ofDocument_formDocument]
    show (Value.ofDocument depth _).map literal = _
    rw [show Value.ofDocument depth _ = .ok v from Value.rereads_told hwf huntagged hv]
    rfl

/-! ## Bytes and tokens -/

/-- A list of operands, a bin name or a literal of which every header can tell the length. -/
def Fits : Expression → Prop
  | and operands | or operands => operands.length < 2 ^ 32
  | bin name _ | binExists name => (Bytes.utf8 name).length < 2 ^ 32
  | literal v => v.Everywhere Value.Fits
  | compare .. | not _ | generation => True

theorem legible_formDocument (form : Form) {content : Document}
    (h : MessagePack.Legible content) : MessagePack.Legible (formDocument form content) := by
  have hname : (Bytes.utf8 form.name).length < 2 ^ 32 := by
    cases form with
    | compare op => cases op <;> decide
    | _ => decide
  exact .map (by simp) (by simpa using .text hname) (by simpa using h)

theorem legible_operandDocuments {operands : List Expression} (hlen : operands.length < 2 ^ 32)
    (h : ∀ e ∈ operands, MessagePack.Legible e.toDocument) :
    MessagePack.Legible (.list (operandDocuments operands)) := by
  rw [operandDocuments_eq_map]
  exact .list (by rwa [List.length_map]) (List.forall_mem_map.mpr h)

/-- The document of an expression is legible if nothing in it is too long. -/
theorem legible_toDocument {level : Nat} (hfits : Throughout (fun _ f => f.Fits) level e) :
    MessagePack.Legible e.toDocument := by
  induction e using induct generalizing level with
  | compare op left right ihl ihr =>
    obtain ⟨-, hleft, hright⟩ := throughout_compare.mp hfits
    exact legible_formDocument _ (.list (by simp : 2 < 2 ^ 32)
      (List.forall_mem_cons.mpr ⟨ihl hleft, List.forall_mem_singleton.mpr (ihr hright)⟩))
  | and operands ih =>
    obtain ⟨hself, hoperands⟩ := throughout_and.mp hfits
    exact legible_formDocument _
      (legible_operandDocuments hself fun e he => ih e he (hoperands e he))
  | or operands ih =>
    obtain ⟨hself, hoperands⟩ := throughout_or.mp hfits
    exact legible_formDocument _
      (legible_operandDocuments hself fun e he => ih e he (hoperands e he))
  | not operand ih =>
    obtain ⟨-, hoperand⟩ := throughout_not.mp hfits
    exact legible_formDocument _ (ih hoperand)
  | bin name kind =>
    have hkind : (Bytes.utf8 kind.name).length < 2 ^ 32 := by cases kind <;> decide
    exact legible_formDocument _ (.list (by simp : 2 < 2 ^ 32)
      (List.forall_mem_cons.mpr ⟨.text hfits.root, List.forall_mem_singleton.mpr (.text hkind)⟩))
  | binExists name => exact legible_formDocument _ (.text hfits.root)
  | generation => exact .text (by decide)
  | literal v => exact legible_formDocument _ (Codec.messagePack_legible_toDocument hfits.root)

/-- An expression is read back from its bytes, for the checker to decide. -/
theorem ofBytes_toBytes (hplain : Throughout (fun _ f => f.Plain) 0 e)
    (hfits : Throughout (fun _ f => f.Fits) 0 e) (hnesting : e.toDocument.nesting ≤ 1023) :
    ofBytes e.toBytes = (e.check.mapError .refused).map fun _ => e := by
  have htree : Codec.tree .messagePack e.toBytes = (e.toDocument, []) := by
    simp only [Codec.tree, toBytes, MessagePack.read_print (legible_toDocument hfits)]
    rfl
  rw [ofBytes, htree]
  simp only [Codec.nestingLimit, ofDocument_toDocument hplain hnesting]
  rw [if_neg (fun h => h rfl)]
  cases e.check <;> rfl

/-- A token is read back as the expression that it was made of, or else refused for what the
checker finds wrong with that. -/
theorem ofToken_token (hplain : Throughout (fun _ f => f.Plain) 0 e)
    (hfits : Throughout (fun _ f => f.Fits) 0 e) (hnesting : e.toDocument.nesting ≤ 1023) :
    ofToken e.token = match e.check with
      | .ok _ => .ok e
      | .error why => .error (.invalid ("invalid expression: " ++ why.message)) := by
  have hbase64 : Base64.decode? .url .optional e.token = some e.toBytes :=
    Base64.decode?_encode Base64.Alphabet.url_faithful
      (by simp [Base64.Padding.allows, Base64.filling])
  rw [ofToken, hbase64]
  simp only [ofBytes_toBytes hplain hfits hnesting]
  cases e.check <;> rfl

/-- Whatever the bytes, what is read from them has passed the check. -/
theorem check_of_ofBytes {b : Bytes} (h : ofBytes b = .ok e) : e.check = .ok () := by
  unfold ofBytes at h
  simp only [] at h
  split at h
  · cases h
  · split at h
    · cases h
    · split at h <;> cases h
      assumption

/-- Whatever the token, what is read from it is a filter. -/
theorem isFilter_of_ofToken {token : String} (h : ofToken token = .ok e) : e.IsFilter := by
  unfold ofToken at h
  split at h
  · cases h
  · split at h <;> cases h
    exact check_eq_ok_iff.mp (check_of_ofBytes (by assumption))

/-- Tokens stand for the filters and for nothing else. An expression is written as a token, if no
map in its literals spells a tagged value, nothing in it is too long for its header and it nests no
deeper than the reader follows. Then a filter is read back from its token, and any other expression
is refused, for what the checker finds wrong with it. And whatever the token, what is read from it
is a filter. -/
theorem tokens_are_filters :
    (∀ e : Expression, (∀ n f, Node n e f → f.Plain) → (∀ n f, Node n e f → f.Fits) →
      e.toDocument.nesting ≤ 1023 →
        (e.IsFilter → ofToken e.token = .ok e) ∧
          (¬e.IsFilter → ∃ why, e.check = .error why ∧
            ofToken e.token = .error (.invalid ("invalid expression: " ++ why.message)))) ∧
      ∀ token e, ofToken token = .ok e → e.IsFilter := by
  refine ⟨fun e hplain hfits hnesting => ?_, fun _ _ => isFilter_of_ofToken⟩
  have hread := ofToken_token (e := e) hplain hfits hnesting
  rw [← check_eq_ok_iff]
  cases hcheck : e.check with
  | ok =>
    rw [hcheck] at hread
    exact ⟨fun _ => hread, fun h => absurd rfl h⟩
  | error why =>
    rw [hcheck] at hread
    exact ⟨nofun, fun _ => ⟨why, rfl, hread⟩⟩

/-- A filter with a comparison, a literal that holds a tag and no text, and a negation. -/
def sampleFilter : Expression :=
  and [compare .gt (bin "n" .int) (literal (.map [(bytesTag, .int 1)])), not (binExists "x"),
    literal (.bool true)]

/-- So many negations around a predicate. -/
def negations : Nat → Expression
  | 0 => binExists "x"
  | n + 1 => not (negations n)

theorem sampleFilter_throughout {P : Expression → Prop} (hand : P sampleFilter)
    (hcompare : P (compare .gt (bin "n" .int) (literal (.map [(bytesTag, .int 1)]))))
    (hbin : P (bin "n" .int)) (hmap : P (literal (.map [(bytesTag, .int 1)])))
    (hnot : P (not (binExists "x"))) (hexists : P (binExists "x"))
    (hbool : P (literal (.bool true))) : ∀ n f, Node n sampleFilter f → P f := by
  have hnodes : Throughout (fun _ f => P f) 0 sampleFilter := by
    refine throughout_and.mpr ⟨hand, List.forall_mem_cons.mpr ⟨?_, List.forall_mem_cons.mpr ⟨?_,
      List.forall_mem_singleton.mpr (.of_leaf trivial hbool)⟩⟩⟩
    · exact throughout_compare.mpr ⟨hcompare, .of_leaf trivial hbin, .of_leaf trivial hmap⟩
    · exact throughout_not.mpr ⟨hnot, .of_leaf trivial hexists⟩
  exact hnodes

theorem sampleFilter_plain : ∀ n f, Node n sampleFilter f → f.Plain := by
  have hleaf : ∀ v : Value, v.IsLeaf → v.WellFormed ∧ v.Untagged := fun v hv =>
    ⟨Value.wellFormed_leaf hv, (Value.everywhere_leaf hv).mpr fun ⟨_, _, _, h⟩ => by
      rw [h] at hv
      exact hv⟩
  have hone := hleaf (.int 1) trivial
  refine sampleFilter_throughout trivial trivial trivial ⟨?_, ?_⟩ trivial trivial
    (hleaf _ trivial)
  · exact Value.wellFormed_map.mpr
      ⟨List.pairwise_singleton _ _, List.forall_mem_singleton.mpr hone.1⟩
  · refine Value.everywhere_map.mpr ⟨?_, List.forall_mem_singleton.mpr hone.2⟩
    rintro ⟨_, _, _, h⟩
    cases h

theorem sampleFilter_fits : ∀ n f, Node n sampleFilter f → f.Fits := by
  have hleaf : ∀ v : Value, v.IsLeaf → v.Fits → v.Everywhere Value.Fits := fun v hv h =>
    (Value.everywhere_leaf hv).mpr h
  refine sampleFilter_throughout (by decide : 3 < 2 ^ 32) trivial (by decide : _ < 2 ^ 32) ?_
    trivial (by decide : _ < 2 ^ 32) (hleaf _ trivial trivial)
  exact Value.everywhere_map.mpr
    ⟨⟨by decide, List.forall_mem_singleton.mpr (by decide)⟩,
      List.forall_mem_singleton.mpr (hleaf _ trivial trivial)⟩

theorem negations_throughout {P : Expression → Prop} (hexists : P (binExists "x"))
    (hnot : ∀ e, P (not e)) (count : Nat) : ∀ n f, Node n (negations count) f → P f := by
  have hnodes : ∀ level, Throughout (fun _ f => P f) level (negations count) := by
    induction count with
    | zero => exact fun _ => .of_leaf trivial hexists
    | succ count ih => exact fun level => throughout_not.mpr ⟨hnot _, ih _⟩
  exact hnodes 0

theorem negations_nesting (count : Nat) : (negations count).toDocument.nesting = count + 1 := by
  induction count with
  | zero => rfl
  | succ count ih => rw [negations, toDocument, nesting_formDocument, ih]

/-- The sample is read back, and so are sixty-four negations, but not sixty-five. -/
theorem tokens_are_filters_samples :
    ofToken sampleFilter.token = .ok sampleFilter ∧
      ofToken (negations 64).token = .ok (negations 64) ∧
      ∃ why, (negations 65).check = .error why ∧
        ofToken (negations 65).token =
          .error (.invalid ("invalid expression: " ++ why.message)) := by
  obtain ⟨hread, -⟩ := tokens_are_filters
  have hplain : ∀ count n f, Node n (negations count) f → f.Plain :=
    negations_throughout trivial fun _ => trivial
  have hfits : ∀ count n f, Node n (negations count) f → f.Fits :=
    negations_throughout (by decide : _ < 2 ^ 32) fun _ => trivial
  have hnesting : ∀ count ≤ 65, (negations count).toDocument.nesting ≤ 1023 := fun count h => by
    rw [negations_nesting]
    omega
  refine ⟨?_, ?_, ?_⟩
  · exact (hread _ sampleFilter_plain sampleFilter_fits (by decide)).1 (check_eq_ok_iff.mp rfl)
  · exact (hread _ (hplain 64) (hfits 64) (hnesting 64 (by decide))).1 (check_eq_ok_iff.mp rfl)
  · exact (hread _ (hplain 65) (hfits 65) (hnesting 65 (by decide))).2
      (check_eq_ok_iff.not.mp nofun)

end Expression
end RecordService
