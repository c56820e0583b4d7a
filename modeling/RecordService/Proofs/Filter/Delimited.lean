import RecordService.Proofs.Filter.Token
import RecordService.Proofs.Payload.Delimited

/-!
# Filters delimit themselves

Like a value, a filter in MessagePack is neither read from a part of its bytes nor from more than
these.

* `Expression.ofDocument_whole`: a document with an expression is whole.
* `Expression.ofBytes_append`, `Expression.ofBytes_cut`: more bytes than those of a filter, and
  less.
* `payloads_selfDelimiting`: no proper prefix of a value or a filter is read, and none with more
  behind it.
-/

namespace RecordService

namespace Expression

variable {depth : Nat}

/-! ## Documents -/

theorem formOf_whole {d : Document} {form : Form} (h : formOf depth d = .ok form) : d.Whole := by
  obtain ⟨_, h, -⟩ := map_eq_ok_iff.mp h
  exact variantIndex_whole h

theorem fitBin_whole (i depth : Nat) (d : Document) (s s' : BinDraft)
    (h : fitBin i depth d s = .ok s') : d.Whole := by
  unfold fitBin at h
  split at h
  · obtain ⟨_, h, -⟩ := map_eq_ok_iff.mp h
    exact Document.asText_whole h
  · obtain ⟨_, h, -⟩ := map_eq_ok_iff.mp h
    obtain ⟨_, h, -⟩ := map_eq_ok_iff.mp h
    exact bareVariant_whole h

theorem binOf_whole {d : Document} {e : Expression} (h : binOf depth d = .ok e) : d.Whole := by
  obtain ⟨_, h, -⟩ := bind_eq_ok_iff.mp h
  exact readFields_whole fitBin_whole h

theorem ofEmpty_whole {d : Document} {e : Expression} (h : ofEmpty d = .ok e) : d.Whole := by
  intro hd
  cases hd <;> cases h

theorem ofNoList_whole {d : Document} {es : List Expression} (h : ofNoList depth d = .ok es) :
    d.Whole := by
  intro hd
  cases hd <;> cases h

mutual

/-- A document with an expression is whole. -/
theorem ofDocument_whole (depth : Nat) :
    ∀ (d : Document) {e : Expression}, ofDocument depth d = .ok e → d.Whole
  | .map [(k, d)], _, h => by
    obtain ⟨form, hk, h⟩ := bind_eq_ok_iff.mp h
    refine Document.whole_map.mpr (List.forall_mem_singleton.mpr ⟨formOf_whole hk, ?_⟩)
    cases form with
    | compare op =>
      obtain ⟨_, h, -⟩ := bind_eq_ok_iff.mp h
      exact listOf_whole depth _ d h
    | and =>
      obtain ⟨_, h, -⟩ := map_eq_ok_iff.mp h
      exact listOf_whole depth _ d h
    | or =>
      obtain ⟨_, h, -⟩ := map_eq_ok_iff.mp h
      exact listOf_whole depth _ d h
    | not =>
      obtain ⟨_, h, -⟩ := map_eq_ok_iff.mp h
      exact ofDocument_whole depth d h
    | bin => exact binOf_whole h
    | binExists =>
      obtain ⟨_, h, -⟩ := map_eq_ok_iff.mp h
      exact Document.asText_whole h
    | generation => exact ofEmpty_whole h
    | literal =>
      obtain ⟨_, h, -⟩ := map_eq_ok_iff.mp h
      exact Value.ofDocument_whole depth d h
  | .map [], _, h | .map (_ :: _ :: _), _, h => nomatch h
  | .null, _, h | .bool _, _, h | .natural _ _, _, h | .integer _ _, _, h | .float _, _, h
  | .text _, _, h | .rawText _, _, h | .bytes _, _, h | .extension _, _, h | .reserved, _, h
  | .list _, _, h | .unreadable, _, h | .broken _, _, h => by
    obtain ⟨_, h, -⟩ := bind_eq_ok_iff.mp h
    exact formOf_whole h

theorem listOf_whole (depth : Nat) (limit : Option Nat) :
    ∀ (d : Document) {es : List Expression}, listOf depth limit d = .ok es → d.Whole
  | .list items, _, h => by
    cases depth with
    | zero => cases h
    | succ depth => exact Document.whole_list.mpr (itemsOf_whole depth limit items h)
  | .null, _, h | .bool _, _, h | .natural _ _, _, h | .integer _ _, _, h | .float _, _, h
  | .text _, _, h | .rawText _, _, h | .bytes _, _, h | .extension _, _, h | .reserved, _, h
  | .map _, _, h | .unreadable, _, h | .broken _, _, h => ofNoList_whole h

theorem itemsOf_whole (depth : Nat) (limit : Option Nat) :
    ∀ (items : List Document) {es : List Expression}, itemsOf depth limit items = .ok es →
      ∀ d ∈ items, d.Whole
  | [], _, _ => List.forall_mem_nil _
  | d :: rest, _, h => by
    obtain ⟨-, h⟩ := error_or_eq_ok_iff.mp h
    obtain ⟨_, hd, h⟩ := bind_eq_ok_iff.mp h
    obtain ⟨_, h, -⟩ := map_eq_ok_iff.mp h
    exact List.forall_mem_cons.mpr ⟨ofDocument_whole depth d hd, itemsOf_whole depth _ rest h⟩

end

/-! ## Bytes -/

variable {b p q : Bytes} {e : Expression}

theorem tree_of_ofBytes (h : ofBytes b = .ok e) :
    ∃ d, Codec.tree .messagePack b = (d, []) ∧
      ofDocument Codec.messagePack.nestingLimit d = .ok e := by
  cases htree : Codec.tree .messagePack b with
  | mk d rest =>
    simp only [ofBytes, htree] at h
    split at h
    · cases h
    · rename_i he
      split at h
      · cases h
      · rename_i hrest
        split at h <;> cases h
        exact ⟨d, by rw [not_not.mp hrest], he⟩

theorem ofBytes_append (h : ofBytes b = .ok e) {x : Bytes} (hx : x ≠ []) :
    ofBytes (b ++ x) = .error (.trailing x.length) := by
  obtain ⟨d, htree, he⟩ := tree_of_ofBytes h
  simp only [ofBytes, Codec.tree_append htree (ofDocument_whole _ d he), he, if_pos hx]

theorem ofBytes_cut (h : ofBytes (p ++ q) = .ok e) (hq : q ≠ []) :
    ∃ why, ofBytes p = .error (.undecodable why) := by
  obtain ⟨d, htree, he⟩ := tree_of_ofBytes h
  obtain ⟨d', htree', hcut⟩ := Codec.tree_cut htree (ofDocument_whole _ d he) hq
  cases he' : ofDocument Codec.messagePack.nestingLimit d' with
  | error why => exact ⟨why, by simp only [ofBytes, htree', he']⟩
  | ok e' => exact absurd hcut.breaksOff (ofDocument_whole _ d' he')

end Expression

/-! ## Payloads -/

/-- The bytes of a payload in MessagePack tell where it ends. If a value is read from some bytes, a
proper prefix of them is malformed, and so are they with more behind them, which are counted. If a
filter is, a proper prefix is undecodable, and what stands behind it is refused. -/
theorem payloads_selfDelimiting :
    (∀ (b : Bytes) (v : Value), Codec.readValue .messagePack b = .ok v →
      (∀ p, p <+: b → p ≠ b → Codec.readValue .messagePack p =
        .error (.malformed .messagePack Fault.malformed.message)) ∧
      ∀ x, x ≠ [] → Codec.readValue .messagePack (b ++ x) =
        .error (.malformed .messagePack (toString x.length ++ " trailing bytes after payload"))) ∧
    ∀ (b : Bytes) (e : Expression), Expression.ofBytes b = .ok e →
      (∀ p, p <+: b → p ≠ b → ∃ why, Expression.ofBytes p = .error (.undecodable why)) ∧
      ∀ x, x ≠ [] → Expression.ofBytes (b ++ x) = .error (.trailing x.length) := by
  have hproper {p q b : Bytes} (hb : p ++ q = b) (hne : p ≠ b) : q ≠ [] := by
    rintro rfl
    exact hne (by rwa [List.append_nil] at hb)
  refine ⟨fun b v h => ⟨?_, fun x hx => Codec.readValue_append h hx⟩,
    fun b e h => ⟨?_, fun x hx => Expression.ofBytes_append h hx⟩⟩
  · rintro p ⟨q, rfl⟩ hne
    exact Codec.readValue_cut h (hproper rfl hne)
  · rintro p ⟨q, rfl⟩ hne
    exact Expression.ofBytes_cut h (hproper rfl hne)

/-- A list of a map with one entry and of a number in more room than it needs. -/
def roomyBytes : Bytes := [0x92, 0x81, 0xA1, 0x61, 0xC0, 0xCD, 0x00, 0x07]

theorem payloads_selfDelimiting_samples :
    Codec.readValue .messagePack roomyBytes = .ok (.list [.map [("a", .null)], .int 7]) ∧
      Codec.readValue .messagePack (roomyBytes.take 7) =
        .error (.malformed .messagePack "<parser>") ∧
      Codec.readValue .messagePack (roomyBytes ++ [0xC0, 0xC0]) =
        .error (.malformed .messagePack "2 trailing bytes after payload") ∧
      Expression.ofBytes (Expression.binExists "x").toBytes = .ok (.binExists "x") ∧
      (∃ why, Expression.ofBytes ((Expression.binExists "x").toBytes.take 3) =
        .error (.undecodable why)) ∧
      Expression.ofBytes ((Expression.binExists "x").toBytes ++ [0x00]) =
        .error (.trailing 1) := by
  have hv : Codec.readValue .messagePack roomyBytes = .ok (.list [.map [("a", .null)], .int 7]) :=
    rfl
  have he : Expression.ofBytes (Expression.binExists "x").toBytes = .ok (.binExists "x") := rfl
  obtain ⟨hvalues, hfilters⟩ := payloads_selfDelimiting
  exact ⟨hv, (hvalues _ _ hv).1 _ (List.take_prefix 7 _) (by decide),
    (hvalues _ _ hv).2 _ (by decide), he,
    (hfilters _ _ he).1 _ (List.take_prefix 3 _) (by decide), (hfilters _ _ he).2 _ (by decide)⟩

end RecordService
