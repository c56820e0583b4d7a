import Mathlib.Tactic.IntervalCases
import RecordService.Proofs.Document.MessagePack
import RecordService.Proofs.Except

/-!
# MessagePack documents delimit themselves

Every header of MessagePack announces what comes behind it. So the reader neither looks at the bytes
behind a document nor is content with fewer than belong to it.

* `Document.BreaksOff`, `Document.Whole`: whether the bytes of a document end within it.
* `Document.CutShort`: a document that breaks off within another one.
* `Delimits`: a reader of the front of the bytes that is of this kind. `Delimits.bind` and its like
  put such readers together, up to `delimits_item`: one step of the loop is one.
* `Reads`: the loop reads a document from the front of the bytes, step by step.
* `read_append`: bytes behind a document change nothing but what is left of them.
* `read_cut`: what is read of a proper prefix is the document, cut short.
* `breaksOff_of_run`: and where the reader finds no end of a document, that breaks off.
-/

namespace RecordService

namespace Document

/-- The bytes of the document end within it, at some depth. -/
inductive BreaksOff : Document → Prop
  | broken (cut : Cut) : BreaksOff (.broken cut)
  | extension : BreaksOff (.extension false)
  | item {d : Document} {items : List Document} (hd : d ∈ items) (h : BreaksOff d) :
    BreaksOff (.list items)
  | key {e : Document × Document} {entries : List (Document × Document)} (he : e ∈ entries)
    (h : BreaksOff e.1) : BreaksOff (.map entries)
  | value {e : Document × Document} {entries : List (Document × Document)} (he : e ∈ entries)
    (h : BreaksOff e.2) : BreaksOff (.map entries)

/-- The document breaks off nowhere. -/
def Whole (d : Document) : Prop := ¬d.BreaksOff

theorem whole_list {items : List Document} : (list items).Whole ↔ ∀ d ∈ items, d.Whole := by
  refine ⟨fun h d hd hb => h (.item hd hb), fun h hb => ?_⟩
  cases hb with
  | item hd hb => exact h _ hd hb

theorem whole_map {entries : List (Document × Document)} :
    (map entries).Whole ↔ ∀ e ∈ entries, e.1.Whole ∧ e.2.Whole := by
  refine ⟨fun h e he => ⟨fun hb => h (.key he hb), fun hb => h (.value he hb)⟩, fun h hb => ?_⟩
  cases hb with
  | key he hb => exact (h _ he).1 hb
  | value he hb => exact (h _ he).2 hb

/-- A document that breaks off within another one. What follows the place where it does, in the
containers around it, may be anything. -/
inductive CutShort : Document → Document → Prop
  | broken (d : Document) (cut : Cut) : CutShort d (.broken cut)
  | extension : CutShort (.extension true) (.extension false)
  | item {d d' : Document} (front back : List Document) (h : CutShort d d') :
    CutShort (.list (front ++ d :: back)) (.list (front ++ [d']))
  | key {k k' : Document} (v v' : Document) (front back more : List (Document × Document))
    (h : CutShort k k') :
    CutShort (.map (front ++ (k, v) :: back)) (.map (front ++ (k', v') :: more))
  | value {v v' : Document} (k : Document) (front back more : List (Document × Document))
    (h : CutShort v v') :
    CutShort (.map (front ++ (k, v) :: back)) (.map (front ++ (k, v') :: more))

theorem CutShort.breaksOff {d d' : Document} (h : CutShort d d') : d'.BreaksOff := by
  induction h with
  | broken d cut => exact .broken cut
  | extension => exact .extension
  | item front back _ ih => exact .item (List.mem_append_right _ List.mem_cons_self) ih
  | key v v' front back more _ ih =>
    exact .key (List.mem_append_right _ List.mem_cons_self) ih
  | value k front back more _ ih =>
    exact .value (List.mem_append_right _ List.mem_cons_self) ih

end Document

namespace MessagePack

open Document (BreaksOff CutShort)

variable {α β ε ζ : Type}

/-! ## Readers that delimit what they read -/

/-- The reader takes the front of the bytes, whatever comes behind it, and of a proper prefix of it
makes an error that the relation allows for. -/
structure Takes (R : α → ε → Prop) (f : Bytes → Except ε (α × Bytes)) (front : Bytes) (a : α) :
    Prop where
  append : ∀ rest, f (front ++ rest) = .ok (a, rest)
  cut : ∀ {p q}, front = p ++ q → q ≠ [] → ∃ e, f p = .error e ∧ R a e

/-- Whatever the reader takes from the front of some bytes, it takes from all others that begin
alike, and from no proper prefix. -/
def Delimits (R : α → ε → Prop) (f : Bytes → Except ε (α × Bytes)) : Prop :=
  ∀ b a rest, f b = .ok (a, rest) → ∃ front, b = front ++ rest ∧ Takes R f front a

variable {R : α → ε → Prop} {f : Bytes → Except ε (α × Bytes)} {front back rest : Bytes} {a : α}

/-- A place in two pieces of bytes is in the second one, or within the first one. -/
theorem cut_cases {p q : Bytes} (h : front ++ back = p ++ q) :
    (∃ p', p = front ++ p' ∧ back = p' ++ q) ∨ ∃ q', q' ≠ [] ∧ front = p ++ q' := by
  obtain ⟨p', hp, hback⟩ | ⟨q', hfront, hq⟩ := List.append_eq_append_iff.mp h
  · exact .inl ⟨p', hp, hback⟩
  · cases q' with
    | nil => exact .inl ⟨[], by simpa using hfront.symm, hq.symm⟩
    | cons b q' => exact .inr ⟨_, List.cons_ne_nil b q', hfront⟩

theorem takes_nil (h : ∀ rest, f rest = .ok (a, rest)) : Takes R f [] a where
  append := h
  cut hpq hq := absurd (List.append_eq_nil_iff.mp hpq.symm).2 hq

@[simp]
theorem delimits_ok (a : α) : Delimits R fun b => .ok (a, b) := by
  rintro b _ _ ⟨⟩
  exact ⟨[], rfl, takes_nil fun _ => rfl⟩

theorem delimits_ite {c : Prop} [Decidable c] {f g : Bytes → Except ε (α × Bytes)}
    (hf : c → Delimits R f) (hg : ¬c → Delimits R g) :
    Delimits R fun b => if c then f b else g b := by
  by_cases h : c
  · simpa only [if_pos h] using hf h
  · simpa only [if_neg h] using hg h

/-- Reads a part of the given length. -/
def part (count : Nat) (make : Bytes → α) (e : ε) (b : Bytes) : Except ε (α × Bytes) :=
  match take? count b with
  | some (front, rest) => .ok (make front, rest)
  | none => .error e

theorem take?_eq_some_iff {count : Nat} {b : Bytes} :
    take? count b = some (front, rest) ↔ b = front ++ rest ∧ front.length = count := by
  simp only [take?]
  constructor
  · intro h
    split at h
    · rename_i hlen
      cases h
      exact ⟨(List.take_append_drop ..).symm, hlen⟩
    · cases h
  · rintro ⟨rfl, rfl⟩
    simp

@[simp]
theorem delimits_part {count : Nat} {make : Bytes → α} {e : ε} (h : ∀ b, R (make b) e) :
    Delimits R (part count make e) := by
  intro b a rest hb
  unfold part at hb
  split at hb
  · rename_i front rest' htake
    cases hb
    obtain ⟨rfl, rfl⟩ := take?_eq_some_iff.mp htake
    refine ⟨front, rfl, fun rest => by rw [part, take?_append], fun {p q} hpq hq => ?_⟩
    refine ⟨e, ?_, h _⟩
    -- A proper prefix is too short.
    have hlen : 0 < q.length := List.length_pos_iff.mpr hq
    rw [part, take?, if_neg (by rw [hpq, List.length_take, List.length_append]; omega)]
  · cases hb

theorem Takes.bind {S : β → ε → Prop} {g : α → Bytes → Except ε (β × Bytes)} {c : β}
    (h : Takes R f front a) (h' : Takes S (g a) back c) (hRS : ∀ e, R a e → S c e) :
    Takes S (fun b => (f b).bind fun r => g r.1 r.2) (front ++ back) c where
  append rest := by
    show (f _).bind _ = _
    rw [List.append_assoc, h.append]
    exact h'.append rest
  cut hpq hq := by
    obtain ⟨p', rfl, hback⟩ | ⟨q', hq', hfront⟩ := cut_cases hpq
    · obtain ⟨e, he, hS⟩ := h'.cut hback hq
      refine ⟨e, ?_, hS⟩
      show (f _).bind _ = _
      rw [h.append]
      exact he
    · obtain ⟨e, he, hR⟩ := h.cut hfront hq'
      refine ⟨e, ?_, hRS e hR⟩
      show (f _).bind _ = _
      rw [he]
      rfl

theorem Delimits.bind {S : β → ε → Prop} {g : α → Bytes → Except ε (β × Bytes)}
    (hf : Delimits R f) (hg : ∀ a, Delimits S (g a)) (hRS : ∀ a c e, R a e → S c e) :
    Delimits S fun b => (f b).bind fun r => g r.1 r.2 := by
  intro b c rest hb
  obtain ⟨⟨a, rest'⟩, ha, hc⟩ := bind_eq_ok_iff.mp hb
  obtain ⟨front, rfl, hfront⟩ := hf _ _ _ ha
  obtain ⟨back, rfl, hback⟩ := hg a _ _ _ hc
  exact ⟨front ++ back, (List.append_assoc ..).symm, hfront.bind hback (hRS a c)⟩

theorem Delimits.mapError {S : α → ζ → Prop} {m : ε → ζ} (h : Delimits R f)
    (hRS : ∀ a e, R a e → S a (m e)) : Delimits S fun b => (f b).mapError m := by
  intro b a rest hb
  obtain ⟨front, rfl, hfront⟩ := h _ _ _ (mapError_eq_ok_iff.mp hb)
  refine ⟨front, rfl, fun rest => by rw [hfront.append]; rfl, fun hpq hq => ?_⟩
  obtain ⟨e, he, hR⟩ := hfront.cut hpq hq
  exact ⟨m e, by rw [he]; rfl, hRS a e hR⟩

/-! ## Headers -/

@[simp]
theorem delimits_lengthOf (header : Nat → Header) (count : Nat) :
    Delimits (fun _ _ => True) (lengthOf header count) := by
  have heq : lengthOf header count =
      part count (fun b => header (Bytes.ofBigEndian b)) .inOther := by
    funext b
    rw [lengthOf, number?, part]
    cases take? count b <;> rfl
  rw [heq]
  exact delimits_part fun _ => trivial

@[simp]
theorem delimits_numberLeaf (leaf : Nat → Document) (count : Nat) :
    Delimits (fun _ _ => True) (numberLeaf leaf count) := by
  have heq : numberLeaf leaf count =
      part count (fun b => .leaf (leaf (Bytes.ofBigEndian b))) .inNumber := by
    funext b
    rw [numberLeaf, number?, part]
    cases take? count b <;> rfl
  rw [heq]
  exact delimits_part fun _ => trivial

theorem delimits_wideHeader {first : Nat} (hlow : 0xC0 ≤ first) (hhigh : first < 0xE0) :
    Delimits (fun _ _ => True) fun rest => wideHeader first rest := by
  interval_cases first <;> simp [wideHeader, unsignedLeaf, signedLeaf]

theorem delimits_readHeader : Delimits (fun _ _ => True) readHeader := by
  have hcons (x : UInt8) : Delimits (fun _ _ => True) fun rest => readHeader (x :: rest) := by
    refine delimits_ite (fun _ => delimits_ok _) fun _ => ?_
    refine delimits_ite (fun _ => delimits_ok _) fun _ => ?_
    refine delimits_ite (fun _ => delimits_ok _) fun _ => ?_
    refine delimits_ite (fun _ => delimits_ok _) fun hlow => ?_
    exact delimits_ite (fun hhigh => delimits_wideHeader (Nat.le_of_not_lt hlow) hhigh)
      fun _ => delimits_ok _
  intro b header rest hb
  cases b with
  | nil => cases hb
  | cons x b =>
    obtain ⟨front, rfl, h⟩ := hcons x b header rest hb
    refine ⟨x :: front, rfl, h.append, fun {p q} hpq hq => ?_⟩
    cases p with
    | nil => exact ⟨.before, rfl, trivial⟩
    | cons y p =>
      obtain ⟨rfl, hfront⟩ := List.cons.inj hpq
      exact h.cut hfront hq

/-! ## Steps -/

/-- What a step finds: a tree, or the beginning of a container. -/
inductive Found
  | tree (d : Document)
  | opened (o : Open)

namespace Found

/-- A document begins with what was found. -/
def Begins : Found → Document → Prop
  | tree d, x => x = d
  | opened _, _ => True

/-- Puts what was found in its place: the outermost tree that it completes, or the containers that
are open then. -/
def settle : Found → List Open → Document ⊕ List Open
  | tree d, stack => place d stack
  | opened o, stack => .inr (o :: stack)

/-- What is found of a container that announces so many items. -/
def container (empty : Document) (o : Open) (count : Nat) : Found :=
  if count = 0 then tree empty else opened o

/-- A tree breaks off in whatever begins with what was found. -/
def Stump (found : Found) (s : Document) : Prop := ∀ x, found.Begins x → CutShort x s

theorem stump_broken (found : Found) (cut : Cut) : found.Stump (.broken cut) :=
  fun x _ => .broken x cut

end Found

/-- Reads what a header announces. -/
def content : Header → Bytes → Except Document (Found × Bytes)
  | .leaf d, b => .ok (.tree d, b)
  | .text n, b => part n (fun t => .tree (textLeaf t)) (.broken .inOther) b
  | .bytes n, b => part n (fun t => .tree (.bytes t)) (.broken .inOther) b
  | .extension n, b => part (n + 1) (fun _ => .tree (.extension true)) (.extension false) b
  | .list n, b => .ok (.container (.list []) (.list n []) n, b)
  | .map n, b => .ok (.container (.map []) (.key n []) n, b)

/-- Reads what a step finds, or the tree behind which nothing can be read. -/
def item (b : Bytes) : Except Document (Found × Bytes) :=
  ((readHeader b).mapError .broken).bind fun r => content r.1 r.2

/-- A step reads an item and puts it in its place. -/
theorem step_eq (stack : List Open) (b : Bytes) :
    step stack b = match item b with
      | .error s => stuck s stack
      | .ok (found, rest) =>
        match found.settle stack with
        | .inl d => .inl ⟨d, some rest⟩
        | .inr stack => .inr (stack, rest) := by
  rw [step, item]
  rcases readHeader b with cut | ⟨header, rest⟩
  · rfl
  show _ = match content header rest with
      | .error s => stuck s stack
      | .ok (found, rest) =>
        match found.settle stack with
        | .inl d => .inl ⟨d, some rest⟩
        | .inr stack => .inr (stack, rest)
  cases header with
  | leaf d => rfl
  | text n => simp only [content, part]; cases take? n rest <;> rfl
  | bytes n => simp only [content, part]; cases take? n rest <;> rfl
  | extension n => simp only [content, part]; cases take? (n + 1) rest <;> rfl
  | list n => simp only [content, Found.container]; split <;> rfl
  | map n => simp only [content, Found.container]; split <;> rfl

theorem delimits_content (header : Header) : Delimits Found.Stump fun b => content header b := by
  cases header with
  | leaf d => exact delimits_ok _
  | text n => exact delimits_part fun b => Found.stump_broken _ _
  | bytes n => exact delimits_part fun b => Found.stump_broken _ _
  | extension n => exact delimits_part fun b x hx => hx ▸ .extension
  | list n => exact delimits_ok _
  | map n => exact delimits_ok _

theorem delimits_item : Delimits Found.Stump item := by
  have hheader : Delimits (fun _ e => ∃ cut, e = .broken cut)
      fun b => (readHeader b).mapError Document.broken :=
    delimits_readHeader.mapError fun _ cut _ => ⟨cut, rfl⟩
  refine hheader.bind delimits_content ?_
  rintro _ found _ ⟨cut, rfl⟩
  exact found.stump_broken cut

theorem Takes.ne_nil {found : Found} (h : Takes Found.Stump item front found) : front ≠ [] := by
  rintro rfl
  cases h.append []

/-! ## Open containers -/

/-- The document has the tree at the place that is due next in the open containers. -/
def Fills : List Open → Document → Document → Prop
  | [], x, d => x = d
  | .list _ done :: outer, x, d => ∃ back, Fills outer (.list (done.reverse ++ x :: back)) d
  | .key _ done :: outer, x, d => ∃ v back, Fills outer (.map (done.reverse ++ (x, v) :: back)) d
  | .value _ done key :: outer, x, d =>
    ∃ back, Fills outer (.map (done.reverse ++ (key, x) :: back)) d

/-- Closing the open containers around a tree that breaks off makes a document that does. -/
theorem Fills.cutShort {stack : List Open} {x s d : Document} (h : Fills stack x d)
    (hs : CutShort x s) : CutShort d (closeAll s stack) := by
  induction stack generalizing x s with
  | nil => exact h ▸ hs
  | cons o outer ih =>
    cases o with
    | list left done =>
      obtain ⟨back, h⟩ := h
      rw [closeAll, List.reverse_cons]
      exact ih h (.item _ back hs)
    | key left done =>
      obtain ⟨v, back, h⟩ := h
      rw [closeAll, List.reverseAux_eq, List.reverse_cons, List.append_assoc]
      exact ih h (.key v _ _ back _ hs)
    | value left done key =>
      obtain ⟨back, h⟩ := h
      rw [closeAll, List.reverseAux_eq, List.reverse_cons, List.append_assoc]
      exact ih h (.value key _ back _ hs)

theorem fills_of_place_inl {stack : List Open} {x d : Document} (h : place x stack = .inl d) :
    Fills stack x d := by
  induction stack generalizing x with
  | nil => exact Sum.inl.inj h
  | cons o outer ih =>
    cases o with
    | list left done =>
      simp only [place] at h
      split at h
      · exact ⟨[], by simpa using ih h⟩
      · cases h
    | key left done => cases h
    | value left done key =>
      simp only [place] at h
      split at h
      · exact ⟨[], by simpa using ih h⟩
      · cases h

/-- What is put in its place stays there, whatever comes next. -/
theorem fills_of_place_inr {stack stack' : List Open} {x y d : Document}
    (h : place x stack = .inr stack') (hy : Fills stack' y d) : Fills stack x d := by
  induction stack generalizing x with
  | nil => cases h
  | cons o outer ih =>
    cases o with
    | list left done =>
      simp only [place] at h
      split at h
      · exact ⟨[], by simpa using ih h⟩
      · cases h
        obtain ⟨back, hy⟩ := hy
        exact ⟨y :: back, by simpa using hy⟩
    | key left done =>
      cases h
      obtain ⟨back, hy⟩ := hy
      exact ⟨y, back, hy⟩
    | value left done key =>
      simp only [place] at h
      split at h
      · exact ⟨[], by simpa using ih h⟩
      · cases h
        obtain ⟨v, back, hy⟩ := hy
        exact ⟨(y, v) :: back, by simpa using hy⟩

theorem fills_of_settle_inl {found : Found} {stack : List Open} {d : Document}
    (h : found.settle stack = .inl d) : ∃ x, found.Begins x ∧ Fills stack x d := by
  cases found with
  | tree x => exact ⟨x, rfl, fills_of_place_inl h⟩
  | opened o => cases h

theorem fills_of_settle_inr {found : Found} {stack stack' : List Open} {y d : Document}
    (h : found.settle stack = .inr stack') (hy : Fills stack' y d) :
    ∃ x, found.Begins x ∧ Fills stack x d := by
  cases found with
  | tree x => exact ⟨x, rfl, fills_of_place_inr h hy⟩
  | opened o =>
    cases h
    cases o with
    | list => obtain ⟨_, hy⟩ := hy; exact ⟨_, trivial, hy⟩
    | key => obtain ⟨_, _, hy⟩ := hy; exact ⟨_, trivial, hy⟩
    | value => obtain ⟨_, hy⟩ := hy; exact ⟨_, trivial, hy⟩

/-! ## The loop -/

/-- With containers open, the loop reads a document from the front of the bytes, an item at a
time. -/
inductive Reads : List Open → Bytes → Document → Bytes → Prop
  | last {stack : List Open} {front : Bytes} {found : Found} {d : Document} (rest : Bytes)
    (h : Takes Found.Stump item front found) (hs : found.settle stack = .inl d) :
    Reads stack (front ++ rest) d rest
  | more {stack stack' : List Open} {front b rest : Bytes} {found : Found} {d : Document}
    (h : Takes Found.Stump item front found) (hs : found.settle stack = .inr stack')
    (h' : Reads stack' b d rest) : Reads stack (front ++ b) d rest

variable {stack : List Open} {b : Bytes} {d : Document}

theorem reads_of_run {fuel : Nat} (h : run fuel stack b = ⟨d, some rest⟩) :
    Reads stack b d rest := by
  induction fuel generalizing stack b with
  | zero => cases h
  | succ fuel ih =>
    rw [run_succ, step_eq] at h
    split at h
    · cases h
    · rename_i found rest' hitem
      obtain ⟨front, rfl, htakes⟩ := delimits_item _ _ _ hitem
      split at h
      · rename_i d' hs
        cases h
        exact .last _ htakes hs
      · rename_i stack' hs
        exact .more htakes hs (ih h)

theorem Reads.append (h : Reads stack b d rest) (x : Bytes) :
    Reads stack (b ++ x) d (rest ++ x) := by
  induction h with
  | last rest h hs =>
    rw [List.append_assoc]
    exact .last _ h hs
  | more h hs _ ih =>
    rw [List.append_assoc]
    exact .more h hs ih

/-- The loop reads an item and goes on behind it. -/
theorem run_item {found : Found} (h : Takes Found.Stump item front found) (fuel : Nat)
    (stack : List Open) (rest : Bytes) :
    run (fuel + 1) stack (front ++ rest) = match found.settle stack with
      | .inl d => ⟨d, some rest⟩
      | .inr stack => run fuel stack rest := by
  rw [run_succ, step_eq, h.append]
  show goOn fuel (match found.settle stack with
      | .inl d => .inl ⟨d, some rest⟩
      | .inr stack => .inr (stack, rest)) = _
  cases found.settle stack <;> rfl

theorem Reads.run_eq (h : Reads stack b d rest) {fuel : Nat} (hfuel : b.length < fuel) :
    run fuel stack b = ⟨d, some rest⟩ := by
  induction h generalizing fuel with
  | last rest h hs =>
    cases fuel with
    | zero => exact absurd hfuel (Nat.not_lt_zero _)
    | succ fuel => rw [run_item h, hs]
  | more h hs _ ih =>
    cases fuel with
    | zero => exact absurd hfuel (Nat.not_lt_zero _)
    | succ fuel =>
      have hpos := List.length_pos_iff.mpr h.ne_nil
      rw [List.length_append] at hfuel
      rw [run_item h, hs]
      exact ih (by omega)

theorem Reads.fills (h : Reads stack b d rest) : ∃ x, Fills stack x d := by
  induction h with
  | last rest h hs => exact (fills_of_settle_inl hs).imp fun _ => And.right
  | more h hs _ ih =>
    obtain ⟨y, hy⟩ := ih
    exact (fills_of_settle_inr hs hy).imp fun _ => And.right

/-- Where the next item breaks off, so does the document. -/
theorem run_cut_item {found : Found} {x : Document} {p q : Bytes} {fuel : Nat}
    (h : Takes Found.Stump item (p ++ q) found) (hq : q ≠ []) (hx : found.Begins x)
    (hd : Fills stack x d) (hfuel : p.length < fuel) :
    ∃ d', run fuel stack p = ⟨d', none⟩ ∧ CutShort d d' := by
  obtain ⟨s, hitem, hs⟩ := h.cut rfl hq
  cases fuel with
  | zero => exact absurd hfuel (Nat.not_lt_zero _)
  | succ fuel => exact ⟨_, by rw [run_succ, step_eq, hitem]; rfl, hd.cutShort (hs x hx)⟩

/-- Of a proper prefix of what the loop reads a document from it makes one that breaks off. -/
theorem Reads.cut (h : Reads stack b d rest) {p q : Bytes} (hb : b = p ++ q ++ rest) (hq : q ≠ [])
    {fuel : Nat} (hfuel : p.length < fuel) :
    ∃ d', run fuel stack p = ⟨d', none⟩ ∧ CutShort d d' := by
  induction h generalizing p fuel with
  | last rest h hs =>
    obtain rfl := List.append_cancel_right hb
    obtain ⟨x, hx, hd⟩ := fills_of_settle_inl hs
    exact run_cut_item h hq hx hd hfuel
  | @more stack stack' front b rest found d h hs h' ih =>
    rw [List.append_assoc] at hb
    obtain ⟨p', rfl, hback⟩ | ⟨q', hq', rfl⟩ := cut_cases hb
    · -- The first item is whole, and the cut is behind it.
      have hpos := List.length_pos_iff.mpr h.ne_nil
      rw [List.length_append] at hfuel
      cases fuel with
      | zero => exact absurd hfuel (Nat.not_lt_zero _)
      | succ fuel =>
        rw [run_item h, hs]
        exact ih (by rw [hback, List.append_assoc]) (by omega)
    · obtain ⟨y, hy⟩ := h'.fills
      obtain ⟨x, hx, hd⟩ := fills_of_settle_inr hs hy
      exact run_cut_item h hq' hx hd hfuel

theorem breaksOff_of_item {s : Document} (h : item b = .error s) : s.BreaksOff := by
  have hpart {count : Nat} {make : Bytes → Found} {stump s : Document} {b : Bytes}
      (hstump : stump.BreaksOff) (h : part count make stump b = .error s) : s.BreaksOff := by
    unfold part at h
    split at h <;> cases h
    exact hstump
  unfold item at h
  rcases hread : readHeader b with cut | ⟨header, rest⟩
  · rw [hread] at h
    cases h
    exact .broken cut
  · rw [hread] at h
    cases header with
    | text n => exact hpart (.broken _) h
    | bytes n => exact hpart (.broken _) h
    | extension n => exact hpart .extension h
    | leaf => cases h
    | list => cases h
    | map => cases h

theorem breaksOff_closeAll {s : Document} (h : s.BreaksOff) (stack : List Open) :
    (closeAll s stack).BreaksOff := by
  induction stack generalizing s with
  | nil => exact h
  | cons o outer ih =>
    cases o with
    | list left done => exact ih (.item (List.mem_reverse.mpr List.mem_cons_self) h)
    | key left done =>
      rw [closeAll, List.reverseAux_eq]
      exact ih (.key (List.mem_append_left _ (List.mem_reverse.mpr List.mem_cons_self)) h)
    | value left done key =>
      rw [closeAll, List.reverseAux_eq]
      exact ih (.value (List.mem_append_left _ (List.mem_reverse.mpr List.mem_cons_self)) h)

/-- Where the loop finds no end, the document breaks off. -/
theorem breaksOff_of_run {fuel : Nat} (h : run fuel stack b = ⟨d, none⟩) : d.BreaksOff := by
  induction fuel generalizing stack b with
  | zero =>
    cases h
    exact breaksOff_closeAll (.broken _) stack
  | succ fuel ih =>
    rw [run_succ, step_eq] at h
    split at h
    · rename_i s hitem
      cases h
      exact breaksOff_closeAll (breaksOff_of_item hitem) stack
    · split at h
      · cases h
      · exact ih h

/-! ## Documents -/

/-- Bytes behind a document change nothing but what is left of them. -/
theorem read_append (h : read b = ⟨d, some rest⟩) (x : Bytes) :
    read (b ++ x) = ⟨d, some (rest ++ x)⟩ :=
  ((reads_of_run h).append x).run_eq (Nat.lt_succ_self _)

/-- What is read of a proper prefix of the bytes of a document is the document, cut short. -/
theorem read_cut {p q : Bytes} (h : read (p ++ q) = ⟨d, some []⟩) (hq : q ≠ []) :
    ∃ d', read p = ⟨d', none⟩ ∧ CutShort d d' :=
  (reads_of_run h).cut (List.append_nil _).symm hq (Nat.lt_succ_self _)

end MessagePack
end RecordService
