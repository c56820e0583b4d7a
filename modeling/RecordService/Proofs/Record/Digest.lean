import RecordService.Proofs.Bytes
import RecordService.Proofs.Store.Write
import RecordService.Record.Key

/-!
# What a digest is a hash of

The bytes that are hashed for a key in a set can be read from the front. A mark tells whether there
is a set, and eight bytes how long its name is; the name follows, then a mark of the kind of the
key, and the key is the rest. So no other set and key have the same bytes, and two addresses of a
namespace reach the same record only where the hash takes different bytes for one another.

* `Key.setBytes_append_inj`: the bytes of a set are told from those of any other, whatever follows.
* `Key.source_inj`: what stands for a key is told from what stands for any other.
* `Key.hashInput?_inj`: so are the bytes that are hashed.
* `Store.get_congr`: what a read of an address depends on.
* `Address.digests_apart`: where the hash tells their bytes apart, different addresses are different
  records, and nothing that is written to one is seen by a read of the other.
-/

namespace RecordService

namespace Key

variable {set set' : Option String} {k k' : Key} {b : Bytes}

/-- A key is hashed if it is no digest. -/
def IsHashed (k : Key) : Prop := ∀ d, k ≠ .digest d

/-- The length of the name of a set, if there is one, fits its eight bytes. -/
def NameFits (set : Option String) : Prop := ∀ name ∈ set, (Bytes.utf8 name).length < 2 ^ 64

instance (set : Option String) : Decidable (NameFits set) :=
  inferInstanceAs (Decidable (∀ name ∈ set, (Bytes.utf8 name).length < 2 ^ 64))

/-- The bytes of a set end where they say. -/
theorem setBytes_append_inj (hset : NameFits set) (hset' : NameFits set') {rest rest' : Bytes}
    (h : setBytes set ++ rest = setBytes set' ++ rest') : set = set' ∧ rest = rest' := by
  cases set with
  | none =>
    cases set' with
    | none => exact ⟨rfl, List.append_cancel_left h⟩
    | some name' => cases (List.cons.inj h).1
  | some name =>
    cases set' with
    | none => cases (List.cons.inj h).1
    | some name' =>
      simp only [setBytes, List.cons_append, List.append_assoc, List.cons.injEq, true_and] at h
      have hwidth : (Bytes.bigEndian 8 (Bytes.utf8 name).length).length =
          (Bytes.bigEndian 8 (Bytes.utf8 name').length).length := by
        rw [Bytes.length_bigEndian, Bytes.length_bigEndian]
      obtain ⟨hcount, h⟩ := List.append_inj h hwidth
      have hlength := Bytes.bigEndian_inj (hset name rfl) (hset' name' rfl) hcount
      obtain ⟨hname, hrest⟩ := List.append_inj h hlength
      exact ⟨congrArg some (Bytes.utf8_injective hname), hrest⟩

/-- No two keys have the same source: the marks tell their kinds apart. -/
theorem source_inj (h : k.source = k'.source) : k = k' := by
  cases k with
  | string s =>
    cases k' with
    | string s' => exact congrArg string (Bytes.utf8_injective (List.cons.inj (Sum.inr.inj h)).2)
    | integer | bytes | digest => simp [source] at h
  | integer n =>
    cases k' with
    | integer n' =>
      have hnumber := Bytes.bigEndian_inj n.toUInt64.toNat_lt n'.toUInt64.toNat_lt
        (List.cons.inj (Sum.inr.inj h)).2
      exact congrArg (fun u => integer (.ofUInt64 u)) (UInt64.toNat_inj.mp hnumber)
    | string | bytes | digest => simp [source] at h
  | bytes b =>
    cases k' with
    | bytes b' => exact congrArg bytes (List.cons.inj (Sum.inr.inj h)).2
    | string | integer | digest => simp [source] at h
  | digest d =>
    cases k' with
    | digest d' => exact congrArg digest (Sum.inl.inj h)
    | string | integer | bytes => cases h

theorem hashInput?_eq_some_iff :
    k.hashInput? set = some b ↔ ∃ own, k.source = .inr own ∧ setBytes set ++ own = b := by
  rw [hashInput?]
  cases k.source <;> simp

theorem exists_hashInput? (hk : k.IsHashed) (set : Option String) :
    ∃ b, k.hashInput? set = some b := by
  cases k with
  | digest d => exact absurd rfl (hk d)
  | string | integer | bytes => exact ⟨_, rfl⟩

/-- The bytes that are hashed tell the set and the key. -/
theorem hashInput?_inj (hset : NameFits set) (hset' : NameFits set')
    (h : k.hashInput? set = some b) (h' : k'.hashInput? set' = some b) : set = set' ∧ k = k' := by
  obtain ⟨own, hown, hb⟩ := hashInput?_eq_some_iff.mp h
  obtain ⟨own', hown', hb'⟩ := hashInput?_eq_some_iff.mp h'
  obtain ⟨rfl, rfl⟩ := setBytes_append_inj hset hset' (hb.trans hb'.symm)
  exact ⟨rfl, source_inj (hown.trans hown'.symm)⟩

theorem digestIn_of_hashInput? (h : k.hashInput? set = some b) : k.digestIn set = .ofHash b := by
  obtain ⟨own, hown, rfl⟩ := hashInput?_eq_some_iff.mp h
  rw [digestIn, hown]

end Key

/-- A read depends on the record at its address, and on whether the store answers at all. -/
theorem Store.get_congr {s t : Store} {address : Address} (haccess : t.access = s.access)
    (hspace : (t.space? address.ns).isSome = (s.space? address.ns).isSome)
    (hrecord : t.record? address.ns address.digest = s.record? address.ns address.digest)
    (now : Instant) (options : ReadOptions) :
    t.get now address options = s.get now address options := by
  unfold record? at hrecord
  unfold get accessRead space
  rw [haccess]
  cases ht : t.space? address.ns with
  | none =>
    cases hs : s.space? address.ns with
    | none => rfl
    | some rs => simp [ht, hs] at hspace
  | some rs' =>
    cases hs : s.space? address.ns with
    | none => simp [ht, hs] at hspace
    | some rs =>
      rw [ht, hs, Option.bind_some, Option.bind_some] at hrecord
      have hlive : rs'.live? now address.digest = rs.live? now address.digest := by
        rw [Records.live?, Records.live?, hrecord]
      simp only [bind, Except.bind, hlive]

namespace Address

theorem ext {a a' : Address} (hns : a.ns = a'.ns) (hset : a.set = a'.set) (hkey : a.key = a'.key) :
    a = a' := by
  cases a; cases a'; cases hns; cases hset; cases hkey; rfl

/-- The bytes that are hashed for an address with a key that is no digest are those of no other set
and key, having no set and having one with the empty name among them. So if the hash does not take
the bytes of two addresses of a namespace for one another, they do not have the same digest, and
nothing that is written to one of them is seen by a read of the other. -/
theorem digests_apart {a a' : Address} (hset : Key.NameFits a.set) (hset' : Key.NameFits a'.set)
    (hkey : a.key.IsHashed) (hkey' : a'.key.IsHashed) :
    ∃ b b', a.key.hashInput? a.set = some b ∧ a'.key.hashInput? a'.set = some b' ∧
      a.digest = .ofHash b ∧ a'.digest = .ofHash b' ∧
      (b = b' → a.set = a'.set ∧ a.key = a'.key) ∧
      (a.ns = a'.ns → a ≠ a' → (Digest.ofHash b = Digest.ofHash b' → b = b') →
        a.digest ≠ a'.digest ∧
          ∀ (w : WriteCall) (written read : Instant) (s : Store) (options : ReadOptions),
            w.address = a →
              (w.run written s).2.get read a' options = s.get read a' options) := by
  obtain ⟨b, hb⟩ := Key.exists_hashInput? hkey a.set
  obtain ⟨b', hb'⟩ := Key.exists_hashInput? hkey' a'.set
  have hdigest : a.digest = .ofHash b := Key.digestIn_of_hashInput? hb
  have hdigest' : a'.digest = .ofHash b' := Key.digestIn_of_hashInput? hb'
  have hinj : b = b' → a.set = a'.set ∧ a.key = a'.key := by
    rintro rfl
    exact Key.hashInput?_inj hset hset' hb hb'
  refine ⟨b, b', hb, hb', hdigest, hdigest', hinj, fun hns hne hhash => ?_⟩
  have hapart : a.digest ≠ a'.digest := by
    intro hsame
    obtain ⟨hsets, hkeys⟩ := hinj (hhash (hdigest.symm.trans (hsame.trans hdigest')))
    exact hne (ext hns hsets hkeys)
  refine ⟨hapart, fun w written read s options hw => ?_⟩
  obtain ⟨hspaces, hrecords⟩ := w.run_frame written s
  refine Store.get_congr (w.run_access written s) (hspaces _) (hrecords _ _ ?_) read options
  rw [hw]
  exact fun hplace => hapart hplace.2.symm

/-- A key whose first character could be the last one of the name of its set. -/
theorem digests_apart_shifted :
    let a : Address := ⟨"test", some "a", .string "bc"⟩
    let a' : Address := ⟨"test", some "ab", .string "c"⟩
    Key.NameFits a.set ∧ Key.NameFits a'.set ∧ a.key.IsHashed ∧ a'.key.IsHashed ∧
      a.key.hashInput? a.set ≠ a'.key.hashInput? a'.set ∧ a.digest ≠ a'.digest ∧
      ∀ s : Store, (s.delete 0 a {}).2.get 0 a' {} = s.get 0 a' {} := by
  intro a a'
  have hset : Key.NameFits a.set := by decide +kernel
  have hset' : Key.NameFits a'.set := by decide +kernel
  obtain ⟨b, b', hb, hb', hdigest, hdigest', hinj, hapart⟩ :=
    @digests_apart a a' hset hset' nofun nofun
  have hhash : Digest.ofHash b ≠ Digest.ofHash b' := by
    rw [← hdigest, ← hdigest']
    decide +kernel
  obtain ⟨hne, hwrites⟩ := hapart rfl (by decide) fun h => absurd h hhash
  refine ⟨hset, hset', nofun, nofun, fun hsame => ?_, hne, fun s => ?_⟩
  · rw [hb, hb'] at hsame
    obtain ⟨hsets, -⟩ := hinj (Option.some.inj hsame)
    revert hsets
    decide
  · exact hwrites (.delete a {}) 0 0 s {} rfl

end Address
end RecordService
