import RecordService.Proofs.Except
import RecordService.Proofs.Text.Base64
import RecordService.Proofs.Text.Whole
import RecordService.Record.Path

/-!
# Addresses read back from their segments

The token of a key is read as that key under its own key type. So an address is found again in its
segments, unless one of them is empty: a path cannot name such an address.

* `KeyType.ofName?_of_toLower`: a key type is found by its name in any case.
* `Key.ofToken_token`: a token is read as the key that it is of.
* `Key.token_ne_empty_of_ofToken`: a key that is read from a text has a token.
* `Address.HasParts`: no part of an address is empty.
* `Address.ofSegments_segments`: the address of the segments of an address.
* `Address.hasParts_of_ofSegments`: only such addresses are read.
* `Address.segments_section`: an address is read back from its segments if and only if it has all
  parts, as has every address that is read.
-/

namespace RecordService

/-- The case of the name of a key type does not count. -/
theorem KeyType.ofName?_of_toLower {t : KeyType} {name : String}
    (h : name.toLower = t.name.toLower) : ofName? name = some t := by
  rw [ofName?, h]
  cases t <;> decide +kernel

theorem KeyType.ofQuery_of_toLower {t : KeyType} {name : String}
    (h : name.toLower = t.name.toLower) : ofQuery (some name) = .ok t := by
  rw [ofQuery]
  simp only [ofName?_of_toLower h]

theorem Digest.ofBytes?_bytes (d : Digest) : ofBytes? d.bytes = some d := dif_pos d.length_eq

namespace Key

theorem decode?_token (b : Bytes) :
    Base64.decode? .url .optional (Base64.encode .url false b) = some b :=
  Base64.decode?_encode Base64.Alphabet.url_faithful
    (by simp [Base64.Padding.allows, Base64.filling])

theorem tokenBytes_encode (b : Bytes) : tokenBytes (Base64.encode .url false b) = .ok b := by
  rw [tokenBytes, decode?_token]

/-- The token of a key is read as the key under its own type. -/
theorem ofToken_token (k : Key) : ofToken k.keyType k.token = .ok k := by
  cases k with
  | string s => rfl
  | integer n => simp only [ofToken, keyType, token, Text.signed64?_toString]
  | bytes b =>
    simp only [ofToken, keyType, token, tokenBytes_encode]
    rfl
  | digest d =>
    simp only [ofToken, keyType, token, tokenBytes_encode, Except.bind, Digest.ofBytes?_bytes]

/-- A text or a byte sequence with nothing in it. -/
def IsEmpty : Key → Prop
  | string s => s = ""
  | bytes b => b = []
  | integer _ | digest _ => False

instance : DecidablePred IsEmpty
  | string s => inferInstanceAs (Decidable (s = ""))
  | bytes b => inferInstanceAs (Decidable (b = []))
  | integer _ | digest _ => .isFalse id

theorem encode_eq_empty_iff {b : Bytes} : Base64.encode .url false b = "" ↔ b = [] := by
  constructor
  · intro h
    have hread := decode?_token b
    rw [h] at hread
    cases hread
    rfl
  · rintro rfl
    rfl

/-- Only a key with nothing in it has no token. -/
theorem token_eq_empty_iff {k : Key} : k.token = "" ↔ k.IsEmpty := by
  cases k with
  | string s => exact Iff.rfl
  | integer n =>
    refine iff_of_false (fun h => ?_) id
    have hread := Text.signed64?_toString n
    rw [show toString n.toInt = "" from h] at hread
    cases hread
  | bytes b => exact encode_eq_empty_iff
  | digest d =>
    refine iff_of_false (fun h => ?_) id
    have hlength := d.length_eq
    rw [encode_eq_empty_iff.mp h] at hlength
    cases hlength

/-- What is read from a text has a token: only the empty text spells a key with nothing in it. -/
theorem token_ne_empty_of_ofToken {type : KeyType} {text : String} {k : Key}
    (h : ofToken type text = .ok k) (htext : text ≠ "") : k.token ≠ "" := by
  have hbytes : ∀ b, tokenBytes text = .ok b → b ≠ [] := by
    rintro b hb rfl
    rw [tokenBytes] at hb
    split at hb
    · rename_i hdecode
      cases hb
      exact htext (Base64.eq_empty_of_decode? hdecode)
    · cases hb
  rw [ne_eq, token_eq_empty_iff]
  cases type with
  | string =>
    cases h
    exact htext
  | integer =>
    rw [ofToken] at h
    split at h
    · cases h
      exact id
    · cases h
  | bytes =>
    obtain ⟨b, hb, rfl⟩ := map_eq_ok_iff.mp h
    exact hbytes b hb
  | digest =>
    obtain ⟨b, -, hd⟩ := bind_eq_ok_iff.mp h
    split at hd
    · cases hd
      exact id
    · cases hd

end Key

namespace Address

/-- No part of an address is empty: not its namespace, nor its set if it has one, nor its key. -/
structure HasParts (a : Address) : Prop where
  ns : a.ns ≠ ""
  set : a.set ≠ some ""
  key : ¬a.key.IsEmpty

theorem partsOf_segments (a : Address) : partsOf a.segments = .ok (a.ns, a.set, a.key.token) := by
  unfold segments
  cases a.set <;> rfl

theorem segments_ne_nil (a : Address) : a.segments ≠ [] := by
  unfold segments
  cases a.set <;> exact List.cons_ne_nil _ _

theorem hasParts_iff {a : Address} :
    a.HasParts ↔ a.ns ≠ "" ∧ a.set ≠ some "" ∧ a.key.token ≠ "" := by
  rw [ne_eq a.key.token, Key.token_eq_empty_iff]
  exact ⟨fun h => ⟨h.ns, h.set, h.key⟩, fun ⟨hns, hset, hkey⟩ => ⟨hns, hset, hkey⟩⟩

/-- The segments of an address are read under a query for the type of its key as the address, or
refused because one of them is empty. -/
theorem ofSegments_segments_eq {a : Address} {query : Option String}
    (h : KeyType.ofQuery query = .ok a.key.keyType) :
    ofSegments a.segments query =
      if a.ns ≠ "" ∧ a.set ≠ some "" ∧ a.key.token ≠ "" then .ok a
      else .error (.invalidPath "empty path segment") := by
  rw [ofSegments, h, partsOf_segments]
  simp only [Except.bind, a.key.ofToken_token, ne_eq, ← not_or, ite_not]
  rfl

/-- The segments of an address whose parts are not empty are read as the address, under the name of
the type of its key in any case. -/
theorem ofSegments_segments {a : Address} (ha : a.HasParts) {name : String}
    (hname : name.toLower = a.key.keyType.name.toLower) :
    ofSegments a.segments (some name) = .ok a := by
  rw [ofSegments_segments_eq (KeyType.ofQuery_of_toLower hname), if_pos (hasParts_iff.mp ha)]

/-- What is read from segments has no empty part, however its key is spelled. -/
theorem hasParts_of_ofSegments {segments : List String} {query : Option String} {a : Address}
    (h : ofSegments segments query = .ok a) : a.HasParts := by
  obtain ⟨type, -, h⟩ := bind_eq_ok_iff.mp h
  obtain ⟨⟨ns, set, text⟩, -, h⟩ := bind_eq_ok_iff.mp h
  obtain ⟨hparts, h⟩ := error_or_eq_ok_iff.mp h
  obtain ⟨k, hk, rfl⟩ := map_eq_ok_iff.mp h
  obtain ⟨hns, hparts⟩ := not_or.mp hparts
  obtain ⟨hset, htext⟩ := not_or.mp hparts
  exact hasParts_iff.mpr ⟨hns, hset, Key.token_ne_empty_of_ofToken hk htext⟩

/-- Writing an address as segments is a section of reading it. Under every query for the type of its
key, its name among them, the segments of an address are read as that address if its namespace, its
set if it has one, and the token of its key are not empty, and are refused as a path otherwise. An
address that is read from any segments under any query has no empty part; so it is read again from
its own segments, whatever other spelling of its key it was first read from. -/
theorem segments_section :
    (∀ a : Address, KeyType.ofQuery (some a.key.keyType.name) = .ok a.key.keyType ∧
      ∀ query, KeyType.ofQuery query = .ok a.key.keyType →
        ofSegments a.segments query =
          if a.ns ≠ "" ∧ a.set ≠ some "" ∧ a.key.token ≠ "" then .ok a
          else .error (.invalidPath "empty path segment")) ∧
      ∀ segments query a, ofSegments segments query = .ok a →
        (a.ns ≠ "" ∧ a.set ≠ some "" ∧ a.key.token ≠ "") ∧
          ofSegments a.segments (some a.key.keyType.name) = .ok a := by
  refine ⟨fun a => ⟨KeyType.ofQuery_of_toLower rfl, fun query h => ofSegments_segments_eq h⟩, ?_⟩
  intro segments query a h
  have hparts := hasParts_of_ofSegments h
  exact ⟨hasParts_iff.mp hparts, ofSegments_segments hparts rfl⟩

/-- A signed number with zeros before it, and bytes with filling, under names in small letters. -/
theorem segments_section_respelled :
    let number : Address := ⟨"test", some "s", .integer 7⟩
    let bytes : Address := ⟨"test", none, .bytes [1]⟩
    ofSegments ["test", "s", "+007"] (some "integer") = .ok number ∧
      number.segments = ["test", "s", "7"] ∧
      ofSegments number.segments (some "INTEGER") = .ok number ∧
      ofSegments ["test", "AQ=="] (some "bytes") = .ok bytes ∧
      bytes.segments = ["test", "AQ"] ∧
      ofSegments bytes.segments (some "BYTES") = .ok bytes := by
  have hnumber : ofSegments ["test", "s", "+007"] (some "integer") =
      .ok ⟨"test", some "s", .integer 7⟩ := by
    have hname : "integer".toLower = KeyType.integer.name.toLower := by
      change "integer".map Char.toLower = "INTEGER".map Char.toLower
      simp [← String.toList_inj, String.toList_map]
    have hread : Text.signed64? "+007" = some 7 := by decide +kernel
    rw [ofSegments, KeyType.ofQuery_of_toLower hname]
    simp [Except.bind, partsOf, Key.ofToken, hread, Except.map]
  have hbytes : ofSegments ["test", "AQ=="] (some "bytes") = .ok ⟨"test", none, .bytes [1]⟩ := by
    have hname : "bytes".toLower = KeyType.bytes.name.toLower := by
      change "bytes".map Char.toLower = "BYTES".map Char.toLower
      simp [← String.toList_inj, String.toList_map]
    have hread : Base64.decode? .url .optional "AQ==" = some [1] := by decide +kernel
    rw [ofSegments, KeyType.ofQuery_of_toLower hname]
    simp [Except.bind, partsOf, Key.ofToken, tokenBytes, hread, Except.map]
  exact ⟨hnumber, by decide +kernel, (segments_section.2 _ _ _ hnumber).2, hbytes,
    by decide +kernel, (segments_section.2 _ _ _ hbytes).2⟩

end Address
end RecordService
