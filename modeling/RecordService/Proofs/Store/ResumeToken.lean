import RecordService.Proofs.Ordered
import RecordService.Proofs.Record.Path
import RecordService.Store.Scan

/-!
# Digests in order, and the tokens that name them

* Digests are strictly and totally ordered, byte by byte.
* `ResumeToken.withoutFilling_eq_ofDigest_iff`: the filling behind a token.
* `ResumeToken.digest_ofDigest`: a token names the digest that it was made of.
* `ResumeToken.digest_eq_ok_iff`: nothing else names it, but for the filling.
* `ResumeToken.ofDigest_ne_empty`: no token is the empty text, which stands for having none.
* `ResumeToken.tokens_name_digests`: tokens name digests, and every other text is refused.
-/

namespace RecordService

namespace Digest

theorem ext {a b : Digest} (h : a.bytes = b.bytes) : a = b := by
  cases a; cases b; cases h; rfl

instance : Std.Asymm (fun a b : Digest => a < b) :=
  ⟨fun _ _ => Std.Asymm.asymm (r := fun a b : Bytes => a < b) _ _⟩

instance : Std.Trichotomous (fun a b : Digest => a < b) :=
  ⟨fun _ _ h h' => ext (Std.Trichotomous.trichotomous (r := fun a b : Bytes => a < b) _ _ h h')⟩

instance : Trans (fun a b : Digest => a < b) (fun a b : Digest => a < b)
    (fun a b : Digest => a < b) :=
  ⟨fun {_ _ _} => List.lt_trans⟩

theorem lt_trans {a b c : Digest} (h : a < b) (h' : b < c) : a < c := List.lt_trans h h'

theorem lt_irrefl (a : Digest) : ¬a < a := Ordered.not_lt_self a

theorem ofBytes?_eq_some_iff {b : Bytes} {d : Digest} : ofBytes? b = some d ↔ b = d.bytes := by
  constructor
  · intro h
    obtain ⟨hlength, hd⟩ := Option.dite_none_right_eq_some.mp h
    cases hd
    rfl
  · rintro rfl
    exact ofBytes?_bytes d

theorem lt_of_not_lt {a b : Digest} (h : ¬b < a) (hne : a ≠ b) : a < b :=
  Decidable.byContradiction fun h' =>
    hne (Std.Trichotomous.trichotomous (r := fun a b : Digest => a < b) a b h' h)

end Digest

namespace ResumeToken

variable {token : String} {d : Digest}

theorem toList_ofDigest (d : Digest) :
    (ofDigest d).toList = Base64.symbols .url (version :: d.bytes) := by
  simp [ofDigest, Base64.encode]

/-- What is taken off a token is filling. -/
theorem exists_filling (token : String) :
    ∃ n, token.toList = (withoutFilling token).toList ++ List.replicate n '=' := by
  let filling := token.toList.reverse.takeWhile (· = '=')
  have hfilling : filling = List.replicate filling.length '=' :=
    List.eq_replicate_iff.mpr ⟨rfl, fun c hc => by
      simpa using List.all_eq_true.mp List.all_takeWhile c hc⟩
  refine ⟨filling.length, ?_⟩
  rw [withoutFilling, String.toList_ofList, ← List.reverse_replicate, ← hfilling,
    ← List.reverse_append, List.takeWhile_append_dropWhile, List.reverse_reverse]

/-- Without the filling at its end a text is the token of a digest if it is that token with filling
behind it, of which the token itself has none. -/
theorem withoutFilling_eq_ofDigest_iff :
    withoutFilling token = ofDigest d ↔
      ∃ n, token.toList = (ofDigest d).toList ++ List.replicate n '=' := by
  constructor
  · intro h
    exact h ▸ exists_filling token
  · rintro ⟨n, hn⟩
    have hkeep : (ofDigest d).toList.reverse.dropWhile (· = '=') = (ofDigest d).toList.reverse := by
      cases hs : (ofDigest d).toList.reverse with
      | nil => rfl
      | cons c rest =>
        have hmem : c ∈ (ofDigest d).toList := List.mem_reverse.mp (hs ▸ List.mem_cons_self)
        have hc : c ≠ '=' := Base64.symbols_ne_filling Base64.Alphabet.url_faithful _ c
          (toList_ofDigest d ▸ hmem)
        simp [hc]
    have hdrop : token.toList.reverse.dropWhile (· = '=') = (ofDigest d).toList.reverse := by
      rw [hn, List.reverse_append, List.reverse_replicate,
        List.dropWhile_append_of_pos (by simp), hkeep]
    rw [withoutFilling, hdrop, List.reverse_reverse, String.ofList_toList]

theorem withoutFilling_ofDigest (d : Digest) : withoutFilling (ofDigest d) = ofDigest d :=
  withoutFilling_eq_ofDigest_iff.mpr ⟨0, (List.append_nil _).symm⟩

/-- A text is read as a digest if it spells the version and the digest. -/
theorem digest_eq_ok_iff_decode? :
    digest token = .ok d ↔
      Base64.decode? .url .absent (withoutFilling token) = some (version :: d.bytes) := by
  rw [digest]
  cases Base64.decode? .url .absent (withoutFilling token) with
  | none => exact iff_of_false nofun nofun
  | some b =>
    cases b with
    | nil => exact iff_of_false nofun nofun
    | cons v rest =>
      by_cases hv : v = version
      · cases hd : Digest.ofBytes? rest with
        | none =>
          simp only [hv, hd, if_true]
          refine iff_of_false nofun fun h => ?_
          obtain ⟨-, rfl⟩ := List.cons.inj (Option.some.inj h)
          rw [Digest.ofBytes?_bytes] at hd
          cases hd
        | some d' =>
          obtain rfl := Digest.ofBytes?_eq_some_iff.mp hd
          simp only [hv, hd, if_true, Except.ok.injEq, Option.some.injEq, List.cons.injEq, true_and]
          exact ⟨congrArg Digest.bytes, Digest.ext⟩
      · simp [hv]

/-- A text is read as a digest if, without filling, it is the token of that digest. -/
theorem digest_eq_ok_iff : digest token = .ok d ↔ withoutFilling token = ofDigest d := by
  rw [digest_eq_ok_iff_decode?, Base64.decode?_bare_eq_some_iff Base64.Alphabet.url_faithful]
  rfl

/-- A token names the digest that it was made of. -/
theorem digest_ofDigest (d : Digest) : digest (ofDigest d) = .ok d :=
  digest_eq_ok_iff.mpr (withoutFilling_ofDigest d)

/-- What is not read as a digest is refused as a token. -/
theorem digest_cases (token : String) :
    (∃ d, digest token = .ok d) ∨ ∃ reason, digest token = .error (.invalidResumeToken reason) := by
  unfold digest
  split
  · exact .inr ⟨_, rfl⟩
  · exact .inr ⟨_, rfl⟩
  · split
    · split
      · exact .inl ⟨_, rfl⟩
      · exact .inr ⟨_, rfl⟩
    · exact .inr ⟨_, rfl⟩

theorem digestOf_map_ofDigest (d : Option Digest) : digestOf (d.map ofDigest) = .ok d := by
  cases d with
  | none => rfl
  | some d => simp [digestOf, digest_ofDigest, Except.map]

theorem ofDigest_ne_empty (d : Digest) : ofDigest d ≠ "" := by
  intro h
  have hread := Base64.decode?_encode_bare Base64.Alphabet.url_faithful (version :: d.bytes)
  rw [← ofDigest, h] at hread
  have hnone : Base64.decode? .url .absent "" = some [] := by decide
  rw [hnone] at hread
  cases hread

/-- A letter, a digit, a hyphen or an underscore: what a query takes as it is. -/
def isUrlSafe (c : Char) : Bool := c.isAlphanum || c == '-' || c == '_'

theorem isUrlSafe_symbol : ∀ n < 64, isUrlSafe (Base64.symbol .url n) := by decide

theorem isUrlSafe_ofDigest (d : Digest) : (ofDigest d).toList.all isUrlSafe := by
  rw [toList_ofDigest, Base64.symbols_eq, List.all_map]
  exact List.all_eq_true.mpr fun n hn => isUrlSafe_symbol n (Base64.sextet_lt n hn)

/-- Tokens name digests, each its own. A digest is read from its token, which a query takes as it
is. A text is read as a digest if and only if it is the token of that digest once the filling at its
end is taken off, whatever the count of its characters; and every text that is no token with filling
behind it is refused as one. -/
theorem tokens_name_digests :
    (∀ d, digest (ofDigest d) = .ok d ∧ (ofDigest d).toList.all isUrlSafe) ∧
      ∀ token, (∀ d, digest token = .ok d ↔ withoutFilling token = ofDigest d) ∧
        (∀ d, withoutFilling token = ofDigest d ↔
          ∃ n, token.toList = (ofDigest d).toList ++ List.replicate n '=') ∧
        ((∃ reason, digest token = .error (.invalidResumeToken reason)) ↔
          ∀ d, withoutFilling token ≠ ofDigest d) := by
  refine ⟨fun d => ⟨digest_ofDigest d, isUrlSafe_ofDigest d⟩, fun token =>
    ⟨fun d => digest_eq_ok_iff, fun d => withoutFilling_eq_ofDigest_iff, ?_, fun hnone => ?_⟩⟩
  · rintro ⟨reason, hrefused⟩ d htoken
    rw [digest_eq_ok_iff.mpr htoken] at hrefused
    cases hrefused
  · rcases digest_cases token with ⟨d, hd⟩ | hrefused
    · exact absurd (digest_eq_ok_iff.mp hd) (hnone d)
    · exact hrefused

end ResumeToken
end RecordService
