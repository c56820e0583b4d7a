import Mathlib.Data.List.Forall2
import RecordService.Http.Parameters
import RecordService.Proofs.Record.Path
import RecordService.Proofs.Text.Percent

/-!
# Addresses in the paths of requests

The segments of an address are escaped and joined by slashes. However much of them is escaped
besides slashes and percent signs, the path has the same segments again, and so it names the
address.

* `Http.segmentText?_of_escapes`: a segment is found in its escaped form.
* `Http.pathSegments_of_escapes`: a path has the segments that were joined.
* `Http.RecordQuery.address_of_escapes`: a path names the address that its segments are of.
-/

namespace RecordService.Http

open Percent

/-- The text of an escaped segment is the segment. -/
theorem segmentText?_of_escapes {s raw : String} (h : EscapesText s raw) :
    segmentText? raw = some s := by
  rw [segmentText?, unescape_of_escapes h, Bytes.text?_utf8]

theorem slash_notMem_toList {s raw : String} (h : EscapesText s raw) : '/' ∉ raw.toList :=
  fun hmem => slash_notMem_of_escapes h (Bytes.ofAscii_mem_utf8 (by decide) hmem)

/-- Escaped segments are found again where they were joined by slashes. -/
theorem splitAll_of_escapes {segments raws : List String}
    (h : List.Forall₂ EscapesText segments raws) (hne : segments ≠ []) :
    (splitAll '/' ("/".intercalate raws).toList).map String.ofList = raws := by
  have hraws : raws.map String.toList ≠ [] := by
    cases h with
    | nil => exact absurd rfl hne
    | cons => exact List.cons_ne_nil _ _
  have hslash : ∀ raw ∈ raws, '/' ∉ raw.toList := by
    clear hne hraws
    induction h with
    | nil => exact List.forall_mem_nil _
    | cons hs _ ih => exact List.forall_mem_cons.mpr ⟨slash_notMem_toList hs, ih⟩
  have hsplit := splitAll_intercalate hraws (List.forall_mem_map.mpr hslash)
  rw [String.toList_intercalate]
  show (splitAll '/' (['/'].intercalate (raws.map String.toList))).map String.ofList = raws
  rw [hsplit, List.map_map]
  exact (List.map_congr_left fun raw _ => raw.ofList_toList).trans (List.map_id raws)

/-- The segments of a path are those that were escaped and joined. -/
theorem pathSegments_of_escapes {segments raws : List String}
    (h : List.Forall₂ EscapesText segments raws) (hne : segments ≠ []) :
    pathSegments ("/".intercalate raws) = .ok segments := by
  rw [pathSegments, splitAll_of_escapes h hne]
  clear hne
  induction h with
  | nil => rfl
  | cons hs _ ih =>
    rw [List.mapM_cons, segmentText?_of_escapes hs, ih]
    rfl

namespace RecordQuery

variable {a : Address}

/-- An address without empty parts is named by the path of its segments, whatever is escaped in them
besides slashes and percent signs, if the type of its key is named in any case. No text in the
address changes how many segments the path has, or what they are. -/
theorem address_of_escapes (ha : a.HasParts) {raws : List String}
    (hraws : List.Forall₂ EscapesText a.segments raws) {q : RecordQuery} {name : String}
    (hq : q.keyType = some name) (hname : name.toLower = a.key.keyType.name.toLower) :
    pathSegments ("/".intercalate raws) = .ok a.segments ∧
      q.address ("/".intercalate raws) = .ok a := by
  have hsegments := pathSegments_of_escapes hraws a.segments_ne_nil
  refine ⟨hsegments, bind_eq_ok_iff.mpr ⟨_, hsegments, mapError_eq_ok_iff.mpr ?_⟩⟩
  rw [hq]
  exact Address.ofSegments_segments ha hname

/-- A slash in the set, and a percent sign and a letter of two bytes in the key. -/
def slashed : Address := ⟨"test", some "a/b", .string "1%é"⟩

theorem slashed_escapes :
    List.Forall₂ EscapesText slashed.segments ["t%65st", "a%2fb", "1%25%c3%A9"] := by
  have hns : EscapesText "test" "t%65st" :=
    .plain (by decide) (by decide) <| .escaped rfl rfl <| .plain (by decide) (by decide) <|
      .plain (by decide) (by decide) .nil
  have hset : EscapesText "a/b" "a%2fb" :=
    .plain (by decide) (by decide) <| .escaped rfl rfl <| .plain (by decide) (by decide) .nil
  have hkey : EscapesText "1%é" "1%25%c3%A9" :=
    .plain (by decide) (by decide) <| .escaped rfl rfl <| .escaped rfl rfl <|
      .escaped rfl rfl .nil
  exact .cons hns (.cons hset (.cons hkey .nil))

/-- The path names the record, with capitals in the name of the key type. -/
theorem address_of_escapes_slashed :
    slashed.HasParts ∧
      List.Forall₂ EscapesText slashed.segments ["t%65st", "a%2fb", "1%25%c3%A9"] ∧
      "sTrInG".toLower = slashed.key.keyType.name.toLower ∧
      pathSegments ("/".intercalate ["t%65st", "a%2fb", "1%25%c3%A9"]) = .ok slashed.segments ∧
      ({ keyType := some "sTrInG" } : RecordQuery).address
        ("/".intercalate ["t%65st", "a%2fb", "1%25%c3%A9"]) = .ok slashed := by
  have hparts : slashed.HasParts := ⟨by decide, by decide, by decide⟩
  have hname : "sTrInG".toLower = slashed.key.keyType.name.toLower := by
    have hkind : slashed.key.keyType.name = "STRING" := rfl
    have hread : "sTrInG".toLower = "string" := by decide +kernel
    have hlower : "STRING".toLower = "string" := by decide +kernel
    rw [hkind, hread, hlower]
  exact ⟨hparts, slashed_escapes, hname, address_of_escapes hparts slashed_escapes rfl hname⟩

end RecordQuery
end RecordService.Http
