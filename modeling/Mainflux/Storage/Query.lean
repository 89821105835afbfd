/-
  Mainflux.Storage.Query
  ──────────────────────
  **WHAT THE READER API ASKS A REPOSITORY FOR.**

  `decodeList` takes the fields of `queryFields` from the query string of a request, each
  of them if it is given exactly once, and puts them in a map.  A repository goes through
  the map in whatever order Go chooses: a `Query` is the list of the entries in that
  order, no field twice.

    • `exists_decodeQuery` — every such list is one that `decodeList` can produce.
-/
import Mathlib.Data.List.Nodup
import Mathlib.Data.List.Perm.Basic
import Mainflux.Storage.Senml

namespace Mainflux.Storage

open Mainflux.Lib

open Mainflux.Messaging

/-! ## §1. Query maps. -/

/-- The names in `queryFields`. -/
inductive QueryField
  | subtopic
  | publisher
  | protocol
  | name
  | value
  | v
  | vs
  | vb
  | vd
  deriving DecidableEq

def queryFields : List QueryField :=
  [.subtopic, .publisher, .protocol, .name, .value, .v, .vs, .vb, .vd]

/-- A `map[string]string`, as a loop over it goes through it. -/
structure Query where
  entries : List (QueryField × Text)
  nodup : (entries.map Prod.fst).Nodup

/-- `query[field]`, the empty text if there is none. -/
def Query.get (query : Query) (field : QueryField) : Text :=
  ((query.entries.find? fun q => q.1 = field).map Prod.snd).getD []

/-- What a lookup finds. -/
theorem Query.find?_iff {query : Query} {field : QueryField} {q : QueryField × Text} :
    query.entries.find? (fun q => q.1 = field) = some q ↔ q ∈ query.entries ∧ q.1 = field := by
  constructor
  · intro hfind
    exact ⟨List.mem_of_find?_eq_some hfind, by simpa using List.find?_some hfind⟩
  · rintro ⟨hmem, rfl⟩
    cases hfind : query.entries.find? fun p => p.1 = q.1 with
    | none =>
        have hnone := List.find?_eq_none.mp hfind q hmem
        simp at hnone
    | some p =>
        have hfield : p.1 = q.1 := by simpa using List.find?_some hfind
        have hsame := List.inj_on_of_nodup_map query.nodup (List.mem_of_find?_eq_some hfind) hmem
        rw [hsame hfield]

theorem Query.get_of_mem {query : Query} {field : QueryField} {text : Text}
    (h : (field, text) ∈ query.entries) : query.get field = text := by
  rw [Query.get, Query.find?_iff.mpr ⟨h, rfl⟩]
  rfl

theorem Query.get_of_not_mem {query : Query} {field : QueryField}
    (h : ∀ text, (field, text) ∉ query.entries) : query.get field = [] := by
  unfold Query.get
  cases hfind : query.entries.find? fun q => q.1 = field with
  | none => rfl
  | some q =>
      obtain ⟨hmem, rfl⟩ := Query.find?_iff.mp hfind
      exact absurd hmem (h q.2)

/-! ## §2. `decodeList`. -/

/-- The map that `decodeList` builds, from the values that the request gives each field. -/
def decodeQuery (values : QueryField → List Text) : List (QueryField × Text) :=
  queryFields.filterMap fun field =>
    match values field with
    | [text] => some (field, text)
    | _ => none

theorem mem_decodeQuery {values : QueryField → List Text} {q : QueryField × Text} :
    q ∈ decodeQuery values ↔ values q.1 = [q.2] := by
  have hall : ∀ field : QueryField, field ∈ queryFields := by
    intro field
    cases field <;> decide
  unfold decodeQuery
  rw [List.mem_filterMap]
  constructor
  · rintro ⟨field, -, hq⟩
    split at hq
    next text htext =>
        obtain rfl := Option.some.inj hq
        exact htext
    next => cases hq
  · intro hq
    exact ⟨q.1, hall q.1, by rw [hq]⟩

theorem nodup_decodeQuery (values : QueryField → List Text) :
    ((decodeQuery values).map Prod.fst).Nodup := by
  have hsub : ((decodeQuery values).map Prod.fst).Sublist queryFields := by
    unfold decodeQuery
    rw [List.map_filterMap]
    have hkeep : ∀ l : List QueryField,
        (l.filterMap fun field => Option.map Prod.fst
          (match values field with
            | [text] => some (field, text)
            | _ => none)).Sublist l := by
      intro l
      induction l with
      | nil => exact List.Sublist.refl _
      | cons field l ih =>
          rw [List.filterMap_cons]
          split
          next => exact ih.cons field
          next field' hfield =>
              split at hfield
              next =>
                  obtain rfl := Option.some.inj hfield
                  exact ih.cons_cons _
              next => cases hfield
    exact hkeep queryFields
  exact List.Nodup.sublist hsub (by decide)

/-- **Every query map is one of `decodeList`**, and it comes in every order. -/
theorem exists_decodeQuery (query : Query) :
    ∃ values, query.entries.Perm (decodeQuery values) := by
  let values : QueryField → List Text :=
    fun field => ((query.entries.find? fun q => q.1 = field).map Prod.snd).toList
  refine ⟨values, ?_⟩
  have hnodup : query.entries.Nodup := List.Nodup.of_map _ query.nodup
  have hnodup' : (decodeQuery values).Nodup := List.Nodup.of_map _ (nodup_decodeQuery values)
  rw [List.perm_ext_iff_of_nodup hnodup hnodup']
  intro q
  -- the only value of a field is what a lookup of the field finds
  have hvalues : values q.1 = [q.2] ↔ query.entries.find? (fun p => p.1 = q.1) = some q := by
    simp only [values]
    cases hfind : query.entries.find? fun p => p.1 = q.1 with
    | none => simp
    | some p =>
        have hfield : p.1 = q.1 := (Query.find?_iff.mp hfind).2
        simp [Prod.ext_iff, hfield]
  rw [mem_decodeQuery, hvalues, Query.find?_iff]
  simp

end Mainflux.Storage
