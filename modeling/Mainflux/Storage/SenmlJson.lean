/-
  Mainflux.Storage.SenmlJson
  ──────────────────────────
  **SENML RECORDS IN JSON.**

  What `json.Unmarshal` makes of a payload when it is to be a `[]senml.Record`:
  the struct tags of the record as a table (`slot`), the kinds of values that
  each field takes, and the records of a whole text (`unmarshal`).
-/
import Mainflux.Lib.FloatText
import Mainflux.Lib.JsonItems
import Mainflux.Storage.Senml

namespace Mainflux.Storage

open Mainflux.Lib

/-! ## §1. Fields. -/

/-- The fields of a record. -/
inductive Slot
  | baseName
  | baseTime
  | baseUnit
  | baseVersion
  | baseValue
  | baseSum
  | name
  | unit
  | time
  | updateTime
  | value
  | stringValue
  | dataValue
  | boolValue
  | sum
  deriving DecidableEq

/-- The struct tags. -/
def tags : List (String × Slot) :=
  [("bn", .baseName), ("bt", .baseTime), ("bu", .baseUnit), ("bver", .baseVersion),
    ("bv", .baseValue), ("bs", .baseSum), ("n", .name), ("u", .unit), ("t", .time),
    ("ut", .updateTime), ("v", .value), ("vs", .stringValue), ("vd", .dataValue),
    ("vb", .boolValue), ("s", .sum)]

/-- The field of a key; a key without a field is skipped. -/
def slot (key : String) : Option Slot := tags.lookup (Json.fold key)

/-- `strconv.ParseUint`, of a number literal. -/
def parseUint (text : List Char) : Option Nat :=
  if text ≠ [] ∧ text.all Char.isDigit ∧ FlatJson.readNat text < 2 ^ 64 then
    some (FlatJson.readNat text)
  else none

def textOf : Json → Option Text
  | .str s => some s.toList
  | _ => none

def floatOf : Json → Option Binary64
  | .num literal => Binary64.parseFloat literal.toList
  | _ => none

def uintOf : Json → Option Nat
  | .num literal => parseUint literal.toList
  | _ => none

def boolOf : Json → Option Bool
  | .bool b => some b
  | _ => none

/-- A value for a field that is no pointer; `null` leaves the field as it is. -/
def plain {α : Type} (read : Json → Option α) (old : α) : Json → Option α
  | .null => some old
  | v => read v

/-- A value for a pointer; `null` makes it nil. -/
def pointer {α : Type} (read : Json → Option α) : Json → Option (Option α)
  | .null => some none
  | v => (read v).map some

/-- One field of the text; a value of another kind is an error. -/
def setSlot (r : Record Binary64) (v : Json) : Slot → Option (Record Binary64)
  | .baseName => (plain textOf r.baseName v).map fun x => { r with baseName := x }
  | .baseTime => (plain floatOf r.baseTime v).map fun x => { r with baseTime := x }
  | .baseUnit => (plain textOf r.baseUnit v).map fun x => { r with baseUnit := x }
  | .baseVersion => (plain uintOf r.baseVersion v).map fun x => { r with baseVersion := x }
  | .baseValue => (plain floatOf r.baseValue v).map fun x => { r with baseValue := x }
  | .baseSum => (plain floatOf r.baseSum v).map fun x => { r with baseSum := x }
  | .name => (plain textOf r.name v).map fun x => { r with name := x }
  | .unit => (plain textOf r.unit v).map fun x => { r with unit := x }
  | .time => (plain floatOf r.time v).map fun x => { r with time := x }
  | .updateTime => (plain floatOf r.updateTime v).map fun x => { r with updateTime := x }
  | .value => (pointer floatOf v).map fun x => { r with value := x }
  | .stringValue => (pointer textOf v).map fun x => { r with stringValue := x }
  | .dataValue => (pointer textOf v).map fun x => { r with dataValue := x }
  | .boolValue => (pointer boolOf v).map fun x => { r with boolValue := x }
  | .sum => (pointer floatOf v).map fun x => { r with sum := x }

def setField (r : Record Binary64) (f : String × Json) : Option (Record Binary64) :=
  match slot f.1 with
  | some s => setSlot r f.2 s
  | none => some r

/-! ## §2. Records. -/

/-- The zero value of `float64`. -/
def float0 : Binary64 := Binary64.zero

/-- The zero value of a record. -/
def record0 : Record Binary64 where
  baseTime := float0
  baseValue := float0
  baseSum := float0
  time := float0
  updateTime := float0

/-- The record of an item. -/
def recordOf : Json.Item → Option (Record Binary64)
  | .fields fs => fs.foldlM setField record0
  | .value .null => some record0
  | .value _ => none

/-- `json.Unmarshal` into the records of a pack. -/
def unmarshal (text : List Char) : Option (List (Record Binary64)) :=
  (Json.readSlice text).bind fun items => items.mapM recordOf

/-! ## §3. Where a string value comes from. -/

/-- The key of a string value has two characters. -/
theorem length_of_slot_eq {key : String} (h : slot key = some .stringValue) : key.length = 2 := by
  have hname : ∀ name, tags.lookup name = some .stringValue → name = "vs" := by
    intro name hlookup
    obtain ⟨l1, l2, heq, -⟩ := List.lookup_eq_some_iff.mp hlookup
    have hmem : (name, Slot.stringValue) ∈ tags := by
      rw [heq]
      exact List.mem_append_right _ List.mem_cons_self
    simpa [tags] using hmem
  have hfold := congrArg String.length (hname _ h)
  rw [Json.fold, String.length_ofList, List.length_map, String.length_toList] at hfold
  exact hfold

theorem stringValue_setSlot {r r' : Record Binary64} {v : Json} {s : Slot}
    (h : setSlot r v s = some r') :
    r'.stringValue = r.stringValue ∨
      s = .stringValue ∧ pointer textOf v = some r'.stringValue := by
  cases s <;>
    obtain ⟨x, hx, rfl⟩ := Option.map_eq_some_iff.mp h <;>
      first
      | exact .inl rfl
      | exact .inr ⟨rfl, hx⟩

/-- A string value stands in the text, behind its key. -/
theorem stringValue_of_fields {fs : List (String × Json)} {r r' : Record Binary64}
    (h : fs.foldlM setField r = some r') {t : Text} (ht : r'.stringValue = some t) :
    r.stringValue = some t ∨ ∃ k s, (k, Json.str s) ∈ fs ∧ k.length = 2 ∧ s.toList = t := by
  induction fs generalizing r with
  | nil =>
      cases h
      exact .inl ht
  | cons f fs ih =>
      rw [List.foldlM_cons] at h
      obtain ⟨r1, hf, hrest⟩ := Option.bind_eq_some_iff.mp h
      rcases ih hrest with h1 | ⟨k, s, hmem, hk, hs⟩
      · unfold setField at hf
        split at hf
        next sl hslot =>
            rcases stringValue_setSlot hf with hsame | ⟨rfl, hv⟩
            · exact .inl (hsame.symm.trans h1)
            · right
              rw [h1] at hv
              rcases f with ⟨k, v⟩
              cases v with
              | str s =>
                  exact ⟨k, s, List.mem_cons_self, length_of_slot_eq hslot,
                    Option.some.inj (Option.some.inj hv)⟩
              | _ => cases hv
        next =>
            cases hf
            exact .inl h1
      · exact .inr ⟨k, s, List.mem_cons_of_mem _ hmem, hk, hs⟩

end Mainflux.Storage
