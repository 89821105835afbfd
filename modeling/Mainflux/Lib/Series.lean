/-
  Mainflux.Lib.Series
  ───────────────────
  **ROWS THAT ARE MERGED WHEN THEY ARE WRITTEN TWICE.**

  A store of rows under keys, in which a write to an existing key is merged with
  what is there: the way of time-series databases, whose points have a set of
  fields each, and where a later point of the same series and time adds its fields
  and replaces those it shares.

    • `lookup_put` — one write;
    • `lookup_putAll_eq_some` — what a field holds after a run of writes: what the
      last write that sets it has put there, or what was there before;
    • `mem_putAll` — the keys after a run of writes.
-/
import Mathlib.Data.List.AList

namespace Mainflux.Lib.Series

variable {κ ν : Type} [DecidableEq κ]

/-- Rows of type `ν` under keys. -/
abbrev Rows (κ ν : Type) := AList fun _ : κ => ν

section Put

variable (merge : ν → ν → ν)

/-- Write a row; `merge` takes the new row first. -/
def put (rows : Rows κ ν) (k : κ) (v : ν) : Rows κ ν :=
  rows.insert k (match rows.lookup k with
    | none => v
    | some old => merge v old)

/-- Write a list of rows, one after the other. -/
def putAll (rows : Rows κ ν) (kvs : List (κ × ν)) : Rows κ ν :=
  kvs.foldl (fun rows kv => put merge rows kv.1 kv.2) rows

variable {merge} {α : Type} {get : ν → Option α}

/-- A field that `merge` takes from the new row, and from the old one where the
new row does not set it. -/
def Field (merge : ν → ν → ν) (get : ν → Option α) : Prop :=
  ∀ v old, get (merge v old) = (get v).or (get old)

theorem lookup_put (hget : Field merge get) (rows : Rows κ ν) (k k' : κ) (v : ν) :
    ((put merge rows k v).lookup k').bind get
      = if k = k' then (get v).or ((rows.lookup k').bind get) else (rows.lookup k').bind get := by
  unfold put
  by_cases hk : k = k'
  · subst hk
    rw [AList.lookup_insert, if_pos rfl]
    cases rows.lookup k with
    | none => simp
    | some old => simp [hget v old]
  · rw [AList.lookup_insert_ne (Ne.symm hk), if_neg hk]

/-- The last write of a run that sets a field of a row. -/
def LastSet (get : ν → Option α) (kvs : List (κ × ν)) (k : κ) (x : α) : Prop :=
  ∃ before v after, kvs = before ++ (k, v) :: after ∧ get v = some x ∧
    ∀ kv ∈ after, kv.1 = k → get kv.2 = none

/-- No write of a run sets a field of a row. -/
def Unset (get : ν → Option α) (kvs : List (κ × ν)) (k : κ) : Prop :=
  ∀ kv ∈ kvs, kv.1 = k → get kv.2 = none

omit [DecidableEq κ] in
theorem lastSet_cons {kv : κ × ν} {kvs : List (κ × ν)} {k : κ} {x : α} :
    LastSet get (kv :: kvs) k x ↔
      LastSet get kvs k x ∨ kv.1 = k ∧ get kv.2 = some x ∧ Unset get kvs k := by
  constructor
  · rintro ⟨before, v, after, hsplit, hv, hafter⟩
    cases before with
    | nil =>
        obtain ⟨rfl, rfl⟩ := List.cons.inj hsplit
        exact .inr ⟨rfl, hv, hafter⟩
    | cons b before =>
        obtain ⟨-, rfl⟩ := List.cons.inj hsplit
        exact .inl ⟨before, v, after, rfl, hv, hafter⟩
  · rintro (⟨before, v, after, rfl, hv, hafter⟩ | ⟨rfl, hv, hunset⟩)
    · exact ⟨kv :: before, v, after, rfl, hv, hafter⟩
    · exact ⟨[], kv.2, kvs, rfl, hv, hunset⟩

/-- **What a field holds after a run of writes.** -/
theorem lookup_putAll_eq_some (hget : Field merge get) {kvs : List (κ × ν)} {rows : Rows κ ν}
    {k : κ} {x : α} :
    ((putAll merge rows kvs).lookup k).bind get = some x ↔
      LastSet get kvs k x ∨ (rows.lookup k).bind get = some x ∧ Unset get kvs k := by
  induction kvs generalizing rows with
  | nil =>
      constructor
      · intro h
        exact .inr ⟨h, fun kv hkv => absurd hkv List.not_mem_nil⟩
      · rintro (⟨before, v, after, hsplit, -⟩ | ⟨h, -⟩)
        · simp at hsplit
        · exact h
  | cons kv kvs ih =>
      have hunset : Unset get (kv :: kvs) k ↔ (kv.1 = k → get kv.2 = none) ∧ Unset get kvs k :=
        List.forall_mem_cons
      have hstep : putAll merge rows (kv :: kvs) = putAll merge (put merge rows kv.1 kv.2) kvs := rfl
      rw [hstep, ih, lookup_put hget, lastSet_cons, hunset]
      by_cases hk : kv.1 = k
      · rw [if_pos hk]
        cases hv : get kv.2 with
        | none => simp [hk]
        | some y => simp [hk]
      · simp [hk]

/-- The keys after a run of writes. -/
theorem mem_putAll {kvs : List (κ × ν)} {rows : Rows κ ν} {k : κ} :
    k ∈ putAll merge rows kvs ↔ k ∈ rows ∨ ∃ kv ∈ kvs, kv.1 = k := by
  induction kvs generalizing rows with
  | nil => simp [putAll]
  | cons kv kvs ih =>
      have hstep : putAll merge rows (kv :: kvs) = putAll merge (put merge rows kv.1 kv.2) kvs := rfl
      have hput : k ∈ put merge rows kv.1 kv.2 ↔ k = kv.1 ∨ k ∈ rows := AList.mem_insert rows
      rw [hstep, ih, hput, List.exists_mem_cons_iff]
      constructor
      · rintro ((rfl | h) | h)
        · exact .inr (.inl rfl)
        · exact .inl h
        · exact .inr (.inr h)
      · rintro (h | rfl | h)
        · exact .inl (.inr h)
        · exact .inl (.inl rfl)
        · exact .inr h

end Put

end Mainflux.Lib.Series
