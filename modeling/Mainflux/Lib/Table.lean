/-
  Mainflux.Lib.Table
  ──────────────────
  **TABLES AS LISTS OF ROWS.**

  `UPDATE ... WHERE` and `DELETE ... WHERE` on a table kept as a list of
  rows, with the four kinds of fact every statement needs:

    • membership — which rows are there afterwards;
    • keys — a unique key stays unique (`Nodup` of the key column);
    • references — the target of a foreign key is still there;
    • frames — the rows selected by `q` are the same list before and after,
      when the statement touches none of them.

  `slice` is what `LIMIT ... OFFSET ...` leaves of a result; the pages of a walk
  through the offsets cover it once (`sum_length_slice`).  `Collation` is the
  order of a column, and `Collation.orderBy` what `ORDER BY` makes of it.
-/
import Mathlib.Algebra.Ring.Nat
import Mathlib.Data.List.Basic
import Mathlib.Data.List.Nodup
import Mathlib.Data.List.Sort

namespace Mainflux.Lib

variable {α β : Type}

/-- `UPDATE l SET f WHERE p`. -/
def updateWhere (p : α → Prop) [DecidablePred p] (f : α → α) (l : List α) : List α :=
  l.map (fun r => if p r then f r else r)

/-- `DELETE FROM l WHERE p`. -/
def deleteWhere (p : α → Prop) [DecidablePred p] (l : List α) : List α :=
  l.filter (fun r => ¬ p r)

/-- `SELECT ... FROM l WHERE p`. -/
def selectWhere (p : α → Prop) [DecidablePred p] (l : List α) : List α :=
  l.filter (fun r => p r)

variable {p q : α → Prop} [DecidablePred p] [DecidablePred q] {f : α → α} {l : List α}

/-! ## §1. Membership. -/

@[simp] theorem mem_deleteWhere {r : α} : r ∈ deleteWhere p l ↔ r ∈ l ∧ ¬ p r := by
  simp [deleteWhere]

@[simp] theorem mem_selectWhere {r : α} : r ∈ selectWhere p l ↔ r ∈ l ∧ p r := by
  simp [selectWhere]

/-- A statement affects rows when some row meets its condition. -/
theorem length_selectWhere_eq_zero : (selectWhere p l).length = 0 ↔ ∀ r ∈ l, ¬ p r := by
  rw [List.length_eq_zero_iff, List.eq_nil_iff_forall_not_mem]
  simp only [mem_selectWhere, not_and]

theorem mem_updateWhere {r : α} :
    r ∈ updateWhere p f l ↔ (∃ s ∈ l, p s ∧ f s = r) ∨ (r ∈ l ∧ ¬ p r) := by
  simp only [updateWhere, List.mem_map]
  constructor
  · rintro ⟨s, hs, rfl⟩
    by_cases hp : p s
    · exact .inl ⟨s, hs, hp, by rw [if_pos hp]⟩
    · exact .inr ⟨by rwa [if_neg hp], by rwa [if_neg hp]⟩
  · rintro (⟨s, hs, hp, rfl⟩ | ⟨hr, hp⟩)
    · exact ⟨s, hs, if_pos hp⟩
    · exact ⟨r, hr, if_neg hp⟩

/-- A check on the rows, after an insertion. -/
theorem forall_mem_insert {P : α → Prop} {x : α} (h : ∀ r ∈ l, P r) (hx : P x) :
    ∀ r ∈ l ++ [x], P r :=
  List.forall_mem_append.mpr ⟨h, List.forall_mem_singleton.mpr hx⟩

/-- A check on the rows, after an update that keeps it. -/
theorem forall_mem_updateWhere {P : α → Prop} (h : ∀ r ∈ l, P r) (hf : ∀ r, P r → P (f r)) :
    ∀ r ∈ updateWhere p f l, P r := by
  intro r hr
  rcases mem_updateWhere.mp hr with ⟨s, hs, -, rfl⟩ | ⟨hr, -⟩
  · exact hf s (h s hs)
  · exact h r hr

theorem deleteWhere_eq_self (h : ∀ r ∈ l, ¬ p r) : deleteWhere p l = l := by
  simpa [deleteWhere] using h

/-! ## §2. Unique keys. -/

theorem nodup_map_deleteWhere {k : α → β} (h : (l.map k).Nodup) :
    ((deleteWhere p l).map k).Nodup :=
  h.sublist ((List.filter_sublist).map k)

/-- An update that leaves the key column alone. -/
theorem map_updateWhere {k : α → β} (h : ∀ r ∈ l, p r → k (f r) = k r) :
    (updateWhere p f l).map k = l.map k := by
  simp only [updateWhere, List.map_map]
  refine List.map_congr_left fun r hr => ?_
  by_cases hp : p r
  · simp [hp, h r hr hp]
  · simp [hp]

theorem nodup_map_updateWhere_same {k : α → β} (h : (l.map k).Nodup)
    (hf : ∀ r ∈ l, p r → k (f r) = k r) : ((updateWhere p f l).map k).Nodup := by
  rw [map_updateWhere hf]
  exact h

theorem nodup_map_insert {k : α → β} {x : α} (h : (l.map k).Nodup)
    (hx : ∀ r ∈ l, k r ≠ k x) : ((l ++ [x]).map k).Nodup := by
  rw [List.map_append, List.map_singleton]
  refine List.nodup_append.mpr ⟨h, List.nodup_singleton _, ?_⟩
  intro a ha b hb
  rw [List.mem_singleton] at hb
  obtain ⟨r, hr, rfl⟩ := List.mem_map.mp ha
  rw [hb]
  exact hx r hr

/-- Two rows with one value of a unique key are one row. -/
theorem eq_of_key_eq {k : α → β} (h : (l.map k).Nodup) {r s : α} (hr : r ∈ l) (hs : s ∈ l)
    (hk : k r = k s) : r = s :=
  List.inj_on_of_nodup_map h hr hs hk

/-- An update that gives the single row it hits a key nobody else has. -/
theorem nodup_map_updateWhere {k : α → β} (h : (l.map k).Nodup) {v : β}
    (hf : ∀ r ∈ l, p r → k (f r) = v) (hone : ∀ r ∈ l, ∀ s ∈ l, p r → p s → r = s)
    (hfree : ∀ r ∈ l, ¬ p r → k r ≠ v) : ((updateWhere p f l).map k).Nodup := by
  have hl : l.Nodup := List.Nodup.of_map k h
  simp only [updateWhere, List.map_map]
  refine (List.nodup_map_iff_inj_on hl).mpr fun r hr s hs hrs => ?_
  simp only [Function.comp_apply] at hrs
  by_cases hpr : p r <;> by_cases hps : p s
  · exact hone r hr s hs hpr hps
  · rw [if_pos hpr, if_neg hps, hf r hr hpr] at hrs
    exact absurd hrs.symm (hfree s hs hps)
  · rw [if_neg hpr, if_pos hps, hf s hs hps] at hrs
    exact absurd hrs (hfree r hr hpr)
  · rw [if_neg hpr, if_neg hps] at hrs
    exact eq_of_key_eq h hr hs hrs

/-! ## §3. References. -/

/-- Rows of a table that only grew. -/
theorem fk_mono {l' : List α} {P : α → Prop} (hsub : ∀ r ∈ l, r ∈ l')
    (h : ∃ r ∈ l, P r) : ∃ r ∈ l', P r := by
  obtain ⟨r, hr, hp⟩ := h
  exact ⟨r, hsub r hr, hp⟩

/-- An update that keeps what a reference asks for keeps its target. -/
theorem fk_updateWhere {P : α → Prop} (hf : ∀ r, P r → P (f r)) (h : ∃ r ∈ l, P r) :
    ∃ r ∈ updateWhere p f l, P r := by
  obtain ⟨r, hr, hP⟩ := h
  by_cases hp : p r
  · exact ⟨f r, mem_updateWhere.mpr (.inl ⟨r, hr, hp, rfl⟩), hf r hP⟩
  · exact ⟨r, mem_updateWhere.mpr (.inr ⟨hr, hp⟩), hP⟩

/-- A deletion that spares the target of a foreign key. -/
theorem fk_deleteWhere {P : α → Prop} (hf : ∀ r, P r → ¬ p r) (h : ∃ r ∈ l, P r) :
    ∃ r ∈ deleteWhere p l, P r := by
  obtain ⟨r, hr, hP⟩ := h
  exact ⟨r, mem_deleteWhere.mpr ⟨hr, hf r hP⟩, hP⟩

/-! ## §4. Frames. -/

/-- A deletion that hits no selected row. -/
theorem selectWhere_deleteWhere (h : ∀ r ∈ l, q r → ¬ p r) :
    selectWhere q (deleteWhere p l) = selectWhere q l := by
  simp only [selectWhere, deleteWhere, List.filter_filter]
  refine List.filter_congr fun r hr => ?_
  by_cases hq : q r
  · simp [hq, h r hr hq]
  · simp [hq]

/-- An update that changes no selected row and selects no new one. -/
theorem selectWhere_updateWhere (hsame : ∀ r ∈ l, p r → q r → f r = r)
    (hout : ∀ r ∈ l, p r → ¬ q r → ¬ q (f r)) :
    selectWhere q (updateWhere p f l) = selectWhere q l := by
  induction l with
  | nil => rfl
  | cons r l ih =>
      have hl := ih (fun s hs => hsame s (List.mem_cons_of_mem _ hs))
        (fun s hs => hout s (List.mem_cons_of_mem _ hs))
      simp only [selectWhere, updateWhere, List.map_cons, List.filter_cons] at hl ⊢
      by_cases hp : p r
      · by_cases hq : q r
        · rw [if_pos hp, hsame r List.mem_cons_self hp hq, hl]
        · have hfq := hout r List.mem_cons_self hp hq
          simp only [hp, if_true, hq, hfq, decide_false]
          exact hl
      · rw [if_neg hp, hl]

theorem selectWhere_insert {x : α} (h : ¬ q x) : selectWhere q (l ++ [x]) = selectWhere q l := by
  simp [selectWhere, h]

/-- A lookup by a column the update leaves alone, of such a column. -/
theorem map_find?_updateWhere {s : α → Bool} {k : α → β} (hs : ∀ r, p r → s (f r) = s r)
    (hk : ∀ r, p r → k (f r) = k r) :
    ((updateWhere p f l).find? s).map k = (l.find? s).map k := by
  induction l with
  | nil => rfl
  | cons r l ih =>
      simp only [updateWhere, List.map_cons, List.find?_cons] at ih ⊢
      by_cases hp : p r
      · rw [if_pos hp, hs r hp]
        cases s r with
        | true => exact congrArg some (hk r hp)
        | false => exact ih
      · rw [if_neg hp]
        cases s r with
        | true => rfl
        | false => exact ih

/-! ## §5. Pages. -/

/-- `LIMIT limit OFFSET offset`. -/
def slice (offset limit : Nat) (l : List α) : List α := (l.drop offset).take limit

theorem length_slice (offset limit : Nat) (l : List α) :
    (slice offset limit l).length = min limit (l.length - offset) := by
  rw [slice, List.length_take, List.length_drop]

/-- **The pages at the offsets `0`, `limit`, `2 * limit` and so on hold every row once.** -/
theorem sum_length_slice (limit n : Nat) (l : List α) :
    ((List.range n).map fun k => (slice (k * limit) limit l).length).sum
      = min (n * limit) l.length := by
  induction n with
  | zero => simp
  | succ n ih =>
      rw [List.range_succ, List.map_append, List.sum_append, ih, List.map_singleton,
        List.sum_singleton, length_slice, Nat.succ_mul]
      omega

/-! ## §6. The order of a result. -/

/-- The order of the values of a column, as the server has it. -/
structure Collation (κ : Type) where
  le : κ → κ → Bool
  total : ∀ a b, le a b = true ∨ le b a = true
  trans : ∀ {a b c}, le a b = true → le b c = true → le a c = true

/-- Row `a` may stand before row `b`. -/
abbrev Collation.before {κ : Type} (c : Collation κ) (key : α → κ) (a b : α) : Prop :=
  c.le (key a) (key b) = true

/-- `ORDER BY key`. -/
def Collation.orderBy {κ : Type} (c : Collation κ) (key : α → κ) (l : List α) : List α :=
  l.insertionSort (c.before key)

theorem Collation.perm_orderBy {κ : Type} (c : Collation κ) (key : α → κ) (l : List α) :
    (c.orderBy key l).Perm l :=
  List.perm_insertionSort _ l

theorem Collation.pairwise_orderBy {κ : Type} (c : Collation κ) (key : α → κ) (l : List α) :
    (c.orderBy key l).Pairwise (c.before key) := by
  have htotal : Std.Total (c.before key) := ⟨fun a b => c.total (key a) (key b)⟩
  have htrans : IsTrans α (c.before key) := ⟨fun a b d => c.trans⟩
  exact List.pairwise_insertionSort _ l

/-- Texts, character by character. -/
def Collation.byCharacters : Collation String where
  le a b := a ≤ b
  total a b := by
    rw [decide_eq_true_eq, decide_eq_true_eq]
    exact String.le_total a b
  trans h h' := decide_eq_true (String.le_trans (of_decide_eq_true h) (of_decide_eq_true h'))

end Mainflux.Lib
