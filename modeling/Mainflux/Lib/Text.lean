/-
  Mainflux.Lib.Text
  ─────────────────
  **TEXTS: cutting, joining, URL escapes.**

  A text is a list of characters.  A Go string is kept as its bytes, a byte
  written as the character of that number.  Splitting and joining at a separator are the library's
  `List.splitOn` and `List.intercalate`, cutting off a known beginning is
  `List.dropPrefix?`; added here are the replacement of one byte by another and
  `url.QueryUnescape`.
-/
import Mathlib.Data.List.Basic
import Mainflux.Lib.Postgres

namespace Mainflux.Lib

/-- A string as a list. -/
abbrev Text := List Char

namespace Text

theorem dropPrefix?_eq_some {s p r : Text} : s.dropPrefix? p = some r ↔ s = p ++ r := by
  rw [List.dropPrefix?_eq_some_iff]
  constructor
  · rintro ⟨p', hs, hp⟩
    rw [hs, eq_of_beq hp]
  · intro hs
    exact ⟨p, hs, BEq.rfl⟩

/-- A property of every character of a text, by evaluation. -/
theorem forall_mem_of_all {P : Char → Prop} [DecidablePred P] {s : Text}
    (h : s.all (fun c => decide (P c)) = true) : ∀ c ∈ s, P c :=
  fun c hc => of_decide_eq_true (List.all_eq_true.mp h c hc)

/-- What a cut at the first `a` takes from a text without it. -/
theorem decide_ne_of_not_mem {a : Char} {s : Text} (h : a ∉ s) : ∀ c ∈ s, decide (c ≠ a) = true := by
  intro c hc
  rw [decide_eq_true_eq]
  rintro rfl
  exact h hc

/-- No piece of a split holds the separator. -/
theorem not_mem_of_mem_splitOn {a : Char} {s l : Text} (h : l ∈ s.splitOn a) : a ∉ l := by
  induction s generalizing l with
  | nil =>
      rw [List.splitOn_nil, List.mem_singleton] at h
      rw [h]
      exact List.not_mem_nil
  | cons c s ih =>
      rw [List.splitOn_cons_eq_if_modifyHead] at h
      cases hs : s.splitOn a with
      | nil => exact absurd hs (List.splitOn_ne_nil a s)
      | cons p ps =>
          rw [hs] at h ih
          by_cases hc : c == a
          · rw [if_pos hc] at h
            rcases List.mem_cons.mp h with rfl | h
            · exact List.not_mem_nil
            · exact ih h
          · rw [if_neg hc, List.modifyHead_cons] at h
            rcases List.mem_cons.mp h with rfl | h
            · intro hin
              rcases List.mem_cons.mp hin with rfl | hin
              · exact hc BEq.rfl
              · exact ih List.mem_cons_self hin
            · exact ih (List.mem_cons_of_mem _ h)

/-- A piece of a split has its characters from the text. -/
theorem mem_of_mem_splitOn {a c : Char} {s l : Text} (h : l ∈ s.splitOn a) (hc : c ∈ l) : c ∈ s := by
  induction s generalizing l with
  | nil =>
      rw [List.splitOn_nil, List.mem_singleton] at h
      rw [h] at hc
      cases hc
  | cons d s ih =>
      rw [List.splitOn_cons_eq_if_modifyHead] at h
      cases hs : s.splitOn a with
      | nil => exact absurd hs (List.splitOn_ne_nil a s)
      | cons p ps =>
          rw [hs] at h ih
          by_cases hd : d == a
          · rw [if_pos hd] at h
            rcases List.mem_cons.mp h with rfl | h
            · cases hc
            · exact List.mem_cons_of_mem _ (ih h hc)
          · rw [if_neg hd, List.modifyHead_cons] at h
            rcases List.mem_cons.mp h with rfl | h
            · rcases List.mem_cons.mp hc with rfl | hc
              · exact List.mem_cons_self
              · exact List.mem_cons_of_mem _ (ih List.mem_cons_self hc)
            · exact List.mem_cons_of_mem _ (ih (List.mem_cons_of_mem _ h) hc)

/-- The characters of a join. -/
theorem mem_of_mem_intercalate {a c : Char} {ls : List Text} (h : c ∈ [a].intercalate ls) :
    c = a ∨ ∃ l ∈ ls, c ∈ l := by
  induction ls with
  | nil => cases h
  | cons l ls ih =>
      cases ls with
      | nil =>
          rw [List.intercalate_singleton] at h
          exact .inr ⟨l, List.mem_cons_self, h⟩
      | cons l' ls =>
          rw [List.intercalate_cons_cons, List.mem_append, List.mem_append,
            List.mem_singleton] at h
          rcases h with (h | h) | h
          · exact .inr ⟨l, List.mem_cons_self, h⟩
          · exact .inl h
          · rcases ih h with h | ⟨x, hx, hc⟩
            · exact .inl h
            · exact .inr ⟨x, List.mem_cons_of_mem _ hx, hc⟩

/-- Splitting a join splits each part. -/
theorem splitOn_intercalate_flatMap (a : Char) {ls : List Text} (h : ls ≠ []) :
    ([a].intercalate ls).splitOn a = ls.flatMap fun l => l.splitOn a := by
  induction ls with
  | nil => exact absurd rfl h
  | cons l ls ih =>
      rw [List.flatMap_cons]
      cases ls with
      | nil => simp
      | cons l' ls =>
          rw [List.intercalate_cons_cons, List.append_assoc, List.singleton_append,
            List.splitOn_append_cons_self, ih (List.cons_ne_nil _ _)]

/-- A piece of a split is at most as long as the text, and shorter where the text
holds the separator. -/
theorem length_of_mem_splitOn {a : Char} {s l : Text} (h : l ∈ s.splitOn a) :
    l.length + (if a ∈ s then 1 else 0) ≤ s.length := by
  induction s generalizing l with
  | nil =>
      rw [List.splitOn_nil, List.mem_singleton] at h
      rw [h]
      simp
  | cons c s ih =>
      rw [List.splitOn_cons_eq_if_modifyHead] at h
      cases hs : s.splitOn a with
      | nil => exact absurd hs (List.splitOn_ne_nil a s)
      | cons p ps =>
          rw [hs] at h ih
          by_cases hc : c = a
          · rw [if_pos (by simp [hc])] at h
            rw [if_pos (by simp [hc]), List.length_cons]
            rcases List.mem_cons.mp h with rfl | h
            · simp
            · have hlen := ih h
              omega
          · have hmem : (a ∈ c :: s) ↔ a ∈ s := by simp [Ne.symm hc]
            rw [if_neg (by simp [hc]), List.modifyHead_cons] at h
            simp only [hmem, List.length_cons]
            rcases List.mem_cons.mp h with rfl | h
            · have hlen := ih List.mem_cons_self
              rw [List.length_cons]
              omega
            · have hlen := ih (List.mem_cons_of_mem _ h)
              omega

/-- `strings.Replace(s, from, to, -1)` for single bytes. -/
def replaceAll (a b : Char) (s : Text) : Text := s.map fun c => if c = a then b else c

theorem replaceAll_of_not_mem {a b : Char} {s : Text} (h : a ∉ s) : replaceAll a b s = s := by
  refine (List.map_congr_left fun c hc => ?_).trans (List.map_id s)
  have hne : c ≠ a := by
    rintro rfl
    exact h hc
  exact if_neg hne

theorem not_mem_replaceAll {a b : Char} (h : b ≠ a) (s : Text) : a ∉ replaceAll a b s := by
  intro hin
  obtain ⟨c, -, hc⟩ := List.mem_map.mp hin
  split at hc
  · exact h hc
  · next hne => exact hne hc

theorem length_replaceAll (a b : Char) (s : Text) : (replaceAll a b s).length = s.length :=
  List.length_map _

/-- Replacing one separator by the other and cutting at that cuts at both. -/
theorem splitOn_replaceAll (a b : Char) (s : Text) :
    (replaceAll a b s).splitOn b = s.splitOnP fun c => c = a || c = b := by
  induction s with
  | nil => rfl
  | cons c s ih =>
      have hcons : replaceAll a b (c :: s) = (if c = a then b else c) :: replaceAll a b s := rfl
      rw [hcons, List.splitOn_cons_eq_if_modifyHead, List.splitOnP_cons_eq_if_modifyHead, ih]
      by_cases hca : c = a
      · simp [hca]
      · by_cases hcb : c = b
        · simp [hcb]
        · simp [hca, hcb]

/-- Replacing the separator of a join. -/
theorem replaceAll_intercalate {a : Char} (b : Char) {ls : List Text} (h : ∀ l ∈ ls, a ∉ l) :
    replaceAll a b ([a].intercalate ls) = [b].intercalate ls := by
  induction ls with
  | nil => rfl
  | cons l ls ih =>
      have hl : replaceAll a b l = l := replaceAll_of_not_mem (h l List.mem_cons_self)
      have hrest := ih fun x hx => h x (List.mem_cons_of_mem _ hx)
      cases ls with
      | nil => simpa using hl
      | cons l' ls =>
          rw [List.intercalate_cons_cons, List.intercalate_cons_cons, ← hrest]
          simp only [replaceAll, List.map_append] at hl ⊢
          rw [hl]
          simp

/-- `url.QueryUnescape`. -/
def queryUnescape : Text → Option Text
  | [] => some []
  | '%' :: a :: b :: cs =>
      match hexVal a, hexVal b, queryUnescape cs with
      | some x, some y, some s => some (Char.ofNat (x.val * 16 + y) :: s)
      | _, _, _ => none
  | c :: cs =>
      if c = '%' then none
      else (queryUnescape cs).map fun s => (if c = '+' then ' ' else c) :: s

/-- A byte that is neither `%` nor `+` stands for itself. -/
theorem queryUnescape_self {s : Text} (h : ∀ c ∈ s, c ≠ '%' ∧ c ≠ '+') :
    queryUnescape s = some s := by
  induction s with
  | nil => rfl
  | cons c s ih =>
      obtain ⟨hpercent, hplus⟩ := h c List.mem_cons_self
      rw [queryUnescape, ih fun x hx => h x (List.mem_cons_of_mem _ hx), if_neg hpercent,
        Option.map_some, if_neg hplus]
      intro a b cs hc _
      exact absurd hc hpercent

end Text

end Mainflux.Lib
