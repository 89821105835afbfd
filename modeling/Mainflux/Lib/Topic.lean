/-
  Mainflux.Lib.Topic
  ──────────────────
  **TOPICS WITH WILDCARDS.**

  A topic is a list of tokens.  In a pattern one token, `star`, stands for any token, and
  another, `rest`, as the last one, for one or more tokens.

    • `covers_iff` — the matcher decides what a pattern means;
    • `covers_cons_literal` — a token in front that is no wildcard confines a pattern.
-/
import Mathlib.Data.List.Basic
import Mathlib.Data.List.Forall2

namespace Mainflux.Lib.Topic

variable {α : Type} [DecidableEq α] (star rest : α)

/-- The matcher. -/
def covers : List α → List α → Bool
  | [], ts => ts.isEmpty
  | _ :: _, [] => false
  | p :: ps, t :: ts =>
      if p = rest then ps.isEmpty else (decide (p = star) || decide (p = t)) && covers ps ts

/-- A token of a pattern, and a token that it stands for. -/
def Stands (p t : α) : Prop := p ≠ rest ∧ (p = star ∨ p = t)

/-- What a pattern means: token by token, or so for a beginning of the topic, with one token or
more behind it for a `rest` at the end. -/
def Covers (ps ts : List α) : Prop :=
  List.Forall₂ (Stands star rest) ps ts ∨
    ∃ qs us vs, ps = qs ++ [rest] ∧ ts = us ++ vs ∧ vs ≠ [] ∧ List.Forall₂ (Stands star rest) qs us

variable {star rest}

/-- **The matcher decides what a pattern means.** -/
theorem covers_iff {ps ts : List α} : covers star rest ps ts = true ↔ Covers star rest ps ts := by
  induction ps generalizing ts with
  | nil =>
      rw [covers, List.isEmpty_iff]
      constructor
      · rintro rfl
        exact .inl .nil
      · rintro (h | ⟨qs, us, vs, h, -⟩)
        · exact List.forall₂_nil_left_iff.mp h
        · exact absurd h.symm (by simp)
  | cons p ps ih =>
      cases ts with
      | nil =>
          rw [covers]
          constructor
          · intro h
            exact absurd h (by simp)
          · rintro (h | ⟨qs, us, vs, -, h, hne, -⟩)
            · exact absurd h (by simp)
            · exact absurd (List.append_eq_nil_iff.mp h.symm).2 hne
      | cons t ts =>
          rw [covers]
          by_cases hp : p = rest
          · rw [if_pos hp, List.isEmpty_iff]
            constructor
            · rintro rfl
              exact .inr ⟨[], [], t :: ts, by rw [hp]; rfl, rfl, List.cons_ne_nil _ _, .nil⟩
            · rintro (h | ⟨qs, us, vs, hps, -, -, hqs⟩)
              · cases h with
                | cons hstands _ => exact absurd hp hstands.1
              · cases qs with
                | nil => exact (List.cons.inj hps).2
                | cons q qs =>
                    cases hqs with
                    | cons hstands _ =>
                        exact absurd ((List.cons.inj hps).1.symm.trans hp) hstands.1
          · rw [if_neg hp, Bool.and_eq_true, Bool.or_eq_true, decide_eq_true_eq, decide_eq_true_eq, ih]
            constructor
            · rintro ⟨hstands, h | ⟨qs, us, vs, rfl, rfl, hne, hqs⟩⟩
              · exact .inl (.cons ⟨hp, hstands⟩ h)
              · exact .inr ⟨p :: qs, t :: us, vs, rfl, rfl, hne, .cons ⟨hp, hstands⟩ hqs⟩
            · rintro (h | ⟨qs, us, vs, hps, hts, hne, hqs⟩)
              · cases h with
                | cons hstands h => exact ⟨hstands.2, .inl h⟩
              · cases hqs with
                | nil => exact absurd (List.cons.inj hps).1 hp
                | cons hstands hqs =>
                    obtain ⟨rfl, rfl⟩ := List.cons.inj hps
                    obtain ⟨rfl, rfl⟩ := List.cons.inj hts
                    exact ⟨hstands.2, .inr ⟨_, _, vs, rfl, rfl, hne, hqs⟩⟩

/-- A token that is no wildcard stands for itself only. -/
theorem covers_cons_literal {p t : α} {ps ts : List α} (hstar : p ≠ star) (hrest : p ≠ rest) :
    covers star rest (p :: ps) (t :: ts) = true ↔ p = t ∧ covers star rest ps ts = true := by
  rw [covers, if_neg hrest, Bool.and_eq_true, Bool.or_eq_true, decide_eq_true_eq, decide_eq_true_eq]
  exact and_congr_left fun _ => or_iff_right hstar

/-- `rest` alone covers every topic with a token. -/
theorem covers_rest {t : α} {ts : List α} : covers star rest [rest] (t :: ts) = true := by
  rw [covers, if_pos rfl]
  rfl

end Mainflux.Lib.Topic
