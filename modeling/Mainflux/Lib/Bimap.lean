/-
  Mainflux.Lib.Bimap
  ──────────────────
  **A MAP KEPT IN BOTH DIRECTIONS.**

  Two partial maps that are meant to be inverse to each other.  `save` writes
  a pair into both and cleans nothing up; `remove` follows the first map to
  find what to delete from the second.

    • `save_inverse_iff` — saving keeps the maps inverse exactly when neither
      side has ANOTHER partner;
    • `remove_inverse` — removing always does;
    • `back_step` — as long as they are inverse, the second map says whom a
      value was last saved for;
    • `run_eq_iff` — the histories in which `remove` does what it is for
      (`forget`): it takes away what belongs to one, and nothing else.
-/
import Mathlib.Data.List.Basic
import Mainflux.Lib.Run

namespace Mainflux.Lib

@[ext] structure Bimap (α β : Type) where
  out : α → Option β
  back : β → Option α

namespace Bimap

variable {α β : Type}

/-- The two maps say the same. -/
def Inverse (m : Bimap α β) : Prop := ∀ a b, m.out a = some b ↔ m.back b = some a

def empty : Bimap α β := ⟨fun _ => none, fun _ => none⟩

theorem inverse_empty : (empty : Bimap α β).Inverse :=
  fun _ _ => iff_of_false (fun h => by cases h) fun h => by cases h

/-- No value but its partner belongs to `a`, and the partner belongs to nobody else. -/
structure Matched (m : Bimap α β) (a : α) : Prop where
  only : ∀ b, m.back b = some a → m.out a = some b
  own : ∀ b a', m.out a = some b → m.back b = some a' → a' = a

theorem Inverse.matched {m : Bimap α β} (h : m.Inverse) (a : α) : m.Matched a where
  only b hb := (h a b).mpr hb
  own b _ hb ha := Option.some.inj (ha.symm.trans ((h a b).mp hb))

variable [DecidableEq α] [DecidableEq β]

/-- Both directions are written over. -/
def save (m : Bimap α β) (a : α) (b : β) : Bimap α β where
  out x := if x = a then some b else m.out x
  back y := if y = b then some a else m.back y

theorem save_out (m : Bimap α β) (a : α) (b : β) (x : α) :
    (m.save a b).out x = if x = a then some b else m.out x := rfl

theorem save_back (m : Bimap α β) (a : α) (b y : β) :
    (m.save a b).back y = if y = b then some a else m.back y := rfl

/-- The partner in the first map is removed from the second. -/
def remove (m : Bimap α β) (a : α) : Bimap α β where
  out x := if x = a then none else m.out x
  back y := if m.out a = some y then none else m.back y

inductive Op (α β : Type)
  | save (a : α) (b : β)
  | remove (a : α)

/-- Whom the operation is about. -/
def Op.of : Op α β → α
  | .save a _ => a
  | .remove a => a

def step (m : Bimap α β) : Op α β → Bimap α β
  | .save a b => m.save a b
  | .remove a => m.remove a

/-- Neither side of a pair that is saved has another partner. -/
def Paired (m : Bimap α β) : Op α β → Prop
  | .save a b => (∀ b', m.out a = some b' → b' = b) ∧ ∀ a', m.back b = some a' → a' = a
  | .remove _ => True

variable {m : Bimap α β}

/-- **Saving keeps the maps inverse exactly when it takes no partner from anyone.** -/
theorem save_inverse_iff (h : m.Inverse) (a : α) (b : β) :
    (m.save a b).Inverse ↔ m.Paired (.save a b) := by
  constructor
  · intro hsaved
    constructor
    · -- another partner of `a` would still point back to it
      intro b' hb'
      by_contra hne
      have hback : (m.save a b).back b' = some a := by
        rw [save_back, if_neg hne]
        exact (h a b').mp hb'
      have hout := (hsaved a b').mpr hback
      rw [save_out, if_pos rfl] at hout
      exact hne (Option.some.inj hout).symm
    · intro a' ha'
      by_contra hne
      have hout : (m.save a b).out a' = some b := by
        rw [save_out, if_neg hne]
        exact (h a' b).mpr ha'
      have hback := (hsaved a' b).mp hout
      rw [save_back, if_pos rfl] at hback
      exact hne (Option.some.inj hback).symm
  · rintro ⟨hout, hback⟩ x y
    rw [save_out, save_back]
    by_cases hx : x = a
    · by_cases hy : y = b
      · rw [if_pos hx, if_pos hy, hx, hy]
        exact iff_of_true rfl rfl
      · rw [if_pos hx, if_neg hy, hx]
        refine iff_of_false (fun heq => hy (Option.some.inj heq).symm) fun hb => ?_
        exact hy (hout y ((h a y).mpr hb))
    · by_cases hy : y = b
      · rw [if_neg hx, if_pos hy, hy]
        refine iff_of_false (fun ho => hx (hback x ((h x b).mp ho))) fun heq => ?_
        exact hx (Option.some.inj heq).symm
      · rw [if_neg hx, if_neg hy]
        exact h x y

/-- While the maps are inverse, removing takes the partners of one, and no others. -/
theorem back_remove (h : m.Inverse) (a : α) (y : β) :
    (m.remove a).back y = if m.back y = some a then none else m.back y := by
  rw [remove]
  simp only [h a y]

theorem remove_inverse (h : m.Inverse) (a : α) : (m.remove a).Inverse := by
  intro x y
  rw [back_remove h]
  show (if x = a then none else m.out x) = some y ↔ _
  by_cases hx : x = a
  · rw [if_pos hx, hx]
    refine iff_of_false (fun heq => by cases heq) fun hy => ?_
    split at hy
    next => cases hy
    next hne => exact hne hy
  · rw [if_neg hx, h x y]
    by_cases hy : m.back y = some a
    · rw [if_pos hy, hy]
      exact iff_of_false (fun heq => hx (Option.some.inj heq).symm) fun heq => by cases heq
    · rw [if_neg hy]

/-- **What one operation does to the invariant.** -/
theorem inverse_step_iff (h : m.Inverse) (op : Op α β) : (m.step op).Inverse ↔ m.Paired op := by
  cases op with
  | save a b => exact save_inverse_iff h a b
  | remove a => exact iff_of_true (remove_inverse h a) trivial

/-! ## Whom a value was last saved for. -/

/-- A value belongs to the one it was last saved for, until that one is removed. -/
def record (f : β → Option α) : Op α β → β → Option α
  | .save a b => fun y => if y = b then some a else f y
  | .remove a => fun y => if f y = some a then none else f y

/-- **The second map records it, as long as the maps are inverse.** -/
theorem back_step (h : m.Inverse) (op : Op α β) : (m.step op).back = record m.back op := by
  cases op with
  | save a b => rfl
  | remove a => exact funext fun y => back_remove h a y

/-- What was removed is nobody's partner. -/
theorem back_remove_ne (h : m.Inverse) (a : α) (b : β) : (m.remove a).back b ≠ some a := by
  rw [back_remove h]
  split
  next => exact fun hno => by cases hno
  next hne => exact hne

/-- What was saved has the one partner. -/
theorem back_save_iff (h : m.Inverse) {a : α} {b : β} (hp : m.Paired (.save a b)) (b' : β) :
    (m.save a b).back b' = some a ↔ b' = b := by
  rw [← (save_inverse_iff h a b).mpr hp a b', save_out, if_pos rfl, Option.some.injEq]
  exact eq_comm

/-- **The partners of the others stay.** -/
theorem back_step_of_ne (h : m.Inverse) {op : Op α β} (hp : m.Paired op) {a : α} {b : β}
    (ha : a ≠ op.of) (hb : m.back b = some a) : (m.step op).back b = some a := by
  cases op with
  | save x y =>
      show (if b = y then some x else m.back b) = some a
      split
      next heq =>
          rw [heq] at hb
          exact absurd (hp.2 a hb) ha
      next => exact hb
  | remove x =>
      show (m.remove x).back b = some a
      rw [back_remove h, hb, if_neg]
      exact fun heq => ha (Option.some.inj heq)

/-! ## What removing is for. -/

/-- What belongs to `a` goes, and nothing else. -/
def forget (m : Bimap α β) (a : α) : Bimap α β where
  out x := if x = a then none else m.out x
  back y := if m.back y = some a then none else m.back y

/-- A history, with the removals as they should be. -/
def idealStep (m : Bimap α β) : Op α β → Bimap α β
  | .save a b => m.save a b
  | .remove a => m.forget a

/-- **Removing by following the first map does what it is for exactly when the two maps say
the same of the one removed.** -/
theorem remove_eq_forget_iff (a : α) : m.remove a = m.forget a ↔ m.Matched a := by
  constructor
  · intro h
    have hback : ∀ b, (if m.out a = some b then none else m.back b)
        = if m.back b = some a then none else m.back b := fun b =>
      congrFun (congrArg back h) b
    constructor
    · intro b hb
      by_contra hout
      have hb' := hback b
      rw [if_neg hout, if_pos hb, hb] at hb'
      cases hb'
    · intro b a' hout ha'
      by_contra hne
      have hb' := hback b
      rw [if_pos hout, ha', if_neg fun heq => hne (Option.some.inj heq)] at hb'
      cases hb'
  · intro h
    ext1
    · rfl
    · funext b
      show (if m.out a = some b then none else m.back b)
        = if m.back b = some a then none else m.back b
      by_cases hb : m.back b = some a
      · rw [if_pos hb, if_pos (h.only b hb)]
      · rw [if_neg hb]
        split
        next hout =>
            -- the partner has gone already, or belongs to nobody else
            cases ha' : m.back b with
            | none => rfl
            | some a' => exact absurd (h.own b a' hout ha' ▸ ha') hb
        next => rfl

/-- Saving without taking a partner from anyone keeps the maps inverse. -/
theorem inverse_idealStep (h : m.Inverse) {op : Op α β} (hp : m.Paired op) :
    (m.idealStep op).Inverse := by
  cases op with
  | save a b => exact (save_inverse_iff h a b).mpr hp
  | remove a =>
      show (m.forget a).Inverse
      rw [← (remove_eq_forget_iff a).mpr (h.matched a)]
      exact remove_inverse h a

/-- A removal finds the two maps to agree. -/
def Clean (m : Bimap α β) : Op α β → Prop
  | .save _ _ => True
  | .remove a => m.Matched a

theorem step_eq_iff (op : Op α β) : m.step op = m.idealStep op ↔ m.Clean op := by
  cases op with
  | save a b => exact iff_of_true rfl trivial
  | remove a => exact remove_eq_forget_iff a

/-- **Histories.**  The maps are at every moment what they should be exactly when every
removal finds them to agree. -/
theorem run_eq_iff (ops : List (Op α β)) :
    (∀ before after, ops = before ++ after → run step m before = run idealStep m before) ↔
      Along idealStep Clean m ops := by
  induction ops generalizing m with
  | nil =>
      refine iff_of_true (fun before after h => ?_) trivial
      obtain ⟨rfl, -⟩ := List.append_eq_nil_iff.mp h.symm
      rfl
  | cons op ops ih =>
      constructor
      · intro h
        have hstep : m.step op = m.idealStep op := h [op] ops rfl
        refine ⟨(step_eq_iff op).mp hstep, ih.mp fun before after heq => ?_⟩
        have hlater := h (op :: before) after (by rw [heq, List.cons_append])
        rw [run_cons, run_cons, hstep] at hlater
        exact hlater
      · intro ⟨hclean, hrest⟩ before after heq
        cases before with
        | nil => rfl
        | cons op' before =>
            obtain ⟨rfl, htail⟩ := List.cons.inj heq
            rw [run_cons, run_cons, (step_eq_iff op).mpr hclean]
            exact ih.mpr hrest before after htail

/-- What was forgotten belongs to `a` again only when it is saved. -/
theorem forgotten (a : α) {mid : List (Op α β)} (hmid : ∀ b, .save a b ∉ mid) (b : β) :
    (run idealStep (m.forget a) mid).back b ≠ some a := by
  have halong : Along idealStep (fun _ op => ∀ b, op ≠ .save a b) (m.forget a) mid :=
    along_of_mem fun op hop _ b heq => hmid b (heq ▸ hop)
  refine run_inv (I := fun n : Bimap α β => ∀ b, n.back b ≠ some a) ?_ ?_ halong b
  · intro n op hn hop b
    cases op with
    | save x y =>
        show (if b = y then some x else n.back b) ≠ some a
        split
        · exact fun heq => hop y (Option.some.inj heq ▸ rfl)
        · exact hn b
    | remove x =>
        show (if n.back b = some x then none else n.back b) ≠ some a
        split
        · exact nofun
        · exact hn b
  · intro b
    show (if m.back b = some a then none else m.back b) ≠ some a
    split
    next => exact nofun
    next hne => exact hne

end Bimap

end Mainflux.Lib
