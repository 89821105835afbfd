/-
  Mainflux.Lib.Diff
  ─────────────────
  **THE DIFFERENCE OF TWO SETS, AND APPLYING IT.**

  A set is kept as a list and is to become another one: some elements are taken out, others
  are put in, one by one.  Taking out what is not there, and putting in what is there, is
  refused.

    • `removeAll_iff`, `insertAll_iff` — when the elements of a list go out, or in;
    • `IsDiff.applies` — a difference can be applied, and gives the wanted set;
    • `IsDiff.perm` — there is one difference, up to the order.
-/
import Mathlib.Data.List.Nodup
import Mathlib.Data.List.Perm.Lattice

namespace Mainflux.Lib

/-! ## §1. Differences. -/

variable {α : Type}

/-- What is to be put in and what is to be taken out, to get from one set to another. -/
structure IsDiff (current wanted add remove : List α) : Prop where
  add_nodup : add.Nodup
  remove_nodup : remove.Nodup
  mem_add : ∀ c, c ∈ add ↔ c ∈ wanted ∧ c ∉ current
  mem_remove : ∀ c, c ∈ remove ↔ c ∈ current ∧ c ∉ wanted

/-- **There is one difference**, up to the order. -/
theorem IsDiff.perm {current wanted add remove : List α} (h : IsDiff current wanted add remove)
    {add' remove' : List α} :
    IsDiff current wanted add' remove' ↔ add'.Perm add ∧ remove'.Perm remove := by
  constructor
  · intro h'
    refine ⟨(List.perm_ext_iff_of_nodup h'.add_nodup h.add_nodup).mpr fun c => ?_,
      (List.perm_ext_iff_of_nodup h'.remove_nodup h.remove_nodup).mpr fun c => ?_⟩
    · rw [h'.mem_add, h.mem_add]
    · rw [h'.mem_remove, h.mem_remove]
  · intro ⟨hadd, hremove⟩
    exact ⟨hadd.nodup_iff.mpr h.add_nodup, hremove.nodup_iff.mpr h.remove_nodup,
      fun c => hadd.mem_iff.trans (h.mem_add c), fun c => hremove.mem_iff.trans (h.mem_remove c)⟩

/-! ## §2. Applying one. -/

variable [DecidableEq α]

/-- Take out one after the other. -/
def removeAll : List α → List α → Option (List α)
  | s, [] => some s
  | s, c :: cs => if c ∈ s then removeAll (s.filter fun d => d ≠ c) cs else none

/-- Put in one after the other. -/
def insertAll : List α → List α → Option (List α)
  | s, [] => some s
  | s, c :: cs => if c ∈ s then none else insertAll (s ++ [c]) cs

section Apply

variable {s s' cs : List α}

/-- **All go out exactly when each is there, and none comes twice.** -/
theorem removeAll_iff :
    removeAll s cs = some s' ↔
      cs.Nodup ∧ (∀ c ∈ cs, c ∈ s) ∧ s' = s.filter fun d => d ∉ cs := by
  induction cs generalizing s with
  | nil =>
      rw [removeAll, Option.some.injEq]
      constructor
      · intro h
        refine ⟨List.nodup_nil, fun c hc => absurd hc List.not_mem_nil, ?_⟩
        rw [← h]
        exact (List.filter_eq_self.mpr fun d _ => decide_eq_true List.not_mem_nil).symm
      · intro h
        rw [h.2.2]
        exact (List.filter_eq_self.mpr fun d _ => decide_eq_true List.not_mem_nil).symm
  | cons c cs ih =>
      rw [removeAll]
      -- what is left of `s` is what is neither `c` nor one of the others
      have hleft : (s.filter fun d => d ≠ c).filter (fun d => d ∉ cs)
          = s.filter fun d => d ∉ c :: cs := by
        rw [List.filter_filter]
        refine List.filter_congr fun d _ => ?_
        rw [← Bool.decide_and, decide_eq_decide, List.mem_cons, not_or]
        exact and_comm
      split
      next hc =>
          rw [ih, hleft, List.nodup_cons]
          constructor
          · intro ⟨hnodup, hin, hs'⟩
            refine ⟨⟨fun hmem => ?_, hnodup⟩, fun d hd => ?_, hs'⟩
            · exact absurd rfl (of_decide_eq_true (List.mem_filter.mp (hin c hmem)).2)
            · rcases List.mem_cons.mp hd with heq | hd
              · exact heq ▸ hc
              · exact (List.mem_filter.mp (hin d hd)).1
          · intro ⟨⟨hnew, hnodup⟩, hin, hs'⟩
            refine ⟨hnodup, fun d hd => List.mem_filter.mpr ⟨?_, decide_eq_true ?_⟩, hs'⟩
            · exact hin d (List.mem_cons_of_mem c hd)
            · exact fun heq => hnew (heq ▸ hd)
      next hc =>
          exact iff_of_false (fun h => by cases h) fun h => hc (h.2.1 c List.mem_cons_self)

/-- **All go in exactly when none is there yet, and none comes twice.** -/
theorem insertAll_iff :
    insertAll s cs = some s' ↔ cs.Nodup ∧ (∀ c ∈ cs, c ∉ s) ∧ s' = s ++ cs := by
  induction cs generalizing s with
  | nil =>
      rw [insertAll, Option.some.injEq, List.append_nil]
      constructor
      · intro h
        exact ⟨List.nodup_nil, fun c hc => absurd hc List.not_mem_nil, h.symm⟩
      · intro h
        exact h.2.2.symm
  | cons c cs ih =>
      rw [insertAll]
      split
      next hc =>
          exact iff_of_false (fun h => by cases h) fun h => h.2.1 c List.mem_cons_self hc
      next hc =>
          rw [ih, List.nodup_cons, List.append_assoc]
          constructor
          · intro ⟨hnodup, hout, hs'⟩
            refine ⟨⟨fun hmem => ?_, hnodup⟩, fun d hd => ?_, hs'⟩
            · exact hout c hmem (List.mem_append_right s (List.mem_singleton_self c))
            · rcases List.mem_cons.mp hd with heq | hd
              · exact heq ▸ hc
              · exact fun hin => hout d hd (List.mem_append_left [c] hin)
          · intro ⟨⟨hnew, hnodup⟩, hout, hs'⟩
            refine ⟨hnodup, fun d hd hin => ?_, hs'⟩
            rcases List.mem_append.mp hin with hin | hin
            · exact hout d (List.mem_cons_of_mem c hd) hin
            · exact hnew (List.mem_singleton.mp hin ▸ hd)

end Apply

namespace IsDiff

variable {current wanted add remove : List α}

/-- **A difference can be applied**: everything that goes out is there, everything that goes
in is not, and what there is at the end is what is wanted. -/
theorem applies (h : IsDiff current wanted add remove) :
    ∃ kept s, removeAll current remove = some kept ∧ insertAll kept add = some s ∧
      ∀ c, c ∈ s ↔ c ∈ wanted := by
  refine ⟨current.filter fun d => d ∉ remove, _, removeAll_iff.mpr ⟨h.remove_nodup, ?_, rfl⟩,
    insertAll_iff.mpr ⟨h.add_nodup, ?_, rfl⟩, fun c => ?_⟩
  · intro c hc
    exact ((h.mem_remove c).mp hc).1
  · intro c hc hin
    exact ((h.mem_add c).mp hc).2 (List.mem_filter.mp hin).1
  · rw [List.mem_append, List.mem_filter, decide_eq_true_eq, h.mem_add, h.mem_remove]
    -- an element is kept when it is wanted, and put in when it was not there
    by_cases hcurrent : c ∈ current
    · by_cases hwanted : c ∈ wanted
      · exact iff_of_true (.inl ⟨hcurrent, fun hno => hno.2 hwanted⟩) hwanted
      · refine iff_of_false (fun hc => ?_) hwanted
        rcases hc with hc | hc
        · exact hc.2 ⟨hcurrent, hwanted⟩
        · exact hwanted hc.1
    · constructor
      · intro hc
        rcases hc with hc | hc
        · exact absurd hc.1 hcurrent
        · exact hc.1
      · intro hwanted
        exact .inr ⟨hwanted, hcurrent⟩

end IsDiff

end Mainflux.Lib
