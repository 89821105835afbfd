/-
  Mainflux.Lib.Run
  ────────────────
  **RUNS OF A TRANSITION FUNCTION.**

  A system is a state `σ`, an alphabet of requests `ι` and a total
  transition `step : σ → ι → σ` (with replies: `σ → ι → σ × ρ`).  A run is a
  list of requests.  Three rules carry every whole-run argument over such a
  system:

    • `run_inv` — an invariant that each step keeps WHEN the step meets a
      side condition holds at the end of every run all of whose steps meet
      it (`Along`);
    • `run_origin` — what holds at the end of a run came to be at some step
      and has survived since;
    • `replies_eq` — two systems related by a simulation give the same list
      of replies to the same requests.

  `run_append` and `along_append` cut a run in two, for the properties that
  speak about one moment of a run and a later one.
-/
import Mathlib.Data.List.Basic
import Mathlib.Data.List.Induction

namespace Mainflux.Lib

/-! ## §1. Runs and side conditions. -/

section Runs

variable {σ ι : Type}

/-- The state after the requests `is`, one after another. -/
def run (step : σ → ι → σ) : σ → List ι → σ
  | s, [] => s
  | s, i :: is => run step (step s i) is

/-- Every step of the run meets the side condition `C` in the state it is
taken from. -/
def Along (step : σ → ι → σ) (C : σ → ι → Prop) : σ → List ι → Prop
  | _, [] => True
  | s, i :: is => C s i ∧ Along step C (step s i) is

variable {step : σ → ι → σ} {C : σ → ι → Prop}

@[simp] theorem run_nil (s : σ) : run step s [] = s := rfl

@[simp] theorem run_cons (s : σ) (i : ι) (is : List ι) :
    run step s (i :: is) = run step (step s i) is := rfl

theorem run_append (s : σ) (is js : List ι) :
    run step s (is ++ js) = run step (run step s is) js := by
  induction is generalizing s with
  | nil => rfl
  | cons i is ih => exact ih (step s i)

theorem along_append (s : σ) (is js : List ι) :
    Along step C s (is ++ js) ↔
      Along step C s is ∧ Along step C (run step s is) js := by
  induction is generalizing s with
  | nil => simp [Along]
  | cons i is ih => simp only [List.cons_append, Along, run_cons, ih, and_assoc]

/-- A side condition that holds at every state and request holds along every
run. -/
theorem along_of_forall (h : ∀ s i, C s i) (s : σ) (is : List ι) :
    Along step C s is := by
  induction is generalizing s with
  | nil => trivial
  | cons i is ih => exact ⟨h s i, ih (step s i)⟩

/-- Along a run: at every step, in the state it is taken from. -/
theorem along_iff {s : σ} {is : List ι} :
    Along step C s is ↔ ∀ pre i post, is = pre ++ i :: post → C (run step s pre) i := by
  constructor
  · intro h pre i post heq
    rw [heq, along_append] at h
    exact h.2.1
  · intro h
    induction is generalizing s with
    | nil => trivial
    | cons i is ih =>
        refine ⟨h [] i is rfl, ih fun pre j post heq => ?_⟩
        exact h (i :: pre) j post (by rw [heq, List.cons_append])

/-- A side condition on the requests alone. -/
theorem along_of_mem {s : σ} {is : List ι} (h : ∀ i ∈ is, ∀ s, C s i) : Along step C s is := by
  induction is generalizing s with
  | nil => trivial
  | cons i is ih =>
      exact ⟨h i List.mem_cons_self s, ih fun j hj => h j (List.mem_cons_of_mem _ hj)⟩

/-- `C` holds at some step of the run. -/
def Occurs (step : σ → ι → σ) (C : σ → ι → Prop) : σ → List ι → Prop
  | _, [] => False
  | s, i :: is => C s i ∨ Occurs step C (step s i) is

instance instDecidableOccurs [DecidableRel C] :
    ∀ (s : σ) (is : List ι), Decidable (Occurs step C s is)
  | _, [] => isFalse fun h => h
  | s, i :: is =>
      have : Decidable (Occurs step C (step s i) is) := instDecidableOccurs (step s i) is
      inferInstanceAs (Decidable (C s i ∨ _))

/-- What never occurs fails at every step. -/
theorem along_not_of_not_occurs {s : σ} {is : List ι} (h : ¬ Occurs step C s is) :
    Along step (fun s i => ¬ C s i) s is := by
  induction is generalizing s with
  | nil => trivial
  | cons i is ih => exact ⟨fun hc => h (.inl hc), ih fun ho => h (.inr ho)⟩

theorem not_occurs_of_along {s : σ} {is : List ι} (h : Along step (fun s i => ¬ C s i) s is) :
    ¬ Occurs step C s is := by
  induction is generalizing s with
  | nil => exact fun ho => ho
  | cons i is ih =>
      rintro (hc | ho)
      · exact h.1 hc
      · exact ih h.2 ho

theorem Along.and {D : σ → ι → Prop} {s : σ} {is : List ι} (hC : Along step C s is)
    (hD : Along step D s is) : Along step (fun s i => C s i ∧ D s i) s is := by
  induction is generalizing s with
  | nil => trivial
  | cons i is ih => exact ⟨⟨hC.1, hD.1⟩, ih hC.2 hD.2⟩

/-- **The invariant rule**: what one admissible step preserves, a run of
admissible steps preserves. -/
theorem run_inv {I : σ → Prop} (hstep : ∀ s i, I s → C s i → I (step s i))
    {s : σ} {is : List ι} (h0 : I s) (hs : Along step C s is) : I (run step s is) := by
  induction is generalizing s with
  | nil => exact h0
  | cons i is ih => exact ih (hstep s i h0 hs.1) hs.2

/-- The invariant rule along the run: what follows from the invariant and from the
side condition of a step holds at every step. -/
theorem Along.of_inv {I : σ → Prop} {D : σ → ι → Prop}
    (hstep : ∀ s i, I s → C s i → I (step s i)) (hD : ∀ s i, I s → C s i → D s i)
    {s : σ} {is : List ι} (h0 : I s) (hs : Along step C s is) : Along step D s is := by
  induction is generalizing s with
  | nil => trivial
  | cons i is ih => exact ⟨hD s i h0 hs.1, ih (hstep s i h0 hs.1) hs.2⟩

/-- **The exact rule**: where `C` says of each step whether it keeps `I`, a run goes
through states of `I` exactly when all its steps meet `C`.  (`J` is what holds of these
states anyhow.) -/
theorem run_iff {I J : σ → Prop} (hJ : ∀ s i, J s → J (step s i))
    (hstep : ∀ s i, J s → I s → (I (step s i) ↔ C s i))
    {s : σ} {is : List ι} (hJ0 : J s) (hI0 : I s) :
    (∀ before after, is = before ++ after → I (run step s before)) ↔ Along step C s is := by
  induction is generalizing s with
  | nil =>
      refine iff_of_true (fun before after h => ?_) trivial
      obtain ⟨rfl, -⟩ := List.append_eq_nil_iff.mp h.symm
      exact hI0
  | cons i is ih =>
      constructor
      · intro h
        have hI : I (step s i) := h [i] is rfl
        refine ⟨(hstep s i hJ0 hI0).mp hI, (ih (hJ s i hJ0) hI).mp fun before after heq => ?_⟩
        exact h (i :: before) after (by rw [heq, List.cons_append])
      · rintro ⟨hC, hrest⟩ before after heq
        have hI : I (step s i) := (hstep s i hJ0 hI0).mpr hC
        cases before with
        | nil => exact hI0
        | cons j before =>
            obtain ⟨rfl, htail⟩ := List.cons.inj heq
            exact (ih (hJ s i hJ0) hI).mpr hrest before after htail

/-- **The origin rule**: what holds at the end of a run and did not hold at its
start came to be at some step (`B`) and has survived every step since (`K`). -/
theorem run_origin {P : σ → Prop} {B K : σ → ι → Prop}
    (hstep : ∀ s i, P (step s i) → P s ∧ K s i ∨ B s i)
    {s : σ} (h0 : ¬ P s) {is : List ι} (h : P (run step s is)) :
    ∃ pre i post, is = pre ++ i :: post ∧ B (run step s pre) i ∧
      Along step K (run step s (pre ++ [i])) post := by
  induction is using List.reverseRecOn with
  | nil => exact absurd h h0
  | append_singleton is i ih =>
      rw [run_append] at h
      rcases hstep _ _ h with ⟨hP, hK⟩ | hB
      · obtain ⟨pre, j, post, rfl, hB, hpost⟩ := ih hP
        refine ⟨pre, j, post ++ [i], by simp, hB, ?_⟩
        rw [along_append, ← run_append]
        refine ⟨hpost, ?_, trivial⟩
        rw [List.append_assoc]
        exact hK
      · exact ⟨is, i, [], rfl, hB, trivial⟩

end Runs

/-! ## §2. Replies and simulation. -/

section Replies

variable {σ τ ι ρ : Type}

/-- The replies of a run, in order. -/
def replies (step : σ → ι → σ × ρ) : σ → List ι → List ρ
  | _, [] => []
  | s, i :: is => (step s i).2 :: replies step (step s i).1 is

/-- **The simulation rule**: related states that answer each admissible
request alike and stay related give the same replies to every run of
admissible requests. -/
theorem replies_eq {f : σ → ι → σ × ρ} {g : τ → ι → τ × ρ} {R : σ → τ → Prop}
    {P : ι → Prop}
    (hstep : ∀ s t i, R s t → P i → (f s i).2 = (g t i).2 ∧ R (f s i).1 (g t i).1)
    {s : σ} {t : τ} {is : List ι} (h0 : R s t) (hP : ∀ i ∈ is, P i) :
    replies f s is = replies g t is := by
  induction is generalizing s t with
  | nil => rfl
  | cons i is ih =>
      obtain ⟨hans, hrel⟩ := hstep s t i h0 (hP i List.mem_cons_self)
      simp only [replies, hans]
      rw [ih hrel (fun j hj => hP j (List.mem_cons_of_mem _ hj))]

end Replies

end Mainflux.Lib
