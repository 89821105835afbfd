/-
  Mainflux.Coap.Registry
  ──────────────────────
  **THE MAP OF OBSERVERS, UNDER ITS LOCK.**

  `get`, `put` and `remove` hold the lock from their first statement to their last,
  so that whatever the clients, the ping loops and `listenResponses` do, the map sees
  a list of calls.  `close(val.Cancel)` stands in two of them: `put` closes what it
  replaces, `remove` what it deletes.

  The history of a list of calls is the observers that were put and the observers
  whose Cancel was closed.  `Tidy` relates it to the map: closed are those that were
  put and have left the map, each of them once.

    • `Tidy.called` — one call keeps it, if it puts no observer for a second time;
    • `registry_tidy` — so it holds after every list of calls;
    • `run_calls` — the goroutines of the adapter make such a list of calls, and their
      map and their Cancel channels are what it leaves.
-/
import Mathlib.Data.List.Nodup
import Mainflux.Coap.Adapter

namespace Mainflux.Coap

open Mainflux.Lib

/-! ## §1. Calls. -/

/-- `get`. -/
def Adapter.get (obsID : String) (s : Adapter) : Option Nat := s.obs obsID

/-- A call of a method that holds the lock. -/
inductive Call
  | get (obsID : String)
  | put (obsID : String) (o : Nat)
  | remove (obsID : String)

/-- The adapter after a call. -/
def call (s : Adapter) : Call → Adapter
  | .get _ => s
  | .put obsID o => s.put obsID o
  | .remove obsID => s.remove obsID

/-- The observer that a call puts. -/
def Call.puts : Call → List Nat
  | .put _ o => [o]
  | _ => []

/-- The observer whose Cancel a call closes. -/
def Call.closes (s : Adapter) : Call → List Nat
  | .get _ => []
  | .put obsID _ => (s.obs obsID).toList
  | .remove obsID => (s.obs obsID).toList

/-- The observers that were put, in the order of the calls. -/
def puts (calls : List Call) : List Nat := calls.flatMap Call.puts

/-- The observers whose Cancel was closed, once for each `close`. -/
def closes : Adapter → List Call → List Nat
  | _, [] => []
  | s, c :: calls => c.closes s ++ closes (call s c) calls

/-- **The map after its history**: nothing panicked, what is in the map was put once and
is open, and what was put and is not in the map was closed, once. -/
structure Tidy (s : Adapter) (puts closes : List Nat) : Prop where
  running : s.panicked = false
  once : ∀ o, closes.count o ≤ 1
  flag : ∀ o, (s.observers o).cancelled = true ↔ o ∈ closes
  mapped : ∀ {obsID o}, s.obs obsID = some o → o ∈ puts ∧ o ∉ closes
  unmapped : ∀ {o}, o ∈ puts → (∀ obsID, s.obs obsID ≠ some o) → o ∈ closes
  unput : ∀ {o}, o ∈ closes → o ∈ puts
  single : ∀ {i j o}, s.obs i = some o → s.obs j = some o → i = j

/-! ## §2. One call. -/

section Calls

variable {s : Adapter} {ps cs : List Nat} {obsID : String} {o : Nat}

theorem tidy_start : Tidy start [] [] where
  running := rfl
  once _ := Nat.zero_le 1
  flag o := by simp [start]
  mapped h := by cases h
  unmapped h := by cases h
  unput h := by cases h
  single h := by cases h

/-- A `close` of what is in the map is the first one. -/
theorem Tidy.closeCancel (h : Tidy s ps cs) (ho : s.obs obsID = some o) :
    s.closeCancel o = s.upd o fun x => { x with cancelled := true } := by
  refine if_neg fun hcancelled => ?_
  exact (h.mapped ho).2 ((h.flag o).mp hcancelled)

theorem Tidy.flag_closed (h : Tidy s ps cs) (i o : Nat) :
    ((s.upd o fun x => { x with cancelled := true }).observers i).cancelled = true ↔
      i ∈ cs ++ [o] := by
  rw [upd_observers, List.mem_append, List.mem_singleton]
  split
  next hi => simp [hi]
  next hi =>
      rw [h.flag i]
      exact ⟨.inl, fun hmem => hmem.resolve_right hi⟩

theorem Tidy.once_closed (h : Tidy s ps cs) (ho : s.obs obsID = some o) (i : Nat) :
    (cs ++ [o]).count i ≤ 1 := by
  rw [List.count_append]
  by_cases hi : i = o
  · have hnone : cs.count o = 0 := List.count_eq_zero.mpr (h.mapped ho).2
    have hone : [o].count o = 1 := List.count_singleton_self
    rw [hi]
    omega
  · have hzero : [o].count i = 0 := List.count_eq_zero.mpr (by simp [hi])
    rw [hzero]
    exact h.once i

/-- What the map holds under another id is not what is closed. -/
theorem Tidy.open_of_ne (h : Tidy s ps cs) (ho : s.obs obsID = some o) {id : String} {i : Nat}
    (hid : id ≠ obsID) (hi : s.obs id = some i) : i ∉ cs ++ [o] := by
  intro hmem
  rcases List.mem_append.mp hmem with hold | hnew
  · exact (h.mapped hi).2 hold
  · rw [List.mem_singleton] at hnew
    rw [hnew] at hi
    exact hid (h.single hi ho)

/-- `remove` of an id that is in the map. -/
theorem Tidy.removed (h : Tidy s ps cs) (ho : s.obs obsID = some o) :
    Tidy (s.remove obsID) ps (cs ++ [o]) := by
  have heq : s.remove obsID
      = { s.upd o (fun x => { x with cancelled := true }) with
          obs := Function.update s.obs obsID none } := by
    unfold Adapter.remove
    rw [ho]
    simp only [h.closeCancel ho]
  -- what is left in the map was there, under an id other than `obsID`
  have hleft : ∀ {id i}, Function.update s.obs obsID none id = some i →
      id ≠ obsID ∧ s.obs id = some i := by
    intro id i hmap
    have hid : id ≠ obsID := by
      rintro rfl
      rw [Function.update_self] at hmap
      cases hmap
    exact ⟨hid, by rwa [Function.update_of_ne hid] at hmap⟩
  rw [heq]
  constructor
  case running => exact h.running
  case once => exact h.once_closed ho
  case flag => exact fun i => h.flag_closed i o
  case mapped =>
      intro id i hmap
      obtain ⟨hid, hi⟩ := hleft hmap
      exact ⟨(h.mapped hi).1, h.open_of_ne ho hid hi⟩
  case unmapped =>
      intro i hput hgone
      by_cases hi : i = o
      · simp [hi]
      · refine List.mem_append_left _ (h.unmapped hput fun id hid => ?_)
        by_cases hobs : id = obsID
        · rw [hobs, ho] at hid
          exact hi (Option.some.inj hid).symm
        · exact hgone id (by simp only [Function.update_of_ne hobs, hid])
  case unput =>
      intro i hmem
      rcases List.mem_append.mp hmem with hold | hnew
      · exact h.unput hold
      · rw [List.mem_singleton] at hnew
        rw [hnew]
        exact (h.mapped ho).1
  case single =>
      intro i j x hi hj
      exact h.single (hleft hi).2 (hleft hj).2

/-- `put` under an id that is free. -/
theorem Tidy.added (h : Tidy s ps cs) (hfree : s.obs obsID = none) (hnew : o ∉ ps) :
    Tidy { s with obs := Function.update s.obs obsID (some o) } (ps ++ [o]) cs := by
  have hcases : ∀ {id i}, Function.update s.obs obsID (some o) id = some i →
      id = obsID ∧ i = o ∨ id ≠ obsID ∧ s.obs id = some i := by
    intro id i hmap
    by_cases hid : id = obsID
    · rw [hid, Function.update_self] at hmap
      exact .inl ⟨hid, (Option.some.inj hmap).symm⟩
    · rw [Function.update_of_ne hid] at hmap
      exact .inr ⟨hid, hmap⟩
  have hopen : o ∉ cs := fun hmem => hnew (h.unput hmem)
  constructor
  case running => exact h.running
  case once => exact h.once
  case flag => exact h.flag
  case mapped =>
      intro id i hmap
      rcases hcases hmap with ⟨-, rfl⟩ | ⟨-, hi⟩
      · exact ⟨by simp, hopen⟩
      · exact ⟨List.mem_append_left _ (h.mapped hi).1, (h.mapped hi).2⟩
  case unmapped =>
      intro i hput hgone
      have hne : i ≠ o := by
        rintro rfl
        exact hgone obsID (Function.update_self _ _ _)
      have hold : i ∈ ps := by
        rcases List.mem_append.mp hput with hold | hlast
        · exact hold
        · exact absurd (List.mem_singleton.mp hlast) hne
      refine h.unmapped hold fun id hid => ?_
      have hobs : id ≠ obsID := by
        rintro rfl
        rw [hfree] at hid
        cases hid
      exact hgone id (by simp only [Function.update_of_ne hobs, hid])
  case unput => exact fun hmem => List.mem_append_left _ (h.unput hmem)
  case single =>
      intro i j x hi hj
      -- the observer is new: it stands under the new id only
      have hone : ∀ {id}, s.obs id = some o → False := fun hid => hnew (h.mapped hid).1
      rcases hcases hi with ⟨hid, hx⟩ | ⟨-, hi⟩
      · rcases hcases hj with ⟨hjd, -⟩ | ⟨-, hj⟩
        · exact hid.trans hjd.symm
        · exact (hone (hx ▸ hj)).elim
      · rcases hcases hj with ⟨-, hx⟩ | ⟨-, hj⟩
        · exact (hone (hx ▸ hi)).elim
        · exact h.single hi hj

/-- `put` is a `remove`, and a write under an id that is free. -/
theorem put_eq (s : Adapter) (obsID : String) (o : Nat) :
    s.put obsID o
      = { s.remove obsID with obs := Function.update (s.remove obsID).obs obsID (some o) } := by
  rw [remove_obs, Function.update_idem]
  unfold Adapter.put Adapter.remove
  split <;> rfl

/-- **One call keeps the map tidy**, if it puts no observer that was put before. -/
theorem Tidy.called (h : Tidy s ps cs) {c : Call} (hnew : ∀ o ∈ c.puts, o ∉ ps) :
    Tidy (call s c) (ps ++ c.puts) (cs ++ c.closes s) := by
  have hremove : ∀ obsID, Tidy (s.remove obsID) ps (cs ++ (s.obs obsID).toList) := by
    intro obsID
    cases ho : s.obs obsID with
    | none =>
        have hsame : s.remove obsID = s := by
          unfold Adapter.remove
          rw [ho]
        rw [hsame]
        simpa using h
    | some o => exact h.removed ho
  cases c with
  | get obsID => simpa [call, Call.puts, Call.closes] using h
  | remove obsID => simpa [call, Call.puts, Call.closes] using hremove obsID
  | put obsID o =>
      show Tidy (s.put obsID o) (ps ++ [o]) (cs ++ (s.obs obsID).toList)
      rw [put_eq]
      refine (hremove obsID).added ?_ (hnew o (List.mem_singleton.mpr rfl))
      rw [remove_obs, Function.update_self]

/-! ## §3. Lists of calls. -/

theorem Tidy.run (calls : List Call) (h : Tidy s ps cs) (hnodup : (ps ++ puts calls).Nodup) :
    Tidy (Lib.run call s calls) (ps ++ puts calls) (cs ++ closes s calls) := by
  induction calls generalizing s ps cs with
  | nil => simpa [puts, closes] using h
  | cons c calls ih =>
      have hassoc : ps ++ puts (c :: calls) = (ps ++ c.puts) ++ puts calls := by
        simp [puts]
      rw [hassoc] at hnodup ⊢
      have hnew : ∀ o ∈ c.puts, o ∉ ps := by
        intro o ho hold
        have hfirst : (ps ++ c.puts).Nodup := hnodup.of_append_left
        exact (List.nodup_append.mp hfirst).2.2 o hold o ho rfl
      rw [closes, ← List.append_assoc]
      exact ih (h.called hnew) hnodup

/-- **The registry**: whatever the order of the calls, as long as no observer is put
twice. -/
theorem registry_tidy (calls : List Call) (hnodup : (puts calls).Nodup) :
    Tidy (run call start calls) (puts calls) (closes start calls) := by
  have h := tidy_start.run calls (by simpa using hnodup)
  simpa using h

/-- A client observes twice under one id, is replaced, and leaves; a second client
stays. -/
theorem registry_tidy_replaced :
    let calls : List Call :=
      [.put "a" 0, .put "b" 1, .get "a", .put "a" 2, .remove "a", .remove "a"]
    Tidy (run call start calls) (puts calls) (closes start calls) ∧
      closes start calls = [0, 2] ∧ (run call start calls).obs "b" = some 1 := by
  intro calls
  exact ⟨registry_tidy calls (by decide), by decide +kernel, by decide +kernel⟩

end Calls

/-! ## §4. The calls of the adapter. -/

/-- The call that a step of the adapter makes. -/
def stepCalls (s : Adapter) (a : Act) : List Call :=
  if s.panicked then []
  else
    match a with
    | .store o =>
        if o < s.next ∧ ¬ (s.observers o).stored then [.put (s.observers o).obsID o] else []
    | .unsubscribe obsID => [.remove obsID]
    | .ack obsID => if s.listener = none then [.get obsID] else []
    | .expire o =>
        if (s.observers o).ping = .unsubscribing then [.remove (s.observers o).obsID] else []
    | _ => []

/-- The calls of a run. -/
def runCalls : Adapter → List Act → List Call
  | _, [] => []
  | s, a :: acts => stepCalls s a ++ runCalls (step s a) acts

/-- The same map, and the same Cancel channels closed. -/
def SameRegistry (s t : Adapter) : Prop :=
  s.obs = t.obs ∧ ∀ o, (s.observers o).cancelled = (t.observers o).cancelled

section Adapter

variable {s t : Adapter} {o : Nat} {f : Observer → Observer}

theorem SameRegistry.upd (h : SameRegistry s t)
    (hf : (f (s.observers o)).cancelled = (s.observers o).cancelled) :
    SameRegistry (s.upd o f) t := by
  refine ⟨h.1, fun i => ?_⟩
  rw [upd_observers]
  split
  next hi => rw [hf, hi, h.2 o]
  next => exact h.2 i

/-- An observer that is closed is closed on both sides. -/
theorem SameRegistry.closeCancel (h : SameRegistry s t) (o i : Nat) :
    ((s.closeCancel o).observers i).cancelled = ((t.closeCancel o).observers i).cancelled := by
  unfold Adapter.closeCancel
  rw [h.2 o]
  split
  · exact h.2 i
  · rw [upd_observers, upd_observers]
    split
    · rfl
    · exact h.2 i

theorem SameRegistry.removed (h : SameRegistry s t) (obsID : String) :
    SameRegistry (s.remove obsID) (t.remove obsID) := by
  refine ⟨by rw [remove_obs, remove_obs, h.1], fun i => ?_⟩
  unfold Adapter.remove
  rw [h.1]
  split
  · exact h.closeCancel _ i
  · exact h.2 i

theorem SameRegistry.put (h : SameRegistry s t) (obsID : String) (o : Nat) :
    SameRegistry (s.put obsID o) (t.put obsID o) := by
  have hremoved := h.removed obsID
  rw [put_eq, put_eq]
  exact ⟨by simp only [hremoved.1], hremoved.2⟩

/-- A step does to the map and to the Cancel channels what its call does. -/
theorem SameRegistry.stepped (hreg : Registered s) (h : SameRegistry s t) (a : Act) :
    SameRegistry (step s a) (run call t (stepCalls s a)) := by
  unfold step stepCalls
  split
  · exact h
  · cases a with
    | subscribe obsID =>
        refine ⟨h.1, fun i => ?_⟩
        simp only [subscribe_observers, run_nil]
        rw [← h.2 i]
        split
        next hi => rw [hreg.unmade (Nat.le_of_eq hi.symm)]
        next => rfl
    | store o =>
        simp only
        split
        next =>
            unfold Adapter.store
            exact (h.put (s.observers o).obsID o).upd rfl
        next => exact h
    | unsubscribe obsID => exact h.removed obsID
    | ack obsID =>
        simp only
        split <;> exact h
    | acked =>
        simp only
        split
        next i _ => exact h.upd (o := i) (f := fun x => { x with expired := false }) rfl
        next => exact h
    | expire o =>
        simp only
        split
        next => exact (h.removed (s.observers o).obsID).upd rfl
        next => exact h
    | resume o =>
        simp only
        split <;> exact h
    | go o l => exact h.upd (local_keeps l (s.observers o)).2.2

/-- Stored once and for all. -/
theorem stored_step (hreg : Registered s) (ho : (s.observers o).stored = true) (a : Act) :
    ((step s a).observers o).stored = true := by
  have hupd : ∀ {r : Adapter} {i : Nat} {f : Observer → Observer},
      (r.observers o).stored = true → (f (r.observers i)).stored = (r.observers i).stored →
      ((r.upd i f).observers o).stored = true := by
    intro r i f hr hf
    rw [upd_observers]
    split
    next hi => rw [hf, ← hi, hr]
    next => exact hr
  have hremove : ∀ obsID, ((s.remove obsID).observers o).stored = true := by
    intro obsID
    rw [hreg.remove_observers, evicted_stored, ho]
  unfold step
  split
  · exact ho
  · cases a with
    | subscribe obsID =>
        simp only [subscribe_observers]
        split
        next hi =>
            rw [hreg.unmade (Nat.le_of_eq hi.symm)] at ho
            cases ho
        next => exact ho
    | store n =>
        simp only
        split
        next hnew =>
            rw [hreg.store_observers (by simpa using hnew.2)]
            split
            · rfl
            · rw [evicted_stored, ho]
        next => exact ho
    | unsubscribe obsID => exact hremove obsID
    | ack obsID =>
        simp only
        split <;> exact ho
    | acked =>
        simp only
        split
        next i _ => exact hupd (f := fun x => { x with expired := false }) ho rfl
        next => exact ho
    | expire n =>
        simp only
        split
        next => exact hupd (hremove _) rfl
        next => exact ho
    | resume n =>
        simp only
        split <;> exact ho
    | go n l => exact hupd ho (local_keeps l (s.observers n)).2.1

/-- Only `store` puts, and what it puts was not stored and is from then on. -/
theorem stepCalls_puts (hreg : Registered s) (a : Act) :
    puts (stepCalls s a) = [] ∨
      ∃ o, puts (stepCalls s a) = [o] ∧ (s.observers o).stored = false ∧
        ((step s a).observers o).stored = true := by
  cases a with
  | store o =>
      by_cases hnew : s.panicked = false ∧ o < s.next ∧ ¬ (s.observers o).stored
      · obtain ⟨hrun, hmade, hunstored⟩ := hnew
        have hfalse : (s.observers o).stored = false := by simpa using hunstored
        refine .inr ⟨o, by simp [stepCalls, hrun, hmade, hunstored, puts, Call.puts], hfalse, ?_⟩
        simp only [step, hrun, hmade, hunstored, if_true, Bool.false_eq_true, if_false,
          not_false_eq_true, and_self]
        rw [hreg.store_observers hfalse, if_pos rfl]
      · left
        unfold stepCalls
        split
        · rfl
        next hrun =>
            simp only
            rw [if_neg fun h => hnew ⟨by simpa using hrun, h⟩]
            rfl
  | unsubscribe _ | ack _ | expire _ =>
      left
      unfold stepCalls
      split
      · rfl
      · simp only
        try split
        all_goals rfl
  | _ => exact .inl (by unfold stepCalls; split <;> rfl)

theorem runCalls_puts (hreg : Registered s) (acts : List Act) :
    (puts (runCalls s acts)).Nodup ∧
      ∀ o ∈ puts (runCalls s acts), (s.observers o).stored = false := by
  induction acts generalizing s with
  | nil => exact ⟨.nil, fun o ho => by cases ho⟩
  | cons a acts ih =>
      obtain ⟨hnodup, hlater⟩ := ih (registered_step hreg a)
      have happend : puts (runCalls s (a :: acts))
          = puts (stepCalls s a) ++ puts (runCalls (step s a) acts) := List.flatMap_append
      -- whatever is put later is not stored after the step, so it was not before
      have hunstored : ∀ o ∈ puts (runCalls (step s a) acts), (s.observers o).stored = false := by
        intro o ho
        by_contra hstored
        have hkept := stored_step hreg (by simpa using hstored) a
        rw [hlater o ho] at hkept
        cases hkept
      rw [happend]
      rcases stepCalls_puts hreg a with hnone | ⟨o, hone, hbefore, hafter⟩
      · rw [hnone]
        exact ⟨hnodup, hunstored⟩
      · rw [hone]
        refine ⟨List.nodup_cons.mpr ⟨fun ho => ?_, hnodup⟩, ?_⟩
        · rw [hlater o ho] at hafter
          cases hafter
        · intro i hi
          rcases List.mem_cons.mp hi with rfl | hi
          · exact hbefore
          · exact hunstored i hi

/-- **The goroutines of the adapter are users of the registry**: their calls put no
observer twice, and the map and the Cancel channels of a run are what its calls leave. -/
theorem run_calls (acts : List Act) :
    (puts (runCalls start acts)).Nodup ∧
      SameRegistry (run step start acts) (run call start (runCalls start acts)) := by
  refine ⟨(runCalls_puts registered_start acts).1, ?_⟩
  have hgen : ∀ {s t : Adapter}, Registered s → SameRegistry s t →
      SameRegistry (run step s acts) (run call t (runCalls s acts)) := by
    induction acts with
    | nil => exact fun _ h => h
    | cons a acts ih =>
        intro s t hreg h
        rw [run_cons, runCalls, run_append]
        exact ih (registered_step hreg a) (h.stepped hreg a)
  exact hgen registered_start ⟨rfl, fun _ => rfl⟩

end Adapter

end Mainflux.Coap
