/-
  Mainflux.Storage.FinalError
  ───────────────────────────
  **WHAT THE INFLUXDB WRITER REPORTS.**

  `Save` returns a variable of the package, `final_error`, that every `Write` assigns and
  nobody clears.  A call without messages returns what the last `Write` of an earlier call
  left there, and a failure is gone as soon as a later `Write` of the same call succeeds.

  Here `Write` may fail as it likes: a message of a call comes with what `Write` returns
  for its point.  The writer in front of a real database is one such pattern
  (`save_eq_saveWith`).

    • `finalError_run` — the variable is what the last `Write` returned, over all calls;
    • `saveWith_eq_none` — when a call returns nil;
    • `reports_iff` — when that is exactly when all its points were written.
-/
import Mainflux.Lib.Run
import Mainflux.Storage.Readback

namespace Mainflux.Storage

open Mainflux.Lib

open Mainflux.Messaging

/-! ## §1. `Save`, with a client that may fail. -/

section Save

variable {Num ε : Type} (rt : Runtime Num)

/-- What `Save` returns: the error of `NewPoint`, or `final_error`. -/
inductive Reported (ε : Type)
  | point (err : PointError)
  | write (err : ε)
  deriving DecidableEq

/-- A call: each message with what `client.Write` returns for its point. -/
abbrev Batch (Num ε : Type) := List (Message Num × Option ε)

/-- `Save`, from `final_error`: the variable after the call, and what the call returns. -/
def saveWith (finalError : Option ε) : Batch Num ε → Option ε × Option (Reported ε)
  | [] => (finalError, finalError.map .write)
  | (m, written) :: batch =>
      match newPoint rt m.topic (tagsOf m) (fieldsOf rt m) (rt.unix m.time) with
      -- returned at once, and the variable is left as it is
      | .error err => (finalError, some (.point err))
      | .ok _ => saveWith written batch

/-- `final_error` after a call. -/
def finalErrorAfter (finalError : Option ε) (batch : Batch Num ε) : Option ε :=
  (saveWith rt finalError batch).1

/-- The point of the message is made, and `Write` returns nil. -/
def Written (p : Message Num × Option ε) : Prop := PointOk rt p.1 ∧ p.2 = none

/-- **The call reports every failure**: after the calls in `history` it returns nil
exactly when the point of each of its messages was written. -/
def Reports (history : List (Batch Num ε)) (batch : Batch Num ε) : Prop :=
  (saveWith rt (run (finalErrorAfter rt) none history) batch).2 = none ↔ ∀ p ∈ batch, Written rt p

end Save

/-! ## §2. The variable. -/

section Variable

variable {Num ε : Type} {rt : Runtime Num}

instance (rt : Runtime Num) (m : Message Num) : Decidable (PointOk rt m) :=
  match h : newPoint rt m.topic (tagsOf m) (fieldsOf rt m) (rt.unix m.time) with
  | .ok pt => isTrue ⟨pt, h⟩
  | .error _ => isFalse fun ⟨pt, hpt⟩ => by rw [h] at hpt; cases hpt

/-- What the `Write`s of a call return: up to the first point that cannot be made. -/
def writes (rt : Runtime Num) (batch : Batch Num ε) : List (Option ε) :=
  (batch.takeWhile fun p => PointOk rt p.1).map Prod.snd

theorem saveWith_cons_ok {finalError : Option ε} {p : Message Num × Option ε}
    (h : PointOk rt p.1) (batch : Batch Num ε) :
    saveWith rt finalError (p :: batch) = saveWith rt p.2 batch := by
  obtain ⟨pt, hpt⟩ := h
  obtain ⟨m, written⟩ := p
  simp only [saveWith, hpt]

theorem saveWith_cons_error {finalError : Option ε} {p : Message Num × Option ε}
    (h : ¬ PointOk rt p.1) (batch : Batch Num ε) :
    ∃ err, saveWith rt finalError (p :: batch) = (finalError, some (.point err)) := by
  obtain ⟨m, written⟩ := p
  unfold saveWith
  cases hpt : newPoint rt m.topic (tagsOf m) (fieldsOf rt m) (rt.unix m.time) with
  | ok pt => exact absurd ⟨pt, hpt⟩ h
  | error err => exact ⟨err, rfl⟩

/-- **One call** leaves in the variable what its last `Write` returned, if it made one. -/
theorem finalErrorAfter_eq (finalError : Option ε) (batch : Batch Num ε) :
    finalErrorAfter rt finalError batch = (writes rt batch).getLastD finalError := by
  unfold finalErrorAfter
  induction batch generalizing finalError with
  | nil => rfl
  | cons p batch ih =>
      by_cases hp : PointOk rt p.1
      · have hwrites : writes rt (p :: batch) = p.2 :: writes rt batch := by simp [writes, hp]
        rw [saveWith_cons_ok hp, ih, hwrites, List.getLastD_cons]
      · have hwrites : writes rt (p :: batch) = [] := by simp [writes, hp]
        obtain ⟨err, herr⟩ : ∃ err, saveWith rt finalError (p :: batch)
            = (finalError, some (.point err)) := saveWith_cons_error hp batch
        rw [herr, hwrites]
        rfl

theorem getLastD_append {α : Type} (l l' : List α) (a : α) :
    (l ++ l').getLastD a = l'.getLastD (l.getLastD a) := by
  induction l generalizing a with
  | nil => rfl
  | cons b l ih => rw [List.cons_append, List.getLastD_cons, List.getLastD_cons, ih]

/-- **Over all calls** the variable is what the last `Write` returned. -/
theorem finalError_run (history : List (Batch Num ε)) (finalError : Option ε) :
    run (finalErrorAfter rt) finalError history
      = (history.flatMap (writes rt)).getLastD finalError := by
  induction history generalizing finalError with
  | nil => rfl
  | cons batch history ih =>
      rw [run_cons, ih, finalErrorAfter_eq, List.flatMap_cons, getLastD_append]

end Variable

/-! ## §3. What a call returns. -/

section Reports

variable {Num ε : Type} {rt : Runtime Num}

/-- **When a call returns nil**: all points are made, and the last `Write`, be it of this
call or of an earlier one, did not fail. -/
theorem saveWith_eq_none (finalError : Option ε) (batch : Batch Num ε) :
    (saveWith rt finalError batch).2 = none ↔
      (∀ p ∈ batch, PointOk rt p.1) ∧ (batch.map Prod.snd).getLastD finalError = none := by
  induction batch generalizing finalError with
  | nil => simp [saveWith]
  | cons p batch ih =>
      by_cases hp : PointOk rt p.1
      · rw [saveWith_cons_ok hp, ih, List.map_cons, List.getLastD_cons, List.forall_mem_cons]
        simp [hp]
      · obtain ⟨err, herr⟩ : ∃ err, saveWith rt finalError (p :: batch)
            = (finalError, some (.point err)) := saveWith_cons_error hp batch
        rw [herr, List.forall_mem_cons]
        simp [hp]

/-- **No failure is masked, and none is left over**: a call without messages does not
follow a `Write` that failed, and in a call whose points are all made no `Write` fails
before a last one that succeeds. -/
structure Unmasked (rt : Runtime Num) (history : List (Batch Num ε)) (batch : Batch Num ε) :
    Prop where
  empty : batch = [] → (history.flatMap (writes rt)).getLastD none = none
  last : (∀ p ∈ batch, PointOk rt p.1) → ∀ before w, batch = before ++ [w] → w.2 = none →
    ∀ p ∈ before, p.2 = none

/-- **`Save` reports every failure exactly when none is masked and none is left over.** -/
theorem reports_iff (rt : Runtime Num) (history : List (Batch Num ε)) (batch : Batch Num ε) :
    Reports rt history batch ↔ Unmasked rt history batch := by
  unfold Reports
  rw [finalError_run, saveWith_eq_none]
  -- the last message decides, and there is one unless the call is empty
  cases batch using List.reverseRecOn with
  | nil =>
      constructor
      · intro h
        have hall : ∀ p ∈ ([] : Batch Num ε), Written rt p := fun p hp => absurd hp List.not_mem_nil
        refine ⟨fun _ => (h.mpr hall).2, fun _ before w heq => ?_⟩
        exact absurd heq.symm (by simp)
      · intro h
        refine ⟨fun _ p hp => absurd hp List.not_mem_nil, fun _ => ⟨?_, h.empty rfl⟩⟩
        exact fun p hp => absurd hp List.not_mem_nil
  | append_singleton before w =>
      have hlast : ∀ finalError,
          ((before ++ [w]).map Prod.snd).getLastD finalError = w.2 := by
        intro finalError
        rw [List.map_append, getLastD_append]
        rfl
      rw [hlast]
      constructor
      · intro h
        refine ⟨fun heq => absurd heq (by simp), fun hpoints before' w' heq hw' p hp => ?_⟩
        obtain ⟨rfl, hw⟩ := List.append_inj' heq rfl
        obtain rfl := List.cons.inj hw |>.1
        exact (h.mp ⟨hpoints, hw'⟩ p (List.mem_append_left _ hp)).2
      · intro h
        constructor
        · rintro ⟨hpoints, hw⟩ p hp
          refine ⟨hpoints p hp, ?_⟩
          rcases List.mem_append.mp hp with hp | hp
          · exact h.last hpoints before w rfl hw p hp
          · rw [List.mem_singleton.mp hp]
            exact hw
        · intro hwritten
          exact ⟨fun p hp => (hwritten p hp).1, (hwritten w (by simp)).2⟩

/-- A message with a measurement. -/
def sensor : Message Int where
  channel := ['c']
  topic := messagesWord
  subtopic := []
  publisher := ['p']
  devname := []
  protocol := ['m', 'q', 't', 't']
  name := ['t']
  unit := []
  time := 5
  updateTime := 0
  value := some 1
  stringValue := none
  dataValue := none
  boolValue := none
  sum := none

theorem sensor_ok : PointOk wholeNumbers sensor := ⟨_, rfl⟩

/-- **A `Write` fails, a later one of the call succeeds, and `Save` returns nil; nothing is
to be written after a `Write` that failed, and `Save` returns its error.** -/
theorem failure_masked :
    ¬ Reports wholeNumbers [] [(sensor, some "timeout"), (sensor, none)] ∧
      ¬ Reports wholeNumbers [[(sensor, some "timeout")]] [] := by
  have hok : ∀ ws : Batch Int String, (∀ p ∈ ws, p.1 = sensor) →
      ∀ p ∈ ws, PointOk wholeNumbers p.1 := by
    intro ws hws p hp
    rw [hws p hp]
    exact sensor_ok
  constructor
  · intro h
    have hnil : (saveWith wholeNumbers none [(sensor, some "timeout"), (sensor, none)]).2 = none :=
      (saveWith_eq_none _ _).mpr ⟨hok _ (by simp), rfl⟩
    have hwritten := (h.mp hnil (sensor, some "timeout") List.mem_cons_self).2
    cases hwritten
  · intro h
    have hnil := h.mpr fun p hp => absurd hp List.not_mem_nil
    rw [saveWith_eq_none, run_cons, run_nil, finalErrorAfter, saveWith_cons_ok sensor_ok] at hnil
    cases hnil.2

/-! ### The writer in front of a database. -/

/-- The error as the model of the database has it. -/
def Reported.toSaveError : Reported WriteError → SaveError
  | .point err => .point err
  | .write err => .write err

/-- **The writer of `Storage.Influx` is this one**, with what its database answers. -/
theorem save_eq_saveWith (ms : List (Message Num)) {w : Writer Num} {finalError : Option WriteError}
    (hw : w.finalError = finalError.map .write) :
    ∃ ws : List (Option WriteError), ws.length = ms.length ∧
      (save rt w ms).1.finalError = (finalErrorAfter rt finalError (ms.zip ws)).map .write ∧
      (save rt w ms).2 = (saveWith rt finalError (ms.zip ws)).2.map Reported.toSaveError := by
  unfold finalErrorAfter
  induction ms generalizing w finalError with
  | nil =>
      refine ⟨[], rfl, hw, ?_⟩
      rw [save, hw]
      cases finalError <;> rfl
  | cons m ms ih =>
      unfold save
      cases hpt : newPoint rt m.topic (tagsOf m) (fieldsOf rt m) (rt.unix m.time) with
      | error err =>
          refine ⟨List.replicate (ms.length + 1) none, by simp, ?_, ?_⟩
          all_goals simp only [List.replicate_succ, List.zip_cons_cons, saveWith, hpt]
          · exact hw
          · rfl
      | ok pt =>
          let answer := (w.influx.createDatabase m.channel).write m.channel pt
          obtain ⟨ws, hlength, hvariable, hreturned⟩ :=
            ih (w := { influx := answer.1, finalError := answer.2.map .write }) rfl
          refine ⟨answer.2 :: ws, by simp [hlength], ?_, ?_⟩
          all_goals simp only [List.zip_cons_cons, saveWith, hpt]
          · exact hvariable
          · exact hreturned

end Reports

end Mainflux.Storage
