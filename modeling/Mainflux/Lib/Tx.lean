/-
  Mainflux.Lib.Tx
  ───────────────
  **TRANSACTIONS OF A DATABASE CONNECTION, WITH FAULTS.**

  A repository asks its connection for four things: to begin a transaction, to
  execute a statement in it, to commit it, to roll it back.  Any request may
  fail: the server can refuse a statement, and whatever lies between can fail
  by itself (`Session.faults` says at which requests it does).

  What is documented of the parts is in the handler:

    • nobody sees the working copy before a commit that succeeds;
    • a statement that fails leaves a transaction that takes no more of them;
    • a commit or a rollback ENDS the transaction, whether it succeeds or not;
    • a transaction that a call leaves without either is still there.

  `attempt` is what a list of statements comes to, with the reason where it
  stops; `run_perform` says that the program over the connection does exactly
  that.  `run_tables` needs no program: tables only change by a commit.
-/
import Mainflux.Lib.Postgres
import Mainflux.Lib.Prog

namespace Mainflux.Lib.Tx

variable {δ ε : Type}

/-! ## §1. A connection. -/

/-- Why a request fails. -/
inductive Failure (ε : Type)
  /-- The server refuses the statement. -/
  | refused (e : ε)
  /-- The connection, the server, the context: anything but the statement. -/
  | fault
  /-- The transaction has failed before. -/
  | aborted
  /-- There is no transaction: it has been ended. -/
  | done
  deriving DecidableEq

/-- The transaction of a connection. -/
inductive State (δ : Type)
  | idle
  | active (work : δ)
  | failed
  deriving DecidableEq

/-- What a call has done so far. -/
structure Session (δ : Type) where
  /-- What is committed. -/
  tables : δ
  tx : State δ
  commits : Nat
  /-- The number of requests made. -/
  sent : Nat
  /-- The requests that fail, by their number. -/
  faults : Nat → Bool

/-- A call on its way in: the connection comes from the pool without a
transaction. -/
def Session.fresh (tables : δ) (faults : Nat → Bool) : Session δ := ⟨tables, .idle, 0, 0, faults⟩

/-- The requests; a statement answers with the number of rows it affected. -/
inductive Request (δ ε : Type)
  | begin
  | exec (stmt : δ → Except ε (δ × Nat))
  | commit
  | rollback

@[reducible] def Request.Res : Request δ ε → Type
  | .exec _ => Except (Failure ε) Nat
  | _ => Except (Failure ε) Unit

abbrev Sql (δ ε : Type) : Signature := ⟨Request δ ε, Request.Res⟩

/-- One more request has been made, and the transaction is as given. -/
def Session.to (s : Session δ) (tx : State δ) : Session δ := { s with tx := tx, sent := s.sent + 1 }

namespace Session

/-- `Begin`. -/
def begin (s : Session δ) : Session δ × Except (Failure ε) Unit :=
  match s.tx with
  | .idle =>
      if s.faults s.sent then (s.to .idle, .error .fault) else (s.to (.active s.tables), .ok ())
  | tx => (s.to tx, .error .aborted)

/-- `Exec`. -/
def exec (stmt : δ → Except ε (δ × Nat)) (s : Session δ) : Session δ × Except (Failure ε) Nat :=
  match s.tx with
  | .idle => (s.to .idle, .error .done)
  | .failed => (s.to .failed, .error .aborted)
  | .active work =>
      if s.faults s.sent then (s.to .failed, .error .fault)
      else
        match stmt work with
        | .error e => (s.to .failed, .error (.refused e))
        | .ok (work', n) => (s.to (.active work'), .ok n)

/-- `Commit`. -/
def commit (s : Session δ) : Session δ × Except (Failure ε) Unit :=
  match s.tx with
  | .idle => (s.to .idle, .error .done)
  | .failed => (s.to .idle, .error .aborted)
  | .active work =>
      if s.faults s.sent then (s.to .idle, .error .fault)
      else ({ s.to .idle with tables := work, commits := s.commits + 1 }, .ok ())

/-- `Rollback`. -/
def rollback (s : Session δ) : Session δ × Except (Failure ε) Unit :=
  match s.tx with
  | .idle => (s.to .idle, .error .done)
  | _ => (s.to .idle, if s.faults s.sent then .error .fault else .ok ())

end Session

/-- What a request does to the session. -/
def handle : Handler (Sql δ ε) (Session δ)
  | .begin, s => s.begin
  | .exec stmt, s => s.exec stmt
  | .commit, s => s.commit
  | .rollback, s => s.rollback

/-! ### The requests, as programs. -/

def begin : Prog (Sql δ ε) (Except (Failure ε) Unit) := .call (S := Sql δ ε) .begin .ret

def exec (stmt : δ → Except ε (δ × Nat)) : Prog (Sql δ ε) (Except (Failure ε) Nat) :=
  .call (S := Sql δ ε) (.exec stmt) .ret

def commit : Prog (Sql δ ε) (Except (Failure ε) Unit) := .call (S := Sql δ ε) .commit .ret

def rollback : Prog (Sql δ ε) (Except (Failure ε) Unit) := .call (S := Sql δ ε) .rollback .ret

section Requests

variable {s : Session δ}

@[simp] theorem run_begin : (begin (ε := ε)).run handle s = s.begin := rfl

@[simp] theorem run_exec (stmt : δ → Except ε (δ × Nat)) :
    (exec stmt).run handle s = s.exec stmt := rfl

@[simp] theorem run_commit : (commit (ε := ε)).run handle s = s.commit := rfl

@[simp] theorem run_rollback : (rollback (ε := ε)).run handle s = s.rollback := rfl

theorem begin_fresh (tables : δ) (faults : Nat → Bool) :
    (Session.fresh tables faults).begin (ε := ε)
      = if faults 0 then ((Session.fresh tables faults).to .idle, .error .fault)
        else ((Session.fresh tables faults).to (.active tables), .ok ()) := rfl

theorem exec_active {work : δ} (h : s.tx = .active work) (stmt : δ → Except ε (δ × Nat)) :
    s.exec stmt
      = if s.faults s.sent then (s.to .failed, .error .fault)
        else
          match stmt work with
          | .error e => (s.to .failed, .error (.refused e))
          | .ok (work', n) => (s.to (.active work'), .ok n) := by
  rw [Session.exec, h]

theorem commit_active {work : δ} (h : s.tx = .active work) :
    s.commit (ε := ε)
      = if s.faults s.sent then (s.to .idle, .error .fault)
        else ({ s.to .idle with tables := work, commits := s.commits + 1 }, .ok ()) := by
  rw [Session.commit, h]

/-- A rollback ends the transaction, if there is one, and touches nothing. -/
theorem rollback_fst (s : Session δ) : (s.rollback (ε := ε)).1 = s.to .idle := by
  unfold Session.rollback
  split <;> rfl

end Requests

/-! ## §2. What holds of every program. -/

section Programs

variable {α : Type}

/-- One request: a commit that is counted, or the tables are as before. -/
theorem handle_cases (c : Request δ ε) (s : Session δ) :
    (handle c s).1.commits = s.commits ∧ (handle c s).1.tables = s.tables ∨
      (handle c s).1.commits = s.commits + 1 := by
  cases c with
  | begin =>
      simp only [handle, Session.begin]
      split
      · split <;> exact .inl ⟨rfl, rfl⟩
      · exact .inl ⟨rfl, rfl⟩
  | exec stmt =>
      simp only [handle, Session.exec]
      split
      · exact .inl ⟨rfl, rfl⟩
      · exact .inl ⟨rfl, rfl⟩
      · split
        · exact .inl ⟨rfl, rfl⟩
        · split <;> exact .inl ⟨rfl, rfl⟩
  | commit =>
      simp only [handle, Session.commit]
      split
      · exact .inl ⟨rfl, rfl⟩
      · exact .inl ⟨rfl, rfl⟩
      · split
        · exact .inl ⟨rfl, rfl⟩
        · exact .inr rfl
  | rollback =>
      simp only [handle, rollback_fst]
      exact .inl ⟨rfl, rfl⟩

/-- **The tables change by a commit only.** -/
theorem run_tables (p : Prog (Sql δ ε) α) (s : Session δ) :
    s.commits ≤ (p.run handle s).1.commits ∧
      ((p.run handle s).1.commits = s.commits → (p.run handle s).1.tables = s.tables) := by
  induction p generalizing s with
  | ret a => exact ⟨Nat.le_refl _, fun _ => rfl⟩
  | call c k ih =>
      obtain ⟨hle, htables⟩ := ih (handle c s).2 (handle c s).1
      rw [Prog.run_call]
      rcases handle_cases c s with ⟨hcommits, hsame⟩ | hcommits
      · rw [hcommits] at hle htables
        exact ⟨hle, fun h => (htables h).trans hsame⟩
      · rw [hcommits] at hle
        -- a commit that is counted stays counted
        exact ⟨by omega, fun h => by omega⟩

end Programs

/-! ## §3. Statements one after the other. -/

/-- A row of a call: the statement for it, if the row could be built. -/
abbrev Step (δ ε : Type) := Option (δ → Except ε (δ × Nat))

/-- Why a list of steps stops. -/
inductive Stop (ε : Type)
  /-- The next row is not built. -/
  | unbuilt
  | failed (f : Failure ε)
  deriving DecidableEq

/-- What the steps come to, from a working copy; the first request has number
`n`. -/
def attempt (faults : Nat → Bool) : Nat → List (Step δ ε) → δ → Except (Stop ε) δ
  | _, [], work => .ok work
  | _, none :: _, _ => .error .unbuilt
  | n, some stmt :: steps, work =>
      if faults n then .error (.failed .fault)
      else
        match stmt work with
        | .error e => .error (.failed (.refused e))
        | .ok (work', _) => attempt faults (n + 1) steps work'

/-- The steps, over the connection. -/
def perform : List (Step δ ε) → Prog (Sql δ ε) (Except (Stop ε) Unit)
  | [] => return .ok ()
  | none :: _ => return .error .unbuilt
  | some stmt :: steps => do
      match ← exec stmt with
      | .error f => return .error (.failed f)
      | .ok _ => perform steps

/-- The transaction that a stop leaves: a row that is not built leaves it
active. -/
def Left : Stop ε → State δ → Prop
  | .unbuilt, tx => ∃ work, tx = .active work
  | .failed _, tx => tx = .failed

/-- What is left of the session after the steps. -/
def After (steps : List (Step δ ε)) (s s' : Session δ) : Except (Stop ε) δ → Prop
  | .ok work => s'.tx = .active work ∧ s'.sent = s.sent + steps.length
  | .error e => Left e s'.tx

/-- **The program does what `attempt` says.** -/
theorem run_perform (steps : List (Step δ ε)) {s : Session δ} {work : δ} (h : s.tx = .active work) :
    ∃ s', (perform steps).run handle s
        = (s', (attempt s.faults s.sent steps work).map fun _ => ()) ∧
      s'.tables = s.tables ∧ s'.commits = s.commits ∧ s'.faults = s.faults ∧
      After steps s s' (attempt s.faults s.sent steps work) := by
  induction steps generalizing s work with
  | nil => exact ⟨s, rfl, rfl, rfl, rfl, h, rfl⟩
  | cons step steps ih =>
      cases step with
      | none => exact ⟨s, rfl, rfl, rfl, rfl, work, h⟩
      | some stmt =>
          simp only [perform, Prog.run_bind, run_exec, exec_active h, attempt]
          cases hfault : s.faults s.sent with
          | true => exact ⟨s.to .failed, rfl, rfl, rfl, rfl, rfl⟩
          | false =>
              cases hstmt : stmt work with
              | error e => exact ⟨s.to .failed, rfl, rfl, rfl, rfl, rfl⟩
              | ok r =>
                  -- the rest starts from the new working copy, one request on
                  obtain ⟨s', hrun, htables, hcommits, hfaults, hafter⟩ :=
                    @ih (s.to (.active r.1)) r.1 rfl
                  refine ⟨s', hrun, htables, hcommits, hfaults, ?_⟩
                  show After (some stmt :: steps) s s' (attempt s.faults (s.sent + 1) steps r.1)
                  have hafter' : After steps (s.to (.active r.1)) s'
                      (attempt s.faults (s.sent + 1) steps r.1) := hafter
                  cases hrest : attempt s.faults (s.sent + 1) steps r.1 with
                  | error e =>
                      rw [hrest] at hafter'
                      exact hafter'
                  | ok work' =>
                      rw [hrest] at hafter'
                      obtain ⟨htx, hsent⟩ := hafter'
                      refine ⟨htx, ?_⟩
                      rw [hsent, List.length_cons]
                      show s.sent + 1 + steps.length = s.sent + (steps.length + 1)
                      omega

/-- After steps without an error the transaction is active. -/
theorem active_of_perform {steps : List (Step δ ε)} {s : Session δ} {work : δ}
    (h : s.tx = .active work) (hok : ((perform steps).run handle s).2 = .ok ()) :
    ∃ work', attempt s.faults s.sent steps work = .ok work' ∧
      ((perform steps).run handle s).1.tx = .active work' := by
  obtain ⟨s', hrun, -, -, -, hafter⟩ := run_perform steps h
  rw [hrun] at hok ⊢
  cases hattempt : attempt s.faults s.sent steps work with
  | error e =>
      rw [hattempt] at hok
      cases hok
  | ok work' =>
      rw [hattempt] at hafter
      exact ⟨work', rfl, hafter.1⟩

/-- All steps go in: every row is built, no request fails, and the server takes
the statements one after the other. -/
theorem attempt_ok_iff {faults : Nat → Bool} {n : Nat} {steps : List (Step δ ε)} {work work' : δ} :
    attempt faults n steps work = .ok work' ↔
      (∀ i < steps.length, faults (n + i) = false) ∧
        ∃ stmts : List (δ → Except ε (δ × Nat)), steps = stmts.map some ∧
          transaction (stmts.map fun stmt d => (stmt d).map Prod.fst) work = .ok work' := by
  induction steps generalizing n work with
  | nil =>
      constructor
      · intro h
        refine ⟨fun i hi => absurd hi (Nat.not_lt_zero i), [], rfl, ?_⟩
        simpa [attempt, transaction] using h
      · rintro ⟨-, stmts, hstmts, h⟩
        rw [List.map_eq_nil_iff.mp hstmts.symm] at h
        simpa [attempt, transaction] using h
  | cons step steps ih =>
      cases step with
      | none =>
          refine iff_of_false (fun h => by cases h) ?_
          rintro ⟨-, stmts, hstmts, -⟩
          cases stmts with
          | nil => cases hstmts
          | cons stmt stmts => cases (List.cons.inj hstmts).1
      | some stmt =>
          have hfaults : (∀ i < (some stmt :: steps).length, faults (n + i) = false) ↔
              faults n = false ∧ ∀ i < steps.length, faults (n + 1 + i) = false := by
            constructor
            · intro h
              refine ⟨h 0 (Nat.zero_lt_succ _), fun i hi => ?_⟩
              rw [Nat.add_right_comm]
              exact h (i + 1) (Nat.succ_lt_succ hi)
            · rintro ⟨h0, h⟩ i hi
              cases i with
              | zero => exact h0
              | succ i =>
                  rw [← Nat.add_assoc, Nat.add_right_comm]
                  exact h i (Nat.lt_of_succ_lt_succ hi)
          rw [hfaults, attempt]
          cases hfault : faults n with
          | true => simp
          | false =>
              simp only [Bool.false_eq_true, if_false, true_and]
              -- the first statement, then the others from what it leaves
              have htail : (∃ stmts : List (δ → Except ε (δ × Nat)), some stmt :: steps = stmts.map some ∧
                    transaction (stmts.map fun stmt d => (stmt d).map Prod.fst) work = .ok work') ↔
                  ∃ stmts : List (δ → Except ε (δ × Nat)), steps = stmts.map some ∧
                    transaction ((stmt :: stmts).map fun stmt d => (stmt d).map Prod.fst) work
                      = .ok work' := by
                constructor
                · rintro ⟨stmts, hstmts, h⟩
                  cases stmts with
                  | nil => cases hstmts
                  | cons first stmts =>
                      obtain ⟨hfirst, hrest⟩ := List.cons.inj hstmts
                      rw [Option.some.inj hfirst]
                      exact ⟨stmts, hrest, h⟩
                · rintro ⟨stmts, hstmts, h⟩
                  exact ⟨stmt :: stmts, by rw [hstmts]; rfl, h⟩
              rw [htail]
              cases hstmt : stmt work with
              | error e => simp [transaction, hstmt, Except.map]
              | ok r => simpa [transaction, hstmt, Except.map] using ih

/-- Steps that go in, go in part by part. -/
theorem attempt_append {faults : Nat → Bool} {n : Nat} {a b : List (Step δ ε)} {work work' : δ}
    (h : attempt faults n (a ++ b) work = .ok work') :
    ∃ mid, attempt faults n a work = .ok mid ∧ attempt faults (n + a.length) b mid = .ok work' := by
  induction a generalizing n work with
  | nil => exact ⟨work, rfl, h⟩
  | cons step a ih =>
      cases step with
      | none => cases h
      | some stmt =>
          rw [List.cons_append, attempt] at h
          rw [attempt]
          split at h
          next => cases h
          next hfault =>
              rw [if_neg hfault]
              split at h
              next => cases h
              next work1 cnt hstmt =>
                  obtain ⟨mid, ha, hb⟩ := ih h
                  refine ⟨mid, ha, ?_⟩
                  rw [List.length_cons, ← Nat.add_assoc, Nat.add_right_comm]
                  exact hb

theorem attempt_single {faults : Nat → Bool} {n : Nat} {stmt : δ → Except ε (δ × Nat)}
    {work work' : δ} (h : attempt faults n [some stmt] work = .ok work') :
    ∃ cnt, stmt work = .ok (work', cnt) := by
  rw [attempt] at h
  split at h
  next => cases h
  next =>
      split at h
      next => cases h
      next work1 cnt hstmt =>
          cases h
          exact ⟨cnt, hstmt⟩

/-- How a step fails; `fault` says whether its request does. -/
def Fails (fault : Bool) : Step δ ε → δ → Stop ε → Prop
  | none, _, e => e = .unbuilt
  | some stmt, work, e =>
      fault = true ∧ e = .failed .fault ∨
        fault = false ∧ ∃ e', stmt work = .error e' ∧ e = .failed (.refused e')

/-- **Where the steps stop**: those before go in, and the next one fails. -/
theorem attempt_error_iff {faults : Nat → Bool} {n : Nat} {steps : List (Step δ ε)} {work : δ}
    {e : Stop ε} :
    attempt faults n steps work = .error e ↔
      ∃ before step after work', steps = before ++ step :: after ∧
        attempt faults n before work = .ok work' ∧
        Fails (faults (before.length + n)) step work' e := by
  induction steps generalizing n work with
  | nil =>
      refine iff_of_false (fun h => by cases h) ?_
      rintro ⟨before, step, after, -, h, -⟩
      exact absurd h.symm (by simp)
  | cons step steps ih =>
      -- either this step fails, or it goes in and the rest stops
      have hsplit : (∃ before step' after work', step :: steps = before ++ step' :: after ∧
            attempt faults n before work = .ok work' ∧
            Fails (faults (before.length + n)) step' work' e) ↔
          Fails (faults n) step work e ∨
            ∃ before step' after work', steps = before ++ step' :: after ∧
              attempt faults n (step :: before) work = .ok work' ∧
              Fails (faults (before.length + 1 + n)) step' work' e := by
        constructor
        · rintro ⟨before, step', after, work', heq, hbefore, hfails⟩
          cases before with
          | nil =>
              obtain ⟨rfl, rfl⟩ := List.cons.inj heq
              cases hbefore
              left
              simpa using hfails
          | cons first before =>
              obtain ⟨rfl, hrest⟩ := List.cons.inj heq
              exact .inr ⟨before, step', after, work', hrest, hbefore, hfails⟩
        · rintro (hfails | ⟨before, step', after, work', hrest, hbefore, hfails⟩)
          · exact ⟨[], step, steps, work, rfl, rfl, by simpa using hfails⟩
          · exact ⟨step :: before, step', after, work', by rw [hrest]; rfl, hbefore, hfails⟩
      rw [hsplit]
      cases step with
      | none =>
          simp only [attempt, Fails, Except.error.injEq, reduceCtorEq, false_and, and_false,
            exists_false, or_false]
          exact eq_comm
      | some stmt =>
          simp only [attempt, Fails]
          cases hfault : faults n with
          | true =>
              simp only [if_true, Except.error.injEq, reduceCtorEq, true_and, false_and, and_false,
                exists_false, or_false]
              exact eq_comm
          | false =>
              cases hstmt : stmt work with
              | error e' =>
                  simp only [Bool.false_eq_true, if_false, Except.error.injEq, reduceCtorEq,
                    true_and, false_and, and_false, exists_false, or_false, false_or,
                    exists_eq_left']
                  exact eq_comm
              | ok r =>
                  simp only [Bool.false_eq_true, if_false, false_and, true_and, reduceCtorEq,
                    exists_false, false_or, Nat.add_assoc, Nat.add_comm 1 n]
                  exact ih

/-- Every row is built, no request fails, and the server takes each statement. -/
def GoIn (faults : Nat → Bool) (steps : List (Step δ ε)) (tables : δ) : Prop :=
  ∃ work, attempt faults 1 steps tables = .ok work

/-- Some rows go in, and the next one is not built. -/
def MeetsUnbuilt (faults : Nat → Bool) (steps : List (Step δ ε)) (tables : δ) : Prop :=
  ∃ before after work, steps = before ++ none :: after ∧
    attempt faults 1 before tables = .ok work

/-- Some statements go in, and the server refuses the next one. -/
def MeetsRefusal (e : ε) (faults : Nat → Bool) (steps : List (Step δ ε)) (tables : δ) : Prop :=
  ∃ before stmt after work, steps = before ++ some stmt :: after ∧
    attempt faults 1 before tables = .ok work ∧ faults (before.length + 1) = false ∧
    stmt work = .error e

theorem meetsUnbuilt_iff {faults : Nat → Bool} {steps : List (Step δ ε)} {tables : δ} :
    MeetsUnbuilt faults steps tables ↔ attempt faults 1 steps tables = .error .unbuilt := by
  rw [attempt_error_iff]
  constructor
  · rintro ⟨before, after, work, hsteps, hbefore⟩
    exact ⟨before, none, after, work, hsteps, hbefore, rfl⟩
  · rintro ⟨before, step, after, work, hsteps, hbefore, hfails⟩
    cases step with
    | none => exact ⟨before, after, work, hsteps, hbefore⟩
    | some stmt =>
        exfalso
        rcases hfails with ⟨-, h⟩ | ⟨-, e', -, h⟩
        · cases h
        · cases h

theorem meetsRefusal_iff {e : ε} {faults : Nat → Bool} {steps : List (Step δ ε)} {tables : δ} :
    MeetsRefusal e faults steps tables ↔
      attempt faults 1 steps tables = .error (.failed (.refused e)) := by
  rw [attempt_error_iff]
  constructor
  · rintro ⟨before, stmt, after, work, hsteps, hbefore, hfault, hrefused⟩
    exact ⟨before, some stmt, after, work, hsteps, hbefore, .inr ⟨hfault, e, hrefused, rfl⟩⟩
  · rintro ⟨before, step, after, work, hsteps, hbefore, hfails⟩
    cases step with
    | none => cases hfails
    | some stmt =>
        rcases hfails with ⟨-, h⟩ | ⟨hfault, e', hrefused, h⟩
        · cases h
        · cases h
          exact ⟨before, stmt, after, work, hsteps, hbefore, hfault, hrefused⟩

/-! ## §4. A call, and its discipline. -/

/-- What a call does at a stop; `keeps` are the stops at which it returns
without a rollback. -/
def stopped (keeps : Stop ε → Bool) (e : Stop ε) : Prog (Sql δ ε) (Except (Stop ε) Unit) :=
  if keeps e then return .error e
  else do
    let _ ← rollback
    return .error e

/-- The end of a call; `drops` says that it does not return the error. -/
def finish (drops : Bool) : Prog (Sql δ ε) (Except (Stop ε) Unit) := do
  match ← commit with
  | .ok () => return .ok ()
  | .error f =>
      if drops then do
        let _ ← rollback
        return .ok ()
      else return .error (.failed f)

/-- The steps of a call, and its end. -/
def proceed (keeps : Stop ε → Bool) (drops : Bool) (steps : List (Step δ ε)) :
    Prog (Sql δ ε) (Except (Stop ε) Unit) := do
  match ← perform steps with
  | .error e => stopped keeps e
  | .ok () => finish drops

/-- A call that makes one transaction of its steps. -/
def call (keeps : Stop ε → Bool) (drops : Bool) (steps : List (Step δ ε)) :
    Prog (Sql δ ε) (Except (Stop ε) Unit) := do
  match ← begin with
  | .error f => return .error (.failed f)
  | .ok () => proceed keeps drops steps

/-- The tables that a call leaves, the commits that it makes, and whether it
returns without an error. -/
def outcome (drops : Bool) (steps : List (Step δ ε)) (tables : δ) (faults : Nat → Bool) :
    δ × Nat × Bool :=
  if faults 0 then (tables, 0, false)
  else
    match attempt faults 1 steps tables with
    | .error _ => (tables, 0, false)
    | .ok work => if faults (steps.length + 1) then (tables, 0, drops) else (work, 1, true)

/-- **A whole call.** -/
theorem run_call (keeps : Stop ε → Bool) (drops : Bool) (steps : List (Step δ ε)) (tables : δ)
    (faults : Nat → Bool) :
    ∃ s r, (call keeps drops steps).run handle (.fresh tables faults) = (s, r) ∧
      (s.tables, s.commits, r.isOk) = outcome drops steps tables faults ∧
      (s.tx = .idle ↔
        faults 0 = true ∨ ∀ e, attempt faults 1 steps tables = .error e → keeps e = false) := by
  simp only [call, Prog.run_bind, Tx.run_begin, begin_fresh, outcome]
  cases hbegin : faults 0 with
  | true => exact ⟨_, _, rfl, rfl, iff_of_true rfl (.inl rfl)⟩
  | false =>
      obtain ⟨s', hrun, htables, hcommits, hfaults, hafter⟩ :=
        run_perform steps (s := (Session.fresh tables faults).to (.active tables)) rfl
      have hafter' : After steps ((Session.fresh tables faults).to (.active tables)) s'
          (attempt faults 1 steps tables) := hafter
      have hrun' : (perform steps).run handle ((Session.fresh tables faults).to (.active tables))
          = (s', (attempt faults 1 steps tables).map fun _ => ()) := hrun
      simp only [Bool.false_eq_true, if_false, proceed, Prog.run_bind, hrun', false_or]
      cases hsteps : attempt faults 1 steps tables with
      | error e =>
          rw [hsteps] at hafter'
          simp only [Except.map, stopped]
          cases hkeeps : keeps e with
          | true =>
              -- neither commit nor rollback
              refine ⟨s', .error e, rfl, ?_, ?_⟩
              · exact congrArg₂ (fun t c => (t, c, false)) htables hcommits
              refine iff_of_false (fun hidle => ?_) (fun h => ?_)
              · cases e with
                | unbuilt =>
                    obtain ⟨work, hwork⟩ := hafter'
                    cases hidle.symm.trans hwork
                | failed f => cases hidle.symm.trans hafter'
              · exact absurd (h e rfl) (by simp [hkeeps])
          | false =>
              refine ⟨s'.to .idle, .error e, ?_, ?_, iff_of_true rfl ?_⟩
              · simp only [Bool.false_eq_true, if_false, Prog.run_bind, run_rollback, rollback_fst,
                  Prog.run_pure]
              · exact congrArg₂ (fun t c => (t, c, false)) htables hcommits
              · rintro e' ⟨⟩
                exact hkeeps
      | ok work =>
          rw [hsteps] at hafter'
          obtain ⟨htx, hsent⟩ := hafter'
          have hfaultsAt : s'.faults s'.sent = faults (steps.length + 1) := by
            rw [hfaults, hsent, Nat.add_comm]
            rfl
          simp only [Except.map, finish, Prog.run_bind, run_commit, commit_active htx, hfaultsAt]
          cases hcommit : faults (steps.length + 1) with
          | false =>
              refine ⟨_, _, rfl, ?_, iff_of_true rfl (fun e h => by cases h)⟩
              have hone : s'.commits + 1 = 1 := congrArg (· + 1) hcommits
              exact congrArg (fun c => (work, c, true)) hone
          | true =>
              have hsame := congrArg₂ (fun t c => (t, c, drops)) htables hcommits
              cases drops with
              | true => exact ⟨_, _, rfl, hsame, iff_of_true rfl (fun e h => by cases h)⟩
              | false => exact ⟨_, _, rfl, hsame, iff_of_true rfl (fun e h => by cases h)⟩

/-- **The discipline of a call**: its transaction has ended; no error means that
it is committed and everything is stored; an error means that nothing is. -/
structure Disciplined (Stored : δ → δ → Prop) (tables : δ) (s : Session δ) (ok : Bool) : Prop where
  ended : s.tx = .idle
  committed : ok = true → s.commits = 1 ∧ Stored tables s.tables
  undone : ok = false → s.tables = tables

/-- **When a call keeps the discipline.** -/
theorem call_disciplined_iff (keeps : Stop ε → Bool) (drops : Bool) (steps : List (Step δ ε))
    (Stored : δ → δ → Prop) (tables : δ) (faults : Nat → Bool) :
    Disciplined Stored tables ((call keeps drops steps).run handle (.fresh tables faults)).1
        ((call keeps drops steps).run handle (.fresh tables faults)).2.isOk ↔
      faults 0 = true ∨
        match attempt faults 1 steps tables with
        | .error e => keeps e = false
        | .ok work =>
            if faults (steps.length + 1) then drops = false else Stored tables work := by
  obtain ⟨s, r, hrun, hout, hidle⟩ := run_call keeps drops steps tables faults
  rw [hrun]
  have hdisciplined : Disciplined Stored tables s r.isOk ↔
      s.tx = .idle ∧ (r.isOk = true → s.commits = 1 ∧ Stored tables s.tables) ∧
        (r.isOk = false → s.tables = tables) :=
    ⟨fun h => ⟨h.ended, h.committed, h.undone⟩, fun h => ⟨h.1, h.2.1, h.2.2⟩⟩
  rw [hdisciplined, hidle]
  unfold outcome at hout
  cases hbegin : faults 0 with
  | true =>
      simp only [hbegin, if_true, Prod.mk.injEq] at hout
      simp [hout]
  | false =>
      simp only [hbegin, Bool.false_eq_true, if_false] at hout
      cases hsteps : attempt faults 1 steps tables with
      | error e =>
          simp only [hsteps, Prod.mk.injEq] at hout
          simp [hout]
      | ok work =>
          simp only [hsteps] at hout
          cases hcommit : faults (steps.length + 1) with
          | true =>
              simp only [hcommit, if_true, Prod.mk.injEq] at hout
              simp [hout]
          | false =>
              simp only [hcommit, Bool.false_eq_true, if_false, Prod.mk.injEq] at hout
              simp [hout]

/-! ## §5. Programs that are such a call. -/

section Alike

variable {α β κ κ' : Type}

/-- Both without an error, or with errors that `E` relates. -/
def Agree (E : κ → κ' → Prop) : Except κ α → Except κ' β → Prop
  | .ok _, .ok _ => True
  | .error e, .error e' => E e e'
  | _, _ => False

/-- From `s`, the two programs come to the same session and agree. -/
def Alike (E : κ → κ' → Prop) (s : Session δ) (p : Prog (Sql δ ε) (Except κ α))
    (q : Prog (Sql δ ε) (Except κ' β)) : Prop :=
  (p.run handle s).1 = (q.run handle s).1 ∧ Agree E (p.run handle s).2 (q.run handle s).2

/-- Nothing is asked of the errors. -/
abbrev Any : κ → κ' → Prop := fun _ _ => True

theorem Agree.isOk {E : κ → κ' → Prop} {r : Except κ α} {r' : Except κ' β} (h : Agree E r r') :
    r.isOk = r'.isOk := by
  cases r with
  | error e =>
      cases r' with
      | error e' => rfl
      | ok b => exact h.elim
  | ok a =>
      cases r' with
      | error e' => exact h.elim
      | ok b => rfl

variable {E : κ → κ' → Prop} {s : Session δ}

theorem Alike.pure_ok (a : α) (b : β) :
    Alike (ε := ε) E s (pure (.ok a)) (pure (.ok b)) := ⟨rfl, trivial⟩

theorem Alike.pure_error {e : κ} {e' : κ'} (h : E e e') :
    Alike (ε := ε) (α := α) (β := β) E s (pure (.error e)) (pure (.error e')) := ⟨rfl, h⟩

theorem Alike.refl (s : Session δ) (p : Prog (Sql δ ε) (Except κ α)) : Alike Eq s p p := by
  refine ⟨rfl, ?_⟩
  cases (p.run handle s).2 with
  | error e => exact rfl
  | ok a => trivial

/-- One after the other: the second parts start where the first ones end. -/
theorem Alike.bind {κ₁ κ₂ α₁ α₂ : Type} {D : κ₁ → κ₂ → Prop}
    {p : Prog (Sql δ ε) (Except κ₁ α₁)} {q : Prog (Sql δ ε) (Except κ₂ α₂)}
    {f : Except κ₁ α₁ → Prog (Sql δ ε) (Except κ α)}
    {g : Except κ₂ α₂ → Prog (Sql δ ε) (Except κ' β)} (h : Alike D s p q)
    (herror : ∀ e e', D e e' → (q.run handle s).2 = .error e' →
      Alike E (q.run handle s).1 (f (.error e)) (g (.error e')))
    (hok : ∀ a b, (q.run handle s).2 = .ok b →
      Alike E (q.run handle s).1 (f (.ok a)) (g (.ok b))) :
    Alike E s (p >>= f) (q >>= g) := by
  obtain ⟨hsession, hagree⟩ := h
  unfold Alike
  rw [Prog.run_bind, Prog.run_bind, hsession]
  cases hp : (p.run handle s).2 with
  | error e =>
      cases hq : (q.run handle s).2 with
      | error e' =>
          rw [hp, hq] at hagree
          exact herror e e' hagree hq
      | ok b =>
          rw [hp, hq] at hagree
          exact hagree.elim
  | ok a =>
      cases hq : (q.run handle s).2 with
      | error e' =>
          rw [hp, hq] at hagree
          exact hagree.elim
      | ok b => exact hok a b hq

/-- A statement, and the step for it. -/
theorem alike_exec (stmt : δ → Except ε (δ × Nat)) :
    Alike (fun f e => e = .failed f) s (exec stmt) (perform [some stmt]) := by
  simp only [Alike, perform, Prog.run_bind, run_exec]
  cases (s.exec stmt).2 with
  | error f => exact ⟨rfl, rfl⟩
  | ok n => exact ⟨rfl, trivial⟩

theorem run_perform_append (a b : List (Step δ ε)) (s : Session δ) :
    (perform (a ++ b)).run handle s
      = match ((perform a).run handle s).2 with
        | .error e => (((perform a).run handle s).1, .error e)
        | .ok () => (perform b).run handle ((perform a).run handle s).1 := by
  induction a generalizing s with
  | nil => rfl
  | cons step a ih =>
      cases step with
      | none => rfl
      | some stmt =>
          simp only [List.cons_append, perform, Prog.run_bind, run_exec]
          cases (s.exec stmt).2 with
          | error f => rfl
          | ok n => exact ih _

/-- **The first steps of a call, and what it goes on with.** -/
theorem Alike.proceed_append {D : κ → Stop ε → Prop} {keeps : Stop ε → Bool} {drops : Bool}
    {p : Prog (Sql δ ε) (Except κ α)} {a b : List (Step δ ε)}
    {f : Except κ α → Prog (Sql δ ε) (Except κ' β)} (h : Alike D s p (perform a))
    (herror : ∀ e e', D e e' → ((perform a).run handle s).2 = .error e' →
      Alike Any ((perform a).run handle s).1 (f (.error e)) (stopped keeps e'))
    (hok : ∀ x, ((perform a).run handle s).2 = .ok () →
      Alike Any ((perform a).run handle s).1 (f (.ok x)) (proceed keeps drops b)) :
    Alike Any s (p >>= f) (proceed keeps drops (a ++ b)) := by
  obtain ⟨hsession, hagree⟩ := h
  unfold Alike
  rw [proceed, Prog.run_bind, Prog.run_bind, run_perform_append, hsession]
  cases hp : (p.run handle s).2 with
  | error e =>
      cases hq : ((perform a).run handle s).2 with
      | error e' =>
          rw [hp, hq] at hagree
          exact herror e e' hagree hq
      | ok u =>
          rw [hp, hq] at hagree
          exact hagree.elim
  | ok x =>
      cases hq : ((perform a).run handle s).2 with
      | error e' =>
          rw [hp, hq] at hagree
          exact hagree.elim
      | ok u =>
          have hrest := hok x hq
          rw [proceed, Alike, Prog.run_bind] at hrest
          exact hrest

/-- A call begins. -/
theorem alike_call {keeps : Stop ε → Bool} {drops : Bool} {steps : List (Step δ ε)}
    {f : Except (Failure ε) Unit → Prog (Sql δ ε) (Except κ α)}
    (herror : ∀ e, ∃ e', f (.error e) = pure (.error e'))
    (hok : (s.begin (ε := ε)).2 = .ok () →
      Alike Any (s.begin (ε := ε)).1 (f (.ok ())) (proceed keeps drops steps)) :
    Alike Any s (begin >>= f) (call keeps drops steps) := by
  refine Alike.bind (.refl s _) (fun e e' _ _ => ?_) fun _ _ h => hok h
  obtain ⟨e1, he1⟩ := herror e
  rw [he1]
  exact .pure_error trivial

/-- A call ends, with the error of the commit. -/
theorem alike_finish {f : Except (Failure ε) Unit → Prog (Sql δ ε) (Except κ α)}
    (herror : ∀ e, ∃ e', f (.error e) = pure (.error e'))
    (hok : ∃ a, f (.ok ()) = pure (.ok a)) : Alike Any s (commit >>= f) (finish false) := by
  refine Alike.bind (.refl s _) (fun e e' _ _ => ?_) fun _ _ _ => ?_
  · obtain ⟨e1, he1⟩ := herror e
    rw [he1]
    exact .pure_error trivial
  · obtain ⟨a, ha⟩ := hok
    rw [ha]
    exact .pure_ok a ()

/-- A call ends, and the error of the commit is logged. -/
theorem alike_finish_drops {f : Except (Failure ε) Unit → Prog (Sql δ ε) (Except κ α)} (a : α)
    (herror : ∀ e, f (.error e) = rollback >>= fun _ => pure (.ok a))
    (hok : f (.ok ()) = pure (.ok a)) : Alike Any s (commit >>= f) (finish true) := by
  refine Alike.bind (.refl s _) (fun e e' _ _ => ?_) fun _ _ _ => ?_
  · rw [herror]
    exact ⟨rfl, trivial⟩
  · rw [hok]
    exact .pure_ok a ()

/-- A rollback, and the error. -/
theorem alike_rollback {keeps : Stop ε → Bool} {e' : Stop ε} (h : keeps e' = false) (e : κ) :
    Alike (α := α) Any s (rollback >>= fun _ => pure (.error e)) (stopped keeps e') := by
  rw [stopped, h]
  exact ⟨rfl, trivial⟩

/-- No rollback. -/
theorem alike_kept {keeps : Stop ε → Bool} {e' : Stop ε} (h : keeps e' = true) (e : κ) :
    Alike (α := α) Any s (pure (.error e)) (stopped keeps e') := by
  rw [stopped, h]
  exact ⟨rfl, trivial⟩

/-- The program keeps the discipline, on a connection with these faults. -/
def Keeps (Stored : δ → δ → Prop) (p : Prog (Sql δ ε) (Except κ α)) (tables : δ)
    (faults : Nat → Bool) : Prop :=
  Disciplined Stored tables (p.run handle (.fresh tables faults)).1
    (p.run handle (.fresh tables faults)).2.isOk

section Program

variable {p : Prog (Sql δ ε) (Except κ α)} {keeps : Stop ε → Bool} {drops : Bool}
  {steps : List (Step δ ε)} {tables : δ} {faults : Nat → Bool}

theorem keeps_iff {Stored : δ → δ → Prop}
    (h : Alike Any (.fresh tables faults) p (call keeps drops steps)) :
    Keeps Stored p tables faults ↔
      faults 0 = true ∨
        match attempt faults 1 steps tables with
        | .error e => keeps e = false
        | .ok work =>
            if faults (steps.length + 1) then drops = false else Stored tables work := by
  rw [Keeps, h.1, h.2.isOk]
  exact call_disciplined_iff keeps drops steps Stored tables faults

/-- Without faults the tables are those of the statements, all or none. -/
theorem run_faultless {stmts : List (δ → Except ε (δ × Nat))}
    (h : Alike Any (.fresh tables fun _ => false) p (call keeps drops (stmts.map some))) :
    ((p.run handle (.fresh tables fun _ => false)).1.tables,
        (p.run handle (.fresh tables fun _ => false)).2.isOk)
      = match transaction (stmts.map fun stmt d => (stmt d).map Prod.fst) tables with
        | .ok work => (work, true)
        | .error _ => (tables, false) := by
  obtain ⟨s, r, hrun, hout, -⟩ := run_call keeps drops (stmts.map some) tables fun _ => false
  rw [h.1, h.2.isOk, hrun]
  simp only [outcome, Bool.false_eq_true, if_false] at hout
  cases hattempt : attempt (fun _ => false) 1 (stmts.map some) tables with
  | ok work =>
      obtain ⟨-, stmts', hmap, htransaction⟩ := attempt_ok_iff.mp hattempt
      rw [List.map_injective_iff.mpr (fun _ _ h => Option.some.inj h) hmap, htransaction]
      simp only [hattempt, Prod.mk.injEq] at hout
      simp [hout]
  | error e =>
      simp only [hattempt, Prod.mk.injEq] at hout
      cases htransaction : transaction (stmts.map fun stmt d => (stmt d).map Prod.fst) tables with
      | error e' => simp [hout]
      | ok work =>
          have hgo : attempt (fun _ => false) 1 (stmts.map some) tables = .ok work :=
            attempt_ok_iff.mpr ⟨fun _ _ => rfl, stmts, rfl, htransaction⟩
          cases hgo.symm.trans hattempt

end Program

end Alike

end Mainflux.Lib.Tx
