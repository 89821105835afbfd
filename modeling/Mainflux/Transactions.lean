/-
  Mainflux.Transactions
  ─────────────────────
  **THE REPOSITORY METHODS THAT WRITE MANY ROWS.**

  Four methods make one transaction of several statements: `Save` of the
  Postgres writer, `Save` of the things repository, and `Save` and
  `UpdateConnections` of the bootstrap repository.  Their bodies are here
  statement by statement, over a connection any of whose requests may fail.

    • `Writer.save` never rolls back: it returns as soon as a row is not
      built or not taken;
    • `Things.save` rolls back when a statement fails, and returns without it
      when a row is not built;
    • `Bootstrap.save` and `Bootstrap.updateConnections` drop the error of
      the commit, and the second returns `ErrNotFound` without a rollback.

  Each is shown to be `Tx.call` with its own steps, so that ONE theorem says
  when the four keep the discipline.
-/
import Mainflux.Bootstrap.Registry
import Mainflux.Bootstrap.Tables
import Mainflux.Lib.Tx
import Mainflux.Storage.Postgres
import Mainflux.Things.Repository

namespace Mainflux.Transactions

open Mainflux.Lib
open Mainflux.Lib.Tx

/-! ## §1. The Postgres writer. -/

namespace Writer

open Mainflux.Storage
open Mainflux.Storage.Postgres (Row PgError toDBMessage insert)

variable {Num : Type}

/-- The errors of `Save`; `ErrInvalidMessage` is the one that it names. -/
inductive Err
  | newV4
  | invalidMessage
  | passed (f : Failure PgError)

/-- `INSERT INTO messages`. -/
def insertMessage (id : UUID) (msg : Message Num) (table : List (Row Num)) :
    Except PgError (List (Row Num) × Nat) :=
  (insert table (toDBMessage id msg)).map fun table' => (table', 1)

/-- The loop of `Save`; each message comes with what `uuid.NewV4` returns for
it. -/
def insertAll : List (Message Num × Option UUID) →
    Prog (Sql (List (Row Num)) PgError) (Except Err Unit)
  | [] => return .ok ()
  | (_, none) :: _ => return .error .newV4
  | (msg, some id) :: batch => do
      match ← exec (insertMessage id msg) with
      | .error (.refused .invalidTextRepresentation) => return .error .invalidMessage
      | .error f => return .error (.passed f)
      | .ok _ => insertAll batch

/-- `postgresRepo.Save`. -/
def save (batch : List (Message Num × Option UUID)) :
    Prog (Sql (List (Row Num)) PgError) (Except Err Unit) := do
  match ← begin with
  | .error f => return .error (.passed f)
  | .ok () =>
      match ← insertAll batch with
      | .error e => return .error e
      | .ok () =>
          match ← commit with
          | .error f => return .error (.passed f)
          | .ok () => return .ok ()

/-- The rows of a batch. -/
def steps (batch : List (Message Num × Option UUID)) : List (Step (List (Row Num)) PgError) :=
  batch.map fun m => m.2.map fun id => insertMessage id m.1

end Writer

/-! ## §2. The things repository. -/

namespace Things

open Mainflux.Things

/-- The errors of `Save`. -/
inductive SaveErr
  | marshal
  | malformedEntity
  | conflict
  | passed (f : Failure PqError)

/-- The error mapping of `Save`. -/
def saveErr : Failure PqError → SaveErr
  | .refused .invalidTextRepresentation => .malformedEntity
  | .refused .stringDataRightTruncation => .malformedEntity
  | .refused .uniqueViolation => .conflict
  | f => .passed f

/-- `toDBThing` returns no error: an empty metadata is not marshalled.
`marshals` says for which Go maps `json.Marshal` returns none. -/
def Built (marshals : Metadata → Bool) (th : Thing) : Bool :=
  (metadataObject th.metadata).isEmpty || marshals th.metadata

/-- `INSERT INTO things`. -/
def insert (th : Thing) (d : DB) : Except PqError (DB × Nat) :=
  (insertThing th d).map fun d' => (d', 1)

/-- The loop of `Save`. -/
def insertAll (marshals : Metadata → Bool) : List Thing →
    Prog (Sql DB PqError) (Except SaveErr Unit)
  | [] => return .ok ()
  | th :: ths =>
      if Built marshals th then do
        match ← exec (insert th) with
        | .error f =>
            let _ ← rollback
            return .error (saveErr f)
        | .ok _ => insertAll marshals ths
      else return .error .marshal

/-- `thingRepository.Save`. -/
def save (marshals : Metadata → Bool) (ths : List Thing) :
    Prog (Sql DB PqError) (Except SaveErr (List Thing)) := do
  match ← begin with
  | .error f => return .error (.passed f)
  | .ok () =>
      match ← insertAll marshals ths with
      | .error e => return .error e
      | .ok () =>
          match ← commit with
          | .error f => return .error (.passed f)
          | .ok () => return .ok ths

/-- The rows of a call. -/
def steps (marshals : Metadata → Bool) (ths : List Thing) : List (Step DB PqError) :=
  ths.map fun th => if Built marshals th then some (insert th) else none

end Things

/-! ## §3. The bootstrap repository. -/

namespace Bootstrap

open Mainflux.Bootstrap

/-- The tables of the service. -/
structure Tables where
  db : DB
  unknown : List UnknownRow
  deriving DecidableEq

/-- The errors of the two methods. -/
inductive Err
  | marshal
  | conflict
  | notFound
  | passed (f : Failure PqFailure)

/-- A statement on the tables that `DB` has. -/
def onDB (q : DB → Except PqFailure DB) (n : Nat) (t : Tables) : Except PqFailure (Tables × Nat) :=
  (q t.db).map fun db => ({ t with db := db }, n)

/-- The error of a statement whose constraint nobody asks for. -/
def unnamed (r : Except PqError DB) : Except PqFailure DB := r.mapError fun e => (e, "")

def configStmt (cfg : Config) : Tables → Except PqFailure (Tables × Nat) :=
  onDB (fun d => unnamed (insertConfig cfg d)) 1

def channelsStmt (key : String) (channels : List Channel) :
    Tables → Except PqFailure (Tables × Nat) :=
  onDB (fun d => unnamed (Mainflux.Bootstrap.insertChannels key channels d)) channels.length

def connectionsStmt (key id : String) (connections : List String) :
    Tables → Except PqFailure (Tables × Nat) :=
  onDB (Mainflux.Bootstrap.insertConnections key id connections) connections.length

/-- `DELETE FROM unknown_configs`. -/
def unknownStmt (cfg : Config) (t : Tables) : Except PqFailure (Tables × Nat) :=
  .ok ({ t with
      unknown := deleteWhere
        (fun u => u.externalID = cfg.externalID ∧ u.externalKey = cfg.externalKey) t.unknown },
    (selectWhere (fun u => u.externalID = cfg.externalID ∧ u.externalKey = cfg.externalKey)
      t.unknown).length)

/-- The `DELETE FROM connections` of `updateConnections`. -/
def replaceStmt (key id : String) (connections : List String) (t : Tables) :
    Except PqFailure (Tables × Nat) :=
  .ok ({ t with
      db := { t.db with
        connections := deleteWhere (ConnectionRow.Replaced key id connections) t.db.connections } },
    (selectWhere (ConnectionRow.Replaced key id connections) t.db.connections).length)

/-- `cleanupQuery`. -/
def cleanupStmt (t : Tables) : Except PqFailure (Tables × Nat) :=
  .ok ({ t with db := cleanup t.db }, (selectWhere (Dangling t.db) t.db.channels).length)

/-- `insertChannels`; every row is built before the statement. -/
def insertChannels (marshals : Option JsonObject → Bool) (key : String) (channels : List Channel) :
    Prog (Sql Tables PqFailure) (Except Err Unit) :=
  if channels = [] then return .ok ()
  else if channels.all fun ch => marshals ch.metadata then do
    match ← exec (channelsStmt key channels) with
    | .error (.refused (.uniqueViolation, _)) => return .error .conflict
    | .error f => return .error (.passed f)
    | .ok _ => return .ok ()
  else return .error .marshal

/-- `insertConnections`. -/
def insertConnections (key id : String) (connections : List String) :
    Prog (Sql Tables PqFailure) (Except (Failure PqFailure) Unit) :=
  if connections = [] then return .ok ()
  else do
    match ← exec (connectionsStmt key id connections) with
    | .error f => return .error f
    | .ok _ => return .ok ()

/-- `configRepository.Save`. -/
def save (marshals : Option JsonObject → Bool) (cfg : Config) (connections : List String) :
    Prog (Sql Tables PqFailure) (Except Err String) := do
  match ← begin with
  | .error f => return .error (.passed f)
  | .ok () =>
      match ← exec (configStmt cfg) with
      | .error (.refused (.uniqueViolation, _)) =>
          let _ ← rollback
          return .error .conflict
      | .error f =>
          let _ ← rollback
          return .error (.passed f)
      | .ok _ =>
          match ← insertChannels marshals cfg.owner cfg.mfChannels with
          | .error e =>
              let _ ← rollback
              return .error e
          | .ok () =>
              match ← insertConnections cfg.owner cfg.mfThing connections with
              | .error f =>
                  let _ ← rollback
                  return .error (.passed f)
              | .ok () =>
                  match ← exec (unknownStmt cfg) with
                  | .error f =>
                      let _ ← rollback
                      return .error (.passed f)
                  | .ok _ =>
                      match ← commit with
                      -- the error is logged
                      | .error _ =>
                          let _ ← rollback
                          return .ok cfg.mfThing
                      | .ok () => return .ok cfg.mfThing

/-- `updateConnections`. -/
def replaceConnections (key id : String) (connections : List String) :
    Prog (Sql Tables PqFailure) (Except (Failure PqFailure) Unit) :=
  if connections = [] then return .ok ()
  else do
    match ← exec (replaceStmt key id connections) with
    | .error f => return .error f
    | .ok cnt =>
        match ← exec (connectionsStmt key id connections) with
        | .error f => return .error f
        | .ok _ =>
            if cnt = 0 then return .ok ()
            else
              match ← exec cleanupStmt with
              | .error f => return .error f
              | .ok _ => return .ok ()

/-- `configRepository.UpdateConnections`. -/
def updateConnections (marshals : Option JsonObject → Bool) (key id : String)
    (channels : List Channel) (connections : List String) :
    Prog (Sql Tables PqFailure) (Except Err Unit) := do
  match ← begin with
  | .error f => return .error (.passed f)
  | .ok () =>
      match ← insertChannels marshals key channels with
      | .error e =>
          let _ ← rollback
          return .error e
      | .ok () =>
          match ← replaceConnections key id connections with
          -- no rollback here
          | .error (.refused (.foreignKeyViolation, "connections_config_id_fkey")) =>
              return .error .notFound
          | .error f =>
              let _ ← rollback
              return .error (.passed f)
          | .ok () =>
              match ← commit with
              -- the error is logged
              | .error _ =>
                  let _ ← rollback
                  return .ok ()
              | .ok () => return .ok ()

/-- The steps of `insertChannels`. -/
def channelSteps (marshals : Option JsonObject → Bool) (key : String) (channels : List Channel) :
    List (Step Tables PqFailure) :=
  if channels = [] then []
  else if channels.all fun ch => marshals ch.metadata then [some (channelsStmt key channels)]
  else [none]

/-- The steps of `insertConnections`. -/
def connectionSteps (key id : String) (connections : List String) :
    List (Step Tables PqFailure) :=
  if connections = [] then [] else [some (connectionsStmt key id connections)]

/-- The steps of `Save`. -/
def saveSteps (marshals : Option JsonObject → Bool) (cfg : Config) (connections : List String) :
    List (Step Tables PqFailure) :=
  some (configStmt cfg) :: (channelSteps marshals cfg.owner cfg.mfChannels ++
    (connectionSteps cfg.owner cfg.mfThing connections ++ [some (unknownStmt cfg)]))

/-- The steps of `updateConnections`: with rows to replace, the channels are
cleaned up. -/
def replaceSteps (key id : String) (connections : List String) (d : DB) :
    List (Step Tables PqFailure) :=
  if connections = [] then []
  else
    [some (replaceStmt key id connections), some (connectionsStmt key id connections)] ++
      if (selectWhere (ConnectionRow.Replaced key id connections) d.connections).length = 0 then []
      else [some cleanupStmt]

/-- The steps of `UpdateConnections`. -/
def updateSteps (marshals : Option JsonObject → Bool) (key id : String) (channels : List Channel)
    (connections : List String) (d : DB) : List (Step Tables PqFailure) :=
  channelSteps marshals key channels ++ replaceSteps key id connections d

end Bootstrap

/-! ## §4. Each method is a call. -/

namespace Writer

open Mainflux.Storage
open Mainflux.Storage.Postgres (Row PgError)

variable {Num : Type}

/-- The writer keeps its transaction at every stop. -/
abbrev keeps : Stop PgError → Bool := fun _ => true

theorem alike_insertAll (batch : List (Message Num × Option UUID)) (s : Session (List (Row Num))) :
    Alike Any s (insertAll batch) (perform (steps batch)) := by
  induction batch generalizing s with
  | nil => exact .pure_ok () ()
  | cons m batch ih =>
      obtain ⟨msg, id⟩ := m
      cases id with
      | none => exact .pure_error trivial
      | some id =>
          refine Alike.bind (D := Eq) ⟨rfl, ?_⟩ ?_ (fun n n' _ => ih _)
          · rw [run_exec]
            cases (s.exec (insertMessage id msg)).2 with
            | error f => exact rfl
            | ok n => trivial
          · intro f f' _ _
            split
            next => exact .pure_error trivial
            next h => exact .pure_error trivial
            next h => cases h

theorem alike_save (batch : List (Message Num × Option UUID)) (s : Session (List (Row Num))) :
    Alike Any s (save batch) (call keeps false (steps batch)) := by
  refine alike_call (fun f => ⟨_, rfl⟩) fun _ => ?_
  rw [← List.append_nil (steps batch)]
  refine (alike_insertAll batch _).proceed_append (fun e e' _ _ => alike_kept rfl e) fun _ _ => ?_
  exact alike_finish (fun f => ⟨_, rfl⟩) ⟨_, rfl⟩

end Writer

namespace Things

open Mainflux.Things

/-- The repository keeps its transaction when a row is not built. -/
def keeps : Stop PqError → Bool
  | .unbuilt => true
  | .failed _ => false

/-- The loop with its rollbacks, and what follows it. -/
theorem alike_insertAll (marshals : Metadata → Bool) (ths : List Thing) {α : Type}
    {f : Except SaveErr Unit → Prog (Sql DB PqError) (Except SaveErr α)}
    (herror : ∀ e, f (.error e) = pure (.error e))
    (hok : ∀ s, Alike Any s (f (.ok ())) (finish false)) (s : Session DB) :
    Alike Any s (insertAll marshals ths >>= f) (proceed keeps false (steps marshals ths)) := by
  induction ths generalizing s with
  | nil => exact hok s
  | cons th ths ih =>
      cases hbuilt : Built marshals th with
      | false =>
          simp only [insertAll, steps, List.map_cons, hbuilt, Bool.false_eq_true, if_false,
            Prog.pure_bind', herror]
          exact alike_kept (show keeps .unbuilt = true from rfl) SaveErr.marshal
      | true =>
          simp only [insertAll, steps, List.map_cons, hbuilt, if_true]
          show Alike Any s ((exec (insert th) >>= _) >>= f)
            (proceed keeps false (some (insert th) :: steps marshals ths))
          unfold Alike
          rw [proceed, Prog.run_bind, Prog.run_bind, Prog.run_bind, perform, Prog.run_bind, run_exec]
          cases (s.exec (insert th)).2 with
          | error e =>
              simp only [Prog.run_bind, run_rollback, Prog.run_pure, herror]
              exact ⟨rfl, trivial⟩
          | ok n =>
              have hrest := ih (s.exec (insert th)).1
              rw [proceed, Alike, Prog.run_bind, Prog.run_bind] at hrest
              exact hrest

theorem alike_save (marshals : Metadata → Bool) (ths : List Thing) (s : Session DB) :
    Alike Any s (save marshals ths) (call keeps false (steps marshals ths)) := by
  refine alike_call (fun f => ⟨_, rfl⟩) fun _ => ?_
  refine alike_insertAll marshals ths ?_ ?_ _
  · intro e
    rfl
  · intro s'
    exact alike_finish (fun f => ⟨_, rfl⟩) ⟨_, rfl⟩

end Things

namespace Bootstrap

open Mainflux.Bootstrap

/-- `Save` keeps its transaction at no stop. -/
abbrev keepsNone : Stop PqFailure → Bool := fun _ => false

/-- `UpdateConnections` keeps it when the config of a connection is missing. -/
def keepsMissing : Stop PqFailure → Bool
  | .failed (.refused (.foreignKeyViolation, "connections_config_id_fkey")) => true
  | _ => false

/-- A statement that is refused has been asked. -/
theorem exec_refused {δ ε : Type} {s : Session δ} {stmt : δ → Except ε (δ × Nat)} {e : ε}
    (h : (s.exec stmt).2 = .error (.refused e)) : ∃ work, stmt work = .error e := by
  unfold Session.exec at h
  split at h
  next => cases h
  next => cases h
  next work _ =>
      split at h
      next => cases h
      next =>
          split at h
          next e' he =>
              cases h
              exact ⟨work, he⟩
          next => cases h

/-- The statements of `insertChannels` and of the config have no name for a
constraint. -/
theorem onDB_unnamed {q : DB → Except PqError DB} {n : Nat} {t : Tables} {e : PqFailure}
    (h : onDB (fun d => unnamed (q d)) n t = .error e) : e.2 = "" := by
  unfold onDB unnamed at h
  cases hq : q t.db with
  | ok d => simp [hq, Except.map, Except.mapError] at h
  | error e' =>
      simp only [hq, Except.map, Except.mapError, Except.error.injEq] at h
      rw [← h]

theorem keepsMissing_unnamed {e : PqFailure} (h : e.2 = "") :
    keepsMissing (.failed (.refused e)) = false := by
  obtain ⟨e1, e2⟩ := e
  unfold keepsMissing
  split
  next heq =>
      simp only [Stop.failed.injEq, Failure.refused.injEq, Prod.mk.injEq] at heq
      exact absurd (h.symm.trans heq.2) (by decide)
  next => rfl

theorem alike_insertChannels (marshals : Option JsonObject → Bool) (key : String)
    (channels : List Channel) (s : Session Tables) :
    Alike (fun _ e' => keepsMissing e' = false) s (insertChannels marshals key channels)
      (perform (channelSteps marshals key channels)) := by
  unfold insertChannels channelSteps
  by_cases hnil : channels = []
  · rw [if_pos hnil, if_pos hnil]
    exact .pure_ok () ()
  · rw [if_neg hnil, if_neg hnil]
    cases channels.all fun ch => marshals ch.metadata with
    | false => exact .pure_error rfl
    | true =>
        simp only [if_true, Alike, perform, Prog.run_bind, run_exec]
        cases hexec : (s.exec (channelsStmt key channels)).2 with
        | ok n => exact ⟨rfl, trivial⟩
        | error f =>
            have hkeeps : keepsMissing (.failed f) = false := by
              cases f with
              | refused e =>
                  obtain ⟨t, ht⟩ := exec_refused hexec
                  exact keepsMissing_unnamed (onDB_unnamed ht)
              | _ => rfl
            split
            next => exact ⟨rfl, hkeeps⟩
            next h => 
                cases h
                exact ⟨rfl, hkeeps⟩
            next h => cases h

theorem alike_insertConnections (key id : String) (connections : List String)
    (s : Session Tables) :
    Alike Any s (insertConnections key id connections)
      (perform (connectionSteps key id connections)) := by
  unfold insertConnections connectionSteps
  by_cases hnil : connections = []
  · rw [if_pos hnil, if_pos hnil]
    exact .pure_ok () ()
  · rw [if_neg hnil, if_neg hnil]
    simp only [Alike, perform, Prog.run_bind, run_exec]
    cases (s.exec (connectionsStmt key id connections)).2 with
    | ok n => exact ⟨rfl, trivial⟩
    | error f => exact ⟨rfl, trivial⟩

theorem alike_save (marshals : Option JsonObject → Bool) (cfg : Config) (connections : List String)
    (s : Session Tables) :
    Alike Any s (save marshals cfg connections)
      (call keepsNone true (saveSteps marshals cfg connections)) := by
  refine alike_call (fun f => ⟨_, rfl⟩) fun _ => ?_
  have hsteps : saveSteps marshals cfg connections
      = [some (configStmt cfg)] ++ (channelSteps marshals cfg.owner cfg.mfChannels ++
          (connectionSteps cfg.owner cfg.mfThing connections ++ ([some (unknownStmt cfg)] ++ []))) :=
    rfl
  rw [hsteps]
  refine (alike_exec _).proceed_append ?_ fun _ _ => ?_
  · intro f e' _ _
    show Alike Any _ _ _
    split
    next => exact alike_rollback rfl _
    next => exact alike_rollback rfl _
    next h => cases h
  refine (alike_insertChannels marshals _ _ _).proceed_append
    (fun e e' _ _ => alike_rollback rfl e) fun _ _ => ?_
  refine (alike_insertConnections _ _ _ _).proceed_append
    (fun f e' _ _ => alike_rollback rfl _) fun _ _ => ?_
  refine (alike_exec _).proceed_append (fun f e' _ _ => alike_rollback rfl _) fun _ _ => ?_
  exact alike_finish_drops cfg.mfThing (fun f => rfl) rfl

theorem onDB_ok {q : DB → Except PqFailure DB} {n m : Nat} {t t' : Tables}
    (h : onDB q n t = .ok (t', m)) : q t.db = .ok t'.db ∧ t'.unknown = t.unknown := by
  unfold onDB at h
  cases hq : q t.db with
  | error e =>
      rw [hq] at h
      cases h
  | ok d =>
      rw [hq] at h
      cases h
      exact ⟨rfl, rfl⟩

theorem unnamed_ok {r : Except PqError DB} {d : DB} (h : unnamed r = .ok d) : r = .ok d := by
  cases r with
  | error e => cases h
  | ok d' =>
      cases h
      rfl

/-- The channels that go in. -/
theorem attempt_channelSteps {marshals : Option JsonObject → Bool} {key : String}
    {channels : List Channel} {faults : Nat → Bool} {n : Nat} {t t' : Tables}
    (h : attempt faults n (channelSteps marshals key channels) t = .ok t') :
    t'.db = { t.db with channels := t.db.channels ++ channels.map (toDBChannel key) } := by
  unfold channelSteps at h
  split at h
  next hnil =>
      cases h
      simp [hnil]
  next =>
      split at h
      next =>
          obtain ⟨cnt, hstmt⟩ := attempt_single h
          obtain ⟨-, -, hd⟩ := insertChannels_ok (unnamed_ok (onDB_ok hstmt).1)
          exact hd
      next => cases h

/-- The connections that go in. -/
theorem attempt_connectionSteps {key id : String} {connections : List String}
    {faults : Nat → Bool} {n : Nat} {t t' : Tables}
    (h : attempt faults n (connectionSteps key id connections) t = .ok t') :
    t'.db = { t.db with
      connections := t.db.connections ++ connectionRows key id connections } := by
  unfold connectionSteps at h
  split at h
  next hnil =>
      cases h
      simp [hnil, connectionRows]
  next =>
      obtain ⟨cnt, hstmt⟩ := attempt_single h
      obtain ⟨-, -, -, -, hd⟩ := insertConnections_ok (onDB_ok hstmt).1
      exact hd

/-- The number of rows to replace is that of the tables before. -/
theorem alike_replaceConnections {key id : String} {connections : List String} {d : DB}
    {s : Session Tables} {t : Tables} (h : s.tx = .active t)
    (hd : t.db.connections = d.connections) :
    Alike (fun f e' => e' = .failed f) s (replaceConnections key id connections)
      (perform (replaceSteps key id connections d)) := by
  unfold replaceConnections replaceSteps
  by_cases hnil : connections = []
  · rw [if_pos hnil, if_pos hnil]
    exact .pure_ok () ()
  · rw [if_neg hnil, if_neg hnil, ← hd]
    unfold Alike
    simp only [List.cons_append, List.nil_append, perform, Prog.run_bind, run_exec, exec_active h]
    cases s.faults s.sent with
    | true => exact ⟨rfl, rfl⟩
    | false =>
        simp only [Bool.false_eq_true, if_false, replaceStmt, Prog.run_bind, run_exec]
        generalize s.to (.active { t with
          db := { t.db with
            connections := deleteWhere (ConnectionRow.Replaced key id connections)
              t.db.connections } }) = s1
        cases (s1.exec (connectionsStmt key id connections)).2 with
        | error f => exact ⟨rfl, rfl⟩
        | ok n =>
            by_cases hcnt : (selectWhere (ConnectionRow.Replaced key id connections)
                t.db.connections).length = 0
            · simp only [hcnt, if_true]
              exact ⟨rfl, trivial⟩
            · simp only [hcnt, if_false, perform, Prog.run_bind, run_exec]
              cases ((s1.exec (connectionsStmt key id connections)).1.exec cleanupStmt).2 with
              | error f => exact ⟨rfl, rfl⟩
              | ok m => exact ⟨rfl, trivial⟩

theorem alike_updateConnections (marshals : Option JsonObject → Bool) (key id : String)
    (channels : List Channel) (connections : List String) (t : Tables) (faults : Nat → Bool) :
    Alike Any (.fresh t faults) (updateConnections marshals key id channels connections)
      (call keepsMissing true (updateSteps marshals key id channels connections t.db)) := by
  refine alike_call (fun f => ⟨_, rfl⟩) fun hbegin => ?_
  have hactive : ((Session.fresh t faults).begin (ε := PqFailure)).1.tx = .active t := by
    rw [begin_fresh] at hbegin ⊢
    split at hbegin
    next => cases hbegin
    next hfault =>
        rw [if_neg hfault]
        rfl
  refine (alike_insertChannels marshals key channels _).proceed_append
    (fun e e' h _ => alike_rollback h e) fun _ hok => ?_
  obtain ⟨t', hattempt, htx⟩ := active_of_perform hactive hok
  rw [← List.append_nil (replaceSteps key id connections t.db)]
  have hsame : t'.db.connections = t.db.connections := by rw [attempt_channelSteps hattempt]
  refine (alike_replaceConnections htx hsame).proceed_append ?_
    fun _ _ => ?_
  · intro f e' he' _
    subst he'
    show Alike Any _ _ _
    split
    next heq =>
        cases heq
        exact alike_kept rfl _
    next f' hno heq =>
        cases heq
        refine alike_rollback ?_ _
        unfold keepsMissing
        split
        next h =>
            cases h
            exact absurd rfl hno
        next => rfl
    next heq => cases heq
  · exact alike_finish_drops () (fun f => rfl) rfl

end Bootstrap

/-! ## §5. What is stored. -/

namespace Writer

open Mainflux.Storage
open Mainflux.Storage.Postgres (Row PgError insert toDBMessage bind_ok)

variable {Num : Type}

/-- One row more for each message: the row that it makes. -/
def Stored (batch : List (Message Num × Option UUID)) (table table' : List (Row Num)) : Prop :=
  ∃ rows, table' = table ++ rows ∧
    List.Forall₂ (fun m r => ∃ id, m.2 = some id ∧ insert [] (toDBMessage id m.1) = .ok [r])
      batch rows

theorem insertMessage_ok {id : UUID} {msg : Message Num} {table table' : List (Row Num)} {n : Nat}
    (h : insertMessage id msg table = .ok (table', n)) :
    ∃ r, table' = table ++ [r] ∧ insert [] (toDBMessage id msg) = .ok [r] := by
  unfold insertMessage at h
  cases hinsert : insert table (toDBMessage id msg) with
  | error e =>
      rw [hinsert] at h
      cases h
  | ok t =>
      rw [hinsert] at h
      cases h
      -- every parameter is read alike, whatever the table
      obtain ⟨id', hid, h⟩ := bind_ok hinsert
      obtain ⟨channel, hchannel, h⟩ := bind_ok h
      obtain ⟨subtopic, hsubtopic, h⟩ := bind_ok h
      obtain ⟨publisher, hpublisher, h⟩ := bind_ok h
      obtain ⟨protocol, hprotocol, h⟩ := bind_ok h
      obtain ⟨name, hname, h⟩ := bind_ok h
      obtain ⟨unit, hunit, h⟩ := bind_ok h
      obtain ⟨stringValue, hstring, h⟩ := bind_ok h
      obtain ⟨dataValue, hdata, h⟩ := bind_ok h
      obtain ⟨cut, hcut, h⟩ := bind_ok h
      split at h
      · cases h
      · refine ⟨_, (Except.ok.inj h).symm, ?_⟩
        simp only [Mainflux.Storage.Postgres.insert, hid, hchannel, hsubtopic, hpublisher, hprotocol,
          hname, hunit, hstring, hdata, bind, Except.bind, hcut]
        rfl

theorem stored_of_attempt {batch : List (Message Num × Option UUID)} {faults : Nat → Bool} {n : Nat}
    {table table' : List (Row Num)} (h : attempt faults n (steps batch) table = .ok table') :
    Stored batch table table' := by
  induction batch generalizing n table with
  | nil =>
      cases h
      exact ⟨[], (List.append_nil _).symm, .nil⟩
  | cons m batch ih =>
      obtain ⟨msg, id⟩ := m
      cases id with
      | none => cases h
      | some id =>
          simp only [steps, List.map_cons, Option.map_some, attempt] at h
          split at h
          next => cases h
          next =>
              split at h
              next => cases h
              next t1 cnt hstmt =>
                  obtain ⟨r, rfl, hrow⟩ := insertMessage_ok hstmt
                  obtain ⟨rows, rfl, hrows⟩ := ih h
                  refine ⟨r :: rows, by simp, .cons ⟨id, rfl, hrow⟩ hrows⟩

end Writer

namespace Things

open Mainflux.Things

/-- The row of a thing. -/
def RowOf (th : Thing) (r : ThingRow) : Prop :=
  uuidIn th.id = some r.id ∧ r.owner = th.owner ∧ r.name = th.name ∧ r.key = th.key ∧
    r.metadata = metadataObject th.metadata

/-- One row more for each thing. -/
def Stored (ths : List Thing) (d d' : DB) : Prop :=
  ∃ rows, d' = { d with things := d.things ++ rows } ∧ List.Forall₂ RowOf ths rows

theorem stored_of_attempt {marshals : Metadata → Bool} {ths : List Thing} {faults : Nat → Bool}
    {n : Nat} {d d' : DB} (h : attempt faults n (steps marshals ths) d = .ok d') :
    Stored ths d d' := by
  induction ths generalizing n d with
  | nil =>
      cases h
      exact ⟨[], by simp, .nil⟩
  | cons th ths ih =>
      cases hbuilt : Built marshals th with
      | false => simp [steps, hbuilt, attempt] at h
      | true =>
          simp only [steps, List.map_cons, hbuilt, if_true, attempt] at h
          split at h
          next => cases h
          next =>
              split at h
              next => cases h
              next d1 cnt hstmt =>
                  unfold insert at hstmt
                  cases hinsert : insertThing th d with
                  | error e =>
                      rw [hinsert] at hstmt
                      cases hstmt
                  | ok d2 =>
                      rw [hinsert] at hstmt
                      cases hstmt
                      obtain ⟨u, hu, -, -, rfl⟩ := insertThing_ok hinsert
                      obtain ⟨rows, rfl, hrows⟩ := ih h
                      refine ⟨⟨u, th.owner, th.name, th.key, metadataObject th.metadata⟩ :: rows, ?_,
                        .cons ⟨hu, rfl, rfl, rfl, rfl⟩ hrows⟩
                      simp

end Things

namespace Bootstrap

open Mainflux.Bootstrap

/-- The row of the config, those of its new channels, and its connections. -/
structure SaveStored (cfg : Config) (connections : List String) (t' : Tables) : Prop where
  config : toDBConfig cfg ∈ t'.db.configs
  channels : ∀ ch ∈ cfg.mfChannels, toDBChannel cfg.owner ch ∈ t'.db.channels
  connections : ∀ co ∈ connectionRows cfg.owner cfg.mfThing connections, co ∈ t'.db.connections

theorem saveStored_of_attempt {marshals : Option JsonObject → Bool} {cfg : Config}
    {connections : List String} {faults : Nat → Bool} {n : Nat} {t t' : Tables}
    (h : attempt faults n (saveSteps marshals cfg connections) t = .ok t') :
    SaveStored cfg connections t' := by
  obtain ⟨t1, h1, h⟩ := attempt_append (a := [some (configStmt cfg)]) h
  obtain ⟨t2, h2, h⟩ := attempt_append h
  obtain ⟨t3, h3, h4⟩ := attempt_append h
  obtain ⟨cnt, hconfig⟩ := attempt_single h1
  obtain ⟨-, hd1⟩ := insertConfig_ok (unnamed_ok (onDB_ok hconfig).1)
  have hd2 := attempt_channelSteps h2
  have hd3 := attempt_connectionSteps h3
  -- the last statement does not touch the three tables
  obtain ⟨cnt', hunknown⟩ := attempt_single h4
  have hd4 : t'.db = t3.db := by
    cases hunknown
    rfl
  rw [hd1] at hd2
  rw [hd2] at hd3
  refine ⟨?_, ?_, ?_⟩
  · rw [hd4, hd3]
    exact List.mem_append_right _ (List.mem_singleton_self _)
  · intro ch hch
    rw [hd4, hd3]
    exact List.mem_append_right _ (List.mem_map_of_mem hch)
  · intro co hco
    rw [hd4, hd3]
    exact List.mem_append_right _ hco

/-- The rows of the new channels, and the connections. -/
structure UpdateStored (key id : String) (channels : List Channel) (connections : List String)
    (t' : Tables) : Prop where
  channels : ∀ ch ∈ channels, toDBChannel key ch ∈ t'.db.channels
  connections : ∀ co ∈ connectionRows key id connections, co ∈ t'.db.connections

/-- A channel of the list is cleaned up by the same call: it is not among the
connections, nor does a row keep it that is not replaced. -/
def Swept (key id : String) (channels : List Channel) (connections : List String) (d : DB) : Prop :=
  connections ≠ [] ∧ (∃ co ∈ d.connections, co.Replaced key id connections) ∧
    ∃ ch ∈ channels, ch.id ∉ connections ∧
      ∀ co ∈ d.connections, co.channelID = ch.id → co.Replaced key id connections

/-- What `updateConnections` leaves. -/
theorem attempt_replaceSteps {key id : String} {connections : List String} {d : DB}
    {faults : Nat → Bool} {n : Nat} {t t' : Tables} (hne : connections ≠ [])
    (h : attempt faults n (replaceSteps key id connections d) t = .ok t') :
    t'.db.connections = deleteWhere (ConnectionRow.Replaced key id connections) t.db.connections
        ++ connectionRows key id connections ∧
      ∀ ch, ch ∈ t'.db.channels ↔ ch ∈ t.db.channels ∧
        ((∃ co ∈ d.connections, co.Replaced key id connections) →
          ∃ co ∈ t'.db.connections, ch.mfChannel = co.channelID) := by
  unfold replaceSteps at h
  rw [if_neg hne] at h
  obtain ⟨t2, h2, h3⟩ := attempt_append h
  obtain ⟨t1, h1, h2⟩ := attempt_append (a := [some (replaceStmt key id connections)]) h2
  obtain ⟨cnt, hreplace⟩ := attempt_single h1
  obtain ⟨cnt', hinsert⟩ := attempt_single h2
  cases hreplace
  obtain ⟨-, -, -, -, hd2⟩ := insertConnections_ok (onDB_ok hinsert).1
  by_cases hcnt : (selectWhere (ConnectionRow.Replaced key id connections) d.connections).length = 0
  · rw [if_pos hcnt] at h3
    cases h3
    have hnone := length_selectWhere_eq_zero.mp hcnt
    refine ⟨by rw [hd2], fun ch => ?_⟩
    rw [hd2]
    refine ⟨fun hch => ⟨hch, ?_⟩, fun hch => hch.1⟩
    rintro ⟨co, hco, hreplaced⟩
    exact absurd hreplaced (hnone co hco)
  · rw [if_neg hcnt] at h3
    obtain ⟨cnt'', hcleanup⟩ := attempt_single h3
    cases hcleanup
    have hsome : ∃ co ∈ d.connections, co.Replaced key id connections := by
      by_contra hno
      refine hcnt (length_selectWhere_eq_zero.mpr fun co hco hreplaced => ?_)
      exact hno ⟨co, hco, hreplaced⟩
    refine ⟨by rw [connections_cleanup, hd2], fun ch => ?_⟩
    rw [connections_cleanup]
    show ch ∈ deleteWhere (Dangling t2.db) t2.db.channels ↔ _
    rw [mem_deleteWhere, not_not, hd2]
    exact ⟨fun hch => ⟨hch.1, fun _ => hch.2⟩, fun hch => ⟨hch.1, hch.2 hsome⟩⟩

/-- **All rows are there, unless the call has cleaned one up.** -/
theorem updateStored_iff {marshals : Option JsonObject → Bool} {key id : String}
    {channels : List Channel} {connections : List String} {faults : Nat → Bool} {n : Nat}
    {t t' : Tables}
    (h : attempt faults n (updateSteps marshals key id channels connections t.db) t = .ok t') :
    UpdateStored key id channels connections t' ↔ ¬ Swept key id channels connections t.db := by
  obtain ⟨t1, h1, h2⟩ := attempt_append h
  have hd1 := attempt_channelSteps h1
  have hin : ∀ ch ∈ channels, toDBChannel key ch ∈ t1.db.channels := by
    intro ch hch
    rw [hd1]
    exact List.mem_append_right _ (List.mem_map_of_mem hch)
  by_cases hne : connections = []
  · have hsame : t' = t1 := by
      rw [replaceSteps, if_pos hne] at h2
      cases h2
      rfl
    subst hsame
    refine iff_of_true ⟨hin, ?_⟩ (fun hswept => hswept.1 hne)
    intro co hco
    rw [hne] at hco
    exact absurd hco List.not_mem_nil
  · obtain ⟨hconnections, hchannels⟩ := attempt_replaceSteps hne h2
    have hbefore : t1.db.connections = t.db.connections := by rw [hd1]
    rw [hbefore] at hconnections
    have hrows : ∀ co ∈ connectionRows key id connections, co ∈ t'.db.connections := by
      intro co hco
      rw [hconnections]
      exact List.mem_append_right _ hco
    constructor
    · rintro hstored ⟨-, hsome, ch, hch, hnot, hall⟩
      obtain ⟨-, hkept⟩ := (hchannels _).mp (hstored.channels ch hch)
      obtain ⟨co, hco, hid⟩ := hkept hsome
      have hid' : co.channelID = ch.id := hid.symm
      rw [hconnections] at hco
      rcases List.mem_append.mp hco with hold | hnew
      · obtain ⟨hmem, hkeep⟩ := mem_deleteWhere.mp hold
        exact hkeep (hall co hmem hid')
      · exact hnot (hid' ▸ (mem_connectionRows.mp hnew).1)
    · intro hno
      refine ⟨fun ch hch => (hchannels _).mpr ⟨hin ch hch, fun hsome => ?_⟩, hrows⟩
      by_contra hgone
      -- then no row that stays names the channel
      refine hno ⟨hne, hsome, ch, hch, fun hmem => hgone ?_, fun co hco hid => ?_⟩
      · exact ⟨⟨ch.id, key, id, key⟩, hrows _ (mem_connectionRows.mpr ⟨hmem, rfl, rfl, rfl⟩), rfl⟩
      · by_contra hkeep
        refine hgone ⟨co, ?_, hid.symm⟩
        rw [hconnections]
        exact List.mem_append_left _ (mem_deleteWhere.mpr ⟨hco, hkeep⟩)

end Bootstrap

/-! ## §6. The methods without faults. -/

namespace Writer

open Mainflux.Storage
open Mainflux.Storage.Postgres (Row PgError toDBMessage)

variable {Num : Type}

/-- The loop of the model that has no connection. -/
theorem attempt_steps {batch : List (Message Num × Option UUID)} {faults : Nat → Bool} {n : Nat}
    (h : ∀ i < batch.length, faults (n + i) = false) (table : List (Row Num)) :
    (attempt faults n (steps batch) table).toOption
      = (Mainflux.Storage.Postgres.insertAll table batch).toOption := by
  induction batch generalizing n table with
  | nil => rfl
  | cons m batch ih =>
      obtain ⟨msg, id⟩ := m
      cases id with
      | none => rfl
      | some id =>
          have h0 : faults n = false := h 0 (Nat.zero_lt_succ _)
          have hrest : ∀ i < batch.length, faults (n + 1 + i) = false := by
            intro i hi
            rw [Nat.add_right_comm]
            exact h (i + 1) (Nat.succ_lt_succ hi)
          simp only [steps, List.map_cons, Option.map_some, attempt, h0, insertMessage,
            Mainflux.Storage.Postgres.insertAll, Bool.false_eq_true, if_false]
          cases hinsert : Mainflux.Storage.Postgres.insert table (toDBMessage id msg) with
          | ok table' => exact ih hrest table'
          | error e => cases e <;> rfl

/-- **`Storage.Postgres.save` is this method** on a connection that fails at
most at its begin and its commit. -/
theorem save_refines (table : List (Row Num)) (call : Mainflux.Storage.Postgres.Call Num)
    {faults : Nat → Bool} (hbegin : faults 0 = !call.begins)
    (hrows : ∀ i < call.batch.length, faults (1 + i) = false)
    (hcommit : faults (call.batch.length + 1) = !call.commits) :
    ((save call.batch).run handle (.fresh table faults)).1.tables
        = (Mainflux.Storage.Postgres.save table call).1 ∧
      ((save call.batch).run handle (.fresh table faults)).2.isOk
        = (Mainflux.Storage.Postgres.save table call).2.isNone := by
  obtain ⟨s, r, hrun, hout, -⟩ := run_call keeps false (steps call.batch) table faults
  have hlength : (steps call.batch).length = call.batch.length := List.length_map _
  have hsteps := attempt_steps hrows table
  obtain ⟨hsession, hagree⟩ := alike_save call.batch (.fresh table faults)
  rw [hsession, hagree.isOk, hrun]
  unfold outcome at hout
  unfold Mainflux.Storage.Postgres.save
  rw [hbegin, hlength, hcommit] at hout
  cases hb : call.begins with
  | false => simp_all
  | true =>
      cases hattempt : attempt faults 1 (steps call.batch) table with
      | error e =>
          cases hall : Mainflux.Storage.Postgres.insertAll table call.batch with
          | ok table' =>
              rw [hattempt, hall] at hsteps
              cases hsteps
          | error e' => simp_all
      | ok table' =>
          cases hall : Mainflux.Storage.Postgres.insertAll table call.batch with
          | error e' =>
              rw [hattempt, hall] at hsteps
              cases hsteps
          | ok table'' =>
              rw [hattempt, hall] at hsteps
              cases hsteps
              cases hc : call.commits with
              | false => simp_all
              | true => simp_all

end Writer

namespace Things

open Mainflux.Things

/-- **`ThingRepository.save` is this method** without faults. -/
theorem save_refines (ths : List Thing) (d : DB) :
    (((save (fun _ => true) ths).run handle (.fresh d fun _ => false)).1.tables,
        ((save (fun _ => true) ths).run handle (.fresh d fun _ => false)).2.isOk)
      = ((ThingRepository.save ths d).1, (ThingRepository.save ths d).2.isOk) := by
  have hsteps : steps (fun _ => true) ths = (ths.map insert).map some := by
    simp [steps, Built]
  have halike := alike_save (fun _ => true) ths (.fresh d fun _ => false)
  rw [hsteps] at halike
  rw [run_faultless halike, ThingRepository.save]
  have hstmts : (ths.map insert).map (fun stmt d => (stmt d).map Prod.fst) = ths.map insertThing := by
    rw [List.map_map]
    refine List.map_congr_left fun th _ => funext fun d => ?_
    simp only [Function.comp_apply, insert]
    cases insertThing th d <;> rfl
  rw [hstmts]
  cases transaction (ths.map insertThing) d <;> rfl

end Things

namespace Bootstrap

open Mainflux.Bootstrap

/-- The statements of `channelSteps` that need no building. -/
theorem channelSteps_true (key : String) (channels : List Channel) :
    channelSteps (fun _ => true) key channels
      = (if channels = [] then [] else [channelsStmt key channels]).map some := by
  unfold channelSteps
  split <;> simp

theorem connectionSteps_eq (key id : String) (connections : List String) :
    connectionSteps key id connections
      = (if connections = [] then [] else [connectionsStmt key id connections]).map some := by
  unfold connectionSteps
  split <;> rfl

theorem onDB_fst (q : DB → Except PqFailure DB) (n : Nat) (t : Tables) :
    (onDB q n t).map Prod.fst = (q t.db).map fun db => { t with db := db } := by
  unfold onDB
  cases q t.db <;> rfl

/-- Without channels there is no statement, and nothing would happen. -/
theorem transaction_channels (key : String) (channels : List Channel) (t : Tables) :
    transaction ((if channels = [] then [] else [channelsStmt key channels]).map
        fun stmt t => (stmt t).map Prod.fst) t
      = (unnamed (Mainflux.Bootstrap.insertChannels key channels t.db)).map
          fun db => { t with db := db } := by
  by_cases hnil : channels = []
  · rw [if_pos hnil, Mainflux.Bootstrap.insertChannels, if_pos hnil]
    rfl
  · rw [if_neg hnil, List.map_singleton, transaction, channelsStmt, onDB_fst]
    cases unnamed (Mainflux.Bootstrap.insertChannels key channels t.db) <;> rfl

theorem transaction_connections (key id : String) (connections : List String) (t : Tables) :
    transaction ((if connections = [] then [] else [connectionsStmt key id connections]).map
        fun stmt t => (stmt t).map Prod.fst) t
      = (Mainflux.Bootstrap.insertConnections key id connections t.db).map
          fun db => { t with db := db } := by
  by_cases hnil : connections = []
  · rw [if_pos hnil, Mainflux.Bootstrap.insertConnections, if_pos hnil]
    rfl
  · rw [if_neg hnil, List.map_singleton, transaction, connectionsStmt, onDB_fst]
    cases Mainflux.Bootstrap.insertConnections key id connections t.db <;> rfl

theorem map_unnamed_ok (t : Tables) (d : DB) :
    ((unnamed (.ok d)).map fun db => ({ t with db := db } : Tables)) = .ok { t with db := d } := rfl

/-- **`ConfigRepository.save` is this method** without faults. -/
theorem save_refines (cfg : Config) (connections : List String) (t : Tables) :
    (((save (fun _ => true) cfg connections).run handle (.fresh t fun _ => false)).1.tables.db,
        ((save (fun _ => true) cfg connections).run handle (.fresh t fun _ => false)).2.isOk)
      = ((ConfigRepository.save cfg connections t.db).1,
        (ConfigRepository.save cfg connections t.db).2.isOk) := by
  have halike := alike_save (fun _ => true) cfg connections (.fresh t fun _ => false)
  have hsteps : saveSteps (fun _ => true) cfg connections
      = (configStmt cfg ::
          ((if cfg.mfChannels = [] then [] else [channelsStmt cfg.owner cfg.mfChannels]) ++
            ((if connections = [] then []
              else [connectionsStmt cfg.owner cfg.mfThing connections]) ++ [unknownStmt cfg]))).map
          some := by
    rw [saveSteps, channelSteps_true, connectionSteps_eq, List.map_cons, List.map_append,
      List.map_append]
    rfl
  rw [hsteps] at halike
  have hrun := run_faultless halike
  rw [Prod.mk.injEq]
  rw [List.map_cons, List.map_append, List.map_append, transaction, configStmt, onDB_fst,
    Prod.mk.injEq] at hrun
  rw [hrun.1, hrun.2, ConfigRepository.save]
  -- one statement after the other, as far as they go
  cases insertConfig cfg t.db with
  | error e => cases e <;> exact ⟨rfl, rfl⟩
  | ok d1 =>
      simp only [map_unnamed_ok, transaction_append, transaction_channels]
      cases Mainflux.Bootstrap.insertChannels cfg.owner cfg.mfChannels d1 with
      | error e => cases e <;> exact ⟨rfl, rfl⟩
      | ok d2 =>
          simp only [map_unnamed_ok, transaction_connections]
          cases Mainflux.Bootstrap.insertConnections cfg.owner cfg.mfThing connections d2 with
          | error e => exact ⟨rfl, rfl⟩
          | ok d3 => exact ⟨rfl, rfl⟩

/-- The statements of `replaceSteps`. -/
def replaceStmts (key id : String) (connections : List String) (d : DB) :
    List (Tables → Except PqFailure (Tables × Nat)) :=
  if connections = [] then []
  else
    [replaceStmt key id connections, connectionsStmt key id connections] ++
      if (selectWhere (ConnectionRow.Replaced key id connections) d.connections).length = 0 then []
      else [cleanupStmt]

theorem replaceSteps_eq (key id : String) (connections : List String) (d : DB) :
    replaceSteps key id connections d = (replaceStmts key id connections d).map some := by
  unfold replaceSteps replaceStmts
  split
  · rfl
  · split <;> rfl

theorem transaction_replace {key id : String} {connections : List String} {d : DB} {t : Tables}
    (hd : t.db.connections = d.connections) :
    transaction ((replaceStmts key id connections d).map fun stmt t => (stmt t).map Prod.fst) t
      = (Mainflux.Bootstrap.updateConnections key id connections t.db).map
          fun db => { t with db := db } := by
  unfold replaceStmts Mainflux.Bootstrap.updateConnections
  by_cases hnil : connections = []
  · rw [if_pos hnil, if_pos hnil]
    rfl
  · rw [if_neg hnil, if_neg hnil, hd]
    simp only [List.cons_append, List.nil_append, List.map_cons, transaction, replaceStmt,
      connectionsStmt, onDB, Except.map, hd]
    cases Mainflux.Bootstrap.insertConnections key id connections
        { t.db with
          connections :=
            deleteWhere (ConnectionRow.Replaced key id connections) d.connections } with
    | error e => rfl
    | ok d' =>
        by_cases hcnt : (selectWhere (ConnectionRow.Replaced key id connections)
            d.connections).length = 0
        · simp only [hcnt, if_true]
          rfl
        · simp only [hcnt, if_false]
          rfl

/-- **`ConfigRepository.updateConnections` is this method** without faults. -/
theorem updateConnections_refines (key id : String) (channels : List Channel)
    (connections : List String) (t : Tables) :
    (((updateConnections (fun _ => true) key id channels connections).run handle
          (.fresh t fun _ => false)).1.tables.db,
        ((updateConnections (fun _ => true) key id channels connections).run handle
          (.fresh t fun _ => false)).2.isOk)
      = ((ConfigRepository.updateConnections key id channels connections t.db).1,
        (ConfigRepository.updateConnections key id channels connections t.db).2.isOk) := by
  have halike := alike_updateConnections (fun _ => true) key id channels connections t fun _ => false
  rw [updateSteps, channelSteps_true, replaceSteps_eq, ← List.map_append] at halike
  have hrun := run_faultless halike
  rw [Prod.mk.injEq]
  rw [List.map_append, transaction_append, transaction_channels, Prod.mk.injEq] at hrun
  rw [hrun.1, hrun.2, ConfigRepository.updateConnections]
  cases hchannels : Mainflux.Bootstrap.insertChannels key channels t.db with
  | error e => cases e <;> exact ⟨rfl, rfl⟩
  | ok d1 =>
      have hsame : d1.connections = t.db.connections := by
        obtain ⟨-, -, rfl⟩ := insertChannels_ok hchannels
        rfl
      simp only [map_unnamed_ok, transaction_replace (t := { t with db := d1 }) hsame]
      cases Mainflux.Bootstrap.updateConnections key id connections d1 with
      | ok d2 => exact ⟨rfl, rfl⟩
      | error e =>
          -- both error branches leave the tables alone
          have herror : ∀ r : DB × Except Mainflux.Bootstrap.Err Unit,
              r = (t.db, .error .notFound) ∨ r = (t.db, .error (.pq e.1)) →
                t.db = r.1 ∧ false = r.2.isOk := by
            rintro r (rfl | rfl)
            · exact ⟨rfl, rfl⟩
            · exact ⟨rfl, rfl⟩
          refine herror _ ?_
          split
          next => exact .inl rfl
          next h =>
              cases h
              exact .inr rfl
          next h => cases h

end Bootstrap

/-! ## §7. When the methods keep the discipline. -/

section Methods

open Mainflux.Storage (Message)
open Mainflux.Storage.Postgres (Row)
open Mainflux.Things (Thing Metadata)
open Mainflux.Bootstrap (Config Channel)

variable {Num : Type}

theorem writer_keeps_iff (batch : List (Message Num × Option UUID)) (table : List (Row Num))
    (faults : Nat → Bool) :
    Keeps (Writer.Stored batch) (Writer.save batch) table faults ↔
      faults 0 = true ∨ GoIn faults (Writer.steps batch) table := by
  rw [keeps_iff (Writer.alike_save batch _), GoIn]
  refine or_congr_right ?_
  cases hattempt : attempt faults 1 (Writer.steps batch) table with
  | error e => simp
  | ok table' =>
      refine iff_of_true ?_ ⟨table', rfl⟩
      show if faults ((Writer.steps batch).length + 1) = true then _ else _
      split
      · rfl
      · exact Writer.stored_of_attempt hattempt

theorem things_keeps_iff (marshals : Metadata → Bool) (ths : List Thing) (d : Mainflux.Things.DB)
    (faults : Nat → Bool) :
    Keeps (Things.Stored ths) (Things.save marshals ths) d faults ↔
      faults 0 = true ∨ ¬ MeetsUnbuilt faults (Things.steps marshals ths) d := by
  rw [keeps_iff (Things.alike_save marshals ths _), meetsUnbuilt_iff]
  refine or_congr_right ?_
  cases hattempt : attempt faults 1 (Things.steps marshals ths) d with
  | error e =>
      cases e with
      | unbuilt => simp [Things.keeps]
      | failed f => simp [Things.keeps]
  | ok d' =>
      refine iff_of_true ?_ (fun h => by cases h)
      show if faults ((Things.steps marshals ths).length + 1) = true then _ else _
      split
      · rfl
      · exact Things.stored_of_attempt hattempt

theorem config_save_keeps_iff (marshals : Option JsonObject → Bool) (cfg : Config)
    (connections : List String) (t : Bootstrap.Tables) (faults : Nat → Bool) :
    Keeps (fun _ => Bootstrap.SaveStored cfg connections) (Bootstrap.save marshals cfg connections) t
        faults ↔
      faults 0 = true ∨
        (GoIn faults (Bootstrap.saveSteps marshals cfg connections) t →
          faults ((Bootstrap.saveSteps marshals cfg connections).length + 1) = false) := by
  rw [keeps_iff (Bootstrap.alike_save marshals cfg connections _), GoIn]
  refine or_congr_right ?_
  cases hattempt : attempt faults 1 (Bootstrap.saveSteps marshals cfg connections) t with
  | error e => simp
  | ok t' =>
      have hstored := Bootstrap.saveStored_of_attempt hattempt
      cases faults ((Bootstrap.saveSteps marshals cfg connections).length + 1) with
      | true => simp
      | false => simp [hstored]

theorem updateConnections_keeps_iff (marshals : Option JsonObject → Bool) (key id : String)
    (channels : List Channel) (connections : List String) (t : Bootstrap.Tables)
    (faults : Nat → Bool) :
    Keeps (fun _ => Bootstrap.UpdateStored key id channels connections)
        (Bootstrap.updateConnections marshals key id channels connections) t faults ↔
      faults 0 = true ∨
        ¬ MeetsRefusal (.foreignKeyViolation, "connections_config_id_fkey") faults
            (Bootstrap.updateSteps marshals key id channels connections t.db) t ∧
        (GoIn faults (Bootstrap.updateSteps marshals key id channels connections t.db) t →
          faults ((Bootstrap.updateSteps marshals key id channels connections t.db).length + 1)
              = false ∧
            ¬ Bootstrap.Swept key id channels connections t.db) := by
  rw [keeps_iff (Bootstrap.alike_updateConnections marshals key id channels connections t faults),
    GoIn, meetsRefusal_iff]
  refine or_congr_right ?_
  cases hattempt : attempt faults 1
      (Bootstrap.updateSteps marshals key id channels connections t.db) t with
  | error e =>
      simp only [reduceCtorEq, exists_false, false_imp_iff, and_true, Except.error.injEq]
      unfold Bootstrap.keepsMissing
      split
      next => simp
      next hno => simpa using hno
  | ok t' =>
      have hstored := Bootstrap.updateStored_iff hattempt
      cases faults ((Bootstrap.updateSteps marshals key id channels connections t.db).length + 1) with
      | true => simp
      | false => simp [hstored]

/-- **When the four methods keep the discipline**, for every list, on a
connection with any faults. -/
theorem repositories_keep_iff (faults : Nat → Bool) :
    (∀ (Num : Type) (batch : List (Message Num × Option UUID)) (table : List (Row Num)),
      Keeps (Writer.Stored batch) (Writer.save batch) table faults ↔
        faults 0 = true ∨ GoIn faults (Writer.steps batch) table) ∧
    (∀ (marshals : Metadata → Bool) (ths : List Thing) (d : Mainflux.Things.DB),
      Keeps (Things.Stored ths) (Things.save marshals ths) d faults ↔
        faults 0 = true ∨ ¬ MeetsUnbuilt faults (Things.steps marshals ths) d) ∧
    (∀ (marshals : Option JsonObject → Bool) (cfg : Config) (connections : List String)
        (t : Bootstrap.Tables),
      Keeps (fun _ => Bootstrap.SaveStored cfg connections)
          (Bootstrap.save marshals cfg connections) t faults ↔
        faults 0 = true ∨
          (GoIn faults (Bootstrap.saveSteps marshals cfg connections) t →
            faults ((Bootstrap.saveSteps marshals cfg connections).length + 1) = false)) ∧
    ∀ (marshals : Option JsonObject → Bool) (key id : String) (channels : List Channel)
        (connections : List String) (t : Bootstrap.Tables),
      Keeps (fun _ => Bootstrap.UpdateStored key id channels connections)
          (Bootstrap.updateConnections marshals key id channels connections) t faults ↔
        faults 0 = true ∨
          ¬ MeetsRefusal (.foreignKeyViolation, "connections_config_id_fkey") faults
              (Bootstrap.updateSteps marshals key id channels connections t.db) t ∧
          (GoIn faults (Bootstrap.updateSteps marshals key id channels connections t.db) t →
            faults ((Bootstrap.updateSteps marshals key id channels connections t.db).length + 1)
                = false ∧
              ¬ Bootstrap.Swept key id channels connections t.db) :=
  ⟨fun _ batch table => writer_keeps_iff batch table faults,
    fun marshals ths d => things_keeps_iff marshals ths d faults,
    fun marshals cfg connections t => config_save_keeps_iff marshals cfg connections t faults,
    fun marshals key id channels connections t =>
      updateConnections_keeps_iff marshals key id channels connections t faults⟩

/-- A message whose channel is no UUID. -/
def noChannel : Message Nat where
  channel := ['x']
  topic := []
  subtopic := []
  publisher := []
  devname := []
  protocol := []
  name := []
  unit := []
  time := 0
  updateTime := 0
  value := some 1
  stringValue := none
  dataValue := none
  boolValue := none
  sum := none

/-- A message whose channel is no UUID; a thing whose metadata is not
marshalled; a commit that fails; a connection of a config that is not there. -/
theorem discipline_broken :
    ¬ Keeps (Writer.Stored [(noChannel, some (UUID.fill 1))])
      (Writer.save [(noChannel, some (UUID.fill 1))]) [] (fun _ => false) ∧
    ¬ Keeps (Things.Stored [{ metadata := some [("t", .null)] }])
      (Things.save (fun _ => false) [{ metadata := some [("t", .null)] }]) .empty (fun _ => false) ∧
    ¬ Keeps (fun _ => Bootstrap.SaveStored {} []) (Bootstrap.save (fun _ => true) {} [])
      ⟨⟨[], [], []⟩, []⟩ (fun n => n = 3) ∧
    ¬ Keeps (fun _ => Bootstrap.UpdateStored "o" "t" [⟨"c", "", none⟩] ["c"])
      (Bootstrap.updateConnections (fun _ => true) "o" "t" [⟨"c", "", none⟩] ["c"])
      ⟨⟨[], [], []⟩, []⟩ (fun _ => false) := by
  refine ⟨fun h => ?_, fun h => ?_, fun h => ?_, fun h => ?_⟩
  · exact absurd h.ended (by decide +kernel)
  · exact absurd h.ended (by decide +kernel)
  · exact absurd (h.committed rfl).1 (by decide +kernel)
  · exact absurd h.ended (by decide +kernel)

end Methods

end Mainflux.Transactions
