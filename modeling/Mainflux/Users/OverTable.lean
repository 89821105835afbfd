/-
  Mainflux.Users.OverTable
  ────────────────────────
  **THE SERVICE OVER THE TABLE OF ACCOUNTS IS ONE OF THE PROGRAMS.**

  `Users.Service` has the service over the rows of `users` and the world of authn, with
  errors that are lists of messages.  Here that world is what is outside (`outside`), and a
  list of messages is the error with these layers (`chain`): the programs of `Failures` run
  there do what the functions of the service do, and fail with what these fail with.

    • `register_run`, `login_run`, `userInfo_run`, `updateUser_run`, `resetPassword_run`,
      `changePassword_run` — the functions of the service, but for the mail;
    • `refusal_eq` — the validators.
-/
import Mainflux.Users.Failures

namespace Mainflux.Users.Failures

open Mainflux.Lib
open Mainflux.Errors (GoError)

/-! ## §1. What is outside. -/

/-- The texts of the errors of the driver, of gRPC and of bcrypt. -/
structure Texts where
  pq : PqError → String
  grpc : Authn.Status → String
  hash : String
  mismatch : String
  send : String

section Accounts

variable (T : Texts) (E : Env) (now : Nat)

/-- The text of a message. -/
def text : Msg → String
  | .malformedEntity => errMalformedEntity.msg
  | .unauthorizedAccess => errUnauthorizedAccess.msg
  | .conflict => errConflict.msg
  | .notFound => errNotFound.msg
  | .userNotFound => errUserNotFound.msg
  | .missingResetToken => errMissingResetToken.msg
  | .generatingResetToken => errGeneratingResetToken.msg
  | .saveUserDB => errSaveUserDB.msg
  | .updateUserDB => errUpdateUserDB.msg
  | .updatePasswordDB => errUpdatePasswordDB.msg
  | .hashPassword => errHashPassword.msg
  | .comparePassword => errComparePassword.msg
  | .noRows => "sql: no rows in result set"
  | .sendMail => errSendMail.msg
  | .pq e => T.pq e
  | .grpc s => T.grpc s

/-- The error that the messages stand for; those of the hasher and of the mail server are
left out there. -/
def chain : Users.Error → Err
  | [] => .atom ""
  | [.hashPassword] => wrapping errHashPassword (.other T.hash)
  | [.comparePassword] => wrapping errComparePassword (.other T.mismatch)
  | [.sendMail] => wrapping errSendMail (.other T.send)
  | [m] => .atom (text T m)
  | m :: ms => .layer (text T m) (chain ms)

/-- A step of the service, with its error as one of the package. -/
def told {α : Type} (p : World × Except Users.Error α) : World × Except Err α :=
  (p.1, p.2.mapError (chain T))

/-- What the database makes of a statement. -/
def execOn (w : World) : Statement → World × Option DbError
  | .save user =>
      match insertUser user w.users with
      | .error .uniqueViolation => (w, some (.unique (T.pq .uniqueViolation)))
      | .error e => (w, some (.other (.other (T.pq e))))
      | .ok users => ({ w with users := users }, none)
  -- `SET (..) VALUES (..)` is no SQL
  | .update _ => (w, some (.other (.other "pq: syntax error at or near \"VALUES\"")))
  | .updateUser user => ({ w with users := Users.updateMetadata user w.users }, none)
  | .updatePassword email password =>
      match Users.updatePassword email password w.users with
      | .error _ => (w, some (.other (.other (T.pq .stringDataRightTruncation))))
      | .ok users => ({ w with users := users }, none)

/-- The database, the authn service and the hasher as `World` has them. -/
def outside : Handler Outside World
  | .decode _, w => (w, .error "EOF")
  | .generateFromPassword pwd, w =>
      ({ w with salts := w.salts + 1 },
        match E.hash w.salts pwd with
        | none => .error (.other T.hash)
        | some h => .ok h)
  | .compareHashAndPassword hashed plain, w =>
      (w, if E.compare plain hashed then none else some (.other T.mismatch))
  | .namedExec q, w => execOn T w q
  | .queryRow email, w =>
      (w, match w.users.find? fun r => r.email = email with
        | none => .error .noRows
        | some r => .ok r)
  | .issue issuer keyType, w =>
      match Authn.grpcIssue E.authn now issuer keyType w.authn with
      | (a, .error s) => ({ w with authn := a }, .error (.other (T.grpc s)))
      | (a, .ok token) => ({ w with authn := a }, .ok token)
  | .identify token, w =>
      match Authn.grpcIdentify E.authn now token w.authn with
      | (a, .error s) => ({ w with authn := a }, .error (.other (T.grpc s)))
      | (a, .ok email) => ({ w with authn := a }, .ok email)
  | .execute tmpl, w => (w, .ok tmpl.content)
  | .sendMail _ _ _, w => (w, none)

variable (w : World)

theorem run_ask {σ α : Type} {H : Handler Outside σ} {c : Ask} {s s' : σ} {r : c.Res}
    (h : H c s = (s', r)) (k : c.Res → Prog Outside α) :
    (ask c >>= k).run H s = (k r).run H s' := by
  show (k (H c s).2).run H (H c s).1 = _
  rw [h]

theorem hash_run (pwd : String) :
    (hash pwd).run (outside T E now) w = told T (hashPassword E pwd w) := by
  unfold hashPassword
  cases h : E.hash w.salts pwd with
  | none =>
      have hanswer : outside T E now (.generateFromPassword pwd) w
          = ({ w with salts := w.salts + 1 }, .error (.other T.hash)) := by
        simp only [outside, h]
      exact (run_ask hanswer _).trans rfl
  | some x =>
      have hanswer : outside T E now (.generateFromPassword pwd) w
          = ({ w with salts := w.salts + 1 }, .ok x) := by
        simp only [outside, h]
      exact (run_ask hanswer _).trans rfl

theorem identify_run (token : String) :
    (identify token).run (outside T E now) w = told T (Users.identify E now token w) := by
  unfold Users.identify
  rcases h : Authn.grpcIdentify E.authn now token w.authn with ⟨a, r⟩
  cases r with
  | error s =>
      have hanswer : outside T E now (.identify token) w
          = ({ w with authn := a }, .error (.other (T.grpc s))) := by
        simp only [outside, h]
      exact (run_ask hanswer _).trans rfl
  | ok email =>
      have hanswer : outside T E now (.identify token) w
          = ({ w with authn := a }, .ok email) := by
        simp only [outside, h]
      exact (run_ask hanswer _).trans rfl

theorem issue_run (email : String) (keyType : Authn.KeyType) :
    (issue email keyType).run (outside T E now) w
      = told T (Users.issue E now email keyType w) := by
  unfold Users.issue
  rcases h : Authn.grpcIssue E.authn now email keyType w.authn with ⟨a, r⟩
  cases r with
  | error s =>
      have hanswer : outside T E now (.issue email keyType) w
          = ({ w with authn := a }, .error (.other (T.grpc s))) := by
        simp only [outside, h]
      exact (run_ask hanswer _).trans rfl
  | ok token =>
      have hanswer : outside T E now (.issue email keyType) w
          = ({ w with authn := a }, .ok token) := by
        simp only [outside, h]
      exact (run_ask hanswer _).trans rfl

theorem retrieveByID_run (email : String) :
    (retrieveByID email).run (outside T E now) w
      = told T (w, Users.retrieveByID email w.users) := by
  unfold Users.retrieveByID
  cases h : w.users.find? fun r => r.email = email with
  | none =>
      have hanswer : outside T E now (.queryRow email) w = (w, .error .noRows) := by
        simp only [outside, h]
      exact (run_ask hanswer _).trans rfl
  | some r =>
      have hanswer : outside T E now (.queryRow email) w = (w, .ok r) := by
        simp only [outside, h]
      exact (run_ask hanswer _).trans rfl

theorem exec_run {q : Statement} {r : Option DbError} {w' : World} (h : execOn T w q = (w', r)) :
    (exec q).run (outside T E now) w
      = (w', match r with
        | some err => .error (wrapping q.err err.named)
        | none => .ok ()) := by
  have hanswer : outside T E now (.namedExec q) w = (w', r) := h
  refine (run_ask hanswer _).trans ?_
  cases r with
  | none => rfl
  | some err => rfl

theorem save_run (user : User) :
    (save user).run (outside T E now) w
      = told T (match Users.save user w.users with
        | .error e => (w, .error e)
        | .ok users => ({ w with users := users }, .ok ())) := by
  unfold Users.save
  cases h : insertUser user w.users with
  | ok users =>
      have hexec : execOn T w (.save user) = ({ w with users := users }, none) := by
        simp only [execOn, h]
      exact exec_run T E now w hexec
  | error e =>
      by_cases hunique : e = .uniqueViolation
      · subst hunique
        have hexec : execOn T w (.save user) = (w, some (.unique (T.pq .uniqueViolation))) := by
          simp only [execOn, h]
        exact exec_run T E now w hexec
      · have hexec : execOn T w (.save user) = (w, some (.other (.other (T.pq e)))) := by
          simp only [execOn, h]
        refine (exec_run T E now w hexec).trans ?_
        cases e with
        | uniqueViolation => exact absurd rfl hunique
        | _ => rfl

theorem updatePassword_run (email password : String) :
    (updatePassword email password).run (outside T E now) w
      = told T (match Users.updatePassword email password w.users with
        | .error e => (w, .error e)
        | .ok users => ({ w with users := users }, .ok ())) := by
  cases h : Users.updatePassword email password w.users with
  | ok users =>
      have hexec : execOn T w (.updatePassword email password)
          = ({ w with users := users }, none) := by
        simp only [execOn, h]
      exact exec_run T E now w hexec
  | error e =>
      have hexec : execOn T w (.updatePassword email password)
          = (w, some (.other (.other (T.pq .stringDataRightTruncation)))) := by
        simp only [execOn, h]
      -- a hash that is too long is the only error there
      unfold Users.updatePassword at h
      split_ifs at h
      cases h
      exact exec_run T E now w hexec

theorem compare_run (plain hashed : String) :
    (compare plain hashed).run (outside T E now) w
      = (w, if E.compare plain hashed then .ok ()
          else .error (wrapping errComparePassword (.other T.mismatch))) := by
  by_cases h : E.compare plain hashed = true
  · have hanswer : outside T E now (.compareHashAndPassword hashed plain) w = (w, none) :=
      congrArg (Prod.mk w) (if_pos h)
    rw [if_pos h]
    exact (run_ask hanswer _).trans rfl
  · have hanswer : outside T E now (.compareHashAndPassword hashed plain) w
        = (w, some (.other T.mismatch)) := congrArg (Prod.mk w) (if_neg h)
    rw [if_neg h]
    exact (run_ask hanswer _).trans rfl

/-! ### The service. -/

variable {T E now w}

/-- Another message in front is another layer. -/
theorem chain_cons {m : Msg} {e : Users.Error} (h : e ≠ []) :
    chain T (m :: e) = .layer (text T m) (chain T e) := by
  cases e with
  | nil => exact absurd rfl h
  | cons m' e => cases m <;> rfl

/-- A step that wraps what it was told: the programs wrap it too. -/
theorem told_wrapped {α : Type} {m : Msg} {wrapper : Err} {e : Users.Error} {w' : World}
    (hm : wrapper.msg = text T m) (h : e ≠ []) :
    (w', Except.error (wrapping wrapper (.ours (chain T e)))) =
      told T ((w', .error (m :: e)) : World × Except Users.Error α) := by
  show _ = (w', Except.error (chain T (m :: e)))
  rw [chain_cons h, wrapping, hm]
  rfl

theorem hashPassword_error {pwd : String} {w' : World} {e : Users.Error}
    (h : hashPassword E pwd w = (w', .error e)) : e ≠ [] := by
  unfold hashPassword at h
  split at h
  · cases h
    exact List.cons_ne_nil _ _
  · cases h

theorem identify_error {token : String} {w' : World} {e : Users.Error}
    (h : Users.identify E now token w = (w', .error e)) : e ≠ [] := by
  unfold Users.identify at h
  split at h
  · cases h
    exact List.cons_ne_nil _ _
  · cases h

theorem retrieveByID_error {email : String} {users : List User} {e : Users.Error}
    (h : Users.retrieveByID email users = .error e) : e ≠ [] := by
  unfold Users.retrieveByID at h
  split at h
  · cases h
    exact List.cons_ne_nil _ _
  · cases h

/-- What comes after a step of the service, told by that step. -/
theorem run_next {α β : Type} {p : Prog Outside (Except Err α)}
    {f : Except Err α → Prog Outside (Except Err β)} {q : World × Except Users.Error α}
    {w' : World} {r : Except Users.Error α} (hp : p.run (outside T E now) w = told T q)
    (h : q = (w', r)) :
    (p >>= f).run (outside T E now) w = (f (r.mapError (chain T))).run (outside T E now) w' := by
  rw [Prog.run_bind, hp, h]
  rfl

/-- `Register`. -/
theorem register_run (user : User) :
    (register user).run (outside T E now) w = told T (Users.register E user w) := by
  unfold Users.register
  rcases h : hashPassword E user.password w with ⟨w', r⟩
  refine (run_next (hash_run T E now w user.password) h).trans ?_
  cases r with
  | error e => exact told_wrapped rfl (hashPassword_error h)
  | ok hash => exact save_run T E now w' _

/-- `Login`. -/
theorem login_run (user : User) :
    (login user).run (outside T E now) w = told T (Users.login E now user w) := by
  unfold Users.login
  refine (run_next (retrieveByID_run T E now w user.email) rfl).trans ?_
  cases h : Users.retrieveByID user.email w.users with
  | error e => exact told_wrapped rfl (retrieveByID_error h)
  | ok dbUser =>
      show ((compare user.password dbUser.password >>= _).run (outside T E now) w) = _
      rw [Prog.run_bind, compare_run]
      dsimp only
      by_cases hcompare : E.compare user.password dbUser.password = true
      · rw [if_pos hcompare, if_pos hcompare]
        exact issue_run T E now w dbUser.email Authn.KeyType.userKey
      · rw [if_neg hcompare, if_neg hcompare]
        rfl

/-- `UserInfo`. -/
theorem userInfo_run (token : String) :
    (userInfo token).run (outside T E now) w = told T (Users.userInfo E now token w) := by
  unfold Users.userInfo
  rcases h : Users.identify E now token w with ⟨w', r⟩
  refine (run_next (identify_run T E now w token) h).trans ?_
  cases r with
  | error e => rfl
  | ok id =>
      refine (run_next (retrieveByID_run T E now w' id) rfl).trans ?_
      dsimp only
      cases hretrieve : Users.retrieveByID id w'.users with
      | error e => exact told_wrapped rfl (retrieveByID_error hretrieve)
      | ok dbUser => rfl

/-- `UpdateUser`. -/
theorem updateUser_run (token : String) (metadata : JsonObject) :
    (updateUser token metadata).run (outside T E now) w
      = told T (Users.updateUser E now token metadata w) := by
  unfold Users.updateUser
  rcases h : Users.identify E now token w with ⟨w', r⟩
  refine (run_next (identify_run T E now w token) h).trans ?_
  cases r with
  | error e => exact told_wrapped rfl (identify_error h)
  | ok email => exact exec_run T E now w' rfl

theorem setPassword_run (email password : String) :
    (setPassword email password).run (outside T E now) w
      = told T (Users.setPassword E email password w) := by
  unfold Users.setPassword
  refine (run_next (retrieveByID_run T E now w email) rfl).trans ?_
  cases hretrieve : Users.retrieveByID email w.users with
  | error e => rfl
  | ok u =>
      show Prog.run (outside T E now) (if u.email = "" then _ else _) w = _
      dsimp only
      by_cases hemail : u.email = ""
      · rw [if_pos hemail, if_pos hemail]
        rfl
      · rw [if_neg hemail, if_neg hemail]
        rcases h : hashPassword E password w with ⟨w', r⟩
        refine (run_next (hash_run T E now w password) h).trans ?_
        cases r with
        | error e => rfl
        | ok hash => exact updatePassword_run T E now w' email hash

/-- `ResetPassword`. -/
theorem resetPassword_run (token password : String) :
    (resetPassword token password).run (outside T E now) w
      = told T (Users.resetPassword E now token password w) := by
  unfold Users.resetPassword
  rcases h : Users.identify E now token w with ⟨w', r⟩
  refine (run_next (identify_run T E now w token) h).trans ?_
  cases r with
  | error e => exact told_wrapped rfl (identify_error h)
  | ok email => exact setPassword_run email password

/-- `ChangePassword`. -/
theorem changePassword_run (token password oldPassword : String) :
    (changePassword token password oldPassword).run (outside T E now) w
      = told T (Users.changePassword E now token password oldPassword w) := by
  unfold Users.changePassword
  rcases h : Users.identify E now token w with ⟨w', r⟩
  refine (run_next (identify_run T E now w token) h).trans ?_
  cases r with
  | error e => exact told_wrapped rfl (identify_error h)
  | ok email =>
      dsimp only
      rcases hlogin : Users.login E now { email := email, password := oldPassword } w' with
        ⟨w2, r⟩
      refine (run_next (login_run { email := email, password := oldPassword }) hlogin).trans ?_
      cases r with
      | error e => rfl
      | ok token => exact setPassword_run email password

/-! ### The validators. -/

/-- The refusal of a call. -/
def refusal : Call → Option Err
  | .registration user => validateUser user
  | .login user => validateUser user
  | .userInfo token => validateViewUserInfo token
  | .updateUser token metadata => UpdateUserReq.validate ⟨token, metadata⟩
  | .passwordResetRequest email host => PasswResetReq.validate ⟨email, host⟩
  | .passwordReset token password confPass => ResetTokenReq.validate ⟨token, password, confPass⟩
  | .passwordChange token password oldPassword =>
      PasswChangeReq.validate ⟨token, password, oldPassword⟩
  | .authn _ => none

theorem refusal_eq (call : Call) :
    refusal call = match call.validate with
      | .error e => some (chain T e)
      | .ok () => none := by
  cases call with
  | registration user =>
      unfold refusal validateUser Call.validate User.validate
      dsimp only
      split_ifs <;> rfl
  | login user =>
      unfold refusal validateUser Call.validate User.validate
      dsimp only
      split_ifs <;> rfl
  | userInfo token =>
      unfold refusal validateViewUserInfo Call.validate
      dsimp only
      split_ifs <;> rfl
  | updateUser token metadata =>
      unfold refusal UpdateUserReq.validate Call.validate
      dsimp only
      split_ifs <;> rfl
  | passwordResetRequest email host =>
      unfold refusal PasswResetReq.validate Call.validate
      dsimp only
      split_ifs <;> rfl
  | passwordReset token password confPass =>
      unfold refusal ResetTokenReq.validate Call.validate
      dsimp only
      split_ifs <;> rfl
  | passwordChange token password oldPassword =>
      unfold refusal PasswChangeReq.validate Call.validate
      dsimp only
      split_ifs <;> rfl
  | authn call => rfl

end Accounts

end Mainflux.Users.Failures
