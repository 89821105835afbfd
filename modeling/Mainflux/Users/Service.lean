/-
  Mainflux.Users.Service
  ──────────────────────
  **THE USERS SERVICE ON TOP OF THE AUTHN SERVICE.**

  Accounts live in the `users` table; tokens come from the authn service over
  gRPC, which is taken to be transparent.  The hasher and the mail server are
  parameters: a salted hash, its comparison, and whether a mail is delivered.

  Accounts are only made by the registration endpoint, so in every reachable
  state a registered address has passed `isEmail` (`validEmails_run`).
-/
import Mathlib.Data.List.TakeWhile
import Mainflux.Authn.Api
import Mainflux.Lib.Run

namespace Mainflux.Users

open Mainflux.Lib

/-! ## §1. E-mail addresses. -/

/-- Length in bytes. -/
def bytes (cs : List Char) : Nat := (cs.map Char.utf8Size).sum

/-- Cut at the last occurrence of `c`. -/
def splitLast (c : Char) (cs : List Char) : Option (List Char × List Char) :=
  match cs.reverse.dropWhile (· ≠ c) with
  | [] => none
  | _ :: front => some (front.reverse, (cs.reverse.takeWhile (· ≠ c)).reverse)

/-- `userDotRegexp`: a dot at either end, or two in a row. -/
def dotMatch (user : List Char) : Prop :=
  user.head? = some '.' ∨ user.getLast? = some '.' ∨ ['.', '.'] <:+: user

instance (user : List Char) : Decidable (dotMatch user) := inferInstanceAs (Decidable (_ ∨ _))

/-- `userRegexp`. -/
def userMatch (user : List Char) : Prop :=
  user ≠ [] ∧ user.all fun c => c.isAlphanum || "!#$%&'*+/=?^_\x60\x7b|\x7d~.-".toList.contains c

instance (user : List Char) : Decidable (userMatch user) := inferInstanceAs (Decidable (_ ∧ _))

/-- `hostRegexp`: no blanks, and a dot with something on either side. -/
def hostMatch (host : List Char) : Prop :=
  host.all (fun c => c ∉ [' ', '\t', '\n', '\x0c', '\r']) ∧ '.' ∈ host.tail.dropLast

instance (host : List Char) : Decidable (hostMatch host) := inferInstanceAs (Decidable (_ ∧ _))

/-- `isEmail`. -/
def isEmail (email : String) : Bool :=
  if bytes email.toList < 6 ∨ 254 < bytes email.toList then false
  else
    match splitLast '@' email.toList with
    | none => false
    | some (user, host) =>
        if user = [] ∨ bytes host < 2 then false
        else if 64 < bytes user then false
        else if dotMatch user ∨ ¬ userMatch user ∨ ¬ hostMatch host then false
        else true

theorem at_mem_of_isEmail {email : String} (h : isEmail email = true) : '@' ∈ email.toList := by
  have hsplit : splitLast '@' email.toList ≠ none := by
    intro hnone
    unfold isEmail at h
    rw [hnone] at h
    split at h <;> cases h
  by_contra hmem
  refine hsplit ?_
  have hall : ∀ c ∈ email.toList.reverse, decide (c ≠ '@') = true := by
    intro c hc
    refine decide_eq_true fun heq => hmem ?_
    rw [← heq]
    exact List.mem_reverse.mp hc
  rw [splitLast, List.dropWhile_eq_nil_iff.mpr hall]

/-- The address of the tests. -/
example : isEmail "user@example.com" = true ∧ isEmail "userexample.com" = false := by decide +kernel

/-! ## §2. Accounts and errors. -/

/-- The messages that errors are made of. -/
inductive Msg
  | malformedEntity
  | unauthorizedAccess
  | conflict
  | notFound
  | userNotFound
  | missingResetToken
  | generatingResetToken
  | saveUserDB
  | updateUserDB
  | updatePasswordDB
  | hashPassword
  | comparePassword
  | noRows
  | sendMail
  | pq (e : PqError)
  | grpc (s : Authn.Status)
  deriving Repr, DecidableEq

/-- An error and what it wraps, outermost first. -/
abbrev Error := List Msg

structure User where
  email : String
  password : String := ""
  metadata : JsonObject := []
  deriving DecidableEq

/-- `User.Validate`. -/
def User.validate (u : User) : Except Error Unit :=
  if u.email = "" ∨ u.password = "" then .error [.malformedEntity]
  else if isEmail u.email = false then .error [.malformedEntity]
  else .ok ()

/-- `char(60)` is filled up with blanks. -/
def blankPad (s : String) : String := s ++ String.ofList (List.replicate (60 - s.length) ' ')

/-! ## §3. The `users` table. -/

/-- What the database makes of the statement of `Save`; rows are users with the hash as
their password. -/
def insertUser (user : User) (users : List User) : Except PqError (List User) :=
  if ¬ fitsVarchar 254 user.email ∨ ¬ fitsVarchar 60 user.password then
    .error .stringDataRightTruncation
  else if ∃ r ∈ users, r.email = user.email then .error .uniqueViolation
  else .ok (users ++ [{ user with password := blankPad user.password }])

/-- `userRepository.Save`. -/
def save (user : User) (users : List User) : Except Error (List User) :=
  match insertUser user users with
  -- `NamedExecContext` of the package wraps this one
  | .error .uniqueViolation => .error [.saveUserDB, .conflict, .pq .uniqueViolation]
  | .error e => .error [.saveUserDB, .pq e]
  | .ok users => .ok users

/-- `userRepository.UpdateUser`. -/
def updateMetadata (user : User) (users : List User) : List User :=
  updateWhere (fun r => r.email = user.email) (fun r => { r with metadata := user.metadata }) users

/-- `userRepository.RetrieveByID`. -/
def retrieveByID (email : String) (users : List User) : Except Error User :=
  match users.find? fun r => r.email = email with
  | none => .error [.notFound, .noRows]
  | some r => .ok { r with email := email }

/-- `userRepository.UpdatePassword`. -/
def updatePassword (email password : String) (users : List User) : Except Error (List User) :=
  if ¬ fitsVarchar 60 password then .error [.updatePasswordDB, .pq .stringDataRightTruncation]
  else
    .ok (updateWhere (fun r => r.email = email)
      (fun r => { r with password := blankPad password }) users)

/-! ## §4. The service. -/

/-- The authn service, the hasher (a fresh salt for every hash) and the mail
server. -/
structure Env where
  authn : Authn.Env
  hash : Nat → String → Option String
  compare : String → String → Bool
  send : List String → String → String → Bool

/-- A delivered password-reset mail. -/
structure Mail where
  recipients : List String
  host : String
  token : String
  deriving DecidableEq

structure World where
  users : List User
  authn : Authn.World
  salts : Nat
  mails : List Mail
  deriving DecidableEq

def World.init : World := ⟨[], .init, 0, []⟩

variable (E : Env) (now : Nat)

/-- `usersService.identify`. -/
def identify (token : String) (w : World) : World × Except Error String :=
  match Authn.grpcIdentify E.authn now token w.authn with
  | (a, .error s) => ({ w with authn := a }, .error [.unauthorizedAccess, .grpc s])
  | (a, .ok email) => ({ w with authn := a }, .ok email)

/-- `usersService.issue`. -/
def issue (email : String) (keyType : Authn.KeyType) (w : World) : World × Except Error String :=
  match Authn.grpcIssue E.authn now email keyType w.authn with
  | (a, .error s) => ({ w with authn := a }, .error [.userNotFound, .grpc s])
  | (a, .ok token) => ({ w with authn := a }, .ok token)

/-- `hasher.Hash`. -/
def hashPassword (pwd : String) (w : World) : World × Except Error String :=
  match E.hash w.salts pwd with
  | none => ({ w with salts := w.salts + 1 }, .error [.hashPassword])
  | some h => ({ w with salts := w.salts + 1 }, .ok h)

/-- `Register`. -/
def register (user : User) (w : World) : World × Except Error Unit :=
  match hashPassword E user.password w with
  | (w, .error e) => (w, .error (.malformedEntity :: e))
  | (w, .ok hash) =>
      match save { user with password := hash } w.users with
      | .error e => (w, .error e)
      | .ok users => ({ w with users := users }, .ok ())

/-- `Login`. -/
def login (user : User) (w : World) : World × Except Error String :=
  match retrieveByID user.email w.users with
  | .error e => (w, .error (.unauthorizedAccess :: e))
  | .ok dbUser =>
      if E.compare user.password dbUser.password then
        issue E now dbUser.email Authn.KeyType.userKey w
      else (w, .error [.unauthorizedAccess, .comparePassword])

/-- `UserInfo`. -/
def userInfo (token : String) (w : World) : World × Except Error User :=
  match identify E now token w with
  | (w, .error e) => (w, .error e)
  | (w, .ok id) =>
      match retrieveByID id w.users with
      | .error e => (w, .error (.unauthorizedAccess :: e))
      | .ok dbUser => (w, .ok { email := id, metadata := dbUser.metadata })

/-- `UpdateUser`. -/
def updateUser (token : String) (metadata : JsonObject) (w : World) : World × Except Error Unit :=
  match identify E now token w with
  | (w, .error e) => (w, .error (.unauthorizedAccess :: e))
  | (w, .ok email) =>
      ({ w with users := updateMetadata { email := email, metadata := metadata } w.users }, .ok ())

/-- `SendPasswordReset`. -/
def sendPasswordReset (host email token : String) (w : World) : World × Except Error Unit :=
  if E.send [email] host token then ({ w with mails := w.mails ++ [⟨[email], host, token⟩] }, .ok ())
  else (w, .error [.sendMail])

/-- `GenerateResetToken`. -/
def generateResetToken (email host : String) (w : World) : World × Except Error Unit :=
  match retrieveByID email w.users with
  | .error _ => (w, .error [.userNotFound])
  | .ok user =>
      if user.email = "" then (w, .error [.userNotFound])
      else
        match issue E now email Authn.KeyType.recoveryKey w with
        | (w, .error e) => (w, .error (.generatingResetToken :: e))
        | (w, .ok t) => sendPasswordReset E host email t w

/-- The end of `ResetPassword` and of `ChangePassword`: store a new hash. -/
def setPassword (email password : String) (w : World) : World × Except Error Unit :=
  match retrieveByID email w.users with
  | .error _ => (w, .error [.userNotFound])
  | .ok u =>
      if u.email = "" then (w, .error [.userNotFound])
      else
        match hashPassword E password w with
        | (w, .error e) => (w, .error e)
        | (w, .ok hash) =>
            match updatePassword email hash w.users with
            | .error e => (w, .error e)
            | .ok users => ({ w with users := users }, .ok ())

/-- `ResetPassword`. -/
def resetPassword (resetToken password : String) (w : World) : World × Except Error Unit :=
  match identify E now resetToken w with
  | (w, .error e) => (w, .error (.unauthorizedAccess :: e))
  | (w, .ok email) => setPassword E email password w

/-- `ChangePassword`. -/
def changePassword (authToken password oldPassword : String) (w : World) :
    World × Except Error Unit :=
  match identify E now authToken w with
  | (w, .error e) => (w, .error (.unauthorizedAccess :: e))
  | (w, .ok email) =>
      match login E now { email := email, password := oldPassword } w with
      | (w, .error _) => (w, .error [.unauthorizedAccess])
      | (w, .ok _) => setPassword E email password w

/-! ## §5. The endpoints. -/

inductive Call
  | registration (user : User)
  | login (user : User)
  | userInfo (token : String)
  | updateUser (token : String) (metadata : JsonObject)
  | passwordResetRequest (email host : String)
  | passwordReset (token password confPass : String)
  | passwordChange (token password oldPassword : String)
  | authn (call : Authn.Call)

/-- The requests' `validate`; calls of the authn service are not checked here. -/
def Call.validate : Call → Except Error Unit
  | .registration user => user.validate
  | .login user => user.validate
  | .userInfo token => if token = "" then .error [.unauthorizedAccess] else .ok ()
  | .updateUser token _ => if token = "" then .error [.unauthorizedAccess] else .ok ()
  | .passwordResetRequest email host =>
      if email = "" ∨ host = "" then .error [.malformedEntity] else .ok ()
  | .passwordReset token password confPass =>
      if password = "" ∨ confPass = "" then .error [.malformedEntity]
      else if token = "" then .error [.missingResetToken]
      else if password ≠ confPass then .error [.malformedEntity]
      else .ok ()
  | .passwordChange token password oldPassword =>
      if token = "" then .error [.unauthorizedAccess]
      else if password = "" then .error [.malformedEntity]
      else if oldPassword = "" then .error [.unauthorizedAccess]
      else .ok ()
  | .authn _ => .ok ()

/-- A call and the time the clock shows. -/
structure Request where
  now : Nat
  call : Call

/-- What a validated call does to the world. -/
def perform (w : World) : Call → World
  | .registration user => (register E user w).1
  | .login user => (login E now user w).1
  | .userInfo token => (userInfo E now token w).1
  | .updateUser token metadata => (updateUser E now token metadata w).1
  | .passwordResetRequest email host => (generateResetToken E now email host w).1
  | .passwordReset token password _ => (resetPassword E now token password w).1
  | .passwordChange token password oldPassword =>
      (changePassword E now token password oldPassword w).1
  | .authn call => { w with authn := Authn.next E.authn w.authn ⟨now, call⟩ }

/-- The world after a call: an invalid one does nothing. -/
def next (w : World) (r : Request) : World :=
  match r.call.validate with
  | .error _ => w
  | .ok () => perform E r.now w r.call

/-! ## §6. Registered addresses are addresses. -/

/-- Every registered address has passed `isEmail`. -/
def ValidEmails (users : List User) : Prop := ∀ r ∈ users, isEmail r.email = true

variable (w : World)

theorem identify_users (token : String) : (identify E now token w).1.users = w.users := by
  unfold identify
  split <;> rfl

theorem issue_users (email : String) (keyType : Authn.KeyType) :
    (issue E now email keyType w).1.users = w.users := by
  unfold issue
  split <;> rfl

theorem hashPassword_users (pwd : String) : (hashPassword E pwd w).1.users = w.users := by
  unfold hashPassword
  split <;> rfl

theorem login_users (user : User) : (login E now user w).1.users = w.users := by
  unfold login
  split
  · rfl
  · split
    · exact issue_users E now w _ _
    · rfl

variable {E now w}

/-- A step that leaves the users alone, taken apart by its answer. -/
theorem answer_cases {α : Type} {p : World × Except Error α} {users : List User}
    (h : p.1.users = users) :
    (∃ w' e, p = (w', .error e) ∧ w'.users = users) ∨
      ∃ w' a, p = (w', .ok a) ∧ w'.users = users := by
  obtain ⟨w', answer⟩ := p
  cases answer with
  | error e => exact .inl ⟨w', e, rfl, h⟩
  | ok a => exact .inr ⟨w', a, rfl, h⟩

theorem validEmails_updateWhere {users : List User} {p : User → Prop} [DecidablePred p]
    {f : User → User} (hf : ∀ r, (f r).email = r.email) (h : ValidEmails users) :
    ValidEmails (updateWhere p f users) := by
  refine forall_mem_updateWhere h fun r hr => ?_
  rw [hf]
  exact hr

theorem validEmails_setPassword (email password : String) (h : ValidEmails w.users) :
    ValidEmails (setPassword E email password w).1.users := by
  unfold setPassword
  split
  · exact h
  · split
    · exact h
    · obtain ⟨w', e, heq, hu⟩ | ⟨w', hash, heq, hu⟩ :=
        answer_cases (hashPassword_users E w password)
      · simp only [heq]
        rwa [hu]
      · simp only [heq]
        split
        next => rwa [hu]
        next users hup =>
            unfold updatePassword at hup
            split_ifs at hup
            cases hup
            exact validEmails_updateWhere (fun _ => rfl) (hu ▸ h)

theorem validEmails_register {user : User} (hv : isEmail user.email = true)
    (h : ValidEmails w.users) : ValidEmails (register E user w).1.users := by
  unfold register
  obtain ⟨w', e, heq, hu⟩ | ⟨w', hash, heq, hu⟩ :=
    answer_cases (hashPassword_users E w user.password)
  · simp only [heq]
    rwa [hu]
  · simp only [heq]
    split
    next => rwa [hu]
    next users hsave =>
        unfold save at hsave
        split at hsave
        · cases hsave
        · cases hsave
        · next inserted hin =>
            cases hsave
            unfold insertUser at hin
            split_ifs at hin
            cases hin
            exact forall_mem_insert (hu ▸ h) hv

theorem validEmails_generateResetToken (email host : String) (h : ValidEmails w.users) :
    ValidEmails (generateResetToken E now email host w).1.users := by
  unfold generateResetToken
  split
  · exact h
  · split
    · exact h
    · obtain ⟨w', e, heq, hu⟩ | ⟨w', t, heq, hu⟩ :=
        answer_cases (issue_users E now w email Authn.KeyType.recoveryKey)
      · simp only [heq]
        rwa [hu]
      · simp only [heq, sendPasswordReset]
        split <;> rwa [hu]

/-- Only `register` brings in an address, and the request was checked for it. -/
theorem validEmails_perform (call : Call) (hv : call.validate = .ok ()) (h : ValidEmails w.users) :
    ValidEmails (perform E now w call).users := by
  cases call with
  | registration user =>
      refine validEmails_register ?_ h
      simp only [Call.validate, User.validate] at hv
      split_ifs at hv with _ hmail
      simpa using hmail
  | login user =>
      simp only [perform, login_users]
      exact h
  | userInfo token =>
      obtain ⟨w', e, heq, hu⟩ | ⟨w', id, heq, hu⟩ := answer_cases (identify_users E now w token)
      · simp only [perform, userInfo, heq]
        rwa [hu]
      · simp only [perform, userInfo, heq]
        split <;> rwa [hu]
  | updateUser token metadata =>
      obtain ⟨w', e, heq, hu⟩ | ⟨w', email, heq, hu⟩ := answer_cases (identify_users E now w token)
      · simp only [perform, updateUser, heq]
        rwa [hu]
      · simp only [perform, updateUser, heq]
        exact validEmails_updateWhere (fun _ => rfl) (hu ▸ h)
  | passwordResetRequest email host => exact validEmails_generateResetToken email host h
  | passwordReset token password confPass =>
      obtain ⟨w', e, heq, hu⟩ | ⟨w', email, heq, hu⟩ := answer_cases (identify_users E now w token)
      · simp only [perform, resetPassword, heq]
        rwa [hu]
      · simp only [perform, resetPassword, heq]
        exact validEmails_setPassword email password (hu ▸ h)
  | passwordChange token password oldPassword =>
      obtain ⟨w', e, heq, hu⟩ | ⟨w', email, heq, hu⟩ := answer_cases (identify_users E now w token)
      · simp only [perform, changePassword, heq]
        rwa [hu]
      · -- the old password is checked by a login, which signs a token
        obtain ⟨w2, e, heq2, hu2⟩ | ⟨w2, t, heq2, hu2⟩ := answer_cases
          (login_users E now w' { email := email, password := oldPassword })
        · simp only [perform, changePassword, heq, heq2]
          rwa [hu2, hu]
        · simp only [perform, changePassword, heq, heq2]
          exact validEmails_setPassword email password (by rw [hu2, hu]; exact h)
  | authn call => exact h

theorem validEmails_next (r : Request) (h : ValidEmails w.users) :
    ValidEmails (next E w r).users := by
  unfold next
  split
  next => exact h
  next hv => exact validEmails_perform r.call hv h

/-- **Every registered address of a reachable state is an address.** -/
theorem validEmails_run (E : Env) (reqs : List Request) :
    ValidEmails (run (next E) .init reqs).users :=
  run_inv (I := fun w : World => ValidEmails w.users) (C := fun _ _ => True)
    (fun _ r h _ => validEmails_next r h) (fun _ hr => absurd hr List.not_mem_nil)
    (along_of_forall (fun _ _ => trivial) _ _)

end Mainflux.Users
