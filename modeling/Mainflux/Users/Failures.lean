/-
  Mainflux.Users.Failures
  ───────────────────────
  **WHAT THE USERS SERVICE FAILS WITH, AND THE STATUS OF THE RESPONSE.**

  The functions of the service as programs over what is outside of it: the JSON decoder,
  bcrypt, the database, the authn service and the mail server, each of which may answer with
  any error whatever.  `Failure` lists what is returned, one line for each `return` of an
  error in the source, with the error underneath.

    • `isFailure_of_returned`, `returned_failure` — that is what decoders, validators,
      repository and service can return;
    • `reported_iff` — which failures are answered with 400 or above;
    • `serve_reported` — the same of what a route answers with.
-/
import Mathlib.Data.List.Infix
import Mainflux.Errors
import Mainflux.Lib.Prog
import Mainflux.Users.Service

namespace Mainflux.Users.Failures

open Mainflux.Lib
open Mainflux.Errors (GoError cast encodeError)

/-! ## §1. Errors. -/

/-- The error of the package. -/
abbrev Err := Errors.Error

def errConflict : Err := Errors.new "email already taken"
def errMalformedEntity : Err := Errors.new "malformed entity specification"
def errUnauthorizedAccess : Err := Errors.new "missing or invalid credentials provided"
def errNotFound : Err := Errors.new "non-existent entity"
def errUserNotFound : Err := Errors.new "non-existent user"
def errMissingResetToken : Err := Errors.new "error missing reset token"
def errGeneratingResetToken : Err := Errors.new "error missing reset token"
def errUnsupportedContentType : Err := Errors.new "unsupported content type"
def errInvalidToken : Err := Errors.new "invalid token"
def errNoTokenSupplied : Err := Errors.new "no token supplied"
def errFailedDecode : Err := Errors.new "failed to decode request body"
def errSaveUserDB : Err := Errors.new "Save user to DB failed"
def errUpdateDB : Err := Errors.new "Update user email to DB failed"
def errUpdateUserDB : Err := Errors.new "Update user metadata to DB failed"
def errRetrieveDB : Err := Errors.new "Retreiving from DB failed"
def errUpdatePasswordDB : Err := Errors.new "Update password to DB failed"
def errHashPassword : Err := Errors.new "Generate hash from password failed"
def errComparePassword : Err := Errors.new "Compare hash and password failed"
def errMissingEmailTemplate : Err := Errors.new "Missing e-mail template file"
def errExecTemplate : Err := Errors.new "Execute e-mail template failed"
def errSendMail : Err := Errors.new "Sending e-mail failed"

/-- `Wrap` where neither error is nil. -/
def wrapping (wrapper : Err) (err : GoError) : Err := .layer wrapper.msg (cast err)

/-! ## §2. What is outside. -/

/-- `updateUserReq`. -/
structure UpdateUserReq where
  token : String
  metadata : JsonObject
  deriving DecidableEq

/-- `passwResetReq`. -/
structure PasswResetReq where
  email : String
  host : String
  deriving DecidableEq

/-- `resetTokenReq`. -/
structure ResetTokenReq where
  token : String
  password : String
  confPass : String
  deriving DecidableEq

/-- `passwChangeReq`. -/
structure PasswChangeReq where
  token : String
  password : String
  oldPassword : String
  deriving DecidableEq

/-- What a body is decoded into. -/
inductive Body
  | user
  | updateUser
  | passwReset
  | resetToken
  | passwChange
  deriving DecidableEq

def Body.Val : Body → Type
  | .user => User
  | .updateUser => UpdateUserReq
  | .passwReset => PasswResetReq
  | .resetToken => ResetTokenReq
  | .passwChange => PasswChangeReq

/-- The statements of the repository that change the table. -/
inductive Statement
  | save (user : User)
  | update (user : User)
  | updateUser (user : User)
  | updatePassword (email password : String)
  deriving DecidableEq

/-- An error of the database: `sql.ErrNoRows`, a violated key with the text of the driver, or
any other. -/
inductive DbError
  | noRows
  | unique (text : String)
  | other (err : GoError)
  deriving DecidableEq

/-- `emailTemplate`. -/
structure EmailTemplate where
  to' : List String
  from' : String
  subject : String
  header : String
  content : String
  footer : String
  deriving DecidableEq

/-- What is asked of the outside. -/
inductive Ask
  | decode (b : Body)
  | generateFromPassword (pwd : String)
  | compareHashAndPassword (hashed plain : String)
  | namedExec (q : Statement)
  | queryRow (email : String)
  | issue (issuer : String) (keyType : Authn.KeyType)
  | identify (token : String)
  | execute (tmpl : EmailTemplate)
  | sendMail (addr : String) (to' : List String) (msg : String)

/-- The answers.  The errors of the JSON decoder are none of the package. -/
def Ask.Res : Ask → Type
  | .decode b => Except String b.Val
  | .generateFromPassword _ => Except GoError String
  | .compareHashAndPassword _ _ => Option GoError
  | .namedExec _ => Option DbError
  | .queryRow _ => Except DbError User
  | .issue _ _ => Except GoError String
  | .identify _ => Except GoError String
  | .execute _ => Except GoError String
  | .sendMail _ _ _ => Option GoError

abbrev Outside : Signature := ⟨Ask, Ask.Res⟩

def ask (c : Ask) : Prog Outside c.Res := .call c .ret

/-! ## §3. The functions. -/

/-! ### The hasher. -/

/-- `Hash`. -/
def hash (pwd : String) : Prog Outside (Except Err String) := do
  match ← ask (.generateFromPassword pwd) with
  | .error err => return .error (wrapping errHashPassword err)
  | .ok hash => return .ok hash

/-- `Compare`. -/
def compare (plain hashed : String) : Prog Outside (Except Err Unit) := do
  match ← ask (.compareHashAndPassword hashed plain) with
  | some err => return .error (wrapping errComparePassword err)
  | none => return .ok ()

/-! ### The repository. -/

def DbError.go : DbError → GoError
  | .noRows => .other "sql: no rows in result set"
  | .unique text => .other text
  | .other err => err

/-- The error of `NamedExecContext` of the package. -/
def DbError.named : DbError → GoError
  | .unique text => .ours (wrapping errConflict (.other text))
  | err => err.go

/-- `NamedExecContext`. -/
def namedExecContext (q : Statement) : Prog Outside (Option GoError) := do
  return (← ask (.namedExec q)).map DbError.named

/-- What an error of a statement is wrapped in. -/
def Statement.err : Statement → Err
  | .save _ => errSaveUserDB
  | .update _ => errUpdateDB
  | .updateUser _ => errUpdateUserDB
  | .updatePassword _ _ => errUpdatePasswordDB

/-- The common text of the four functions. -/
def exec (q : Statement) : Prog Outside (Except Err Unit) := do
  match ← namedExecContext q with
  | some err => return .error (wrapping q.err err)
  | none => return .ok ()

/-- `userRepository.Save`. -/
def save (user : User) : Prog Outside (Except Err Unit) := exec (.save user)

/-- `userRepository.Update`, which is not in the interface. -/
def update (user : User) : Prog Outside (Except Err Unit) := exec (.update user)

/-- `userRepository.UpdateUser`. -/
def updateMetadata (user : User) : Prog Outside (Except Err Unit) := exec (.updateUser user)

/-- `userRepository.UpdatePassword`. -/
def updatePassword (email password : String) : Prog Outside (Except Err Unit) :=
  exec (.updatePassword email password)

/-- `userRepository.RetrieveByID`. -/
def retrieveByID (email : String) : Prog Outside (Except Err User) := do
  match ← ask (.queryRow email) with
  | .error .noRows => return .error (wrapping errNotFound DbError.noRows.go)
  | .error err => return .error (wrapping errRetrieveDB err.go)
  | .ok user => return .ok { user with email := email }

/-! ### The mail agent. -/

/-- `emailer` with its `Agent`: the parsed template may be missing. -/
structure Agent where
  resetURL : String
  fromName : String
  fromAddress : String
  tmpl : Bool
  deriving DecidableEq

/-- `Send`. -/
def Agent.send (a : Agent) (to' : List String) (from' subject header content footer : String) :
    Prog Outside (Except Err Unit) :=
  if a.tmpl = false then return .error errMissingEmailTemplate
  else do
    let from' := if from' = "" then a.fromName else from'
    match ← ask (.execute ⟨to', from', subject, header, content, footer⟩) with
    | .error err => return .error (wrapping errExecTemplate err)
    | .ok email =>
        match ← ask (.sendMail a.fromAddress to' email) with
        | some err => return .error (wrapping errSendMail err)
        | none => return .ok ()

/-- `emailer.SendPasswordReset`. -/
def Agent.sendPasswordReset (a : Agent) (to' : List String) (host token : String) :
    Prog Outside (Except Err Unit) :=
  a.send to' "" "Password reset" "" (host ++ a.resetURL ++ "?token=" ++ token) ""

/-! ### The service. -/

/-- `usersService.identify`. -/
def identify (token : String) : Prog Outside (Except Err String) := do
  match ← ask (.identify token) with
  | .error err => return .error (wrapping errUnauthorizedAccess err)
  | .ok email => return .ok email

/-- `usersService.issue`. -/
def issue (email : String) (keyType : Authn.KeyType) : Prog Outside (Except Err String) := do
  match ← ask (.issue email keyType) with
  | .error err => return .error (wrapping errUserNotFound err)
  | .ok key => return .ok key

/-- `Register`. -/
def register (user : User) : Prog Outside (Except Err Unit) := do
  match ← hash user.password with
  | .error err => return .error (wrapping errMalformedEntity (.ours err))
  | .ok hash => save { user with password := hash }

/-- `Login`. -/
def login (user : User) : Prog Outside (Except Err String) := do
  match ← retrieveByID user.email with
  | .error err => return .error (wrapping errUnauthorizedAccess (.ours err))
  | .ok dbUser =>
      match ← compare user.password dbUser.password with
      | .error err => return .error (wrapping errUnauthorizedAccess (.ours err))
      | .ok () => issue dbUser.email Authn.KeyType.userKey

/-- `UserInfo`. -/
def userInfo (token : String) : Prog Outside (Except Err User) := do
  match ← identify token with
  | .error err => return .error err
  | .ok id =>
      match ← retrieveByID id with
      | .error err => return .error (wrapping errUnauthorizedAccess (.ours err))
      | .ok dbUser => return .ok { email := id, metadata := dbUser.metadata }

/-- `UpdateUser`. -/
def updateUser (token : String) (metadata : JsonObject) : Prog Outside (Except Err Unit) := do
  match ← identify token with
  | .error err => return .error (wrapping errUnauthorizedAccess (.ours err))
  | .ok email => updateMetadata { email := email, metadata := metadata }

/-- `SendPasswordReset`. -/
def sendPasswordReset (a : Agent) (host email token : String) : Prog Outside (Except Err Unit) :=
  a.sendPasswordReset [email] host token

/-- `GenerateResetToken`. -/
def generateResetToken (a : Agent) (email host : String) : Prog Outside (Except Err Unit) := do
  match ← retrieveByID email with
  | .error _ => return .error errUserNotFound
  | .ok user =>
      if user.email = "" then return .error errUserNotFound
      else
        match ← issue email Authn.KeyType.recoveryKey with
        | .error err => return .error (wrapping errGeneratingResetToken (.ours err))
        | .ok t => sendPasswordReset a host email t

/-- The end of `ResetPassword` and of `ChangePassword`. -/
def setPassword (email password : String) : Prog Outside (Except Err Unit) := do
  match ← retrieveByID email with
  | .error _ => return .error errUserNotFound
  | .ok u =>
      if u.email = "" then return .error errUserNotFound
      else
        match ← hash password with
        -- not wrapped here, as it is in `Register`
        | .error err => return .error err
        | .ok hash => updatePassword email hash

/-- `ResetPassword`. -/
def resetPassword (resetToken password : String) : Prog Outside (Except Err Unit) := do
  match ← identify resetToken with
  | .error err => return .error (wrapping errUnauthorizedAccess (.ours err))
  | .ok email => setPassword email password

/-- `ChangePassword`. -/
def changePassword (authToken password oldPassword : String) :
    Prog Outside (Except Err Unit) := do
  match ← identify authToken with
  | .error err => return .error (wrapping errUnauthorizedAccess (.ours err))
  | .ok email =>
      match ← login { email := email, password := oldPassword } with
      | .error _ => return .error errUnauthorizedAccess
      | .ok _ => setPassword email password

/-! ### The validators: the refusal of a request, if any. -/

/-- `userReq.validate`. -/
def validateUser (user : User) : Option Err :=
  if user.email = "" ∨ user.password = "" then some errMalformedEntity
  else if isEmail user.email = false then some errMalformedEntity
  else none

/-- `viewUserInfoReq.validate`, of the token. -/
def validateViewUserInfo (token : String) : Option Err :=
  if token = "" then some errUnauthorizedAccess else none

def UpdateUserReq.validate (req : UpdateUserReq) : Option Err :=
  if req.token = "" then some errUnauthorizedAccess else none

def PasswResetReq.validate (req : PasswResetReq) : Option Err :=
  if req.email = "" ∨ req.host = "" then some errMalformedEntity else none

def ResetTokenReq.validate (req : ResetTokenReq) : Option Err :=
  if req.password = "" ∨ req.confPass = "" then some errMalformedEntity
  else if req.token = "" then some errMissingResetToken
  else if req.password ≠ req.confPass then some errMalformedEntity
  else none

def PasswChangeReq.validate (req : PasswChangeReq) : Option Err :=
  if req.token = "" then some errUnauthorizedAccess
  else if req.password = "" then some errMalformedEntity
  else if req.oldPassword = "" then some errUnauthorizedAccess
  else none

/-! ### The decoders. -/

/-- The headers that are read. -/
structure Headers where
  contentType : String
  authorization : String
  referer : String
  deriving DecidableEq

/-- `contentType`. -/
def jsonType : String := "application/json"

/-- The common text of four decoders: an error of the JSON decoder is wrapped. -/
def decodeJson (wrapper : Err) (b : Body) (h : Headers) : Prog Outside (Except GoError b.Val) :=
  if ¬ jsonType.toList <:+: h.contentType.toList then
    return .error (.ours errUnsupportedContentType)
  else do
    match ← ask (.decode b) with
    | .error err => return .error (.ours (wrapping wrapper (.other err)))
    | .ok req => return .ok req

def decodeCredentials (h : Headers) : Prog Outside (Except GoError User) :=
  decodeJson errMalformedEntity .user h

/-- It does not fail. -/
def decodeViewInfo (h : Headers) : Prog Outside (Except GoError String) :=
  return .ok h.authorization

/-- The content type is not looked at, and the error is returned as it is. -/
def decodeUpdateUser (h : Headers) : Prog Outside (Except GoError UpdateUserReq) := do
  match ← ask (.decode .updateUser) with
  | .error err => return .error (.other err)
  | .ok (req : UpdateUserReq) => return .ok { req with token := h.authorization }

def decodePasswordResetRequest (h : Headers) : Prog Outside (Except GoError PasswResetReq) := do
  match ← decodeJson errFailedDecode .passwReset h with
  | .error err => return .error err
  | .ok (req : PasswResetReq) => return .ok { req with host := h.referer }

def decodePasswordReset (h : Headers) : Prog Outside (Except GoError ResetTokenReq) :=
  decodeJson errFailedDecode .resetToken h

def decodePasswordChange (h : Headers) : Prog Outside (Except GoError PasswChangeReq) := do
  match ← decodeJson errFailedDecode .passwChange h with
  | .error err => return .error err
  | .ok (req : PasswChangeReq) => return .ok { req with token := h.authorization }

/-- `decodeToken`, of the values of the parameter; no route uses it. -/
def decodeToken (vals : List String) : Except GoError String :=
  match vals with
  | [] => .error (.ours errNoTokenSupplied)
  | [t] => .ok t
  | _ => .error (.ours errInvalidToken)

/-! ### The routes. -/

/-- A server of the kit with its endpoint: decode, validate, act. -/
def handle {ρ α : Type} (decode : Prog Outside (Except GoError ρ)) (validate : ρ → Option Err)
    (act : ρ → Prog Outside (Except Err α)) : Prog Outside (Except GoError Unit) := do
  match ← decode with
  | .error err => return .error err
  | .ok req =>
      match validate req with
      | some err => return .error (.ours err)
      | none =>
          match ← act req with
          | .error err => return .error (.ours err)
          | .ok _ => return .ok ()

inductive Route
  | register
  | userInfo
  | updateUser
  | resetRequest
  | reset
  | change
  | login
  deriving DecidableEq

/-- `MakeHandler`. -/
def serve (a : Agent) (h : Headers) : Route → Prog Outside (Except GoError Unit)
  | .register => handle (decodeCredentials h) validateUser register
  | .userInfo => handle (decodeViewInfo h) validateViewUserInfo userInfo
  | .updateUser =>
      handle (decodeUpdateUser h) UpdateUserReq.validate fun req =>
        updateUser req.token req.metadata
  | .resetRequest =>
      handle (decodePasswordResetRequest h) PasswResetReq.validate fun req =>
        generateResetToken a req.email req.host
  | .reset =>
      handle (decodePasswordReset h) ResetTokenReq.validate fun req =>
        resetPassword req.token req.password
  | .change =>
      handle (decodePasswordChange h) PasswChangeReq.validate fun req =>
        changePassword req.token req.password req.oldPassword
  | .login => handle (decodeCredentials h) validateUser login

/-! ## §4. Failures. -/

/-- What is returned, with what is underneath. -/
inductive Failure
  -- decoders
  | unsupportedContentType
  | undecodedUser (text : String)
  | undecoded (text : String)
  | plain (text : String)
  | noTokenSupplied
  | invalidToken
  -- validators
  | malformed
  | unauthorized
  | missingResetToken
  -- repository
  | statement (q : Statement) (err : DbError)
  | notFound
  | retrieve (err : DbError)
  -- service
  | unhashed (err : GoError)
  | hash (err : GoError)
  | denied (err : GoError)
  | userNotFound
  | login (err : GoError)
  | recovery (err : GoError)
  | missingTemplate
  | template (err : GoError)
  | mail (err : GoError)

def Failure.error : Failure → GoError
  | .unsupportedContentType => .ours errUnsupportedContentType
  | .undecodedUser text => .ours (wrapping errMalformedEntity (.other text))
  | .undecoded text => .ours (wrapping errFailedDecode (.other text))
  | .plain text => .other text
  | .noTokenSupplied => .ours errNoTokenSupplied
  | .invalidToken => .ours errInvalidToken
  | .malformed => .ours errMalformedEntity
  | .unauthorized => .ours errUnauthorizedAccess
  | .missingResetToken => .ours errMissingResetToken
  | .statement q err => .ours (wrapping q.err err.named)
  | .notFound => .ours (wrapping errNotFound DbError.noRows.go)
  | .retrieve err => .ours (wrapping errRetrieveDB err.go)
  | .unhashed err => .ours (wrapping errMalformedEntity (.ours (wrapping errHashPassword err)))
  | .hash err => .ours (wrapping errHashPassword err)
  | .denied err => .ours (wrapping errUnauthorizedAccess err)
  | .userNotFound => .ours errUserNotFound
  | .login err => .ours (wrapping errUserNotFound err)
  | .recovery err =>
      .ours (wrapping errGeneratingResetToken (.ours (wrapping errUserNotFound err)))
  | .missingTemplate => .ours errMissingEmailTemplate
  | .template err => .ours (wrapping errExecTemplate err)
  | .mail err => .ours (wrapping errSendMail err)

/-- The failures that the response tells: all but a missing reset token, a missing template
and the errors of `decodeToken`; and those of the database, the hasher and the mail server only
where the error underneath has a case of its own, as a violated key has. -/
def Failure.Reported : Failure → Prop
  | .noTokenSupplied => False
  | .invalidToken => False
  | .missingResetToken => False
  | .statement _ (.unique _) => True
  | .statement _ err => (cast err.go).Meant
  | .notFound => False
  | .retrieve err => (cast err.go).Meant
  | .hash err => (cast err).Meant
  | .missingTemplate => False
  | .template err => (cast err).Meant
  | .mail err => (cast err).Meant
  | _ => True

section Status

variable {w : Err} {err : GoError}

theorem reported_of_case (h : w.msg ∈ Errors.caseTexts) :
    400 ≤ (encodeError (.ours (wrapping w err))).1 := by
  rw [Errors.encodeError_ours, wrapping, Errors.Error.meant_layer]
  exact .inl h

/-- Where the wrapper has no case, what it wraps decides. -/
theorem reported_wrapping (h : w.msg ∉ Errors.caseTexts) :
    400 ≤ (encodeError (.ours (wrapping w err))).1 ↔ (cast err).Meant := by
  rw [Errors.encodeError_ours, wrapping, Errors.Error.meant_layer]
  exact or_iff_right h

theorem err_not_case (q : Statement) : q.err.msg ∉ Errors.caseTexts := by
  cases q with
  | save user =>
      show errSaveUserDB.msg ∉ Errors.caseTexts
      decide
  | update user =>
      show errUpdateDB.msg ∉ Errors.caseTexts
      decide
  | updateUser user =>
      show errUpdateUserDB.msg ∉ Errors.caseTexts
      decide
  | updatePassword email password =>
      show errUpdatePasswordDB.msg ∉ Errors.caseTexts
      decide

/-- The status of a statement that fails: a violated key has a case, under its wrapper. -/
theorem reported_statement (q : Statement) (err : DbError) :
    400 ≤ (encodeError (Failure.statement q err).error).1 ↔
      (Failure.statement q err).Reported := by
  show 400 ≤ (encodeError (.ours (wrapping q.err err.named))).1 ↔ _
  rw [reported_wrapping (err_not_case q)]
  cases err with
  | noRows => exact Iff.rfl
  | other err => exact Iff.rfl
  | unique text =>
      refine iff_of_true ?_ trivial
      show (wrapping errConflict (.other text)).Meant
      rw [wrapping, Errors.Error.meant_layer]
      exact .inl (by decide)

theorem reported_failure (f : Failure) : 400 ≤ (encodeError f.error).1 ↔ f.Reported := by
  cases f with
  | unsupportedContentType => exact iff_of_true (by decide) trivial
  | undecodedUser text => exact iff_of_true (reported_of_case (by decide)) trivial
  | undecoded text => exact iff_of_true (reported_of_case (by decide)) trivial
  -- an error of another package has a status of its own
  | plain text => exact iff_of_true (by show 400 ≤ 500; omega) trivial
  | noTokenSupplied => exact iff_of_false (by decide) id
  | invalidToken => exact iff_of_false (by decide) id
  | malformed => exact iff_of_true (by decide) trivial
  | unauthorized => exact iff_of_true (by decide) trivial
  | missingResetToken => exact iff_of_false (by decide) id
  | statement q err => exact reported_statement q err
  | notFound => exact iff_of_false (by decide) id
  | retrieve err => exact reported_wrapping (by decide)
  | unhashed err => exact iff_of_true (reported_of_case (by decide)) trivial
  | hash err => exact reported_wrapping (by decide)
  | denied err => exact iff_of_true (reported_of_case (by decide)) trivial
  | userNotFound => exact iff_of_true (by decide) trivial
  | login err => exact iff_of_true (reported_of_case (by decide)) trivial
  | recovery err =>
      -- the text of the wrapper has no case, that of what it wraps has
      refine iff_of_true ((reported_wrapping (by decide)).mpr ?_) trivial
      show (wrapping errUserNotFound err).Meant
      rw [wrapping, Errors.Error.meant_layer]
      exact .inl (by decide)
  | missingTemplate => exact iff_of_false (by decide) id
  | template err => exact reported_wrapping (by decide)
  | mail err => exact reported_wrapping (by decide)

end Status

/-! ## §5. What can be returned. -/

/-- The errors that decoders, validators, repository and service can return, with any answers
of what is outside. -/
inductive Returned : GoError → Prop
  | decodeCredentials {e} (h : Headers) (he : (decodeCredentials h).Returns (.error e)) : Returned e
  | decodeViewInfo {e} (h : Headers) (he : (decodeViewInfo h).Returns (.error e)) : Returned e
  | decodeUpdateUser {e} (h : Headers) (he : (decodeUpdateUser h).Returns (.error e)) : Returned e
  | decodePasswordResetRequest {e} (h : Headers)
      (he : (decodePasswordResetRequest h).Returns (.error e)) : Returned e
  | decodePasswordReset {e} (h : Headers) (he : (decodePasswordReset h).Returns (.error e)) :
      Returned e
  | decodePasswordChange {e} (h : Headers) (he : (decodePasswordChange h).Returns (.error e)) :
      Returned e
  | decodeToken {e} (vals : List String) (he : decodeToken vals = .error e) : Returned e
  | validateUser {e} (user : User) (he : validateUser user = some e) : Returned (.ours e)
  | validateViewUserInfo {e} (token : String) (he : validateViewUserInfo token = some e) :
      Returned (.ours e)
  | validateUpdateUser {e} (req : UpdateUserReq) (he : req.validate = some e) : Returned (.ours e)
  | validatePasswReset {e} (req : PasswResetReq) (he : req.validate = some e) : Returned (.ours e)
  | validateResetToken {e} (req : ResetTokenReq) (he : req.validate = some e) : Returned (.ours e)
  | validatePasswChange {e} (req : PasswChangeReq) (he : req.validate = some e) :
      Returned (.ours e)
  | save {e} (user : User) (he : (save user).Returns (.error e)) : Returned (.ours e)
  | update {e} (user : User) (he : (update user).Returns (.error e)) : Returned (.ours e)
  | updateMetadata {e} (user : User) (he : (updateMetadata user).Returns (.error e)) :
      Returned (.ours e)
  | retrieveByID {e} (email : String) (he : (retrieveByID email).Returns (.error e)) :
      Returned (.ours e)
  | updatePassword {e} (email password : String)
      (he : (updatePassword email password).Returns (.error e)) : Returned (.ours e)
  | register {e} (user : User) (he : (register user).Returns (.error e)) : Returned (.ours e)
  | login {e} (user : User) (he : (login user).Returns (.error e)) : Returned (.ours e)
  | userInfo {e} (token : String) (he : (userInfo token).Returns (.error e)) : Returned (.ours e)
  | updateUser {e} (token : String) (metadata : JsonObject)
      (he : (updateUser token metadata).Returns (.error e)) : Returned (.ours e)
  | generateResetToken {e} (a : Agent) (email host : String)
      (he : (generateResetToken a email host).Returns (.error e)) : Returned (.ours e)
  | sendPasswordReset {e} (a : Agent) (host email token : String)
      (he : (sendPasswordReset a host email token).Returns (.error e)) : Returned (.ours e)
  | resetPassword {e} (token password : String)
      (he : (resetPassword token password).Returns (.error e)) : Returned (.ours e)
  | changePassword {e} (token password oldPassword : String)
      (he : (changePassword token password oldPassword).Returns (.error e)) : Returned (.ours e)

/-- One of the failures. -/
def IsFailure (e : GoError) : Prop := ∃ f : Failure, f.error = e

/-- One of the failures, as an error of the package. -/
def IsErr (e : Err) : Prop := IsFailure (.ours e)

section Fails

/-- Nothing is said of an error that is wrapped or replaced. -/
theorem fails_somehow {ε α : Type} (p : Prog Outside (Except ε α)) : p.Fails fun _ => True :=
  Prog.post_of_forall (fun _ _ _ => trivial) p

theorem hash_fails (pwd : String) :
    (hash pwd).Fails fun e => ∃ err, wrapping errHashPassword err = e := by
  refine fun r _ => ?_
  cases r with
  | error err => exact Prog.fails_error ⟨err, rfl⟩
  | ok hash => exact Prog.fails_ok hash

theorem identify_fails (token : String) :
    (identify token).Fails fun e => ∃ err, wrapping errUnauthorizedAccess err = e := by
  refine fun r _ => ?_
  cases r with
  | error err => exact Prog.fails_error ⟨err, rfl⟩
  | ok email => exact Prog.fails_ok email

theorem issue_fails (email : String) (keyType : Authn.KeyType) :
    (issue email keyType).Fails fun e => ∃ err, wrapping errUserNotFound err = e := by
  refine fun r _ => ?_
  cases r with
  | error err => exact Prog.fails_error ⟨err, rfl⟩
  | ok key => exact Prog.fails_ok key

theorem exec_fails (q : Statement) : (exec q).Fails IsErr := by
  refine fun r _ => ?_
  cases r with
  | none => exact Prog.fails_ok ()
  | some err => exact Prog.fails_error ⟨.statement q err, rfl⟩

theorem retrieveByID_fails (email : String) : (retrieveByID email).Fails IsErr := by
  refine fun r _ => ?_
  cases r with
  | ok user => exact Prog.fails_ok _
  | error err =>
      cases err with
      | noRows => exact Prog.fails_error ⟨.notFound, rfl⟩
      | unique text => exact Prog.fails_error ⟨.retrieve (.unique text), rfl⟩
      | other err => exact Prog.fails_error ⟨.retrieve (.other err), rfl⟩

theorem sendPasswordReset_fails (a : Agent) (host email token : String) :
    (sendPasswordReset a host email token).Fails IsErr := by
  unfold sendPasswordReset Agent.sendPasswordReset Agent.send
  split
  · exact Prog.fails_error ⟨.missingTemplate, rfl⟩
  · refine fun r _ => ?_
    cases r with
    | error err => exact Prog.fails_error ⟨.template err, rfl⟩
    | ok mail =>
        refine fun r _ => ?_
        cases r with
        | some err => exact Prog.fails_error ⟨.mail err, rfl⟩
        | none => exact Prog.fails_ok ()

theorem register_fails (user : User) : (register user).Fails IsErr := by
  refine (hash_fails user.password).bind (fun e he => ?_) (fun hash => exec_fails _)
  obtain ⟨err, rfl⟩ := he
  exact Prog.fails_error ⟨.unhashed err, rfl⟩

theorem login_fails (user : User) : (login user).Fails IsErr := by
  refine (fails_somehow _).bind (fun e _ => Prog.fails_error ⟨.denied (.ours e), rfl⟩)
    fun u => ?_
  refine (fails_somehow _).bind (fun e _ => Prog.fails_error ⟨.denied (.ours e), rfl⟩)
    fun _ => ?_
  refine (issue_fails u.email Authn.KeyType.userKey).mono fun e he => ?_
  obtain ⟨err, rfl⟩ := he
  exact ⟨.login err, rfl⟩

theorem userInfo_fails (token : String) : (userInfo token).Fails IsErr := by
  refine (identify_fails token).bind (fun e he => ?_) fun id => ?_
  · obtain ⟨err, rfl⟩ := he
    exact Prog.fails_error ⟨.denied err, rfl⟩
  · exact (fails_somehow _).bind (fun e _ => Prog.fails_error ⟨.denied (.ours e), rfl⟩)
      fun u => Prog.fails_ok _

theorem updateUser_fails (token : String) (metadata : JsonObject) :
    (updateUser token metadata).Fails IsErr :=
  (fails_somehow _).bind (fun e _ => Prog.fails_error ⟨.denied (.ours e), rfl⟩)
    fun _ => exec_fails _

theorem generateResetToken_fails (a : Agent) (email host : String) :
    (generateResetToken a email host).Fails IsErr := by
  refine (fails_somehow _).bind (fun _ _ => Prog.fails_error ⟨.userNotFound, rfl⟩) fun u => ?_
  dsimp only
  split
  · exact Prog.fails_error ⟨.userNotFound, rfl⟩
  · refine (issue_fails email Authn.KeyType.recoveryKey).bind (fun e he => ?_) fun t => ?_
    · obtain ⟨err, rfl⟩ := he
      exact Prog.fails_error ⟨.recovery err, rfl⟩
    · exact sendPasswordReset_fails a host email t

theorem setPassword_fails (email password : String) : (setPassword email password).Fails IsErr := by
  refine (fails_somehow _).bind (fun _ _ => Prog.fails_error ⟨.userNotFound, rfl⟩) fun u => ?_
  dsimp only
  split
  · exact Prog.fails_error ⟨.userNotFound, rfl⟩
  · refine (hash_fails password).bind (fun e he => ?_) fun hash => exec_fails _
    obtain ⟨err, rfl⟩ := he
    exact Prog.fails_error ⟨.hash err, rfl⟩

theorem resetPassword_fails (token password : String) :
    (resetPassword token password).Fails IsErr :=
  (fails_somehow _).bind (fun e _ => Prog.fails_error ⟨.denied (.ours e), rfl⟩)
    fun email => setPassword_fails email password

theorem changePassword_fails (token password oldPassword : String) :
    (changePassword token password oldPassword).Fails IsErr := by
  refine (fails_somehow _).bind (fun e _ => Prog.fails_error ⟨.denied (.ours e), rfl⟩)
    fun email => ?_
  exact (fails_somehow _).bind (fun _ _ => Prog.fails_error ⟨.unauthorized, rfl⟩)
    fun _ => setPassword_fails email password

theorem decodeJson_fails {wrapper : Err} (b : Body) (h : Headers)
    (hwrap : ∀ text, IsErr (wrapping wrapper (.other text))) :
    (decodeJson wrapper b h).Fails IsFailure := by
  unfold decodeJson
  split
  · exact Prog.fails_error ⟨.unsupportedContentType, rfl⟩
  · refine fun r _ => ?_
    cases r with
    | error text => exact Prog.fails_error (hwrap text)
    | ok req => exact Prog.fails_ok req

theorem isErr_undecodedUser (text : String) : IsErr (wrapping errMalformedEntity (.other text)) :=
  ⟨.undecodedUser text, rfl⟩

theorem isErr_undecoded (text : String) : IsErr (wrapping errFailedDecode (.other text)) :=
  ⟨.undecoded text, rfl⟩

theorem isErr_malformed : IsErr errMalformedEntity := ⟨.malformed, rfl⟩

theorem isErr_unauthorized : IsErr errUnauthorizedAccess := ⟨.unauthorized, rfl⟩

theorem decodeUpdateUser_fails (h : Headers) : (decodeUpdateUser h).Fails IsFailure := by
  refine fun r _ => ?_
  cases r with
  | error text => exact Prog.fails_error ⟨.plain text, rfl⟩
  | ok req => exact Prog.fails_ok _

theorem decodePasswordResetRequest_fails (h : Headers) :
    (decodePasswordResetRequest h).Fails IsFailure :=
  (decodeJson_fails .passwReset h isErr_undecoded).bind (fun _ he => Prog.fails_error he)
    fun _ => Prog.fails_ok _

theorem decodePasswordChange_fails (h : Headers) : (decodePasswordChange h).Fails IsFailure :=
  (decodeJson_fails .passwChange h isErr_undecoded).bind (fun _ he => Prog.fails_error he)
    fun _ => Prog.fails_ok _

variable {e : Err}

theorem validateUser_isErr {user : User} (he : validateUser user = some e) : IsErr e := by
  unfold validateUser at he
  split_ifs at he <;> cases he <;> exact isErr_malformed

theorem validateViewUserInfo_isErr {token : String} (he : validateViewUserInfo token = some e) :
    IsErr e := by
  unfold validateViewUserInfo at he
  split_ifs at he
  cases he
  exact isErr_unauthorized

theorem UpdateUserReq.isErr {req : UpdateUserReq} (he : req.validate = some e) : IsErr e := by
  unfold UpdateUserReq.validate at he
  split_ifs at he
  cases he
  exact isErr_unauthorized

theorem PasswResetReq.isErr {req : PasswResetReq} (he : req.validate = some e) : IsErr e := by
  unfold PasswResetReq.validate at he
  split_ifs at he
  cases he
  exact isErr_malformed

theorem ResetTokenReq.isErr {req : ResetTokenReq} (he : req.validate = some e) : IsErr e := by
  unfold ResetTokenReq.validate at he
  split_ifs at he <;> cases he
  · exact isErr_malformed
  · exact ⟨.missingResetToken, rfl⟩
  · exact isErr_malformed

theorem PasswChangeReq.isErr {req : PasswChangeReq} (he : req.validate = some e) : IsErr e := by
  unfold PasswChangeReq.validate at he
  split_ifs at he <;> cases he
  · exact isErr_unauthorized
  · exact isErr_malformed
  · exact isErr_unauthorized

theorem decodeToken_isFailure {vals : List String} {e : GoError}
    (he : decodeToken vals = .error e) : IsFailure e := by
  unfold decodeToken at he
  split at he
  · cases he
    exact ⟨.noTokenSupplied, rfl⟩
  · cases he
  · cases he
    exact ⟨.invalidToken, rfl⟩

end Fails

theorem isFailure_of_returned {e : GoError} (h : Returned e) : IsFailure e := by
  cases h with
  | decodeCredentials h he => exact (decodeJson_fails _ _ isErr_undecodedUser).returns he e rfl
  | decodeViewInfo h he => cases he
  | decodeUpdateUser h he => exact (decodeUpdateUser_fails _).returns he e rfl
  | decodePasswordResetRequest h he => exact (decodePasswordResetRequest_fails _).returns he e rfl
  | decodePasswordReset h he => exact (decodeJson_fails _ _ isErr_undecoded).returns he e rfl
  | decodePasswordChange h he => exact (decodePasswordChange_fails _).returns he e rfl
  | decodeToken vals he => exact decodeToken_isFailure he
  | validateUser user he => exact validateUser_isErr he
  | validateViewUserInfo token he => exact validateViewUserInfo_isErr he
  | validateUpdateUser req he => exact UpdateUserReq.isErr he
  | validatePasswReset req he => exact PasswResetReq.isErr he
  | validateResetToken req he => exact ResetTokenReq.isErr he
  | validatePasswChange req he => exact PasswChangeReq.isErr he
  | save user he => exact (exec_fails _).returns he _ rfl
  | update user he => exact (exec_fails _).returns he _ rfl
  | updateMetadata user he => exact (exec_fails _).returns he _ rfl
  | retrieveByID email he => exact (retrieveByID_fails _).returns he _ rfl
  | updatePassword email password he => exact (exec_fails _).returns he _ rfl
  | register user he => exact (register_fails _).returns he _ rfl
  | login user he => exact (login_fails _).returns he _ rfl
  | userInfo token he => exact (userInfo_fails _).returns he _ rfl
  | updateUser token metadata he => exact (updateUser_fails _ _).returns he _ rfl
  | generateResetToken a email host he => exact (generateResetToken_fails _ _ _).returns he _ rfl
  | sendPasswordReset a host email token he =>
      exact (sendPasswordReset_fails _ _ _ _).returns he _ rfl
  | resetPassword token password he => exact (resetPassword_fails _ _).returns he _ rfl
  | changePassword token password oldPassword he =>
      exact (changePassword_fails _ _ _).returns he _ rfl

/-- An account and a mail agent, for the failures that need one. -/
def someUser : User := { email := "alice@example.com", password := "12345678" }

def someAgent : Agent := ⟨"/password-reset", "Mainflux", "noreply@example.com", true⟩

def someHeaders : Headers := ⟨jsonType, "token", "https://example.com"⟩

/-- Every statement is one of the four functions. -/
theorem returned_statement (q : Statement) (err : DbError) :
    Returned (Failure.statement q err).error := by
  cases q with
  | save user => exact .save user ⟨some err, rfl⟩
  | update user => exact .update user ⟨some err, rfl⟩
  | updateUser user => exact .updateMetadata user ⟨some err, rfl⟩
  | updatePassword email password => exact .updatePassword email password ⟨some err, rfl⟩

/-- The answers that lead to each failure. -/
theorem returned_failure (f : Failure) : Returned f.error := by
  cases f with
  | unsupportedContentType => exact .decodeCredentials ⟨"", "", ""⟩ rfl
  | undecodedUser text => exact .decodeCredentials someHeaders ⟨.error text, rfl⟩
  | undecoded text => exact .decodePasswordReset someHeaders ⟨.error text, rfl⟩
  | plain text => exact .decodeUpdateUser someHeaders ⟨.error text, rfl⟩
  | noTokenSupplied => exact .decodeToken [] rfl
  | invalidToken => exact .decodeToken ["", ""] rfl
  | malformed => exact .validateResetToken ⟨"", "", ""⟩ rfl
  | unauthorized => exact .validateViewUserInfo "" rfl
  | missingResetToken => exact .validateResetToken ⟨"", "12345678", "12345678"⟩ rfl
  | statement q err => exact returned_statement q err
  | notFound => exact .retrieveByID "" ⟨.error .noRows, rfl⟩
  | retrieve err => exact .retrieveByID "" ⟨.error (.other err.go), rfl⟩
  | unhashed err => exact .register someUser ⟨.error err, rfl⟩
  | hash err =>
      -- the token is accepted and the account found before the hasher fails
      exact .resetPassword "" "" ⟨.ok "alice@example.com", .ok someUser, .error err, rfl⟩
  | denied err => exact .userInfo "" ⟨.error err, rfl⟩
  | userNotFound => exact .generateResetToken someAgent "" "" ⟨.error .noRows, rfl⟩
  | login err => exact .login someUser ⟨.ok someUser, none, .error err, rfl⟩
  | recovery err =>
      exact .generateResetToken someAgent "alice@example.com" "" ⟨.ok someUser, .error err, rfl⟩
  | missingTemplate =>
      exact .sendPasswordReset { someAgent with tmpl := false } "" "" "" rfl
  | template err => exact .sendPasswordReset someAgent "" "" "" ⟨.error err, rfl⟩
  | mail err => exact .sendPasswordReset someAgent "" "" "" ⟨.ok "", some err, rfl⟩

/-- **The errors that are returned are those of the list, and it is these that the response
reports as failures.** -/
theorem reported_iff (e : GoError) :
    (Returned e ↔ ∃ f : Failure, f.error = e) ∧
      ∀ f : Failure, f.error = e → (400 ≤ (encodeError e).1 ↔ f.Reported) := by
  constructor
  · refine ⟨isFailure_of_returned, fun hfailure => ?_⟩
    obtain ⟨f, hf⟩ := hfailure
    rw [← hf]
    exact returned_failure f
  · intro f hf
    rw [← hf]
    exact reported_failure f

/-- A reset without its token is answered with 200. -/
theorem missing_token_not_reported : ¬ ∀ e, Returned e → 400 ≤ (encodeError e).1 := by
  intro h
  have hreturned : Returned (.ours errMissingResetToken) :=
    .validateResetToken ⟨"", "12345678", "12345678"⟩ rfl
  exact absurd (h _ hreturned) (by decide)

/-! ### The routes. -/

theorem handle_fails {ρ α : Type} {decode : Prog Outside (Except GoError ρ)}
    {validate : ρ → Option Err} {act : ρ → Prog Outside (Except Err α)}
    (hdecode : decode.Fails IsFailure) (hvalidate : ∀ req e, validate req = some e → IsErr e)
    (hact : ∀ req, (act req).Fails IsErr) : (handle decode validate act).Fails IsFailure := by
  refine hdecode.bind (fun e he => Prog.fails_error he) fun req => ?_
  dsimp only
  split
  next e he => exact Prog.fails_error (hvalidate req e he)
  next => exact (hact req).bind (fun e he => Prog.fails_error he) fun _ => Prog.fails_ok ()

theorem serve_fails (a : Agent) (h : Headers) (route : Route) :
    (serve a h route).Fails IsFailure := by
  cases route with
  | register =>
      exact handle_fails (decodeJson_fails _ h isErr_undecodedUser)
        (fun _ _ he => validateUser_isErr he) register_fails
  | userInfo =>
      exact handle_fails (Prog.fails_ok _) (fun _ _ he => validateViewUserInfo_isErr he)
        userInfo_fails
  | updateUser =>
      exact handle_fails (decodeUpdateUser_fails h) (fun _ _ he => UpdateUserReq.isErr he)
        fun req => updateUser_fails req.token req.metadata
  | resetRequest =>
      exact handle_fails (decodePasswordResetRequest_fails h)
        (fun _ _ he => PasswResetReq.isErr he)
        fun req => generateResetToken_fails a req.email req.host
  | reset =>
      exact handle_fails (decodeJson_fails _ h isErr_undecoded)
        (fun _ _ he => ResetTokenReq.isErr he)
        fun req => resetPassword_fails req.token req.password
  | change =>
      exact handle_fails (decodePasswordChange_fails h) (fun _ _ he => PasswChangeReq.isErr he)
        fun req => changePassword_fails req.token req.password req.oldPassword
  | login =>
      exact handle_fails (decodeJson_fails _ h isErr_undecodedUser)
        (fun _ _ he => validateUser_isErr he) login_fails

/-- **Whatever is outside, and whatever it does, a route that fails is answered with 400 or
above exactly when its failure is one that is reported.** -/
theorem serve_reported {σ : Type} (H : Handler Outside σ) (s : σ) (a : Agent) (h : Headers)
    (route : Route) {e : GoError} (he : ((serve a h route).run H s).2 = .error e) :
    ∃ f : Failure, f.error = e ∧ (400 ≤ (encodeError e).1 ↔ f.Reported) := by
  have hreturns : (serve a h route).Returns (.error e) := he ▸ Prog.returns_run H _ s
  obtain ⟨f, hf⟩ := (serve_fails a h route).returns hreturns e rfl
  exact ⟨f, hf, hf ▸ reported_failure f⟩

end Mainflux.Users.Failures
