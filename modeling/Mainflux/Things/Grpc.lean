/-
  Mainflux.Things.Grpc
  ────────────────────
  **THE THINGS SERVICE BEHIND GRPC: what an adapter is told.**

  An adapter asks through a client.  The client writes a request, the server reads it,
  validates it, asks the service and answers with an id or a status, and the client reads
  that.

    • `remote_calls` — a remote call is the call of the service: the same state behind it,
      the same id, `PermissionDenied` for every refusal, and `InvalidArgument` with the
      service untouched for an empty argument, which `Identify` does not look for.
-/
import Mainflux.Things.Access
import Mainflux.Grpc.Wire

namespace Mainflux.Things.Grpc

open Mainflux.Lib

open Mainflux.Lib.Wire

open Mainflux.Grpc (Value Access EmptyMessage utf8 text Sendable text_utf8 utf8_eq_nil)

/-! ## §1. The server. -/

inductive Code
  | invalidArgument
  | permissionDenied
  | internal
  deriving DecidableEq

/-- A status: its code and its text. -/
structure Status where
  code : Code
  message : String
  deriving DecidableEq

/-- `encodeError`. -/
def encodeError : Err → Status
  | .malformedEntity => ⟨.invalidArgument, "received invalid can access request"⟩
  | .unauthorizedAccess => ⟨.permissionDenied, "missing or invalid credentials provided"⟩
  | _ => ⟨.internal, "internal server error"⟩

/-- What gRPC itself answers to bytes that are no message. -/
def unreadable : Status := ⟨.internal, "grpc: error unmarshalling request"⟩

/-- `validate`, of a request by key and of one by id. -/
def validate (req : Access) : Except Err Unit :=
  if req.chanID = [] ∨ req.subject = [] then .error .malformedEntity else .ok ()

section Server

variable (E : Env)

/-- `canAccessEndpoint`. -/
def canAccessEndpoint (req : Access) (w : World) : World × Except Err String :=
  match validate req with
  | .error err => (w, .error err)
  | .ok () => (Service.canAccessByKey (text req.chanID) (text req.subject)).run (handle E) w

/-- `canAccessByIDEndpoint`. -/
def canAccessByIDEndpoint (req : Access) (w : World) : World × Except Err Unit :=
  match validate req with
  | .error err => (w, .error err)
  | .ok () => (Service.canAccessByID (text req.chanID) (text req.subject)).run (handle E) w

/-- `identifyEndpoint`: the request is not validated. -/
def identifyEndpoint (req : Value) (w : World) : World × Except Err String :=
  (Service.identify (text req.value)).run (handle E) w

/-- `ServeGRPC`, and the method around it. -/
def serveGRPC {α β : Type} (encode : α → β) (r : World × Except Err α) : World × Except Status β :=
  (r.1, r.2.mapError encodeError |>.map encode)

/-- `encodeIdentityResponse`. -/
def encodeIdentityResponse (id : String) : Value := { value := utf8 id }

def Server.canAccessByKey (req : Access) (w : World) : World × Except Status Value :=
  serveGRPC encodeIdentityResponse (canAccessEndpoint E req w)

def Server.canAccessByID (req : Access) (w : World) : World × Except Status EmptyMessage :=
  serveGRPC (fun () => {}) (canAccessByIDEndpoint E req w)

def Server.identify (req : Value) (w : World) : World × Except Status Value :=
  serveGRPC encodeIdentityResponse (identifyEndpoint E req w)

/-! ## §2. The client. -/

/-- `decodeIdentityResponse`, and the id that the method returns. -/
def identityRes (r : World × Except Status Value) : World × Except Status String :=
  (r.1, r.2.map fun res => text res.value)

def Client.canAccessByKey (token chanID : String) (w : World) :
    Option (World × Except Status String) :=
  (call Mainflux.Grpc.AccessByKeyReq.generated Mainflux.Grpc.ThingID.generated
    Mainflux.Grpc.ThingID.generated unreadable (Server.canAccessByKey E)
    { subject := utf8 token, chanID := utf8 chanID } w).map identityRes

def Client.canAccessByID (thingID chanID : String) (w : World) :
    Option (World × Except Status Unit) :=
  (call Mainflux.Grpc.AccessByIDReq.generated EmptyMessage.generated EmptyMessage.generated unreadable
    (Server.canAccessByID E) { subject := utf8 thingID, chanID := utf8 chanID } w).map
    fun r => (r.1, r.2.map fun _ => ())

def Client.identify (key : String) (w : World) : Option (World × Except Status String) :=
  (call Mainflux.Grpc.Token.generated Mainflux.Grpc.ThingID.generated
    Mainflux.Grpc.ThingID.generated unreadable (Server.identify E) { value := utf8 key } w).map
    identityRes

end Server

/-! ## §3. A remote call is the call of the service. -/

/-- What a client is told of an answer of the service. -/
def told {α : Type} (r : World × Except Err α) : World × Except Status α :=
  (r.1, r.2.mapError encodeError)

/-- The answer to an empty argument. -/
def invalid {α : Type} (w : World) : World × Except Status α :=
  (w, .error (encodeError .malformedEntity))

section Remote

variable {E : Env} {w : World}

theorem validate_utf8 (subject chanID : String) :
    validate { subject := utf8 subject, chanID := utf8 chanID }
      = if chanID = "" ∨ subject = "" then .error .malformedEntity else .ok () := by
  rw [validate]
  simp only [utf8_eq_nil]

/-- An answer with an id, sent and read. -/
theorem answer_identity {A : Type} {serve : A → World → World × Except Status Value} {a : A}
    {r : World × Except Err String} (hserve : serve a w = serveGRPC encodeIdentityResponse r)
    (hfits : ∀ id, r.2 = .ok id → Sendable (utf8 id)) :
    (answer Mainflux.Grpc.ThingID.generated Mainflux.Grpc.ThingID.generated unreadable serve a
      w).map identityRes = some (told r) := by
  obtain ⟨w', res⟩ := r
  cases res with
  | error err =>
      rw [answer_error hserve]
      rfl
  | ok id =>
      rw [answer_ok hserve (Value.read "ThingID" "ThingID" (hfits id rfl)), Option.map_some,
        identityRes]
      dsimp only [Except.map]
      rw [text_utf8]
      rfl

/-- **`CanAccessByKey`.** -/
theorem canAccessByKey_remote {token chanID : String} (htoken : Sendable (utf8 token))
    (hchan : Sendable (utf8 chanID))
    (hid : ∀ id, ((Service.canAccessByKey chanID token).run (handle E) w).2 = .ok id →
      Sendable (utf8 id)) :
    Client.canAccessByKey E token chanID w =
      some (if chanID = "" ∨ token = "" then invalid w
      else told ((Service.canAccessByKey chanID token).run (handle E) w)) := by
  rw [Client.canAccessByKey, call_eq_answer (Generated.sound_of_nil rfl)
    (Access.size_lt "AccessByKeyReq" "Token" htoken hchan)]
  by_cases hempty : chanID = "" ∨ token = ""
  · rw [if_pos hempty, invalid, answer_error]
    · rfl
    · rw [Server.canAccessByKey, canAccessEndpoint, validate_utf8, if_pos hempty]
      rfl
  · rw [if_neg hempty]
    refine answer_identity ?_ hid
    rw [Server.canAccessByKey, canAccessEndpoint, validate_utf8, if_neg hempty, text_utf8, text_utf8]

/-- **`CanAccessByID`.** -/
theorem canAccessByID_remote {thingID chanID : String} (hthing : Sendable (utf8 thingID))
    (hchan : Sendable (utf8 chanID)) :
    Client.canAccessByID E thingID chanID w =
      some (if chanID = "" ∨ thingID = "" then invalid w
      else told ((Service.canAccessByID chanID thingID).run (handle E) w)) := by
  rw [Client.canAccessByID, call_eq_answer (Generated.sound_of_nil rfl)
    (Access.size_lt "AccessByIDReq" "ThingID" hthing hchan)]
  by_cases hempty : chanID = "" ∨ thingID = ""
  · rw [if_pos hempty, invalid, answer_error]
    · rfl
    · rw [Server.canAccessByID, canAccessByIDEndpoint, validate_utf8, if_pos hempty]
      rfl
  · have hserve : Server.canAccessByID E { subject := utf8 thingID, chanID := utf8 chanID } w
        = serveGRPC (fun () => {}) ((Service.canAccessByID chanID thingID).run (handle E) w) := by
      rw [Server.canAccessByID, canAccessByIDEndpoint, validate_utf8, if_neg hempty, text_utf8,
        text_utf8]
    rw [if_neg hempty]
    generalize hrun : (Service.canAccessByID chanID thingID).run (handle E) w = r at hserve ⊢
    obtain ⟨w', res⟩ := r
    cases res with
    | error err =>
        rw [answer_error hserve]
        rfl
    | ok u =>
        rw [answer_ok hserve EmptyMessage.read]
        rfl

/-- **`Identify`.** -/
theorem identify_remote {key : String} (hkey : Sendable (utf8 key))
    (hid : ∀ id, ((Service.identify key).run (handle E) w).2 = .ok id → Sendable (utf8 id)) :
    Client.identify E key w = some (told ((Service.identify key).run (handle E) w)) := by
  rw [Client.identify, call_eq_answer (Generated.sound_of_nil rfl) (Value.size_lt "Token" hkey)]
  refine answer_identity ?_ hid
  rw [Server.identify, identifyEndpoint, text_utf8]

/-! ## §4. Every refusal is the same. -/

/-- The service gives no other reason. -/
def Denied (err : Err) : Prop := err = .unauthorizedAccess

theorem fails_canAccessByKey (chanID key : String) :
    (Service.canAccessByKey chanID key).Fails Denied := by
  refine Prog.Fails.bind (Prog.post_of_forall (fun _ _ _ => trivial) _) (fun _ _ => ?_)
    fun t => Prog.fails_ok t
  refine Prog.Fails.bind (Prog.post_of_forall (fun _ _ _ => trivial) _)
    (fun _ _ => Prog.fails_error rfl) fun t => ?_
  refine Prog.Post.bind (Prog.post_of_forall (Q := fun _ => True) (fun _ => trivial) _) fun _ _ => ?_
  refine Prog.Post.bind (Prog.post_of_forall (Q := fun _ => True) (fun _ => trivial) _) fun _ _ => ?_
  exact Prog.fails_ok t

theorem fails_canAccessByID (chanID thingID : String) :
    (Service.canAccessByID chanID thingID).Fails Denied := by
  refine Prog.Post.bind (Prog.post_of_forall (Q := fun _ => True) (fun _ => trivial) _) fun hit _ => ?_
  cases hit with
  | true => exact Prog.fails_ok ()
  | false =>
      refine Prog.Fails.bind (Prog.post_of_forall (fun _ _ _ => trivial) _)
        (fun _ _ => Prog.fails_error rfl) fun u => ?_
      refine Prog.Post.bind (Prog.post_of_forall (Q := fun _ => True) (fun _ => trivial) _) fun _ _ => ?_
      exact Prog.fails_ok ()

theorem fails_identify (key : String) : (Service.identify key).Fails Denied := by
  refine Prog.Fails.bind (Prog.post_of_forall (fun _ _ _ => trivial) _) (fun _ _ => ?_)
    fun t => Prog.fails_ok t
  refine Prog.Fails.bind (Prog.post_of_forall (fun _ _ _ => trivial) _)
    (fun _ _ => Prog.fails_error rfl) fun t => ?_
  refine Prog.Post.bind (Prog.post_of_forall (Q := fun _ => True) (fun _ => trivial) _) fun _ _ => ?_
  exact Prog.fails_ok t

/-- A call of the service, as a client should see it. -/
def seen {α : Type} (r : World × Except Err α) : World × Except Status α :=
  (r.1, r.2.mapError fun _ => ⟨.permissionDenied, "missing or invalid credentials provided"⟩)

theorem told_eq_seen {α : Type} {p : Prog Sig (Except Err α)} (h : p.Fails Denied) :
    told (p.run (handle E) w) = seen (p.run (handle E) w) := by
  rw [told, seen]
  cases hres : (p.run (handle E) w).2 with
  | ok a => rfl
  | error err =>
      have hdenied : Denied err := h.returns (Prog.returns_run _ p w) err hres
      rw [hdenied]
      rfl

end Remote

end Mainflux.Things.Grpc
