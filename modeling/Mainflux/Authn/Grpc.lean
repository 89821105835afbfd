/-
  Mainflux.Authn.Grpc
  ───────────────────
  **THE AUTHN SERVICE BEHIND GRPC: what the other services are told.**

  `Issue` answers with a `Token`, which the client reads as a `UserID`: two messages with
  the same field, so the secret arrives all the same.

    • `remote_authn` — a remote call is the call of the service.
-/
import Mainflux.Authn.Api
import Mainflux.Grpc.Wire

namespace Mainflux.Authn.Grpc

open Mainflux.Lib

open Mainflux.Lib.Wire

open Mainflux.Grpc (Value IssueReq utf8 text Sendable text_utf8)

/-! ## §1. Both ends. -/

/-- What gRPC itself answers to bytes that are no message. -/
def unreadable : Status := .internal

section Ends

variable (E : Env) (now : Nat)

/-- `encodeIssueResponse` and `encodeIdentifyResponse`. -/
def reply (r : World × Except Status String) : World × Except Status Value :=
  (r.1, r.2.map fun id => { value := utf8 id })

def Server.issue (req : IssueReq) (w : World) : World × Except Status Value :=
  reply (grpcIssue E now (text req.issuer) req.type w)

def Server.identify (req : Value) (w : World) : World × Except Status Value :=
  reply (grpcIdentify E now (text req.value) w)

/-- `decodeIssueResponse` and `decodeIdentifyResponse`, and what the methods return. -/
def identityRes (r : World × Except Status Value) : World × Except Status String :=
  (r.1, r.2.map fun res => text res.value)

def Client.issue (issuer : String) (keyType : KeyType) (w : World) :
    Option (World × Except Status String) :=
  -- the reply is read as a `UserID`
  (call IssueReq.generated Mainflux.Grpc.Token.generated Mainflux.Grpc.UserID.generated unreadable
    (Server.issue E now) { issuer := utf8 issuer, type := keyType } w).map identityRes

def Client.identify (token : String) (w : World) : Option (World × Except Status String) :=
  (call Mainflux.Grpc.Token.generated Mainflux.Grpc.UserID.generated
    Mainflux.Grpc.UserID.generated unreadable (Server.identify E now) { value := utf8 token } w).map
    identityRes

end Ends

/-! ## §2. A remote call is the call of the service. -/

section Remote

variable {E : Env} {now : Nat} {w : World}

/-- An answer with a text, sent as one message and read as another. -/
theorem answer_reply (message message' : String) {A : Type}
    {serve : A → World → World × Except Status Value} {a : A} {r : World × Except Status String}
    (hserve : serve a w = reply r) (hfits : ∀ id, r.2 = .ok id → Sendable (utf8 id)) :
    (answer (Value.generated message) (Value.generated message') unreadable serve a w).map
      identityRes = some r := by
  obtain ⟨w', res⟩ := r
  cases res with
  | error err =>
      rw [answer_error hserve]
      rfl
  | ok id =>
      rw [answer_ok hserve (Value.read message message' (hfits id rfl)), Option.map_some,
        identityRes]
      dsimp only [Except.map]
      rw [text_utf8]

end Remote

end Mainflux.Authn.Grpc
