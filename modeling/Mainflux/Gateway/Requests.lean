/-
  Mainflux.Gateway.Requests
  ─────────────────────────
  **REQUESTS THROUGH THE GATEWAY: under which key the adapters see them.**

  The gateway computes a key for each request and refuses it when there is none.  The HTTP
  adapter gets that key in place of the header the client has sent; the WebSocket adapter
  gets the header and the arguments as they are, and looks for its key itself.

    • `adapters_ask` — both adapters ask the things service about the common name of
      the certificate and about no other key.
-/
import Mainflux.Gateway.Authorization
import Mainflux.Messaging.Handlers

namespace Mainflux.Gateway

open Mainflux.Lib

open Coap.Api (Sig Cmd authorization)

open Messaging (Http.Request Http.Status Ws.Handshake Ws.Reply)

/-! ## §1. The key of a request. -/

/-- What the script reads of a request. -/
structure Request where
  uri : Text
  /-- `r.headersIn['Authorization']`. -/
  auth : Option Text
  /-- The names and values of `r.args`. -/
  args : List (Text × Text)
  deriving DecidableEq

def ws : Text := ['/', 'w', 's']

/-- `setKey`; every request begins with an empty `clientKey`. -/
def setKey (dn : Text) (r : Request) : Option Text :=
  let clientKey := parseCert dn CN
  if r.auth.getD [] ≠ [] ∧ r.auth ≠ clientKey then some []
  else if ws.isPrefixOf r.uri ∧ r.auth.getD [] = [] then
    if r.args.any fun a => a.1 = authorization ∧ some a.2 = clientKey then clientKey else some []
  else clientKey

/-- `js_set`: a value that is no string becomes one. -/
def authKey (s : Variables) (r : Request) : Text :=
  (setKey (s.ssl_client_s_dn.getD []) r).getD ['u', 'n', 'd', 'e', 'f', 'i', 'n', 'e', 'd']

/-- `verify-ssl-client.conf`: the key under which a request goes on, `none` for status 403. -/
def verifySslClient (s : Variables) (r : Request) : Option Text :=
  if s.ssl_client_verify ≠ some success then none
  else if authKey s r = [] then none
  else some (authKey s r)

/-- `location /http/`; `upstream` is the request with its new URI. -/
def httpLocation (s : Variables) (r : Request) (upstream : Http.Request) : Prog Sig (Option Http.Status) :=
  match verifySslClient s r with
  | none => return none
  | some auth_key => do
      let status ← Messaging.Http.serve { upstream with authorization := auth_key }
      return some status

/-- `location /ws/`: the header goes on as it came. -/
def wsLocation (s : Variables) (r : Request) (upstream : Ws.Handshake) : Prog Sig (Option Ws.Reply) :=
  match verifySslClient s r with
  | none => return none
  | some _ => do
      let reply ← Messaging.Ws.serve { upstream with authorization := r.auth.getD [] }
      return some reply

/-! ## §2. The certificate's key. -/

variable {s : Variables} {r : Request} {cn : Text}

/-- A request goes on under the common name or not at all. -/
theorem verifySslClient_eq_some (hv : Verified s cn) {key : Text} (h : verifySslClient s r = some key) :
    key = cn ∧ cn ≠ [] ∧ (r.auth.getD [] = [] ∨ r.auth = some cn) ∧
      (ws.isPrefixOf r.uri = true → r.auth.getD [] = [] → (authorization, cn) ∈ r.args) := by
  obtain ⟨hverify, -, hcn⟩ := hv
  rw [verifySslClient, if_neg (not_not_intro hverify)] at h
  split at h
  · exact absurd h (Option.some_ne_none _).symm
  · rename_i hne
    rw [← Option.some.inj h]
    unfold authKey setKey at hne ⊢
    simp only [hcn] at hne ⊢
    by_cases hother : r.auth.getD [] ≠ [] ∧ r.auth ≠ some cn
    · rw [if_pos hother] at hne
      exact absurd rfl hne
    · have hauth : r.auth.getD [] = [] ∨ r.auth = some cn := by
        by_cases hnone : r.auth.getD [] = []
        · exact .inl hnone
        · exact .inr (not_not.mp fun hsome => hother ⟨hnone, hsome⟩)
      rw [if_neg hother] at hne ⊢
      by_cases hws : ws.isPrefixOf r.uri = true ∧ r.auth.getD [] = []
      · rw [if_pos hws] at hne ⊢
        split at hne
        · rename_i hany
          rw [if_pos hany]
          obtain ⟨⟨name, value⟩, hmem, heq⟩ := List.any_eq_true.mp hany
          obtain ⟨rfl, hvalue⟩ := of_decide_eq_true heq
          obtain rfl : value = cn := Option.some.inj hvalue
          exact ⟨rfl, hne, hauth, fun _ _ => hmem⟩
        · exact absurd rfl hne
      · rw [if_neg hws] at hne ⊢
        exact ⟨rfl, hne, hauth, fun hpre hempty => absurd ⟨hpre, hempty⟩ hws⟩

/-- The only key a question may be about. -/
def About (cn : Text) (c : Cmd) : Prop := ∀ token chanID, c = .canAccessByKey token chanID → token = cn

theorem about_publish (cn : Text) (msg : Coap.Api.Publication) : About cn (.publish msg) :=
  fun _ _ h => by cases h

theorem about_subscribe (cn chanID subtopic id : Text) : About cn (.subscribe chanID subtopic id) :=
  fun _ _ h => by cases h

theorem about_self (cn chanID : Text) : About cn (.canAccessByKey cn chanID) := fun _ _ h => by
  cases h
  rfl

theorem uses_cmd {α : Type} {P : Cmd → Prop} {c : Cmd} {f : Sig.Res c → Prog Sig α} (hc : P c)
    (hf : ∀ answer, (f answer).Uses P) : (Coap.Api.cmd c >>= f).Uses P := ⟨hc, hf⟩

theorem uses_publish (token : Text) (msg : Coap.Api.Publication) :
    (Messaging.Http.publish token msg).Uses (About token) := by
  refine uses_cmd (about_self token _) fun thid => ?_
  split
  · exact trivial
  · refine uses_cmd (about_publish token _) fun res => ?_
    cases res <;> exact trivial

theorem uses_broadcast (cn : Text) (sub : Messaging.Ws.Subscription) (contentType : Text)
    (reads : List (List UInt8)) : (Messaging.Ws.broadcast sub contentType reads).Uses (About cn) := by
  induction reads with
  | nil => exact trivial
  | cons payload reads ih =>
      refine uses_cmd (about_publish cn _) fun res => ?_
      cases res with
      | none => exact ih
      | some e =>
          cases e with
          | failedConnection => exact trivial
          | _ => exact ih

theorem uses_connect (cn : Text) (h : Ws.Handshake) (pubID chanID : Text) :
    (Messaging.Ws.connect h pubID chanID).Uses (About cn) := by
  rw [Messaging.Ws.connect]
  split
  · exact trivial
  · split
    · exact trivial
    · split
      · refine uses_cmd (about_subscribe cn _ _ _) fun res => ?_
        cases res with
        | some e => exact trivial
        | none => exact Prog.Uses.bind (uses_broadcast cn _ _ _) fun _ => trivial
      · exact trivial

/-- **Over HTTP**: whatever header a client has sent, the question is about the common name. -/
theorem http_asks (hv : Verified s cn) (r : Request) (upstream : Http.Request) :
    (httpLocation s r upstream).Uses (About cn) := by
  rw [httpLocation]
  cases h : verifySslClient s r with
  | none => exact trivial
  | some key =>
      obtain ⟨rfl, -⟩ := verifySslClient_eq_some hv h
      refine Prog.Uses.bind ?_ fun _ => trivial
      rw [Messaging.Http.serve]
      split
      · exact trivial
      · split
        · exact trivial
        · exact uses_publish key _

/-- **Over WebSocket**: the adapter looks for its key where the gateway has found the common name, as long
as both find the same arguments in the request. -/
theorem ws_asks (hv : Verified s cn) {r : Request} {upstream : Ws.Handshake}
    (hws : ws.isPrefixOf r.uri = true)
    (hargs : ∀ value, (authorization, value) ∈ r.args →
      (Messaging.getQuery upstream.uri authorization).head? = some value) :
    (wsLocation s r upstream).Uses (About cn) := by
  rw [wsLocation]
  cases h : verifySslClient s r with
  | none => exact trivial
  | some key =>
      obtain ⟨-, hne, hauth, harg⟩ := verifySslClient_eq_some hv h
      have hkey : Messaging.Ws.authKey { upstream with authorization := r.auth.getD [] } = some cn := by
        rw [Messaging.Ws.authKey]
        rcases hauth with hempty | hsome
        · rw [if_pos hempty]
          exact hargs cn (harg hws hempty)
        · rw [hsome, Option.getD_some, if_neg hne]
      refine Prog.Uses.bind ?_ fun _ => trivial
      rw [Messaging.Ws.serve, hkey]
      split
      · exact trivial
      · refine uses_cmd (about_self cn _) fun id => ?_
        split
        · exact trivial
        · exact trivial
        · exact uses_connect cn _ _ _

/-- **Both adapters ask about the common name of the certificate**, and about no other key. -/
theorem adapters_ask (hv : Verified s cn) (r : Request) (http : Http.Request) (upstream : Ws.Handshake) :
    (httpLocation s r http).Uses (About cn) ∧
      (ws.isPrefixOf r.uri = true →
        (∀ value, (authorization, value) ∈ r.args →
          (Messaging.getQuery upstream.uri authorization).head? = some value) →
        (wsLocation s r upstream).Uses (About cn)) :=
  ⟨http_asks hv r http, ws_asks hv⟩

/-- The lamp, once with another key in its header and once with its own among the arguments. -/
theorem adapters_ask_lamp :
    (httpLocation lamp ⟨['/', 'h', 't', 't', 'p', '/'], some ['d', 'o', 'o', 'r'], []⟩ { uri := ['/'] }).Uses
        (About (text lampKey)) ∧
      (wsLocation lamp ⟨['/', 'w', 's', '/'], none, [(authorization, text lampKey)]⟩
        { uri := '/' :: '?' :: (authorization ++ '=' :: text lampKey) }).Uses (About (text lampKey)) := by
  refine ⟨(adapters_ask verified_lamp _ _ { uri := [] }).1, (adapters_ask verified_lamp _ { uri := [] } _).2
    (by decide) fun value h => ?_⟩
  rw [(Prod.mk.inj (List.mem_singleton.mp h)).2]
  decide +kernel

end Mainflux.Gateway
