/-
  Mainflux.Coap.Transport
  ───────────────────────
  **THE COAP HANDLER: WHO MAY PUBLISH AND OBSERVE.**

  A CoAP message names its channel in the path and carries the key of a thing in the
  query.  The handler asks the things service whether that thing may use the channel
  and then publishes, or registers and removes observers, under the thing id that
  comes back.

  `authorize` returns the error of the call where it has a gRPC status.  Where it has
  none, only the code of the response is set, and the caller goes on under whatever id
  came with the error.

    • `issued_of_asks`, `issued_of_not_asks` — all a request asks of the services, in order;
    • `failsClosed_iff` — when nothing is written without access;
    • `plain_error_publishes` — a message that is published although the call failed;
    • `observers_elsewhere`, `observers_kept` — which observers of `Coap.Adapter` a request
      can touch.
-/
import Mainflux.Coap.Adapter
import Mainflux.Lib.Hex
import Mainflux.Lib.Prog
import Mainflux.Messaging.Sdk

namespace Mainflux.Coap.Api

open Mainflux.Lib

open Mainflux.Lib.Text

open Mainflux.Messaging

/-! ## §1. Messages. -/

inductive COAPType
  | confirmable
  | nonConfirmable
  | acknowledgement
  | reset
  deriving DecidableEq

-- a code is its class in the three upper bits and its detail in the others
abbrev COAPCode := UInt8

namespace COAPCode

def get : COAPCode := 1

def changed : COAPCode := 68

def content : COAPCode := 69

def badRequest : COAPCode := 128

def forbidden : COAPCode := 131

def notFound : COAPCode := 132

def internalServerError : COAPCode := 160

def serviceUnavailable : COAPCode := 163

end COAPCode

/-- A message, with the values of each option that a handler reads or sets: parsing gives
Uri-Path and Uri-Query texts, Observe a number and Content-Format a media type. -/
structure Message where
  type : COAPType
  code : COAPCode
  messageID : UInt16 := 0
  token : List UInt8 := []
  payload : List UInt8 := []
  uriPath : List Text := []
  uriQuery : List Text := []
  observe : List UInt32 := []
  contentFormat : List UInt8 := []
  deriving DecidableEq

namespace Message

/-- `PathString`. -/
def pathString (msg : Message) : Text := ['/'].intercalate msg.uriPath

/-- `SetPathString`. -/
def setPathString (s : Text) (msg : Message) : Message :=
  { msg with uriPath := (s.dropWhile (· = '/')).splitOn '/' }

end Message

/-- `id`: the second segment of the path. -/
def id (msg : Message) : Text :=
  match msg.pathString.splitOn '/' with
  | _ :: chanID :: _ => chanID
  | _ => []

/-- The loop of `subtopic`: the text from the third slash on. -/
def subtopicFrom (pos : Nat) : Text → Text
  | [] => []
  | c :: cs =>
      -- the character is counted before the test, so the third slash is kept
      if (if c = '/' then pos + 1 else pos) = 3 then c :: cs
      else subtopicFrom (if c = '/' then pos + 1 else pos) cs

/-- `subtopic`. -/
def subtopic (msg : Message) : Text := subtopicFrom 0 msg.pathString

/-- `fmtSubtopic`; `none` is `errMalformedSubtopic`. -/
def fmtSubtopic (msg : Message) : Option Text :=
  if subtopic msg = [] then some []
  else
    (filteredElems ((replaceAll '/' '.' (subtopic msg)).splitOn '.')).map fun elems =>
      ['.'].intercalate elems

/-- `channelRegExp`, which takes a path with or without a slash in front: its groups. -/
def channelRegExp (path : Text) : Option (Text × Text) :=
  channelPart (if path.head? = some '/' then path else '/' :: path)

/-! ## §2. The services. -/

/-- The codes that the handler tells apart. -/
inductive GrpcCode
  | permissionDenied
  | other
  deriving DecidableEq

/-- An error of a call: `status.FromError` finds a status, or it does not. -/
inductive RpcError
  | status (code : GrpcCode)
  | plain
  deriving DecidableEq

/-- What `CanAccessByKey` returns: the value of the thing id, which is empty where that
is nil, and the error. -/
structure Access where
  value : Text
  err : Option RpcError
  deriving DecidableEq

inductive ServiceErr
  | failedMessagePublish
  | failedSubscription
  | failedConnection
  deriving DecidableEq

/-- `mainflux.Message`. -/
structure Publication where
  channel : Text
  subtopic : Text
  publisher : Text
  contentType : Text
  protocol : Text
  payload : List UInt8
  deriving DecidableEq

/-- What a handler asks of the things service and of the adapter; `respond` sends on the
channel of responses. -/
inductive Cmd
  | canAccessByKey (token chanID : Text)
  | publish (m : Publication)
  | subscribe (chanID subtopic obsID : Text)
  | unsubscribe (obsID : Text)
  | respond (obsID : Text)
  deriving DecidableEq

abbrev Sig : Signature where
  Cmd := Cmd
  Res
    | .canAccessByKey _ _ => Access
    | .publish _ => Option ServiceErr
    | .subscribe _ _ _ => Option ServiceErr
    | .unsubscribe _ => Unit
    | .respond _ => Unit

/-- One command. -/
def cmd (c : Cmd) : Prog Sig (Sig.Res c) := .call c .ret

/-! ## §3. The handlers. -/

/-- An error of `authorize`. -/
inductive AuthErr
  | badRequest
  | access (e : RpcError)
  deriving DecidableEq

def authorization : Text :=
  ['a', 'u', 't', 'h', 'o', 'r', 'i', 'z', 'a', 't', 'i', 'o', 'n']

/-- The device key: the one `authorization` of the first Uri-Query option. -/
def authKey (msg : Message) : Option Text :=
  match msg.uriQuery.head? with
  | none => none
  | some queryStr =>
      match parseQuery queryStr with
      | none => none
      | some params =>
          -- the key must be there exactly once, under whatever escaping
          match (params.filter (·.1 = authorization)).map (·.2) with
          | [key] => some key
          | _ => none

/-- `authorize`: the response it leaves, and what it returns. -/
def authorize (msg res : Message) (cid : Text) : Prog Sig (Message × Except AuthErr Text) :=
  match authKey msg with
  | none => return ({ res with code := .badRequest }, .error .badRequest)
  | some key => do
      let access ← cmd (.canAccessByKey key cid)
      match access.err with
      | none => return (res, .ok access.value)
      | some (.status .permissionDenied) =>
          return ({ res with code := .forbidden }, .error (.access (.status .permissionDenied)))
      | some (.status .other) =>
          return ({ res with code := .serviceUnavailable }, .error (.access (.status .other)))
      -- the error is dropped here
      | some .plain => return ({ res with code := .internalServerError }, .ok access.value)

/-- `contentType`, and the empty text for its error. -/
def contentType (msg : Message) : Text :=
  match msg.contentFormat.head? with
  | some 110 => ['a', 'p', 'p', 'l', 'i', 'c', 'a', 't', 'i', 'o', 'n', '/', 's', 'e', 'n', 'm', 'l',
      '+', 'j', 's', 'o', 'n']
  | some 112 => ['a', 'p', 'p', 'l', 'i', 'c', 'a', 't', 'i', 'o', 'n', '/', 's', 'e', 'n', 'm', 'l',
      '+', 'c', 'b', 'o', 'r']
  | _ => []

def protocol : Text := ['c', 'o', 'a', 'p']

/-- `AppJSON`. -/
def appJSON : UInt8 := 50

/-- The response that `receive` starts with: by default the message is NonConfirmable, and
so is the response. -/
def received (msg : Message) : Message :=
  if msg.type = .confirmable then
    { type := .acknowledgement, code := .changed, messageID := msg.messageID, token := msg.token,
      contentFormat := [appJSON] }
  else
    { type := .nonConfirmable, code := .changed, messageID := msg.messageID, token := msg.token }

/-- `receive`. -/
def receive (msg : Message) : Prog Sig Message :=
  -- only of a confirmable message the payload is looked at
  if msg.type = .confirmable ∧ msg.payload = [] then
    return { received msg with code := .badRequest }
  else if id msg = [] then return { received msg with code := .notFound }
  else
    match fmtSubtopic msg with
    | none => return { received msg with code := .badRequest }
    | some subtopic => do
        match ← authorize msg (received msg) (id msg) with
        -- the code that `authorize` has chosen is overwritten
        | (res, .error _) => return { res with code := .forbidden }
        | (res, .ok publisher) =>
            match ← cmd (.publish ⟨id msg, subtopic, publisher, contentType msg, protocol,
              msg.payload⟩) with
            | some _ => return { res with code := .internalServerError }
            | none => return res

/-- The id of an observer: `%x-%s-%s`. -/
def fmtObsID (token : List UInt8) (publisher chanID : Text) : Text :=
  (Hex.encode token).map (fun b => Char.ofNat b.toNat) ++ '-' :: publisher ++ '-' :: chanID

/-- The response that `observe` starts with. -/
def observed (msg : Message) : Message :=
  { type := .acknowledgement, code := .content, messageID := msg.messageID, token := msg.token,
    contentFormat := [appJSON] }

/-- The end of `observe`: registering the observer, whose goroutines are those of
`Coap.Adapter`. -/
def register (msg res : Message) (subtopic obsID : Text) : Prog Sig (Option Message) := do
  if msg.observe.head? = some 0 then
    match ← cmd (.subscribe (id msg) subtopic obsID) with
    | some _ => return some { res with observe := [1], code := .internalServerError }
    | none => return some { res with observe := [1] }
  else return some res

/-- `observe`. -/
def observe (msg : Message) : Prog Sig (Option Message) :=
  if id msg = [] then return some { observed msg with code := .notFound }
  else
    match fmtSubtopic msg with
    | none => return some { observed msg with code := .badRequest }
    | some subtopic => do
        match ← authorize msg (observed msg) (id msg) with
        | (res, .error _) => return some { res with code := .forbidden }
        | (res, .ok publisher) =>
            -- a client confirms a notification, which is not answered
            if msg.type = .acknowledgement then
              cmd (.respond (fmtObsID msg.token publisher (id msg)))
              return none
            else if msg.observe.head? = some 1 ∨ msg.type = .reset then
              cmd (.unsubscribe (fmtObsID msg.token publisher (id msg)))
              -- a Reset with an Observe option of 0 is registered anew
              register msg res subtopic (fmtObsID msg.token publisher (id msg))
            else register msg res subtopic (fmtObsID msg.token publisher (id msg))

/-- The message that `mux` hands on: without a slash in front of its path. -/
def routed (msg : Message) : Message :=
  if msg.pathString.head? = some '/' then msg.setPathString (msg.pathString.drop 1) else msg

/-- `mux`. -/
def mux (msg : Message) : Prog Sig (Option Message) :=
  match channelRegExp msg.pathString with
  | none =>
      return some { type := .nonConfirmable, code := .notFound, messageID := msg.messageID,
                    token := msg.token }
  | some _ =>
      if msg.code = .get then observe (routed msg) else some <$> receive (routed msg)

/-! ## §4. The channel of a message. -/

section Channel

variable {msg : Message} {chanID part : Text}

/-- A path that matches: the fixed parts around the two groups, and a query behind. -/
theorem channelRegExp_eq_some {path : Text} (h : channelRegExp path = some (chanID, part)) :
    (∃ q, (if path.head? = some '/' then path else '/' :: path)
      = channelsPart ++ (chanID ++ (messagesPart ++ (part ++ q)))) ∧
      chanID ≠ [] ∧ '/' ∉ chanID := by
  -- the expression is matched on the path in front of the first question mark
  obtain ⟨hpath, hchars, hne, -⟩ := channelPart_eq_some h
  generalize (if path.head? = some '/' then path else '/' :: path) = uri at hpath ⊢
  refine ⟨⟨uri.dropWhile (· ≠ '?'), ?_⟩, hne, isIDChar_not_special hchars (by decide)⟩
  calc uri
      = uri.takeWhile (· ≠ '?') ++ uri.dropWhile (· ≠ '?') := List.takeWhile_append_dropWhile.symm
    _ = channelsPart ++ (chanID ++ (messagesPart ++ (part ++ uri.dropWhile (· ≠ '?')))) := by
        rw [hpath]
        simp only [List.append_assoc]

/-- The path that is handed on has no slash in front. -/
theorem routed_pathString (h : channelRegExp msg.pathString = some (chanID, part)) :
    '/' :: (routed msg).pathString
      = if msg.pathString.head? = some '/' then msg.pathString else '/' :: msg.pathString := by
  unfold routed
  split
  next hslash =>
      obtain ⟨⟨q, hq⟩, -⟩ := channelRegExp_eq_some h
      rw [if_pos hslash] at hq
      -- behind the slash stands the `c` of `channels`
      have hkept : (msg.pathString.drop 1).dropWhile (· = '/') = msg.pathString.drop 1 := by
        rw [hq]
        rfl
      show '/' :: ['/'].intercalate (((msg.pathString.drop 1).dropWhile (· = '/')).splitOn '/')
        = msg.pathString
      rw [hkept, List.intercalate_splitOn, hq]
      rfl
  next => rfl

/-- The id that the handlers work with is the one of the path. -/
theorem id_routed (h : channelRegExp msg.pathString = some (chanID, part)) :
    id (routed msg) = chanID := by
  obtain ⟨⟨q, hq⟩, -, hslash⟩ := channelRegExp_eq_some h
  have hsplit : (routed msg).pathString.splitOn '/'
      = ['c', 'h', 'a', 'n', 'n', 'e', 'l', 's'] :: chanID ::
        (['m', 'e', 's', 's', 'a', 'g', 'e', 's'] ++ (part ++ q)).splitOn '/' := by
    have hpath : (routed msg).pathString
        = ['c', 'h', 'a', 'n', 'n', 'e', 'l', 's'] ++ '/' ::
          (chanID ++ '/' :: (['m', 'e', 's', 's', 'a', 'g', 'e', 's'] ++ (part ++ q))) := by
      have hcons := (routed_pathString h).trans hq
      exact List.tail_eq_of_cons_eq hcons
    rw [hpath, List.splitOn_append_cons_self_of_not_mem (by decide),
      List.splitOn_append_cons_self_of_not_mem hslash]
  rw [id, hsplit]

end Channel

/-! ## §5. What a request asks for. -/

/-- The answers of the services. -/
structure Outcome where
  access : Access
  publish : Option ServiceErr := none
  subscribe : Option ServiceErr := none

/-- Services that keep a record of what they are asked. -/
def recorder (o : Outcome) : Handler Sig (List Cmd)
  | .canAccessByKey token chanID, log => (log ++ [.canAccessByKey token chanID], o.access)
  | .publish m, log => (log ++ [.publish m], o.publish)
  | .subscribe chanID subtopic obsID, log =>
      (log ++ [.subscribe chanID subtopic obsID], o.subscribe)
  | .unsubscribe obsID, log => (log ++ [.unsubscribe obsID], ())
  | .respond obsID, log => (log ++ [.respond obsID], ())

/-- All that a request asks for, in order. -/
def issued (o : Outcome) (msg : Message) : List Cmd := ((mux msg).run (recorder o) []).1

/-- The answers that `authorize` lets through. -/
def Access.Passes (a : Access) : Prop := a.err = none ∨ a.err = some .plain

instance (a : Access) : Decidable a.Passes := inferInstanceAs (Decidable (_ ∨ _))

/-- The request gets as far as the call, for this channel, subtopic and key. -/
structure Asks (msg : Message) (chanID subtopic key : Text) : Prop where
  channel : ∃ part, channelRegExp msg.pathString = some (chanID, part)
  payload : ¬ (msg.code ≠ .get ∧ msg.type = .confirmable ∧ msg.payload = [])
  subtopic : fmtSubtopic (routed msg) = some subtopic
  key : authKey msg = some key

/-- What the request then asks for, under the id of a thing. -/
def afterwards (msg : Message) (chanID subtopic thing : Text) : List Cmd :=
  if msg.code = .get then
    if msg.type = .acknowledgement then [.respond (fmtObsID msg.token thing chanID)]
    else
      (if msg.observe.head? = some 1 ∨ msg.type = .reset then
        [.unsubscribe (fmtObsID msg.token thing chanID)] else []) ++
      if msg.observe.head? = some 0 then
        [.subscribe chanID subtopic (fmtObsID msg.token thing chanID)] else []
  else
    [.publish ⟨chanID, subtopic, thing, contentType msg, protocol, msg.payload⟩]

section Runs

variable {o : Outcome} {msg res : Message} {cid key : Text} {log : List Cmd}

theorem routed_fields (msg : Message) :
    (routed msg).code = msg.code ∧ (routed msg).type = msg.type ∧
      (routed msg).payload = msg.payload ∧ authKey (routed msg) = authKey msg ∧
      ∀ chanID subtopic thing,
        afterwards (routed msg) chanID subtopic thing = afterwards msg chanID subtopic thing := by
  unfold routed
  split
  next => exact ⟨rfl, rfl, rfl, rfl, fun _ _ _ => rfl⟩
  next => exact ⟨rfl, rfl, rfl, rfl, fun _ _ _ => rfl⟩

theorem run_authorize_none (h : authKey msg = none) (res : Message) (cid : Text) :
    ∃ res' e, (authorize msg res cid).run (recorder o) [] = ([], res', .error e) := by
  unfold authorize
  rw [h]
  exact ⟨_, _, rfl⟩

/-- The call is made, and lets through more than it should. -/
theorem run_authorize_some (h : authKey msg = some key) (res : Message) (cid : Text) :
    ∃ res' r, (authorize msg res cid).run (recorder o) [] = ([.canAccessByKey key cid], res', r) ∧
      (o.access.Passes → r = .ok o.access.value) ∧
      (¬ o.access.Passes → ∃ e, r = .error e) := by
  unfold authorize Access.Passes
  simp only [h, cmd, Prog.run_bind, Prog.run_call, Prog.run_ret, recorder]
  cases herr : o.access.err with
  | none => exact ⟨_, _, rfl, fun _ => rfl, fun hno => absurd (.inl rfl) hno⟩
  | some e =>
      cases e with
      -- only the code of the response tells that there was an error
      | plain => exact ⟨_, _, rfl, fun _ => rfl, fun hno => absurd (.inr rfl) hno⟩
      | status code =>
          cases code with
          | permissionDenied => exact ⟨_, _, rfl, fun hp => by simp at hp, fun _ => ⟨_, rfl⟩⟩
          | other => exact ⟨_, _, rfl, fun hp => by simp at hp, fun _ => ⟨_, rfl⟩⟩

/-- `receive` makes no call without a payload, a subtopic and a key. -/
theorem receive_stops (h : msg.type = .confirmable ∧ msg.payload = [] ∨
      fmtSubtopic msg = none ∨ authKey msg = none) :
    ((receive msg).run (recorder o) []).1 = [] := by
  unfold receive
  split
  next => rfl
  next hpayload =>
      split
      next => rfl
      next =>
          cases hsub : fmtSubtopic msg with
          | none => rfl
          | some subtopic =>
              have hkey : authKey msg = none := by
                rcases h with h | h | h
                · exact absurd h hpayload
                · rw [hsub] at h
                  cases h
                · exact h
              obtain ⟨res', e, hrun⟩ := run_authorize_none (o := o) hkey (received msg) (id msg)
              simp only [Prog.run_bind, hrun]
              rfl

theorem receive_asks {subtopic : Text} (hpayload : ¬ (msg.type = .confirmable ∧ msg.payload = []))
    (hid : id msg ≠ []) (hsub : fmtSubtopic msg = some subtopic) (hkey : authKey msg = some key) :
    ((receive msg).run (recorder o) []).1
      = .canAccessByKey key (id msg) ::
        if o.access.Passes then
          [.publish ⟨id msg, subtopic, o.access.value, contentType msg, protocol, msg.payload⟩]
        else [] := by
  unfold receive
  rw [if_neg hpayload, if_neg hid, hsub]
  simp only [Prog.run_bind]
  obtain ⟨res', r, hrun, hpass, hfail⟩ := run_authorize_some (o := o) hkey (received msg) (id msg)
  rw [hrun]
  by_cases hp : o.access.Passes
  · rw [if_pos hp, hpass hp]
    simp only [cmd, Prog.run_bind, Prog.run_call, Prog.run_ret, recorder]
    cases o.publish with
    | none => rfl
    | some e => rfl
  · rw [if_neg hp]
    obtain ⟨e, rfl⟩ := hfail hp
    rfl

/-- `observe` makes no call without a subtopic and a key. -/
theorem observe_stops (h : fmtSubtopic msg = none ∨ authKey msg = none) :
    ((observe msg).run (recorder o) []).1 = [] := by
  unfold observe
  split
  next => rfl
  next =>
      cases hsub : fmtSubtopic msg with
      | none => rfl
      | some subtopic =>
          have hkey : authKey msg = none := by
            rcases h with h | h
            · rw [hsub] at h
              cases h
            · exact h
          obtain ⟨res', e, hrun⟩ := run_authorize_none (o := o) hkey (observed msg) (id msg)
          simp only [Prog.run_bind, hrun]
          rfl

theorem run_register (subtopic obsID : Text) :
    ((register msg res subtopic obsID).run (recorder o) log).1
      = log ++ if msg.observe.head? = some 0 then [.subscribe (id msg) subtopic obsID] else [] := by
  unfold register
  split
  next =>
      simp only [cmd, Prog.run_bind, Prog.run_call, Prog.run_ret, recorder]
      cases o.subscribe with
      | none => rfl
      | some e => rfl
  next => exact (List.append_nil _).symm

theorem observe_asks {subtopic : Text} (hget : msg.code = .get) (hid : id msg ≠ [])
    (hsub : fmtSubtopic msg = some subtopic) (hkey : authKey msg = some key) :
    ((observe msg).run (recorder o) []).1
      = .canAccessByKey key (id msg) ::
        if o.access.Passes then afterwards msg (id msg) subtopic o.access.value else [] := by
  unfold observe afterwards
  rw [if_neg hid, hsub, if_pos hget]
  simp only [Prog.run_bind]
  obtain ⟨res', r, hrun, hpass, hfail⟩ := run_authorize_some (o := o) hkey (observed msg) (id msg)
  rw [hrun]
  by_cases hp : o.access.Passes
  · rw [if_pos hp, hpass hp]
    by_cases hack : msg.type = .acknowledgement
    · rw [if_pos hack]
      simp only [if_pos hack]
      rfl
    · rw [if_neg hack]
      simp only [if_neg hack]
      by_cases hstop : msg.observe.head? = some 1 ∨ msg.type = .reset
      · simp only [if_pos hstop, cmd, Prog.run_bind, Prog.run_call, Prog.run_ret, recorder,
          run_register]
        rfl
      · simp only [if_neg hstop, run_register]
        rfl
  · rw [if_neg hp]
    obtain ⟨e, rfl⟩ := hfail hp
    rfl

/-- **A request that gets as far as the call**: what it asks for, in order. -/
theorem issued_of_asks {chanID subtopic : Text} (o : Outcome) (h : Asks msg chanID subtopic key) :
    issued o msg
      = .canAccessByKey key chanID ::
        if o.access.Passes then afterwards msg chanID subtopic o.access.value else [] := by
  obtain ⟨⟨part, hchan⟩, hpayload, hsub, hkey⟩ := h
  obtain ⟨hcode, htype, hbody, hauth, hafter⟩ := routed_fields msg
  obtain ⟨-, hne, -⟩ := channelRegExp_eq_some hchan
  have hid : id (routed msg) = chanID := id_routed hchan
  rw [← hauth] at hkey
  unfold issued mux
  rw [hchan]
  -- `mux` tells only `GET` from the other codes
  by_cases hget : msg.code = .get
  · simp only [if_pos hget]
    rw [observe_asks (hcode.trans hget) (hid ▸ hne) hsub hkey, hafter, hid]
  · simp only [if_neg hget]
    have hpayload' : ¬ ((routed msg).type = .confirmable ∧ (routed msg).payload = []) := by
      rw [htype, hbody]
      exact fun h => hpayload ⟨hget, h⟩
    have hrun := receive_asks (o := o) hpayload' (hid ▸ hne) hsub hkey
    have hpublish : afterwards (routed msg) chanID subtopic o.access.value
        = [.publish ⟨chanID, subtopic, o.access.value, contentType (routed msg), protocol,
            (routed msg).payload⟩] := if_neg (hcode ▸ hget)
    rw [hid, ← hpublish, hafter] at hrun
    rw [← hrun]
    show ((receive (routed msg) >>= fun res => pure (some res)).run (recorder o) []).1 = _
    rw [Prog.run_bind]
    rfl

/-- Any other request asks for nothing. -/
theorem issued_of_not_asks (o : Outcome)
    (h : ∀ chanID subtopic key, ¬ Asks msg chanID subtopic key) : issued o msg = [] := by
  obtain ⟨hcode, htype, hbody, hauth, -⟩ := routed_fields msg
  unfold issued mux
  cases hchan : channelRegExp msg.pathString with
  | none => rfl
  | some groups =>
      obtain ⟨chanID, part⟩ := groups
      -- something is missing behind the channel
      have hmissing : (msg.code ≠ .get ∧ msg.type = .confirmable ∧ msg.payload = []) ∨
          fmtSubtopic (routed msg) = none ∨ authKey (routed msg) = none := by
        by_contra hall
        simp only [not_or, Option.ne_none_iff_exists'] at hall
        obtain ⟨hpayload, ⟨subtopic, hsub⟩, key, hkey⟩ := hall
        exact h chanID subtopic key ⟨⟨part, hchan⟩, hpayload, hsub, hauth ▸ hkey⟩
      by_cases hget : msg.code = .get
      · simp only [if_pos hget]
        refine observe_stops (hmissing.resolve_left fun hno => hno.1 hget)
      · simp only [if_neg hget]
        have hstops : ((receive (routed msg)).run (recorder o) []).1 = [] := by
          refine receive_stops (hmissing.imp_left fun hno => ?_)
          rw [htype, hbody]
          exact hno.2
        show ((receive (routed msg) >>= fun res => pure (some res)).run (recorder o) []).1 = _
        rw [Prog.run_bind, hstops]
        rfl

end Runs

/-! ## §6. Access. -/

/-- The commands that publish a message or register, replace or remove an observer. -/
def Cmd.Writes : Cmd → Prop
  | .publish _ => True
  | .subscribe _ _ _ => True
  | .unsubscribe _ => True
  | _ => False

/-- The command is under the name of a thing and on a channel. -/
def Cmd.Under (token : List UInt8) (thing chanID : Text) : Cmd → Prop
  | .publish m => m.publisher = thing ∧ m.channel = chanID
  | .subscribe channel _ obsID => channel = chanID ∧ obsID = fmtObsID token thing chanID
  | .unsubscribe obsID => obsID = fmtObsID token thing chanID
  | _ => True

/-- **Nothing is written without access**: before a write the call was made and returned no
error, and the write is under the thing id it returned and the channel id of the path. -/
def FailsClosed (o : Outcome) (msg : Message) : Prop :=
  ∀ before c after, issued o msg = before ++ c :: after → c.Writes →
    ∃ key chanID part, .canAccessByKey key chanID ∈ before ∧
      channelRegExp msg.pathString = some (chanID, part) ∧ o.access.err = none ∧
      c.Under msg.token o.access.value chanID

/-- The request is one that writes: it gets as far as the call, and if it is a `GET` it
is no acknowledgement and asks to start or to stop observing. -/
def Acts (msg : Message) : Prop :=
  ∃ chanID subtopic key, Asks msg chanID subtopic key ∧
    (msg.code = .get → msg.type ≠ .acknowledgement ∧
      (msg.observe.head? = some 0 ∨ msg.observe.head? = some 1 ∨ msg.type = .reset))

section Access

variable {o : Outcome} {msg : Message} {chanID subtopic thing : Text} {c : Cmd}

/-- A write that comes after the call. -/
theorem write_afterwards (h : c ∈ afterwards msg chanID subtopic thing) (hw : c.Writes) :
    c.Under msg.token thing chanID ∧
      (msg.code = .get → msg.type ≠ .acknowledgement ∧
        (msg.observe.head? = some 0 ∨ msg.observe.head? = some 1 ∨ msg.type = .reset)) := by
  unfold afterwards at h
  split at h
  next hget =>
      split at h
      next hack =>
          rw [List.mem_singleton.mp h] at hw
          cases hw
      next hack =>
          rcases List.mem_append.mp h with h | h
          · split at h
            next hstop =>
                rw [List.mem_singleton.mp h]
                exact ⟨rfl, fun _ => ⟨hack, .inr hstop⟩⟩
            next => cases h
          · split at h
            next hstart =>
                rw [List.mem_singleton.mp h]
                exact ⟨⟨rfl, rfl⟩, fun _ => ⟨hack, .inl hstart⟩⟩
            next => cases h
  next hget =>
      rw [List.mem_singleton.mp h]
      exact ⟨⟨rfl, rfl⟩, fun h => absurd h hget⟩

theorem exists_write (chanID subtopic thing : Text)
    (h : msg.code = .get → msg.type ≠ .acknowledgement ∧
      (msg.observe.head? = some 0 ∨ msg.observe.head? = some 1 ∨ msg.type = .reset)) :
    ∃ c ∈ afterwards msg chanID subtopic thing, c.Writes := by
  unfold afterwards
  split
  next hget =>
      obtain ⟨hack, hwhat⟩ := h hget
      rw [if_neg hack]
      rcases hwhat with hstart | hstop
      · rw [if_pos hstart]
        exact ⟨.subscribe _ _ _, List.mem_append_right _ List.mem_cons_self, trivial⟩
      · rw [if_pos hstop]
        exact ⟨.unsubscribe _, List.mem_append_left _ List.mem_cons_self, trivial⟩
  next => exact ⟨_, List.mem_cons_self, trivial⟩

/-- The first command of a request that asks is the call, so a write comes after it. -/
theorem call_before_write {key : Text} {before after : List Cmd}
    (hasks : Asks msg chanID subtopic key) (hissued : issued o msg = before ++ c :: after)
    (hw : c.Writes) :
    .canAccessByKey key chanID ∈ before ∧ o.access.Passes ∧
      c ∈ afterwards msg chanID subtopic o.access.value := by
  rw [issued_of_asks o hasks] at hissued
  cases before with
  | nil =>
      rw [List.nil_append, List.cons.injEq] at hissued
      rw [← hissued.1] at hw
      cases hw
  | cons b before =>
      rw [List.cons_append, List.cons.injEq] at hissued
      obtain ⟨rfl, hafter⟩ := hissued
      have hpass : o.access.Passes := by
        by_contra hno
        rw [if_neg hno] at hafter
        cases before <;> cases hafter
      rw [if_pos hpass] at hafter
      refine ⟨List.mem_cons_self, hpass, ?_⟩
      rw [hafter]
      exact List.mem_append_right _ List.mem_cons_self

/-- **When nothing is written without access**: an error without a gRPC status must not
meet a request that writes. -/
theorem failsClosed_iff (o : Outcome) (msg : Message) :
    FailsClosed o msg ↔ o.access.err ≠ some .plain ∨ ¬ Acts msg := by
  constructor
  · intro hclosed
    by_contra hboth
    rw [not_or, not_not, not_not] at hboth
    obtain ⟨hplain, chanID, subtopic, key, hasks, hacts⟩ := hboth
    -- such a request writes, and the error is not looked at before it does
    obtain ⟨c, hc, hw⟩ := exists_write chanID subtopic o.access.value hacts
    obtain ⟨before, after, hsplit⟩ := List.append_of_mem hc
    have hissued : issued o msg = (.canAccessByKey key chanID :: before) ++ c :: after := by
      rw [issued_of_asks o hasks, if_pos (.inr hplain), hsplit]
      rfl
    obtain ⟨-, -, -, -, -, hnone, -⟩ := hclosed _ c after hissued hw
    rw [hplain] at hnone
    cases hnone
  · intro hcond before c after hissued hw
    by_cases hasks : ∃ chanID subtopic key, Asks msg chanID subtopic key
    · obtain ⟨chanID, subtopic, key, hasks⟩ := hasks
      obtain ⟨hcall, hpass, hc⟩ := call_before_write hasks hissued hw
      obtain ⟨hunder, hacts⟩ := write_afterwards hc hw
      have hnone : o.access.err = none := by
        refine hpass.resolve_right fun hplain => ?_
        exact hcond.elim (fun hne => hne hplain) fun hno => hno ⟨_, _, _, hasks, hacts⟩
      obtain ⟨part, hchan⟩ := hasks.channel
      exact ⟨key, chanID, part, hcall, hchan, hnone, hunder⟩
    · rw [issued_of_not_asks o fun chanID subtopic key h => hasks ⟨_, _, _, h⟩] at hissued
      cases before <;> cases hissued

end Access

/-- A reading for channel 1. -/
def reading : Message where
  type := .nonConfirmable
  code := 2
  payload := [42]
  uriPath := [['c', 'h', 'a', 'n', 'n', 'e', 'l', 's'], ['1'],
    ['m', 'e', 's', 's', 'a', 'g', 'e', 's']]
  uriQuery := [authorization ++ ['=', 'k']]

/-- It is published, for nobody, although the call has failed. -/
theorem plain_error_publishes : ¬ ∀ (o : Outcome) (msg : Message), FailsClosed o msg := by
  intro h
  have hissued : issued ⟨⟨[], some .plain⟩, none, none⟩ reading
      = [.canAccessByKey ['k'] ['1']] ++
        .publish ⟨['1'], [], [], [], protocol, [42]⟩ :: [] := by decide
  obtain ⟨-, -, -, -, -, hnone, -⟩ :=
    h ⟨⟨[], some .plain⟩, none, none⟩ reading _ _ _ hissued trivial
  cases hnone

/-! ## §7. The observers behind the handler. -/

/-- The handler over the observers of `Coap.Adapter`: where NATS accepts the subscription
the observer is stored at once. -/
def onAdapter (o : Outcome) : Handler Sig Adapter
  | .canAccessByKey _ _, s => (s, o.access)
  | .publish _, s => (s, o.publish)
  | .subscribe _ _ obsID, s =>
      (if o.subscribe = none then
        step (step s (.subscribe (String.ofList obsID))) (.store s.next) else s, o.subscribe)
  | .unsubscribe obsID, s => (step s (.unsubscribe (String.ofList obsID)), ())
  | .respond obsID, s => (step s (.ack (String.ofList obsID)), ())

section Observers

variable {o : Outcome} {msg : Message} {s : Adapter} {thing chanID : Text} {c : Cmd}

/-- The observers see what the request asks for, in order. -/
theorem run_onAdapter (o : Outcome) (msg : Message) (s : Adapter) :
    ((mux msg).run (onAdapter o) s).1
      = (issued o msg).foldl (fun s c => (onAdapter o c s).1) s := by
  -- the two handlers answer alike, and the observers are the record played back
  have hstep : ∀ (c : Cmd) (log : List Cmd) (t : Adapter), True →
      t = log.foldl (fun s c => (onAdapter o c s).1) s →
      (recorder o c log).2 = (onAdapter o c t).2 ∧
        (onAdapter o c t).1 = (recorder o c log).1.foldl (fun s c => (onAdapter o c s).1) s := by
    intro c log t _ ht
    have hfold : (log ++ [c]).foldl (fun s c => (onAdapter o c s).1) s = (onAdapter o c t).1 := by
      rw [List.foldl_append, ht]
      rfl
    cases c <;> exact ⟨rfl, hfold.symm⟩
  have huses : (mux msg).Uses fun _ => True := Prog.uses_of_forall (fun _ => trivial) _
  exact (Prog.run_sim (R := fun log t => t = log.foldl (fun s c => (onAdapter o c s).1) s) hstep
    huses (s := []) rfl).2

/-- A subscription is stored under its own id only. -/
theorem subscribe_elsewhere {obsID x : String} (h : x ≠ obsID) :
    (step (step s (.subscribe obsID)) (.store s.next)).obs x = s.obs x := by
  unfold step
  by_cases hp : s.panicked = true
  · simp only [if_pos hp]
  · simp only [if_neg hp]
    split
    next => rfl
    next =>
        split
        next =>
            -- the observer that is stored is the one just made
            have hid : ((s.subscribe obsID).observers s.next).obsID = obsID := by
              simp [Adapter.subscribe]
            rw [store_obs, hid, Function.update_of_ne h]
            rfl
        next => rfl

/-- A command under a thing and a channel touches no other observer. -/
theorem onAdapter_elsewhere {x : String} (hc : c.Under msg.token thing chanID)
    (hx : x ≠ String.ofList (fmtObsID msg.token thing chanID)) :
    (onAdapter o c s).1.obs x = s.obs x := by
  cases c with
  | canAccessByKey token chan => rfl
  | publish m => rfl
  | subscribe chan subtopic obsID =>
      obtain ⟨-, rfl⟩ := hc
      simp only [onAdapter]
      split
      next => exact subscribe_elsewhere hx
      next => rfl
  | unsubscribe obsID =>
      obtain rfl : obsID = fmtObsID msg.token thing chanID := hc
      simp only [onAdapter, step]
      split
      next => rfl
      next => rw [remove_obs, Function.update_of_ne hx]
  | respond obsID =>
      simp only [onAdapter, step]
      split
      next => rfl
      next => split <;> rfl

/-- Whatever a request asks for is under the thing of the answer and the channel of the
path. -/
theorem issued_under (hchan : ∃ part, channelRegExp msg.pathString = some (chanID, part))
    (hc : c ∈ issued o msg) : c.Under msg.token o.access.value chanID := by
  by_cases hasks : ∃ chanID subtopic key, Asks msg chanID subtopic key
  · obtain ⟨chanID', subtopic, key, hasks⟩ := hasks
    obtain ⟨part, hpart⟩ := hchan
    obtain ⟨part', hpart'⟩ := hasks.channel
    obtain rfl : chanID' = chanID := by
      rw [hpart] at hpart'
      exact (congrArg Prod.fst (Option.some.inj hpart')).symm
    rw [issued_of_asks o hasks] at hc
    rcases List.mem_cons.mp hc with rfl | hc
    · trivial
    · split at hc
      next =>
          by_cases hw : c.Writes
          · exact (write_afterwards hc hw).1
          · cases c with
            | canAccessByKey token chan => trivial
            | respond obsID => trivial
            | publish m => exact absurd trivial hw
            | subscribe chan subtopic obsID => exact absurd trivial hw
            | unsubscribe obsID => exact absurd trivial hw
      next => cases hc
  · rw [issued_of_not_asks o fun chanID subtopic key h => hasks ⟨_, _, _, h⟩] at hc
    cases hc

/-- **A request touches no observer but the one of its token, thing and channel**, whatever
the call returns. -/
theorem observers_elsewhere (o : Outcome) (msg : Message) (s : Adapter) {x : String}
    (hx : ∀ chanID part, channelRegExp msg.pathString = some (chanID, part) →
      x ≠ String.ofList (fmtObsID msg.token o.access.value chanID)) :
    ((mux msg).run (onAdapter o) s).1.obs x = s.obs x := by
  cases hchan : channelRegExp msg.pathString with
  | none =>
      unfold mux
      rw [hchan]
      rfl
  | some groups =>
      obtain ⟨chanID, part⟩ := groups
      rw [run_onAdapter]
      have hunder : ∀ c ∈ issued o msg, c.Under msg.token o.access.value chanID := fun c hc =>
        issued_under ⟨part, hchan⟩ hc
      -- command by command: only that each is under the one name is used
      generalize issued o msg = cmds at hunder
      induction cmds generalizing s with
      | nil => rfl
      | cons c cmds ih =>
          rw [List.foldl_cons, ih _ fun c' hc' => hunder c' (List.mem_cons_of_mem _ hc')]
          exact onAdapter_elsewhere (hunder c List.mem_cons_self) (hx chanID part hchan)

/-- Refused with a status, it touches none. -/
theorem observers_kept (o : Outcome) (msg : Message) (s : Adapter) {code : GrpcCode}
    (herr : o.access.err = some (.status code)) : ((mux msg).run (onAdapter o) s).1 = s := by
  have hno : ¬ o.access.Passes := by
    rintro (h | h)
    · rw [herr] at h
      cases h
    · rw [herr] at h
      cases h
  rw [run_onAdapter]
  by_cases hasks : ∃ chanID subtopic key, Asks msg chanID subtopic key
  · obtain ⟨chanID, subtopic, key, hasks⟩ := hasks
    rw [issued_of_asks o hasks, if_neg hno]
    rfl
  · rw [issued_of_not_asks o fun chanID subtopic key h => hasks ⟨_, _, _, h⟩]
    rfl

end Observers

end Mainflux.Coap.Api
