/-
  Mainflux.Bootstrap.Producer
  ───────────────────────────
  **THE EVENT-STORE MIDDLEWARE OF THE BOOTSTRAP SERVICE.**

  `redis/producer/streams.go` wraps the service: each method calls a method of
  the wrapped service (`es.svc`), some append an event to the stream
  `mainflux.bootstrap`, and the reply is passed on.  A method may as well call
  a method of the middleware itself (`es`), and one does:
  `UpdateChannelHandler` calls `es.UpdateChannelHandler`.

  The methods are programs over these calls; a call on `es` runs another
  method, so running a method takes fuel (`exec`), and a method returns when
  SOME fuel is enough.

    • `transparent_iff` — a run through the middleware returns, makes the same
      calls on the wrapped service, passes on its replies and appends at most
      one event a call EXACTLY WHEN no call of it is `UpdateChannelHandler`;
    • `updateChannelHandler_never_returns` — that one returns with no fuel.
-/
import Mainflux.Bootstrap.Configs
import Mainflux.Lib.Prog

namespace Mainflux.Bootstrap.Producer

open Mainflux.Lib

/-! ## §1. The `Service` interface. -/

/-- `bootstrap.Filter`. -/
structure Filter where
  unknown : Bool
  fullMatch : List (String × String)
  partialMatch : List (String × String)

/-- `bootstrap.ConfigsPage`. -/
structure ConfigsPage where
  total : Nat
  offset : Nat
  limit : Nat
  configs : List Config

/-- The operations of `bootstrap.Service`, with their arguments.  The state of
`ChangeState` is any int here: the middleware does not look at it. -/
inductive Op
  | add (key : String) (cfg : Config)
  | view (key id : String)
  | update (key : String) (cfg : Config)
  | updateCert (key thingKey clientCert clientKey caCert : String)
  | updateConnections (key id : String) (connections : List String)
  | list (key : String) (filter : Filter) (offset limit : Nat)
  | remove (key id : String)
  | bootstrap (externalKey externalID : String) (secure : Bool)
  | changeState (key id : String) (state : Int)
  | removeConfigHandler (id : String)
  | updateChannelHandler (channel : Channel)
  | removeChannelHandler (id : String)
  | disconnectThingHandler (channelID thingID : String)

/-- What each operation returns; the error comes last, `none` for nil. -/
@[reducible] def Op.Res : Op → Type
  | .add _ _ => Config × Option Err
  | .view _ _ => Config × Option Err
  | .list _ _ _ _ => ConfigsPage × Option Err
  | .bootstrap _ _ _ => Config × Option Err
  | _ => Option Err

/-- The error of a reply. -/
def Op.err : (op : Op) → op.Res → Option Err
  | .add _ _, r => r.2
  | .view _ _, r => r.2
  | .list _ _ _ _, r => r.2
  | .bootstrap _ _ _, r => r.2
  | .update _ _, r => r
  | .updateCert _ _ _ _ _, r => r
  | .updateConnections _ _ _, r => r
  | .remove _ _, r => r
  | .changeState _ _ _, r => r
  | .removeConfigHandler _, r => r
  | .updateChannelHandler _, r => r
  | .removeChannelHandler _, r => r
  | .disconnectThingHandler _ _, r => r

/-- An operation and what it returned. -/
abbrev Reply := (op : Op) × op.Res

/-! ## §2. Events. -/

/-- The values of an encoded event. -/
inductive Value
  | str (s : String)
  | int (n : Int)
  | bool (b : Bool)

/-- `ev.encode()`. -/
abbrev Fields := List (String × Value)

/-- `createConfigEvent`. -/
def createConfigEvent (saved : Config) (timestamp : Int) : Fields :=
  [("thing_id", .str saved.mfThing), ("owner", .str saved.owner), ("name", .str saved.name),
    ("channels", .str (", ".intercalate (saved.mfChannels.map Channel.id))),
    ("external_id", .str saved.externalID), ("content", .str saved.content),
    ("timestamp", .int timestamp), ("operation", .str "config.create")]

/-- `updateConfigEvent`. -/
def updateConfigEvent (cfg : Config) (timestamp : Int) : Fields :=
  [("thing_id", .str cfg.mfThing), ("name", .str cfg.name), ("content", .str cfg.content),
    ("timestamp", .int timestamp), ("operation", .str "config.update")]

/-- `removeConfigEvent`. -/
def removeConfigEvent (id : String) (timestamp : Int) : Fields :=
  [("thing_id", .str id), ("timestamp", .int timestamp), ("operation", .str "config.remove")]

/-- `bootstrapEvent`. -/
def bootstrapEvent (externalID : String) (success : Bool) (timestamp : Int) : Fields :=
  [("external_id", .str externalID), ("success", .bool success), ("timestamp", .int timestamp),
    ("operation", .str "thing.bootstrap")]

/-- `changeStateEvent`; `State.String` is `strconv.Itoa`. -/
def changeStateEvent (id : String) (state : Int) (timestamp : Int) : Fields :=
  [("thing_id", .str id), ("state", .str (toString state)), ("timestamp", .int timestamp),
    ("operation", .str "thing.state_change")]

/-- `updateConnectionsEvent`. -/
def updateConnectionsEvent (id : String) (connections : List String) (timestamp : Int) : Fields :=
  [("thing_id", .str id), ("channels", .str (", ".intercalate connections)),
    ("timestamp", .int timestamp), ("operation", .str "thing.update_connections")]

/-! ## §3. The methods. -/

/-- What a method of the middleware does: a call on the wrapped service, a call
on the middleware itself, `time.Now`, one XADD. -/
inductive Cmd
  | svc (op : Op)
  | es (op : Op)
  | now
  | xadd (values : Fields)

@[reducible] def Cmd.Res : Cmd → Type
  | .svc op => op.Res
  | .es op => op.Res
  | .now => Int
  | .xadd _ => Unit

abbrev Sig : Signature := ⟨Cmd, Cmd.Res⟩

def cmd (c : Cmd) : Prog Sig c.Res := .call (S := Sig) c .ret

/-- `es.add(ev)` with the time of now; its error is dropped. -/
def addEvent (ev : Int → Fields) : Prog Sig Unit := do
  let timestamp ← cmd .now
  cmd (.xadd (ev timestamp))

/-- The methods of `eventStore`. -/
def eventStore : (op : Op) → Prog Sig op.Res
  | .add key cfg => do
      let (saved, err) ← cmd (.svc (.add key cfg))
      match err with
      | some e => return (saved, some e)
      | none =>
          addEvent (createConfigEvent saved)
          return (saved, none)
  | .view key id => cmd (.svc (.view key id))
  | .update key cfg => do
      match ← cmd (.svc (.update key cfg)) with
      | some e => return some e
      | none =>
          addEvent (updateConfigEvent cfg)
          return none
  | .updateCert key thingKey clientCert clientKey caCert =>
      cmd (.svc (.updateCert key thingKey clientCert clientKey caCert))
  | .updateConnections key id connections => do
      match ← cmd (.svc (.updateConnections key id connections)) with
      | some e => return some e
      | none =>
          addEvent (updateConnectionsEvent id connections)
          return none
  | .list key filter offset limit => cmd (.svc (.list key filter offset limit))
  | .remove key id => do
      match ← cmd (.svc (.remove key id)) with
      | some e => return some e
      | none =>
          addEvent (removeConfigEvent id)
          return none
  | .bootstrap externalKey externalID secure => do
      let (cfg, err) ← cmd (.svc (.bootstrap externalKey externalID secure))
      addEvent (bootstrapEvent externalID err.isNone)
      return (cfg, err)
  | .changeState key id state => do
      match ← cmd (.svc (.changeState key id state)) with
      | some e => return some e
      | none =>
          addEvent (changeStateEvent id state)
          return none
  | .removeConfigHandler id => cmd (.svc (.removeConfigHandler id))
  | .removeChannelHandler id => cmd (.svc (.removeChannelHandler id))
  -- the receiver is the middleware, not the wrapped service
  | .updateChannelHandler channel => cmd (.es (.updateChannelHandler channel))
  | .disconnectThingHandler channelID thingID => cmd (.svc (.disconnectThingHandler channelID thingID))

/-! ## §4. Running a method. -/

/-- The clock, and whether the stream takes the `n`th event. -/
structure Env where
  now : Nat → Int
  accepts : Nat → Bool

/-- The state of the wrapped service, the calls made on it so far, the events
appended to the stream (whatever the stream has trimmed of them since) and the
number of clock readings and events sent. -/
structure St (σ : Type) where
  inner : σ
  calls : List Op
  stream : List Fields
  tick : Nat

section Exec

variable {σ : Type} (E : Env) (svc : (op : Op) → σ → σ × op.Res)

/-- What the commands do, given what a call on the middleware does. -/
def handle (self : (op : Op) → St σ → Option (St σ × op.Res)) : Prog.PartialHandler Sig (St σ)
  | .svc op, s => some ({ s with inner := (svc op s.inner).1, calls := s.calls ++ [op] },
      (svc op s.inner).2)
  | .es op, s => self op s
  | .now, s => some ({ s with tick := s.tick + 1 }, E.now s.tick)
  | .xadd values, s =>
      some ({ s with
        stream := if E.accepts s.tick then s.stream ++ [values] else s.stream
        tick := s.tick + 1 }, ())

/-- A method of the middleware, with `fuel` for the calls it makes on itself. -/
def exec : Nat → (op : Op) → St σ → Option (St σ × op.Res)
  | 0, _, _ => none
  | fuel + 1, op, s => (eventStore op).run? (handle E svc (exec fuel)) s

/-- The calls of a run, one after another. -/
def execAll (fuel : Nat) : List Op → St σ → Option (St σ × List Reply)
  | [], s => some (s, [])
  | op :: ops, s =>
      match exec E svc fuel op s with
      | none => none
      | some (s', r) =>
          match execAll fuel ops s' with
          | none => none
          | some (s'', rs) => some (s'', ⟨op, r⟩ :: rs)

/-- The same run on the bare service. -/
def bare : List Op → σ → σ × List Reply
  | [], i => (i, [])
  | op :: ops, i =>
      ((bare ops (svc op i).1).1, ⟨op, (svc op i).2⟩ :: (bare ops (svc op i).1).2)

/-- The operations that announce their success only. -/
def Op.AnnouncesSuccess : Op → Prop
  | .add _ _ => True
  | .update _ _ => True
  | .remove _ _ => True
  | .updateConnections _ _ _ => True
  | .changeState _ _ _ => True
  | _ => False

/-- At most one event for each reply, and none for a failure of the operations
that announce their success. -/
inductive Appended : List Reply → List Fields → List Fields → Prop
  | nil {st : List Fields} : Appended [] st st
  | quiet {r : Reply} {rs : List Reply} {st st' : List Fields} (h : Appended rs st st') :
      Appended (r :: rs) st st'
  | event {r : Reply} {rs : List Reply} {st st' : List Fields} (ev : Fields)
      (hok : r.1.AnnouncesSuccess → r.1.err r.2 = none) (h : Appended rs (st ++ [ev]) st') :
      Appended (r :: rs) st st'

/-- The run through the middleware returns; the wrapped service has received
the calls of the run and nothing else, and its replies are passed on. -/
def Transparent (s : St σ) (ops : List Op) : Prop :=
  ∃ fuel s' replies, execAll E svc fuel ops s = some (s', replies) ∧
    (s'.inner, replies) = bare svc ops s.inner ∧ s'.calls = s.calls ++ ops ∧
    Appended replies s.stream s'.stream

end Exec

/-! ## §5. One call. -/

section OneCall

variable {σ : Type} {E : Env} {svc : (op : Op) → σ → σ × op.Res} {s : St σ}

/-- **`UpdateChannelHandler` never returns.** -/
theorem updateChannelHandler_never_returns (fuel : Nat) (channel : Channel) (s : St σ) :
    exec E svc fuel (.updateChannelHandler channel) s = none := by
  induction fuel with
  | zero => rfl
  | succ fuel ih =>
      rw [exec]
      simp only [eventStore, cmd, Prog.run?, handle, ih]

/-- What every other method does: one call, and at most one event. -/
structure OneCall (svc : (op : Op) → σ → σ × op.Res) (op : Op) (s s' : St σ) (r : op.Res) :
    Prop where
  inner : s'.inner = (svc op s.inner).1
  reply : r = (svc op s.inner).2
  calls : s'.calls = s.calls ++ [op]
  stream : s'.stream = s.stream ∨
    (op.AnnouncesSuccess → op.err r = none) ∧ ∃ ev, s'.stream = s.stream ++ [ev]

/-- Sending one event changes the stream by at most that event, and nothing
else that a caller sees. -/
theorem run?_addEvent (E : Env) (svc : (op : Op) → σ → σ × op.Res)
    (self : (op : Op) → St σ → Option (St σ × op.Res)) (ev : Int → Fields) (s : St σ) :
    ∃ s', (addEvent ev).run? (handle E svc self) s = some (s', ()) ∧ s'.inner = s.inner ∧
      s'.calls = s.calls ∧ (s'.stream = s.stream ∨ ∃ x, s'.stream = s.stream ++ [x]) := by
  refine ⟨_, rfl, rfl, rfl, ?_⟩
  show (if E.accepts (s.tick + 1) then _ else _) = _ ∨
    ∃ x, (if E.accepts (s.tick + 1) then _ else _) = _
  split
  · exact .inr ⟨_, rfl⟩
  · exact .inl rfl

/-- The event each method sends on the reply it got, if any. -/
def announce : (op : Op) → op.Res → Option (Int → Fields)
  | .add _ _, (saved, none) => some (createConfigEvent saved)
  | .update _ cfg, none => some (updateConfigEvent cfg)
  | .updateConnections _ id connections, none => some (updateConnectionsEvent id connections)
  | .remove _ id, none => some (removeConfigEvent id)
  | .bootstrap _ externalID _, (_, err) => some (bootstrapEvent externalID err.isNone)
  | .changeState _ id state, none => some (changeStateEvent id state)
  | _, _ => none

/-- Send the event of a reply, if any, and return the reply. -/
def finish (op : Op) (r : op.Res) : Prog Sig op.Res :=
  match announce op r with
  | some ev => addEvent ev >>= fun _ => pure r
  | none => pure r

/-- Every method but `UpdateChannelHandler` is one call of the same operation on
the wrapped service, then at most one event. -/
theorem eventStore_eq {op : Op} (hop : ∀ channel, op ≠ .updateChannelHandler channel) :
    eventStore op = cmd (.svc op) >>= finish op := by
  -- after the call of the wrapped service both sides are functions of the reply
  have hcall : ∀ k : op.Res → Prog Sig op.Res, k = finish op →
      (cmd (.svc op) >>= k) = cmd (.svc op) >>= finish op := by
    intro k hk
    rw [hk]
  cases op with
  | add key cfg => exact hcall _ (funext fun ⟨saved, err⟩ => by cases err <;> rfl)
  | update key cfg => exact hcall _ (funext fun err => by cases err <;> rfl)
  | updateConnections key id connections =>
      exact hcall _ (funext fun err => by cases err <;> rfl)
  | remove key id => exact hcall _ (funext fun err => by cases err <;> rfl)
  | changeState key id state => exact hcall _ (funext fun err => by cases err <;> rfl)
  | updateChannelHandler channel => exact absurd rfl (hop channel)
  | _ => rfl

/-- An operation that announces its success sends nothing on a failure. -/
theorem err_eq_none_of_announce {op : Op} {r : op.Res} {ev : Int → Fields}
    (h : announce op r = some ev) (ho : op.AnnouncesSuccess) : op.err r = none := by
  cases op with
  | add key cfg =>
      obtain ⟨saved, err⟩ := r
      cases err with
      | none => rfl
      | some e => simp [announce] at h
  | update key cfg =>
      cases r with
      | none => rfl
      | some e => simp [announce] at h
  | updateConnections key id connections =>
      cases r with
      | none => rfl
      | some e => simp [announce] at h
  | remove key id =>
      cases r with
      | none => rfl
      | some e => simp [announce] at h
  | changeState key id state =>
      cases r with
      | none => rfl
      | some e => simp [announce] at h
  | _ => exact absurd ho id

/-- **One spec for all the methods but `UpdateChannelHandler`.** -/
theorem exec_one (E : Env) (svc : (op : Op) → σ → σ × op.Res) {op : Op}
    (hop : ∀ channel, op ≠ .updateChannelHandler channel) (fuel : Nat) (s : St σ) :
    ∃ s' r, exec E svc (fuel + 1) op s = some (s', r) ∧ OneCall svc op s s' r := by
  rw [exec, eventStore_eq hop, Prog.run?_bind]
  show ∃ s' r, Option.bind (some (_, (svc op s.inner).2)) _ = some (s', r) ∧ _
  rw [Option.bind_some]
  unfold finish
  cases hann : announce op (svc op s.inner).2 with
  | none => exact ⟨_, _, rfl, ⟨rfl, rfl, rfl, .inl rfl⟩⟩
  | some ev =>
      simp only [Prog.run?_bind]
      obtain ⟨s', heq, hinner, hcalls, hstream⟩ := run?_addEvent E svc
        (exec E svc fuel) ev { s with inner := (svc op s.inner).1, calls := s.calls ++ [op] }
      rw [heq]
      have hmore : s'.stream = s.stream ∨ (op.AnnouncesSuccess → op.err (svc op s.inner).2 = none) ∧
          ∃ ev, s'.stream = s.stream ++ [ev] :=
        hstream.imp id fun h => ⟨err_eq_none_of_announce hann, h⟩
      exact ⟨s', _, rfl, ⟨hinner, rfl, hcalls, hmore⟩⟩

end OneCall

/-! ## §6. Whole runs. -/

section Runs

variable {σ : Type} (E : Env) (svc : (op : Op) → σ → σ × op.Res)

/-- One event more, or none, in front of what the rest of a run appends. -/
theorem appended_cons {op : Op} {r : op.Res} {rs : List Reply} {s s' : St σ} {st : List Fields}
    (hone : OneCall svc op s s' r) (hrest : Appended rs s'.stream st) :
    Appended (⟨op, r⟩ :: rs) s.stream st := by
  rcases hone.stream with hsame | ⟨hok, ev, hmore⟩
  · rw [hsame] at hrest
    exact .quiet hrest
  · rw [hmore] at hrest
    exact .event ev hok hrest

/-- A run without `UpdateChannelHandler` is the run of the bare service. -/
theorem transparent_of_no_updateChannelHandler {ops : List Op}
    (hops : ∀ channel, Op.updateChannelHandler channel ∉ ops) (s : St σ) :
    Transparent E svc s ops := by
  suffices h : ∃ s' replies, execAll E svc 1 ops s = some (s', replies) ∧
      (s'.inner, replies) = bare svc ops s.inner ∧ s'.calls = s.calls ++ ops ∧
      Appended replies s.stream s'.stream from ⟨1, h⟩
  induction ops generalizing s with
  | nil => exact ⟨s, [], rfl, rfl, (List.append_nil _).symm, .nil⟩
  | cons op ops ih =>
      have hop : ∀ channel, op ≠ .updateChannelHandler channel := by
        intro channel heq
        exact hops channel (by rw [heq]; exact List.mem_cons_self)
      obtain ⟨s', r, hexec, hone⟩ := exec_one E svc hop 0 s
      obtain ⟨s'', rs, hrest, hbare, hcalls, happ⟩ :=
        ih (fun channel hin => hops channel (List.mem_cons_of_mem _ hin)) s'
      have hall : execAll E svc 1 (op :: ops) s = some (s'', ⟨op, r⟩ :: rs) := by
        simp only [execAll, hexec, hrest]
      refine ⟨s'', _, hall, ?_, ?_, appended_cons svc hone happ⟩
      · rw [bare, ← hone.inner, ← hone.reply, ← hbare]
      · rw [hcalls, hone.calls, List.append_assoc, List.singleton_append]

/-- A run with a call of `UpdateChannelHandler` does not return. -/
theorem execAll_eq_none {ops : List Op} {channel : Channel}
    (hin : Op.updateChannelHandler channel ∈ ops) (fuel : Nat) (s : St σ) :
    execAll E svc fuel ops s = none := by
  induction ops generalizing s with
  | nil => simp at hin
  | cons op ops ih =>
      rw [execAll]
      rcases List.mem_cons.mp hin with heq | hrest
      · subst heq
        rw [updateChannelHandler_never_returns]
      · cases exec E svc fuel op s with
        | none => rfl
        | some x => simp only [ih hrest]

/-- **The middleware is transparent to a run, and the run returns, exactly when
no call of it is `UpdateChannelHandler`.** -/
theorem transparent_iff (s : St σ) (ops : List Op) :
    Transparent E svc s ops ↔ ∀ channel, Op.updateChannelHandler channel ∉ ops := by
  constructor
  · intro h channel hin
    obtain ⟨fuel, s', replies, hexec, -⟩ := h
    rw [execAll_eq_none E svc hin] at hexec
    cases hexec
  · intro hops
    exact transparent_of_no_updateChannelHandler E svc hops s

end Runs

/-- A service that accepts every call. -/
def accepting : (op : Op) → Unit → Unit × op.Res
  | .add _ cfg, _ => ((), (cfg, none))
  | .view _ _, _ => ((), ({}, none))
  | .list _ _ _ _, _ => ((), (⟨0, 0, 0, []⟩, none))
  | .bootstrap _ _ _, _ => ((), ({}, none))
  | .update _ _, _ => ((), none)
  | .updateCert _ _ _ _ _, _ => ((), none)
  | .updateConnections _ _ _, _ => ((), none)
  | .remove _ _, _ => ((), none)
  | .changeState _ _ _, _ => ((), none)
  | .removeConfigHandler _, _ => ((), none)
  | .updateChannelHandler _, _ => ((), none)
  | .removeChannelHandler _, _ => ((), none)
  | .disconnectThingHandler _ _, _ => ((), none)

/-- One event `channel.update` that renames a channel is enough: the call never
reaches the service, which would accept it. -/
theorem updateChannelHandler_not_transparent :
    ¬ Transparent ⟨fun n => n, fun _ => true⟩ accepting ⟨(), [], [], 0⟩
      [.updateChannelHandler ⟨"e79ac8d3-ad3b-41ca-a63f-8d9dc4bd2d12", "hall", none⟩] := by
  intro ⟨fuel, s', replies, hexec, _⟩
  rw [execAll_eq_none _ _ List.mem_cons_self] at hexec
  cases hexec

end Mainflux.Bootstrap.Producer
