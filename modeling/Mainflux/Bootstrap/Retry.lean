/-
  Mainflux.Bootstrap.Retry
  ────────────────────────
  **RETRYING `ChangeState(Active)` AGAINST THE REAL CONNECT ENDPOINT.**

  `ChangeState` connects the thing to the channels of its config one by one and
  stops at the first error.  A stopped attempt leaves the connections it made,
  and the next attempt meets them: Things' repository reports a connected pair
  as a conflict, the HTTP layer encodes that as 422, and the SDK has no case
  for 422, so that it becomes `ErrFailedConnection` and `ChangeState` stops
  again.  The chain is modelled here link by link:

    `Service.changeState` → `mfSDK.ConnectThing` → `connectEndpoint` →
    `thingsService.Connect` → `channelRepository.Connect`.

  `changeState_ok_iff` says when the call goes through: the thing is connected
  to NONE of the channels, and no two of them are spellings of one channel.
  `retry_iff` draws the consequences for earlier attempts and for disconnect
  events; `stopped_at_second` is an attempt that can never be repeated.
-/
import Mainflux.Bootstrap.Consumer
import Mainflux.Bootstrap.Service

namespace Mainflux.Bootstrap.Retry

open Mainflux.Lib

open Mainflux.Things (Env Event)

/-! ## §1. From the SDK to the repository of Things. -/

/-- `connectionReq.validate`. -/
def validate (token chanID thingID : String) : Except Things.Err Unit :=
  if token = "" then .error .unauthorizedAccess
  else if chanID = "" ∨ thingID = "" then .error .malformedEntity
  else .ok ()

/-- `encodeError`, for the errors of the service. -/
def encodeError : Things.Err → Nat
  | .malformedEntity => 400
  | .unauthorizedAccess => 403
  | .notFound => 404
  | .conflict => 422
  | _ => 500

/-- `connectEndpoint`, with the status that answers it. -/
def connectEndpoint (E : Env) (token chanID thingID : String) (w : Things.World) :
    Things.World × Nat :=
  match validate token chanID thingID with
  | .error e => (w, encodeError e)
  | .ok () =>
      match (Things.Service.connect token [chanID] [thingID]).run (Things.handle E) w with
      | (w', .ok ()) => (w', 200)
      | (w', .error e) => (w', encodeError e)

/-- The status as `mfSDK.ConnectThing` reads it. -/
def connectStatus : Nat → Except SdkErr Unit
  | 200 => .ok ()
  | 403 => .error .unauthorized
  | 404 => .error .notFound
  | _ => .error .failedConnection

/-- The tables of the bootstrap service and the Things service. -/
structure World where
  db : DB
  things : Things.World

/-- A `ConnectThing` call that fails: on which channel, and whether Things had
made the connection when the answer was lost. -/
structure Stop where
  channel : String
  took : Bool

/-- `mfSDK.ConnectThing`. -/
def connectThing (E : Env) (stop : Option Stop) (thingID chanID token : String) (w : World) :
    World × Except SdkErr Unit :=
  let answered := connectEndpoint E token chanID thingID w.things
  match stop with
  | none => ({ w with things := answered.1 }, connectStatus answered.2)
  | some s =>
      if s.channel = chanID then
        (if s.took then { w with things := answered.1 } else w, .error .transport)
      else ({ w with things := answered.1 }, connectStatus answered.2)

/-- What the commands of `ChangeState(Active)` do; the others are left to
`rest`. -/
def handler (E : Env) (rest : Handler Sig World) (stop : Option Stop) : Handler Sig World
  | .authIdentify token, w =>
      ({ w with things := { w.things with tick := w.things.tick + 1 } },
        E.auth w.things.tick token)
  | .sdkConnectThing thingID chanID token, w => connectThing E stop thingID chanID token w
  | .configsRetrieveByID key id, w => (w, ConfigRepository.retrieveByID key id w.db)
  | .configsChangeState key id state, w =>
      ({ w with db := (ConfigRepository.changeState key id state w.db).1 },
        (ConfigRepository.changeState key id state w.db).2)
  | c, w => rest c w

/-- `ChangeState(Active)`, with at most one `ConnectThing` call that fails. -/
def activate (E : Env) (rest : Handler Sig World) (stop : Option Stop) (key id : String)
    (w : World) : World × Except Err Unit :=
  (Service.changeState key id .active).run (handler E rest stop) w

/-- Earlier attempts, one after another. -/
def afterStops (E : Env) (rest : Handler Sig World) (key id : String) (stops : List Stop)
    (w : World) : World :=
  run (fun w s => (activate E rest (some s) key id w).1) w stops

/-- A user disconnects the thing from a channel, and the consumer handles the
record of it. -/
def disconnected (marshal : JsonObject → String) (E : Env) (key c id : String) (w : World) : World :=
  ⟨consume ((Things.events E w.things (.disconnect key c id)).map (Event.encode marshal)) w.db,
    (Things.step E w.things (.disconnect key c id)).1⟩

/-! ## §2. What is claimed of a retry. -/

/-- The channels of a config, as `RetrieveByID` finds them. -/
def channels (owner id : String) (d : DB) : List String :=
  Service.toIDList (ConfigRepository.channelsOf owner id d)

/-- The thing `th` and the channel are connected in Things, under the owner. -/
def Linked (owner : String) (th : UUID) (w : World) (c : String) : Prop :=
  ∃ ch, uuidIn c = some ch ∧
    (⟨ch, owner, th, owner⟩ : Things.ConnectionRow) ∈ w.things.db.connections

/-- The config is stored, in this state. -/
def InState (owner id : String) (state : State) (d : DB) : Prop :=
  ∃ cfg ∈ d.configs, cfg.mfThing = id ∧ cfg.owner = owner ∧ cfg.state = state

/-- `ChangeState(Active)`, with Things answering, returns nil, leaves the
config active and the thing connected to all channels of the config. -/
def Succeeds (E : Env) (rest : Handler Sig World) (key owner id : String) (th : UUID)
    (w : World) : Prop :=
  (activate E rest none key id w).2 = .ok () ∧
    InState owner id .active (activate E rest none key id w).1.db ∧
    ∀ c ∈ channels owner id w.db, Linked owner th (activate E rest none key id w).1 c

/-- An inactive config whose thing and channels are the owner's in Things. -/
structure Ready (owner id : String) (th : UUID) (w : World) : Prop where
  config_thing : (w.db.configs.map fun r => r.mfThing).Nodup
  config : InState owner id .inactive w.db
  width : fitsVarchar 254 owner
  thingID : uuidIn id = some th
  thing : ∃ r ∈ w.things.db.things, r.Is th owner
  channel : ∀ c ∈ channels owner id w.db, ∃ r ∈ w.things.db.channels,
    uuidIn c = some r.id ∧ r.owner = owner

/-- No two channels of the config are spellings of one channel. -/
abbrev Distinct (owner id : String) (d : DB) : Prop := ((channels owner id d).map uuidIn).Nodup

/-- The attempt stopped at the first channel, and Things had not connected
it. -/
def AtFirst (owner id : String) (d : DB) (s : Stop) : Prop :=
  (channels owner id d).head? = some s.channel ∧ s.took = false

/-! ## §3. One `ConnectThing` call. -/

/-- The body of the loop of `ChangeState`. -/
abbrev connectBody (E : Env) (rest : Handler Sig World) (stop : Option Stop) (key id c : String)
    (w : World) : World × Except Err Unit :=
  (Service.connectThing key id c).run (handler E rest stop) w

/-- The second world has the same tables as the first, and at least its
connections. -/
structure Grown (w w' : World) : Prop where
  db : w'.db = w.db
  things : w'.things.db.things = w.things.db.things
  channels : w'.things.db.channels = w.things.db.channels
  connections : ∀ co ∈ w.things.db.connections, co ∈ w'.things.db.connections

section Connect

variable {E : Env} {rest : Handler Sig World} {stop : Option Stop} {key owner id c : String}
  {th : UUID} {w w' : World}

theorem Grown.refl (w : World) : Grown w w := ⟨rfl, rfl, rfl, fun _ h => h⟩

theorem Grown.trans {w'' : World} (h : Grown w w') (h' : Grown w' w'') : Grown w w'' :=
  ⟨h'.db.trans h.db, h'.things.trans h.things, h'.channels.trans h.channels,
    fun co hco => h'.connections co (h.connections co hco)⟩

theorem Grown.linked (h : Grown w w') (hl : Linked owner th w c) : Linked owner th w' c := by
  obtain ⟨ch, hch, hrow⟩ := hl
  exact ⟨ch, hch, h.connections _ hrow⟩

theorem Ready.grown (hr : Ready owner id th w) (h : Grown w w') : Ready owner id th w' where
  config_thing := by rw [h.db]; exact hr.config_thing
  config := by rw [h.db]; exact hr.config
  width := hr.width
  thingID := hr.thingID
  thing := by rw [h.things]; exact hr.thing
  channel := by rw [h.db, h.channels]; exact hr.channel

/-- The world after Things has identified the caller and inserted `rows`. -/
def answered (w : World) (rows : List Things.ConnectionRow) : World :=
  { w with
    things := { w.things with
      db := { w.things.db with connections := w.things.db.connections ++ rows }
      tick := w.things.tick + 1 } }

theorem grown_answered (w : World) (rows : List Things.ConnectionRow) : Grown w (answered w rows) :=
  ⟨rfl, rfl, rfl, fun _ h => List.mem_append_left _ h⟩

theorem uuidIn_ne_empty {s : String} {u : UUID} (h : uuidIn s = some u) : s ≠ "" := by
  rintro rfl
  have hnone : uuidIn "" = none := by decide
  rw [hnone] at h
  cases h

variable (hkey : key ≠ "") (hauth : ∀ n, E.auth n key = some owner) (hr : Ready owner id th w)
include hkey hauth hr

/-- A pair that is connected is a conflict, and nothing changes. -/
theorem connectEndpoint_linked (hl : Linked owner th w c) :
    connectEndpoint E key c id w.things = ((answered w []).things, 422) := by
  obtain ⟨ch, hch, hrow⟩ := hl
  have hvalid : validate key c id = .ok () := by
    simp [validate, hkey, uuidIn_ne_empty hch, uuidIn_ne_empty hr.thingID]
  have hinsert : Things.insertConnection owner c id w.things.db = .error .uniqueViolation := by
    simp [Things.insertConnection, hch, hr.thingID, hr.width, hrow]
  simp [connectEndpoint, hvalid, Things.Service.connect, Things.cmd, Things.handle,
    Things.handleMiss, hauth, Things.ChannelRepository.connect,
    Things.ChannelRepository.connectStmts, transaction, hinsert, encodeError, answered]

variable (hc : c ∈ channels owner id w.db)
include hc

/-- A pair that is not connected is connected. -/
theorem connectEndpoint_free (hl : ¬ Linked owner th w c) :
    ∃ ch, uuidIn c = some ch ∧
      connectEndpoint E key c id w.things
        = ((answered w [⟨ch, owner, th, owner⟩]).things, 200) := by
  obtain ⟨r, hrow, hch, hro⟩ := hr.channel c hc
  have hvalid : validate key c id = .ok () := by
    simp [validate, hkey, uuidIn_ne_empty hch, uuidIn_ne_empty hr.thingID]
  have hnew : (⟨r.id, owner, th, owner⟩ : Things.ConnectionRow) ∉ w.things.db.connections :=
    fun h => hl ⟨r.id, hch, h⟩
  have hfk : ∃ r' ∈ w.things.db.channels, r'.Is r.id owner := ⟨r, hrow, rfl, hro⟩
  have hinsert : Things.insertConnection owner c id w.things.db
      = .ok { w.things.db with
          connections := w.things.db.connections ++ [⟨r.id, owner, th, owner⟩] } := by
    simp only [Things.insertConnection, hch, hr.thingID, hr.width, hnew, hfk, hr.thing, and_self,
      if_true, if_false]
  refine ⟨r.id, hch, ?_⟩
  simp [connectEndpoint, hvalid, Things.Service.connect, Things.cmd, Things.handle,
    Things.handleMiss, hauth, Things.ChannelRepository.connect,
    Things.ChannelRepository.connectStmts, transaction, hinsert, answered]

/-- Whatever it finds, the endpoint leaves the pair connected. -/
theorem connectEndpoint_grown :
    Grown w { w with things := (connectEndpoint E key c id w.things).1 } ∧
      Linked owner th { w with things := (connectEndpoint E key c id w.things).1 } c := by
  by_cases hl : Linked owner th w c
  · rw [connectEndpoint_linked hkey hauth hr hl]
    exact ⟨grown_answered w [], (grown_answered w []).linked hl⟩
  · obtain ⟨ch, hch, heq⟩ := connectEndpoint_free hkey hauth hr hc hl
    rw [heq]
    exact ⟨grown_answered w _, ch, hch, List.mem_append_right _ (List.mem_singleton_self _)⟩

omit hkey hauth hr hc in
/-- The body of the loop, by the answer of the SDK. -/
theorem connectBody_eq (E : Env) (rest : Handler Sig World) (key id : String) (stop : Option Stop)
    (c : String) (w : World) :
    connectBody E rest stop key id c w
      = ((connectThing E stop id c key w).1,
          match (connectThing E stop id c key w).2 with
          | .ok () => .ok ()
          | .error _ => .error .things) := by
  simp only [connectBody, Service.connectThing, cmd, Prog.run_bind, Prog.run_call, Prog.run_ret,
    handler]
  cases (connectThing E stop id c key w).2 <;> rfl

omit hc in
/-- With Things answering, the body stops at a pair that is connected. -/
theorem connectBody_linked (hl : Linked owner th w c) :
    connectBody E rest none key id c w
      = (answered w [], .error .things) := by
  rw [connectBody_eq, connectThing, connectEndpoint_linked hkey hauth hr hl]
  rfl

theorem connectBody_free (hl : ¬ Linked owner th w c) :
    ∃ ch, uuidIn c = some ch ∧
      connectBody E rest none key id c w
        = (answered w [⟨ch, owner, th, owner⟩], .ok ()) := by
  obtain ⟨ch, hch, heq⟩ := connectEndpoint_free hkey hauth hr hc hl
  refine ⟨ch, hch, ?_⟩
  rw [connectBody_eq, connectThing, heq]
  rfl

omit hkey hauth hr hc in
/-- A call that Things answers is the same with a stop at another channel. -/
theorem connectThing_other {s : Stop} (hne : s.channel ≠ c) :
    connectThing E (some s) id c key w = connectThing E none id c key w := by
  simp only [connectThing, hne, if_false]

theorem connectBody_grown (rest : Handler Sig World) (stop : Option Stop) :
    Grown w (connectBody E rest stop key id c w).1 := by
  rw [connectBody_eq]
  have hgrown := (connectEndpoint_grown hkey hauth hr hc).1
  cases stop with
  | none => exact hgrown
  | some s =>
      simp only [connectThing]
      split
      · split
        · exact hgrown
        · exact Grown.refl w
      · exact hgrown

end Connect

/-! ## §4. The loop and the call. -/

theorem linked_answered (owner c' : String) (th : UUID) (w : World) {c : String} {ch : UUID}
    (hch : uuidIn c = some ch) :
    Linked owner th (answered w [⟨ch, owner, th, owner⟩]) c' ↔
      Linked owner th w c' ∨ uuidIn c' = uuidIn c := by
  simp only [Linked, answered, List.mem_append, List.mem_singleton, Things.ConnectionRow.mk.injEq,
    and_true, hch]
  constructor
  · rintro ⟨u, hu, hrow | rfl⟩
    · exact .inl ⟨u, hu, hrow⟩
    · exact .inr hu
  · rintro (⟨u, hu, hrow⟩ | hu)
    · exact ⟨u, hu, .inl hrow⟩
    · exact ⟨ch, hu, .inr rfl⟩

section Loop

variable {E : Env} {rest : Handler Sig World} {key owner id : String} {th : UUID} {w : World}

/-- The loop of `ChangeState` over a list of channels. -/
abbrev connectLoop (E : Env) (rest : Handler Sig World) (stop : Option Stop) (key id : String)
    (cs : List String) (w : World) : World × Except Err Unit :=
  Prog.eachOn (connectBody E rest stop key id) cs w

variable (hkey : key ≠ "") (hauth : ∀ n, E.auth n key = some owner) (hr : Ready owner id th w)
include hkey hauth hr

theorem connectLoop_grown (rest : Handler Sig World) (stop : Option Stop) {cs : List String}
    (hcs : ∀ c ∈ cs, c ∈ channels owner id w.db) :
    Grown w (connectLoop E rest stop key id cs w).1 := by
  refine Prog.eachOn_inv (I := Grown w) (fun c hc v hv => ?_) (Grown.refl w)
  have hc' : c ∈ channels owner id v.db := by
    rw [hv.db]
    exact hcs c hc
  exact hv.trans (connectBody_grown hkey hauth (hr.grown hv) hc' rest stop)

/-- **With Things answering, the loop goes through exactly when no channel is
connected and no channel comes twice**, and then all are connected. -/
theorem connectLoop_ok_iff (rest : Handler Sig World) {cs : List String}
    (hcs : ∀ c ∈ cs, c ∈ channels owner id w.db) :
    ((connectLoop E rest none key id cs w).2 = .ok () ↔
        (∀ c ∈ cs, ¬ Linked owner th w c) ∧ (cs.map uuidIn).Nodup) ∧
      ((connectLoop E rest none key id cs w).2 = .ok () →
        ∀ c ∈ cs, Linked owner th (connectLoop E rest none key id cs w).1 c) := by
  induction cs generalizing w with
  | nil => exact ⟨by simp [connectLoop, Prog.eachOn], by simp⟩
  | cons c cs ih =>
      have hc := hcs c List.mem_cons_self
      have htail : ∀ c' ∈ cs, c' ∈ channels owner id w.db :=
        fun c' hc' => hcs c' (List.mem_cons_of_mem _ hc')
      by_cases hl : Linked owner th w c
      · -- Things answers a conflict and the loop ends here
        have hstop := Prog.eachOn_error (f := connectBody E rest none key id)
          (connectBody_linked hkey hauth hr hl) cs
        rw [connectLoop, hstop]
        exact ⟨⟨fun h => (by cases h), fun h => absurd hl (h.1 c List.mem_cons_self)⟩,
          fun h => (by cases h)⟩
      · -- the row is added; the tail must avoid it, which is the duplicate condition
        obtain ⟨ch, hch, hrun⟩ := connectBody_free hkey hauth hr hc hl
        have hg := grown_answered w [⟨ch, owner, th, owner⟩]
        have hr' := hr.grown hg
        obtain ⟨hiff, hall⟩ := ih hr' htail
        rw [connectLoop, Prog.eachOn_ok (f := connectBody E rest none key id) hrun]
        refine ⟨?_, ?_⟩
        · rw [hiff]
          simp only [linked_answered _ _ _ _ hch, not_or, List.map_cons, List.nodup_cons, List.mem_map,
            not_exists, not_and, List.forall_mem_cons, hl, not_false_iff, true_and]
          constructor
          · rintro ⟨hfree, hnodup⟩
            exact ⟨fun c' hc' => (hfree c' hc').1, fun c' hc' => (hfree c' hc').2, hnodup⟩
          · rintro ⟨hfree, hne, hnodup⟩
            exact ⟨fun c' hc' => ⟨hfree c' hc', hne c' hc'⟩, hnodup⟩
        · intro hok c' hc'
          rcases List.mem_cons.mp hc' with rfl | hc'
          · have hlinked := (linked_answered owner c' th w hch).mpr (.inr rfl)
            exact (connectLoop_grown hkey hauth hr' rest none htail).linked hlinked
          · exact hall hok c' hc'

end Loop

section Activate

variable {E : Env} {rest : Handler Sig World} {key owner id : String} {th : UUID} {w : World}

/-- The world after the authn service has been asked. -/
def identified (w : World) : World :=
  { w with things := { w.things with tick := w.things.tick + 1 } }

theorem grown_identified (w : World) : Grown w (identified w) := ⟨rfl, rfl, rfl, fun _ h => h⟩

theorem linked_identified {c : String} :
    Linked owner th (identified w) c ↔ Linked owner th w c := Iff.rfl

variable (hkey : key ≠ "") (hauth : ∀ n, E.auth n key = some owner) (hr : Ready owner id th w)
include hauth hr

/-- `ChangeState(Active)` on an inactive config: the loop, then the update. -/
theorem activate_eq (stop : Option Stop) :
    activate E rest stop key id w
      = match connectLoop E rest stop key id (channels owner id w.db) (identified w) with
        | (w', .error e) => (w', .error e)
        | (w', .ok ()) =>
            ({ w' with db := (ConfigRepository.changeState owner id .active w'.db).1 },
              (ConfigRepository.changeState owner id .active w'.db).2) := by
  obtain ⟨r, hrow, rfl, rfl, hstate⟩ := hr.config
  obtain ⟨cfg, hcfg, hst, hthing, hchan⟩ :=
    ConfigRepository.retrieveByID_row hr.config_thing hrow
  have hne : cfg.state ≠ .active := by
    rw [hst, hstate]
    decide
  simp only [activate, Service.changeState, Service.identify, cmd, Prog.run_bind, Prog.run_call,
    Prog.run_ret, Prog.run_pure, handler, hauth, hcfg, hne, if_false, Service.switchThing,
    Prog.run_each, hthing, hchan, connectLoop, channels, identified]
  generalize Prog.eachOn _ _ _ = looped
  rcases looped with ⟨w', e | u⟩
  · rfl
  · rfl

/-- A loop that stops ends the call. -/
theorem activate_stopped {stop : Option Stop} {e : Err}
    (hloop : (connectLoop E rest stop key id (channels owner id w.db) (identified w)).2
      = .error e) :
    activate E rest stop key id w
      = ((connectLoop E rest stop key id (channels owner id w.db) (identified w)).1,
          .error e) := by
  rw [activate_eq hauth hr]
  rcases h : connectLoop E rest stop key id (channels owner id w.db) (identified w) with ⟨w', r⟩
  rw [h] at hloop
  cases hloop
  rfl

include hkey

/-- A loop that goes through is followed by an update that finds the config. -/
theorem activate_passed
    (hloop : (connectLoop E rest none key id (channels owner id w.db) (identified w)).2
      = .ok ()) :
    activate E rest none key id w
      = (⟨(ConfigRepository.changeState owner id .active w.db).1,
            (connectLoop E rest none key id (channels owner id w.db) (identified w)).1.things⟩,
          .ok ()) := by
  have hdb := (connectLoop_grown hkey hauth (hr.grown (grown_identified w)) rest none
    (fun c (hc : c ∈ channels owner id w.db) => hc)).db
  rw [activate_eq hauth hr]
  rcases h : connectLoop E rest none key id (channels owner id w.db) (identified w) with ⟨w', r⟩
  rw [h] at hloop hdb
  cases hloop
  obtain ⟨row, hrow, rfl, rfl, -⟩ := hr.config
  have hw' : w'.db = w.db := hdb
  simp only [hw', ConfigRepository.changeState_row hrow]

/-- **When the call succeeds**: no channel of the config is connected, and no
two are spellings of one. -/
theorem succeeds_iff :
    Succeeds E rest key owner id th w ↔
      (∀ c ∈ channels owner id w.db, ¬ Linked owner th w c) ∧ Distinct owner id w.db := by
  have hloop := connectLoop_ok_iff hkey hauth (hr.grown (grown_identified w)) rest
    (fun c (hc : c ∈ channels owner id w.db) => hc)
  simp only [linked_identified] at hloop
  obtain ⟨hiff, hall⟩ := hloop
  rw [← hiff]
  constructor
  · intro h
    cases hres : (connectLoop E rest none key id (channels owner id w.db) (identified w)).2 with
    | ok u => rfl
    | error e =>
        have hok := h.1
        rw [activate_stopped hauth hr hres] at hok
        cases hok
  · intro hok
    unfold Succeeds
    rw [activate_passed hkey hauth hr hok]
    refine ⟨rfl, ?_, fun c hc => hall hok c hc⟩
    obtain ⟨row, hrow, rfl, rfl, -⟩ := hr.config
    rw [ConfigRepository.changeState_row hrow]
    exact ⟨_, mem_updateWhere.mpr (.inl ⟨row, hrow, ⟨rfl, rfl⟩, rfl⟩), rfl, rfl, rfl⟩

end Activate

/-! ## §5. Attempts that stopped. -/

section Stops

variable {E : Env} {rest : Handler Sig World} {key owner id : String} {th : UUID} {w : World}
variable (hkey : key ≠ "") (hauth : ∀ n, E.auth n key = some owner) (hr : Ready owner id th w)
include hkey hauth hr

/-- The loop does not get past the channel whose call fails. -/
theorem connectLoop_stopped (rest : Handler Sig World) {s : Stop} {cs : List String}
    (hcs : ∀ c ∈ cs, c ∈ channels owner id w.db) (hs : s.channel ∈ cs) :
    ∃ e, (connectLoop E rest (some s) key id cs w).2 = .error e := by
  induction cs generalizing w with
  | nil => cases hs
  | cons c cs ih =>
      have hgrown := connectBody_grown hkey hauth hr
        (hcs c List.mem_cons_self) rest (some s)
      rcases hrun : connectBody E rest (some s) key id c w with ⟨w', r⟩
      rw [connectLoop]
      cases r with
      | error e =>
          rw [Prog.eachOn_error (f := connectBody E rest (some s) key id) hrun]
          exact ⟨e, rfl⟩
      | ok u =>
          have hw' : Grown w w' := by
            rw [hrun] at hgrown
            exact hgrown
          rw [Prog.eachOn_ok (f := connectBody E rest (some s) key id) hrun]
          refine ih (hr.grown hw') ?_ ?_
          · intro c' hc'
            rw [hw'.db]
            exact hcs c' (List.mem_cons_of_mem _ hc')
          · -- the call on the stopped channel would have been an error
            rcases List.mem_cons.mp hs with hsc | hs
            · rw [connectBody_eq, connectThing, if_pos hsc] at hrun
              cases hrun
            · exact hs

/-- Unless the first call fails without effect, the first channel is connected
afterwards. -/
theorem connectLoop_first (rest : Handler Sig World) {s : Stop} {c : String} {cs : List String}
    (hcs : ∀ c' ∈ c :: cs, c' ∈ channels owner id w.db) (hs : ¬ (s.channel = c ∧ s.took = false)) :
    Linked owner th (connectLoop E rest (some s) key id (c :: cs) w).1 c := by
  obtain ⟨hgrown, hlinked⟩ := connectEndpoint_grown hkey hauth hr (hcs c List.mem_cons_self)
  have hbody := connectBody_eq E rest key id (some s) c w
  by_cases hsc : s.channel = c
  · have htook : s.took = true := by
      cases h : s.took with
      | true => rfl
      | false => exact absurd ⟨hsc, h⟩ hs
    simp only [connectThing, if_pos hsc, htook, if_true] at hbody
    rw [connectLoop, Prog.eachOn_error (f := connectBody E rest (some s) key id) hbody]
    exact hlinked
  · rw [connectThing_other hsc] at hbody
    cases hres : (connectThing E none id c key w).2 with
    | error e =>
        rw [hres] at hbody
        rw [connectLoop, Prog.eachOn_error (f := connectBody E rest (some s) key id) hbody]
        exact hlinked
    | ok u =>
        rw [hres] at hbody
        rw [connectLoop, Prog.eachOn_ok (f := connectBody E rest (some s) key id) hbody]
        refine (connectLoop_grown hkey hauth (hr.grown hgrown) rest (some s) ?_).linked hlinked
        exact fun c' hc' => hcs c' (List.mem_cons_of_mem _ hc')

/-- What a stopped attempt leaves: the same tables, and a connected channel
unless it stopped at the first one without effect. -/
theorem activate_stop (rest : Handler Sig World) {s : Stop} (hs : s.channel ∈ channels owner id w.db) :
    Grown w (activate E rest (some s) key id w).1 ∧
      ((∃ c ∈ channels owner id w.db, Linked owner th (activate E rest (some s) key id w).1 c) ↔
        (∃ c ∈ channels owner id w.db, Linked owner th w c) ∨ ¬ AtFirst owner id w.db s) := by
  have hr' := hr.grown (grown_identified w)
  obtain ⟨e, he⟩ := connectLoop_stopped hkey hauth hr' rest
    (fun c (hc : c ∈ channels owner id w.db) => hc) hs
  have hgrown : Grown w (activate E rest (some s) key id w).1 := by
    rw [activate_stopped hauth hr he]
    exact (grown_identified w).trans
      (connectLoop_grown hkey hauth hr' rest (some s) (fun c hc => hc))
  refine ⟨hgrown, ?_⟩
  rw [activate_stopped hauth hr he]
  rw [activate_stopped hauth hr he] at hgrown
  cases hcs : channels owner id w.db with
  | nil =>
      rw [hcs] at hs
      cases hs
  | cons c cs =>
      have hmem : ∀ c' ∈ c :: cs, c' ∈ channels owner id w.db := by
        rw [hcs]
        exact fun c' hc' => hc'
      rw [hcs] at hgrown
      by_cases hfirst : s.channel = c ∧ s.took = false
      · -- stopped before anything was connected
        have hstay : connectLoop E rest (some s) key id (c :: cs) (identified w)
            = (identified w, .error .things) := by
          refine Prog.eachOn_error (f := connectBody E rest (some s) key id) ?_ cs
          rw [connectBody_eq, connectThing, if_pos hfirst.1, hfirst.2]
          rfl
        have hat : AtFirst owner id w.db s := ⟨by rw [hcs, hfirst.1]; rfl, hfirst.2⟩
        simp only [hstay, linked_identified, hat, not_true_eq_false, or_false]
      · have hnot : ¬ AtFirst owner id w.db s := by
          rintro ⟨hhead, htook⟩
          rw [hcs] at hhead
          exact hfirst ⟨(Option.some.inj hhead).symm, htook⟩
        have hlinked := connectLoop_first hkey hauth hr' rest hmem hfirst
        simp only [hnot, not_false_iff, or_true, iff_true]
        exact ⟨c, List.mem_cons_self, hlinked⟩

/-- After any number of stopped attempts: the same tables, and a connected
channel unless all of them stopped at the first one without effect. -/
theorem afterStops_spec (rest : Handler Sig World) {stops : List Stop}
    (hs : ∀ s ∈ stops, s.channel ∈ channels owner id w.db) :
    Grown w (afterStops E rest key id stops w) ∧
      ((∃ c ∈ channels owner id w.db, Linked owner th (afterStops E rest key id stops w) c) ↔
        (∃ c ∈ channels owner id w.db, Linked owner th w c) ∨
          ∃ s ∈ stops, ¬ AtFirst owner id w.db s) := by
  induction stops generalizing w with
  | nil => exact ⟨Grown.refl w, by simp [afterStops]⟩
  | cons s stops ih =>
      obtain ⟨hg, hiff⟩ := activate_stop hkey hauth hr rest (hs s List.mem_cons_self)
      have hstep := ih (hr.grown hg) (by
        rw [hg.db]
        exact fun s' hs' => hs s' (List.mem_cons_of_mem _ hs'))
      rw [hg.db] at hstep
      refine ⟨hg.trans hstep.1, hstep.2.trans ?_⟩
      rw [hiff, or_assoc]
      simp only [List.mem_cons, exists_eq_or_imp]

end Stops

/-! ## §6. Disconnect events. -/

section Disconnect

variable {marshal : JsonObject → String} {E : Env} {rest : Handler Sig World}
  {key owner id c : String} {th ch : UUID} {w : World}

/-- A disconnection of a connected pair deletes its row, and its record sets
the configs inactive. -/
theorem disconnected_eq (hauth : ∀ n, E.auth n key = some owner) (hid : uuidIn id = some th)
    (hch : uuidIn c = some ch)
    (hrow : (⟨ch, owner, th, owner⟩ : Things.ConnectionRow) ∈ w.things.db.connections) :
    disconnected marshal E key c id w
      = ⟨ConfigRepository.disconnectThing c id w.db,
          ⟨{ w.things.db with
              connections := deleteWhere (fun co => co = ⟨ch, owner, th, owner⟩)
                w.things.db.connections },
            Things.evictPair w.things.redis c id, w.things.tick + 1⟩⟩ := by
  have hok : (Things.ChannelRepository.disconnect owner c id w.things.db).2 = .ok () :=
    Things.disconnect_ok_iff.mpr ⟨_, hrow, hch, hid, rfl, rfl⟩
  have hdb : (Things.ChannelRepository.disconnect owner c id w.things.db).1
      = { w.things.db with
          connections := deleteWhere (fun co => co = ⟨ch, owner, th, owner⟩)
            w.things.db.connections } := by
    simp only [Things.ChannelRepository.disconnect, Things.deleteConnection, hch, hid]
  simp only [disconnected, Things.events_disconnect (hauth w.things.tick), hok, if_true,
    Things.step_disconnect (hauth w.things.tick), hdb, List.map_cons, List.map_nil]
  rfl

variable (hkey : key ≠ "") (hauth : ∀ n, E.auth n key = some owner) (hr : Ready owner id th w)
include hkey hauth hr

/-- A config that was activated and disconnected from one channel is ready
again, and still connected to the channels that are not spellings of it. -/
theorem disconnected_spec (marshal : JsonObject → String) (hok : Succeeds E rest key owner id th w)
    (hc : c ∈ channels owner id w.db) :
    let w' := disconnected marshal E key c id (activate E rest none key id w).1
    Ready owner id th w' ∧ channels owner id w'.db = channels owner id w.db ∧
      ∀ c' ∈ channels owner id w.db, (Linked owner th w' c' ↔ uuidIn c' ≠ uuidIn c) := by
  obtain ⟨hret, -, hlinked⟩ := hok
  have hr' := hr.grown (grown_identified w)
  have hgrown := connectLoop_grown hkey hauth hr' rest none
    (fun c (hc : c ∈ channels owner id w.db) => hc)
  -- the attempt went through
  have hloop : (connectLoop E rest none key id (channels owner id w.db) (identified w)).2
      = .ok () := by
    cases hres : (connectLoop E rest none key id (channels owner id w.db) (identified w)).2 with
    | ok u => rfl
    | error e =>
        rw [activate_stopped hauth hr hres] at hret
        cases hret
  obtain ⟨ch, hch, hrow⟩ := hlinked c hc
  rw [disconnected_eq hauth hr.thingID hch hrow]
  rw [activate_passed hkey hauth hr hloop] at hlinked ⊢
  obtain ⟨row, hcfg, rfl, rfl, -⟩ := hr.config
  rw [ConfigRepository.changeState_row hcfg] at hlinked ⊢
  refine ⟨⟨?_, ?_, hr.width, hr.thingID, ?_, ?_⟩, rfl, ?_⟩
  · refine nodup_map_updateWhere_same (nodup_map_updateWhere_same hr.config_thing ?_) ?_
    · exact fun _ _ _ => rfl
    · exact fun _ _ _ => rfl
  · obtain ⟨chan, hchan, hcid⟩ := List.mem_map.mp hc
    obtain ⟨co, hco, hcoid, -, hcochan⟩ := ConfigRepository.mem_channelsOf hchan
    refine ⟨{ row with state := .inactive }, ?_, rfl, rfl, rfl⟩
    refine mem_updateWhere.mpr (.inl ⟨{ row with state := .active }, ?_, ?_, rfl⟩)
    · exact mem_updateWhere.mpr (.inl ⟨row, hcfg, ⟨rfl, rfl⟩, rfl⟩)
    · exact ⟨co, hco, hcoid, hcochan.symm.trans hcid⟩
  · show ∃ r ∈ _, _
    rw [hgrown.things]
    exact hr.thing
  · show ∀ c' ∈ channels row.owner row.mfThing w.db, ∃ r ∈ _, _
    rw [hgrown.channels]
    exact hr.channel
  · intro c' hc'
    obtain ⟨ch', hch', hrow'⟩ := hlinked c' hc'
    simp only [Linked, mem_deleteWhere, hch', hch, Option.some.injEq, ne_eq]
    constructor
    · rintro ⟨u, rfl, -, hne⟩ rfl
      exact hne rfl
    · intro hne
      refine ⟨ch', rfl, hrow', fun h => hne ?_⟩
      exact congrArg Things.ConnectionRow.channelID h

end Disconnect

/-! ## §7. Retrying. -/

/-- **When `ChangeState(Active)` can be retried.**  After attempts that stopped:
exactly when no two channels are spellings of one and every attempt stopped at
the FIRST channel, without effect.  After a disconnect event: exactly when the
channel is the ONLY one of the config. -/
theorem retry_iff (marshal : JsonObject → String) (E : Env) (rest : Handler Sig World)
    (key owner id : String) (th : UUID) (w : World) (hkey : key ≠ "")
    (hauth : ∀ n, E.auth n key = some owner) (hr : Ready owner id th w)
    (hfree : ∀ c ∈ channels owner id w.db, ¬ Linked owner th w c) :
    (∀ stops : List Stop, (∀ s ∈ stops, s.channel ∈ channels owner id w.db) →
      (Succeeds E rest key owner id th (afterStops E rest key id stops w) ↔
        Distinct owner id w.db ∧ ∀ s ∈ stops, AtFirst owner id w.db s)) ∧
    (Distinct owner id w.db → ∀ c ∈ channels owner id w.db,
      (Succeeds E rest key owner id th
          (disconnected marshal E key c id (activate E rest none key id w).1) ↔
        channels owner id w.db = [c])) := by
  refine ⟨fun stops hs => ?_, fun hdistinct c hc => ?_⟩
  · obtain ⟨hg, hiff⟩ := afterStops_spec hkey hauth hr rest hs
    have hnone : ¬ ∃ c ∈ channels owner id w.db, Linked owner th w c := by
      rintro ⟨c, hc, hl⟩
      exact hfree c hc hl
    rw [succeeds_iff hkey hauth (hr.grown hg), hg.db, and_comm]
    refine and_congr_right fun _ => ?_
    simp only [hnone, false_or] at hiff
    have hneg := not_congr hiff
    simpa only [not_exists, not_and, not_not] using hneg
  · have hok : Succeeds E rest key owner id th w :=
      (succeeds_iff hkey hauth hr).mpr ⟨hfree, hdistinct⟩
    obtain ⟨hr', hsame, hlinked⟩ := disconnected_spec hkey hauth hr marshal hok hc
    rw [succeeds_iff hkey hauth hr', Distinct, hsame]
    constructor
    · rintro ⟨hnone, -⟩
      -- every channel is a spelling of the one that was disconnected
      have hone : ∀ c' ∈ channels owner id w.db, c' = c := by
        intro c' hc'
        have hsame' : uuidIn c' = uuidIn c := by
          by_contra hne
          exact hnone c' hc' ((hlinked c' hc').mpr hne)
        exact List.inj_on_of_nodup_map hdistinct hc' hc hsame'
      have hnodup : (channels owner id w.db).Nodup := List.Nodup.of_map _ hdistinct
      cases hcs : channels owner id w.db with
      | nil =>
          rw [hcs] at hc
          cases hc
      | cons c' cs =>
          rw [hcs] at hone hnodup
          have hcs' : cs = [] := by
            refine List.eq_nil_iff_forall_not_mem.mpr fun c'' hc'' => ?_
            have heq : c'' = c' :=
              (hone c'' (List.mem_cons_of_mem _ hc'')).trans (hone c' List.mem_cons_self).symm
            rw [heq] at hc''
            exact (List.nodup_cons.mp hnodup).1 hc''
          rw [hcs', hone c' List.mem_cons_self]
    · intro hone
      refine ⟨fun c' hc' hl => ?_, hdistinct⟩
      have hc'' := hc'
      rw [hone, List.mem_singleton] at hc''
      exact (hlinked c' hc').mp hl (by rw [hc''])

/-! ### A sensor with two channels. -/

/-- Services that answer nothing. -/
def silent : Handler Sig World
  | .authIdentify _, w => (w, none)
  | .mapRange keys, w => (w, keys)
  | .sdkCreateThing _, w => (w, .error .transport)
  | .sdkThing _ _, w => (w, .error .transport)
  | .sdkDeleteThing _ _, w => (w, .error .transport)
  | .sdkChannel _ _, w => (w, .error .transport)
  | .sdkConnectThing _ _ _, w => (w, .error .transport)
  | .sdkDisconnectThing _ _ _, w => (w, .error .transport)
  | .configsListExisting _ _, w => (w, .error .unavailable)
  | .configsRetrieveByID _ _, w => (w, .error .unavailable)
  | .configsSave _ _, w => (w, .error .unavailable)
  | .configsUpdate _, w => (w, .error .unavailable)
  | .configsUpdateCert _ _ _ _ _, w => (w, .error .unavailable)
  | .configsUpdateConnections _ _ _ _, w => (w, .error .unavailable)
  | .configsChangeState _ _ _, w => (w, .error .unavailable)
  | .configsRemove _ _, w => (w, .error .unavailable)
  | .configsCleanup, w => (w, .error .unavailable)

def hall : String := uuidOut (UUID.fill 1)

def lab : String := uuidOut (UUID.fill 2)

/-- Bob's sensor has an inactive config with the channels hall and lab, and is
connected to neither. -/
def sensorHallLab : World where
  db := ⟨[⟨sensor, "bob", none, none, none, none, "k5", "ext", "secret", none, .inactive⟩],
    [⟨hall, "bob", none, none⟩, ⟨lab, "bob", none, none⟩],
    [⟨hall, "bob", sensor, "bob"⟩, ⟨lab, "bob", sensor, "bob"⟩]⟩
  things := ⟨⟨[⟨UUID.fill 5, "bob", "sensor", "k5", []⟩],
    [⟨UUID.fill 1, "bob", "hall", none⟩, ⟨UUID.fill 2, "bob", "lab", none⟩], []⟩, Redis.empty, 0⟩

theorem channels_sensorHallLab : channels "bob" sensor sensorHallLab.db = [hall, lab] := by
  decide +kernel

theorem ready_sensorHallLab : Ready "bob" sensor (UUID.fill 5) sensorHallLab where
  config_thing := by simp [sensorHallLab]
  config := ⟨_, List.mem_singleton_self _, rfl, rfl, rfl⟩
  width := by decide
  thingID := uuidIn_uuidOut _
  thing := ⟨_, List.mem_singleton_self _, rfl, rfl⟩
  channel := by
    rw [channels_sensorHallLab]
    intro c hc
    rcases List.mem_cons.mp hc with rfl | hc
    · exact ⟨_, List.mem_cons_self, uuidIn_uuidOut _, rfl⟩
    · rw [List.mem_singleton.mp hc]
      exact ⟨_, List.mem_cons_of_mem _ (List.mem_singleton_self _), uuidIn_uuidOut _, rfl⟩

theorem free_sensorHallLab (c : String) : ¬ Linked "bob" (UUID.fill 5) sensorHallLab c := by
  rintro ⟨ch, -, hrow⟩
  cases hrow

/-- Two attempts that got no answer for the hall can be repeated. -/
theorem retry_iff_hall :
    Succeeds Things.openEnv silent "bob" "bob" sensor (UUID.fill 5)
      (afterStops Things.openEnv silent "bob" sensor [⟨hall, false⟩, ⟨hall, false⟩]
        sensorHallLab) := by
  refine ((retry_iff (fun _ => "") Things.openEnv silent "bob" "bob" sensor (UUID.fill 5)
    sensorHallLab (by decide) (fun _ => rfl) ready_sensorHallLab
    (fun c _ => free_sensorHallLab c)).1 _ ?_).mpr ⟨?_, ?_⟩
  · simp [channels_sensorHallLab]
  · rw [Distinct, channels_sensorHallLab]
    decide +kernel
  · simp [AtFirst, channels_sensorHallLab]

/-- **An attempt that stopped at the second channel can never be repeated.** -/
theorem stopped_at_second :
    ¬ ∀ (marshal : JsonObject → String) (E : Env) (rest : Handler Sig World)
      (key owner id : String) (th : UUID) (w : World), key ≠ "" →
      (∀ n, E.auth n key = some owner) → Ready owner id th w →
      (∀ c ∈ channels owner id w.db, ¬ Linked owner th w c) →
      (∀ stops : List Stop, (∀ s ∈ stops, s.channel ∈ channels owner id w.db) →
        Succeeds E rest key owner id th (afterStops E rest key id stops w)) ∧
      (∀ c ∈ channels owner id w.db, Succeeds E rest key owner id th
        (disconnected marshal E key c id (activate E rest none key id w).1)) := by
  intro h
  have hsucceeds := (h (fun _ => "") Things.openEnv silent "bob" "bob" sensor (UUID.fill 5)
    sensorHallLab (by decide) (fun _ => rfl) ready_sensorHallLab
    (fun c _ => free_sensorHallLab c)).1 [⟨lab, false⟩] (by simp [channels_sensorHallLab])
  have hreply : (activate Things.openEnv silent none "bob" sensor
      (afterStops Things.openEnv silent "bob" sensor [⟨lab, false⟩] sensorHallLab)).2
        = .error .things := by
    decide +kernel
  rw [Succeeds, hreply] at hsucceeds
  cases hsucceeds.1

end Mainflux.Bootstrap.Retry
