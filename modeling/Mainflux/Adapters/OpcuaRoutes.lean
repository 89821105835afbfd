/-
  Mainflux.Adapters.OpcuaRoutes
  ─────────────────────────────
  **WHERE THE DATA CHANGES OF AN OPC-UA NODE GO.**

  A subscription does not carry the channel and the thing that it was started
  for.  `publish` looks them up again, the channel of the server URI and the
  thing of the node id, in maps that keep both directions under one key format
  (`cell`).  So one node id on two servers, an id that is also a node id, or
  two pairs of ids that are joined to one text take a route away from a
  subscription that is still in use.

    • `World` — the adapter next to what the events have said: the routes of the
      things and channels, and the subscriptions in use (`mem_live_iff`);
    • `right_step_iff` — one event leaves the routes of all subscriptions in use
      right exactly when it is `Safe`;
    • `routed_iff_safe` — and so does a history of events.
-/
import Mathlib.Logic.Function.Basic
import Mainflux.Adapters.OpcuaSubscribe
import Mainflux.Lib.Run

namespace Mainflux.Adapters.Opcua

open Mainflux.Lib

/-! ## §1. The route maps in Redis. -/

/-- What is routed. -/
inductive Kind
  | thing
  | channel
  | connection
  deriving DecidableEq

def Kind.map : Kind → RouteMap
  | .thing => thingsRM
  | .channel => channelsRM
  | .connection => connectRM

/-- What a route map holds for an id, of either side. -/
def cell (k : Kind) (r : Redis) (x : String) : Option String := r.lookup (k.map.protocolKey x)

theorem get_eq_ok {k : Kind} {r : Redis} {x v : String} :
    k.map.get x .done r = .ok v ↔ cell k r x = some v :=
  RouteMap.get_served

theorem mfxKey_eq (k : Kind) (x : String) : k.map.mfxKey x = k.map.protocolKey x := by
  cases k <;> rfl

theorem protocolKey_inj {k k' : Kind} {x x' : String} :
    k.map.protocolKey x = k'.map.protocolKey x' ↔ k = k' ∧ x = x' := by
  have htext : ∀ s : String, toString s = s := fun _ => rfl
  cases k <;> cases k' <;>
    simp [Kind.map, thingsRM, channelsRM, connectRM, routeMap, htext, ← String.toList_inj]

/-- The answers of a Redis that serves every command. -/
abbrev served : Nat → Answer := fun _ => .done

/-- `Save`: the second key is written over the first. -/
theorem cell_save (k k' : Kind) (a b : String) (r : Redis) (x : String) :
    cell k (k'.map.save a b served r).1 x
      = if k = k' ∧ x = b then some a
        else if k = k' ∧ x = a then some b
        else cell k r x := by
  have hsave : (k'.map.save a b served r).1
      = (r.set (k'.map.mfxKey a) b).set (k'.map.protocolKey b) a := rfl
  rw [hsave, mfxKey_eq]
  simp only [cell, Redis.lookup_set, protocolKey_inj]

/-- `Remove`: the id and what it is mapped to. -/
theorem cell_remove (k k' : Kind) (a : String) (r : Redis) (x : String) :
    cell k (k'.map.remove a served r).1 x
      = if k = k' ∧ (x = a ∨ cell k r a = some x) then none else cell k r x := by
  have hremove : (k'.map.remove a served r).1
      = (cell k' r a).elim r fun v => r.del [k'.map.protocolKey a, k'.map.protocolKey v] := by
    rw [RouteMap.remove_served, mfxKey_eq]
    rfl
  rw [hremove]
  by_cases hk : k = k'
  · subst hk
    cases ha : cell k r a with
    | none =>
        -- an id that is not there: nothing is removed, and nothing was there
        rw [Option.elim_none]
        by_cases hx : x = a
        · rw [if_pos ⟨rfl, .inl hx⟩, hx]
          exact ha
        · rw [if_neg (by simp [hx])]
    | some v =>
        show (r.del _).lookup _ = _
        simp only [Redis.lookup_del, List.mem_cons, List.not_mem_nil, or_false, protocolKey_inj,
          true_and, Option.some.injEq, @eq_comm _ x v]
        rfl
  · rw [if_neg fun h => hk h.1]
    cases cell k' r a with
    | none => rfl
    | some v =>
        show (r.del _).lookup _ = _
        simp only [Redis.lookup_del, List.mem_cons, List.not_mem_nil, or_false, protocolKey_inj,
          hk, false_and, if_false]
        rfl

/-- A data change is published under a channel and a thing when the maps lead
there. -/
theorem publish_iff {serverURI nodeID chan thing : String} {r : Redis} :
    (∀ item, publish (messageOf serverURI nodeID item) r
        = .ok ⟨thing, chan, senML (messageOf serverURI nodeID item)⟩) ↔
      cell .channel r serverURI = some chan ∧ cell .thing r nodeID = some thing ∧
        cell .connection r (connKey chan thing) ≠ none := by
  have hone : ∀ item, publish (messageOf serverURI nodeID item) r
        = .ok ⟨thing, chan, senML (messageOf serverURI nodeID item)⟩ ↔
      cell .channel r serverURI = some chan ∧ cell .thing r nodeID = some thing ∧
        cell .connection r (connKey chan thing) ≠ none := by
    intro item
    rw [publish_eq_ok, ← get_eq_ok, ← get_eq_ok, Option.ne_none_iff_exists']
    simp only [← get_eq_ok, and_true]
    rfl
  constructor
  · intro h
    exact (hone ⟨⟨.null, ()⟩, .zero⟩).mp (h _)
  · intro h item
    exact (hone item).mpr h

/-! ## §2. Histories of events. -/

/-- A subscription and the pair of ids that it was started for. -/
structure Subscription where
  chan : String
  thing : String
  serverURI : String
  nodeID : String
  deriving DecidableEq

/-- Mainflux ids with the routes that the events have given them. -/
abbrev Routes := String → Option String

/-- The adapter, the routes of the things and of the channels that exist, and the
subscriptions in use. -/
structure World where
  adapter : State
  things : Routes
  channels : Routes
  live : List Subscription

/-- The event leaves the thing, the channel and the connection of the subscription,
and their routes. -/
def Keeps (w : World) (sub : Subscription) : Decoded → Prop
  | .createThing ev => ev.id = sub.thing → w.things ev.id = some ev.opcuaNodeID
  | .removeThing id => id ≠ sub.thing
  | .createChannel ev => ev.id = sub.chan → w.channels ev.id = some ev.opcuaServerURI
  | .removeChannel id => id ≠ sub.chan
  | .connectThing _ => True
  | .disconnectThing ev => ¬ (ev.chanID = sub.chan ∧ ev.thingID = sub.thing)
  | .skipped => True

instance (w : World) (sub : Subscription) : DecidablePred (Keeps w sub) := by
  intro d
  cases d <;> simp only [Keeps] <;> infer_instance

/-- The event methods of the service. -/
def serve (s : State) (d : Decoded) : State := (apply served d s).1

/-- The subscription that an event starts, if the channel and the thing exist. -/
def started (w : World) : Decoded → List Subscription
  | .connectThing ev =>
      if w.channels ev.chanID = none ∨ w.things ev.thingID = none then []
      else
        ((serve w.adapter (.connectThing ev)).subscriptions.drop
          w.adapter.subscriptions.length).map fun s => ⟨ev.chanID, ev.thingID, s.1, s.2⟩
  | _ => []

def World.step (w : World) (d : Decoded) : World where
  adapter := serve w.adapter d
  things :=
    match d with
    | .createThing ev => Function.update w.things ev.id (some ev.opcuaNodeID)
    | .removeThing id => Function.update w.things id none
    | _ => w.things
  channels :=
    match d with
    | .createChannel ev => Function.update w.channels ev.id (some ev.opcuaServerURI)
    | .removeChannel id => Function.update w.channels id none
    | _ => w.channels
  live := w.live.filter (fun sub => decide (Keeps w sub d)) ++ started w d

def World.start : World := ⟨⟨Redis.empty, []⟩, fun _ => none, fun _ => none, []⟩

/-- After a history of events. -/
abbrev after (history : List Decoded) : World := run World.step World.start history

/-- **After the history, what a subscription receives that was started by
`ConnectThing`, and whose channel, thing and connection have been left as they
were, is published under that channel and that thing.** -/
def Routed (history : List Decoded) : Prop :=
  ∀ before ev rest, history = before ++ .connectThing ev :: rest →
    ∀ sub ∈ started (after before) (.connectThing ev),
      Along World.step (fun w d => Keeps w sub d) (after (before ++ [.connectThing ev])) rest →
        ∀ item, publish (messageOf sub.serverURI sub.nodeID item) (after history).adapter.redis
          = .ok ⟨sub.thing, sub.chan, senML (messageOf sub.serverURI sub.nodeID item)⟩

/-- A subscription is in use when some event of the history started it and none since
has touched what it stands for. -/
theorem mem_live_iff {history : List Decoded} {sub : Subscription} :
    sub ∈ (after history).live ↔
      ∃ before ev rest, history = before ++ .connectThing ev :: rest ∧
        sub ∈ started (after before) (.connectThing ev) ∧
        Along World.step (fun w d => Keeps w sub d) (after (before ++ [.connectThing ev])) rest := by
  induction history using List.reverseRecOn with
  | nil =>
      refine iff_of_false List.not_mem_nil ?_
      rintro ⟨before, ev, rest, heq, -⟩
      exact absurd heq.symm (List.append_ne_nil_of_right_ne_nil _ (List.cons_ne_nil _ _))
  | append_singleton history d ih =>
      have hlive : (after (history ++ [d])).live
          = (after history).live.filter (fun sub => decide (Keeps (after history) sub d))
            ++ started (after history) d := by
        rw [show after (history ++ [d]) = (after history).step d from run_append _ _ _]
        rfl
      rw [hlive, List.mem_append, List.mem_filter, decide_eq_true_eq, ih]
      constructor
      · rintro (⟨⟨before, ev, rest, rfl, hsub, hrest⟩, hd⟩ | hsub)
        · refine ⟨before, ev, rest ++ [d], by simp, hsub, ?_⟩
          rw [along_append, ← run_append, List.append_assoc]
          exact ⟨hrest, hd, trivial⟩
        · -- what is started now
          cases d with
          | connectThing ev => exact ⟨history, ev, [], rfl, hsub, trivial⟩
          | _ => exact absurd hsub List.not_mem_nil
      · rintro ⟨before, ev, rest, heq, hsub, hrest⟩
        cases rest using List.reverseRecOn with
        | nil =>
            obtain ⟨rfl, h⟩ := List.append_inj' heq rfl
            cases h
            exact .inr hsub
        | append_singleton rest d' =>
            rw [← List.cons_append, ← List.append_assoc] at heq
            obtain ⟨rfl, h⟩ := List.append_inj' heq rfl
            cases h
            rw [along_append, ← run_append, List.append_assoc] at hrest
            exact .inl ⟨⟨before, ev, rest, rfl, hsub, hrest.1⟩, hrest.2.1⟩

/-! ## §3. What one event does to the routes in use. -/

/-- The maps lead from the server and the node of the subscription to its channel and
thing, and their connection is there. -/
def Reaches (r : Redis) (sub : Subscription) : Prop :=
  cell .channel r sub.serverURI = some sub.chan ∧ cell .thing r sub.nodeID = some sub.thing ∧
    cell .connection r (connKey sub.chan sub.thing) ≠ none

/-- They do so for every subscription in use. -/
def Right (w : World) : Prop := ∀ sub ∈ w.live, Reaches w.adapter.redis sub

/-- A connection is saved with its own key. -/
def OwnKeys (w : World) : Prop := ∀ x v, cell .connection w.adapter.redis x = some v → v = x

/-- `Save` of `id` and `route` leaves `v` behind `x`. -/
def Spares (id route x v : String) : Prop :=
  (route = x → id = v) ∧ (id = x → route ≠ x → route = v)

/-- The event takes no subscription in use the way to its channel and thing, and starts none
that lacks it. -/
def Safe (w : World) (d : Decoded) : Prop :=
  match d with
  | .createThing ev =>
      ∀ sub ∈ w.live, Keeps w sub d → Spares ev.id ev.opcuaNodeID sub.nodeID sub.thing
  | .removeThing id =>
      ∀ sub ∈ w.live, Keeps w sub d →
        sub.nodeID ≠ id ∧ cell .thing w.adapter.redis id ≠ some sub.nodeID
  | .createChannel ev =>
      ∀ sub ∈ w.live, Keeps w sub d → Spares ev.id ev.opcuaServerURI sub.serverURI sub.chan
  | .removeChannel id =>
      ∀ sub ∈ w.live, Keeps w sub d →
        sub.serverURI ≠ id ∧ cell .channel w.adapter.redis id ≠ some sub.serverURI
  | .connectThing _ =>
      ∀ sub ∈ started w d,
        cell .channel w.adapter.redis sub.serverURI = some sub.chan ∧
          cell .thing w.adapter.redis sub.nodeID = some sub.thing
  | .disconnectThing ev =>
      ∀ sub ∈ w.live, Keeps w sub d →
        connKey sub.chan sub.thing ≠ connKey ev.chanID ev.thingID
  | .skipped => True

section Cells

variable {k j : Kind} {r : Redis} {a b x v : String}

theorem cell_save_of_ne (h : k ≠ j) :
    cell k (j.map.save a b served r).1 x = cell k r x := by
  rw [cell_save, if_neg fun hk => h hk.1, if_neg fun hk => h hk.1]

theorem cell_remove_of_ne (h : k ≠ j) :
    cell k (j.map.remove a served r).1 x = cell k r x := by
  rw [cell_remove, if_neg fun hk => h hk.1]

theorem spares_iff (h : cell k r x = some v) :
    cell k (k.map.save a b served r).1 x = some v ↔ Spares a b x v := by
  rw [cell_save, Spares]
  by_cases hb : x = b
  · rw [if_pos ⟨rfl, hb⟩, Option.some.injEq]
    exact ⟨fun ha => ⟨fun _ => ha, fun _ hne => absurd hb.symm hne⟩, fun hs => hs.1 hb.symm⟩
  · rw [if_neg fun hk => hb hk.2]
    by_cases ha : x = a
    · rw [if_pos ⟨rfl, ha⟩, Option.some.injEq]
      exact ⟨fun hv => ⟨fun hbx => absurd hbx.symm hb, fun _ _ => hv⟩,
        fun hs => hs.2 ha.symm fun hbx => hb hbx.symm⟩
    · rw [if_neg fun hk => ha hk.2]
      exact iff_of_true h ⟨fun hbx => absurd hbx.symm hb, fun hax => absurd hax.symm ha⟩

theorem cell_remove_eq_some_iff (h : cell k r x = some v) :
    cell k (k.map.remove a served r).1 x = some v ↔ x ≠ a ∧ cell k r a ≠ some x := by
  rw [cell_remove, ← not_or]
  split
  next hgone => exact iff_of_false (fun hn => by cases hn) fun hn => hn hgone.2
  next hstays => exact iff_of_true h fun hn => hstays ⟨rfl, hn⟩

end Cells

/-- `ConnectThing` saves the connection, or does nothing. -/
theorem serve_connectThing (s : State) (ev : ConnectThingEvent) :
    serve s (.connectThing ev) = s ∨
      (serve s (.connectThing ev)).redis
        = (connectRM.save (connKey ev.chanID ev.thingID) (connKey ev.chanID ev.thingID) served
            s.redis).1 := by
  show (connectThing ev served s).1 = s ∨ (connectThing ev served s).1.redis = _
  unfold connectThing
  split
  next => exact .inl rfl
  next =>
      split
      next => exact .inl rfl
      next => exact .inr rfl

theorem started_connectThing (w : World) (ev : ConnectThingEvent) :
    started w (.connectThing ev)
      = if w.channels ev.chanID = none ∨ w.things ev.thingID = none then []
        else
          ((serve w.adapter (.connectThing ev)).subscriptions.drop
            w.adapter.subscriptions.length).map fun s => ⟨ev.chanID, ev.thingID, s.1, s.2⟩ :=
  rfl

/-- What is started is for the pair of the event. -/
theorem pair_of_mem_started {w : World} {ev : ConnectThingEvent} {sub : Subscription}
    (h : sub ∈ started w (.connectThing ev)) : sub.chan = ev.chanID ∧ sub.thing = ev.thingID := by
  rw [started_connectThing] at h
  split at h
  next => cases h
  next =>
      obtain ⟨s, -, rfl⟩ := List.mem_map.mp h
      exact ⟨rfl, rfl⟩

theorem started_of_serve_eq {w : World} {ev : ConnectThingEvent}
    (h : serve w.adapter (.connectThing ev) = w.adapter) : started w (.connectThing ev) = [] := by
  rw [started_connectThing, h, List.drop_length]
  split <;> rfl

theorem right_step {w : World} {d : Decoded} :
    Right (w.step d) ↔
      (∀ sub ∈ w.live, Keeps w sub d → Reaches (serve w.adapter d).redis sub) ∧
        ∀ sub ∈ started w d, Reaches (serve w.adapter d).redis sub := by
  show (∀ sub ∈ w.live.filter _ ++ _, _) ↔ _
  simp only [List.forall_mem_append, List.mem_filter, decide_eq_true_eq, and_imp]
  rfl

theorem ownKeys_step {w : World} (h : OwnKeys w) (d : Decoded) : OwnKeys (w.step d) := by
  intro x v hx
  have hx : cell .connection (serve w.adapter d).redis x = some v := hx
  cases d with
  | createThing ev => exact h x v ((cell_save_of_ne (j := .thing) (by decide)).symm.trans hx)
  | removeThing id => exact h x v ((cell_remove_of_ne (j := .thing) (by decide)).symm.trans hx)
  | createChannel ev => exact h x v ((cell_save_of_ne (j := .channel) (by decide)).symm.trans hx)
  | removeChannel id =>
      exact h x v ((cell_remove_of_ne (j := .channel) (by decide)).symm.trans hx)
  | connectThing ev =>
      rcases serve_connectThing w.adapter ev with hs | hs
      · rw [hs] at hx
        exact h x v hx
      · rw [hs] at hx
        have hcell := (cell_save .connection .connection _ _ _ _).symm.trans hx
        split at hcell
        next hk =>
            cases hcell
            exact hk.2.symm
        next => exact h x v (by simpa using hcell)
  | disconnectThing ev =>
      have hcell := (cell_remove .connection .connection _ _ _).symm.trans hx
      split at hcell
      next => cases hcell
      next => exact h x v hcell
  | skipped => exact h x v hx

section Reaches

variable {r r' : Redis} {sub : Subscription}

/-- What a change of the things does to a subscription in use. -/
theorem reaches_iff_thing (h : Reaches r sub)
    (hchan : ∀ x, cell .channel r' x = cell .channel r x)
    (hconn : ∀ x, cell .connection r' x = cell .connection r x) :
    Reaches r' sub ↔ cell .thing r' sub.nodeID = some sub.thing := by
  rw [Reaches, hchan, hconn]
  exact ⟨fun hr => hr.2.1, fun ht => ⟨h.1, ht, h.2.2⟩⟩

/-- A change of the channels. -/
theorem reaches_iff_channel (h : Reaches r sub)
    (hthing : ∀ x, cell .thing r' x = cell .thing r x)
    (hconn : ∀ x, cell .connection r' x = cell .connection r x) :
    Reaches r' sub ↔ cell .channel r' sub.serverURI = some sub.chan := by
  rw [Reaches, hthing, hconn]
  exact ⟨fun hr => hr.1, fun hc => ⟨hc, h.2⟩⟩

/-- A change of the connections. -/
theorem reaches_iff_connection (h : Reaches r sub)
    (hthing : ∀ x, cell .thing r' x = cell .thing r x)
    (hchan : ∀ x, cell .channel r' x = cell .channel r x) :
    Reaches r' sub ↔ cell .connection r' (connKey sub.chan sub.thing) ≠ none := by
  rw [Reaches, hthing, hchan]
  exact ⟨fun hr => hr.2.2, fun hn => ⟨h.1, h.2.1, hn⟩⟩

end Reaches

/-- `ConnectThing` is safe when what it starts finds its way back. -/
theorem right_connectThing_iff {w : World} (h : Right w) (ev : ConnectThingEvent) :
    Right (w.step (.connectThing ev)) ↔ Safe w (.connectThing ev) := by
  rw [right_step]
  rcases serve_connectThing w.adapter ev with hs | hs
  · -- nothing is started
    rw [hs, Safe, started_of_serve_eq hs]
    exact iff_of_true
      ⟨fun sub hsub _ => h sub hsub, fun sub hsub => absurd hsub List.not_mem_nil⟩
      fun sub hsub => absurd hsub List.not_mem_nil
  · rw [hs]
    have hthing : ∀ x, cell .thing (Kind.connection.map.save (connKey ev.chanID ev.thingID)
        (connKey ev.chanID ev.thingID) served w.adapter.redis).1 x
          = cell .thing w.adapter.redis x :=
      fun x => cell_save_of_ne (by decide)
    have hchan : ∀ x, cell .channel (Kind.connection.map.save (connKey ev.chanID ev.thingID)
        (connKey ev.chanID ev.thingID) served w.adapter.redis).1 x
          = cell .channel w.adapter.redis x :=
      fun x => cell_save_of_ne (by decide)
    have hconn : ∀ x, cell .connection w.adapter.redis x ≠ none ∨
        x = connKey ev.chanID ev.thingID →
          cell .connection (Kind.connection.map.save (connKey ev.chanID ev.thingID)
            (connKey ev.chanID ev.thingID) served w.adapter.redis).1 x ≠ none := by
      intro x hx
      rw [cell_save]
      by_cases hkey : x = connKey ev.chanID ev.thingID
      · rw [if_pos ⟨rfl, hkey⟩]
        exact Option.some_ne_none _
      · rw [if_neg fun hk => hkey hk.2, if_neg fun hk => hkey hk.2]
        exact hx.resolve_right hkey
    constructor
    · intro hall sub hsub
      obtain ⟨hc, ht, -⟩ := hall.2 sub hsub
      exact ⟨(hchan _).symm.trans hc, (hthing _).symm.trans ht⟩
    · intro hsafe
      constructor
      · intro sub hsub _
        exact (reaches_iff_connection (h sub hsub) hthing hchan).mpr
          (hconn _ (.inl (h sub hsub).2.2))
      · intro sub hsub
        obtain ⟨hc, ht⟩ := hsafe sub hsub
        obtain ⟨hpc, hpt⟩ := pair_of_mem_started hsub
        exact ⟨(hchan _).trans hc, (hthing _).trans ht, hconn _ (.inr (by rw [hpc, hpt]))⟩

/-- **One event leaves the routes in use right exactly when it is safe.** -/
theorem right_step_iff {w : World} {d : Decoded} (hown : OwnKeys w) (h : Right w) :
    Right (w.step d) ↔ Safe w d := by
  have hlive : ∀ {C : Subscription → Prop}, started w d = [] →
      (∀ sub ∈ w.live, Reaches (serve w.adapter d).redis sub ↔ C sub) →
        (Right (w.step d) ↔ ∀ sub ∈ w.live, Keeps w sub d → C sub) := by
    intro C hstarted hC
    rw [right_step, hstarted]
    refine (and_iff_left fun sub hsub => absurd hsub List.not_mem_nil).trans ?_
    exact forall₃_congr fun sub hsub _ => hC sub hsub
  cases d with
  | createThing ev =>
      refine hlive rfl fun sub hsub => ?_
      exact (reaches_iff_thing (h sub hsub) (fun x => cell_save_of_ne (j := .thing) (by decide))
        fun x => cell_save_of_ne (j := .thing) (by decide)).trans (spares_iff (h sub hsub).2.1)
  | removeThing id =>
      refine hlive rfl fun sub hsub => ?_
      exact (reaches_iff_thing (h sub hsub) (fun x => cell_remove_of_ne (j := .thing) (by decide))
        fun x => cell_remove_of_ne (j := .thing) (by decide)).trans
          (cell_remove_eq_some_iff (h sub hsub).2.1)
  | createChannel ev =>
      refine hlive rfl fun sub hsub => ?_
      exact (reaches_iff_channel (h sub hsub)
        (fun x => cell_save_of_ne (j := .channel) (by decide))
        fun x => cell_save_of_ne (j := .channel) (by decide)).trans (spares_iff (h sub hsub).1)
  | removeChannel id =>
      refine hlive rfl fun sub hsub => ?_
      exact (reaches_iff_channel (h sub hsub)
        (fun x => cell_remove_of_ne (j := .channel) (by decide))
        fun x => cell_remove_of_ne (j := .channel) (by decide)).trans
          (cell_remove_eq_some_iff (h sub hsub).1)
  | connectThing ev => exact right_connectThing_iff h ev
  | disconnectThing ev =>
      refine hlive rfl fun sub hsub => ?_
      refine (reaches_iff_connection (h sub hsub)
        (fun x => cell_remove_of_ne (j := .connection) (by decide))
        fun x => cell_remove_of_ne (j := .connection) (by decide)).trans ?_
      show cell _ (Kind.connection.map.remove _ served _).1 _ ≠ _ ↔ _
      rw [cell_remove]
      constructor
      · intro hn hkey
        exact hn (if_pos ⟨rfl, .inl hkey⟩)
      · intro hkey
        -- the entry of another key holds that key
        rw [if_neg fun hgone => hgone.2.elim hkey fun hother => hkey (hown _ _ hother)]
        exact (h sub hsub).2.2
  | skipped =>
      refine iff_of_true (right_step.mpr ⟨fun sub hsub _ => h sub hsub, ?_⟩) trivial
      exact fun sub hsub => absurd hsub List.not_mem_nil

/-! ## §4. Whole histories. -/

/-- What the subscriptions in use receive goes where it should. -/
theorem routed_iff_right (history : List Decoded) : Routed history ↔ Right (after history) := by
  constructor
  · intro h sub hsub
    obtain ⟨before, ev, rest, heq, hstart, hkeeps⟩ := mem_live_iff.mp hsub
    exact publish_iff.mp (h before ev rest heq sub hstart hkeeps)
  · intro h before ev rest heq sub hstart hkeeps
    exact publish_iff.mpr (h sub (mem_live_iff.mpr ⟨before, ev, rest, heq, hstart, hkeeps⟩))

/-- **Data changes go to the right channel and thing along a history exactly when
each of its events is safe.** -/
theorem routed_iff_safe (history : List Decoded) :
    (∀ before rest, history = before ++ rest → Routed before) ↔
      Along World.step Safe World.start history := by
  have hright : (∀ before rest, history = before ++ rest →
      Right (run World.step World.start before)) ↔ Along World.step Safe World.start history :=
    run_iff (I := Right) (J := OwnKeys) (C := Safe) (fun _ d h => ownKeys_step h d)
      (fun _ _ hJ hI => right_step_iff hJ hI) (fun x v h => by cases h)
      (fun sub hsub => absurd hsub List.not_mem_nil)
  rw [← hright]
  exact forall₃_congr fun before _ _ => routed_iff_right before

/-- Two servers with one node id: what the first sends is for the thing of the
second, and lost. -/
theorem shared_node_id_loses_route :
    ¬ Routed
      [.createThing ⟨"t1", "ns=2;s=Temp"⟩, .createThing ⟨"t2", "ns=2;s=Temp"⟩,
        .createChannel ⟨"c1", "opc.tcp://a"⟩, .connectThing ⟨"c1", "t1"⟩] := by
  intro h
  have hpub := h
    [.createThing ⟨"t1", "ns=2;s=Temp"⟩, .createThing ⟨"t2", "ns=2;s=Temp"⟩,
      .createChannel ⟨"c1", "opc.tcp://a"⟩] ⟨"c1", "t1"⟩ [] rfl
    ⟨"c1", "t1", "opc.tcp://a", "ns=2;s=Temp"⟩ (by decide +kernel) trivial
    ⟨⟨.boolean, true⟩, .unix 0⟩
  exact absurd hpub (by decide +kernel)

end Mainflux.Adapters.Opcua
