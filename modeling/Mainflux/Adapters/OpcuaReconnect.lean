/-
  Mainflux.Adapters.OpcuaReconnect
  ────────────────────────────────
  **HOW OFTEN A DATA CHANGE IS PUBLISHED.**

  `ConnectThing` starts a subscription each time it is called.  `DisconnectThing`
  removes the connection from the route map and stops none.  So after a
  reconnect the server reports a data change to every subscription that the
  pair has ever had, and each of them finds the connection again.

    • `linked_spec` — the subscriptions of the pair count its `ConnectThing`
      events;
    • `deliver_eq` — while the pair is connected there is one message for each,
      else there is none;
    • `atMostOnce_iff` — so a history publishes at most once exactly when it has
      at most one `ConnectThing`.
-/
import Mainflux.Adapters.OpcuaRoutes

namespace Mainflux.Adapters.Opcua

open Mainflux.Lib

/-! ## §1. Connecting and disconnecting one pair. -/

/-- The events for one channel and thing. -/
inductive Link
  | connect
  | disconnect
  deriving DecidableEq

/-- The event, for the pair of a subscription. -/
def Link.event (sub : Subscription) : Link → Decoded
  | .connect => .connectThing ⟨sub.chan, sub.thing⟩
  | .disconnect => .disconnectThing ⟨sub.chan, sub.thing⟩

/-- The adapter after a history of these events. -/
abbrev linked (s : State) (sub : Subscription) (history : List Link) : State :=
  run (fun s l => serve s (l.event sub)) s history

/-- The pair is connected: the last event has connected it, or it was connected
before them. -/
def connected (s : State) (sub : Subscription) (history : List Link) : Bool :=
  run (fun _ l => decide (l = .connect))
    (cell .connection s.redis (connKey sub.chan sub.thing)).isSome history

/-- Channel and thing exist with the routes of the subscription, and nothing has
subscribed to its node yet. -/
structure Ready (s : State) (sub : Subscription) : Prop where
  serverURI : cell .channel s.redis sub.chan = some sub.serverURI
  nodeID : cell .thing s.redis sub.thing = some sub.nodeID
  chan : cell .channel s.redis sub.serverURI = some sub.chan
  thing : cell .thing s.redis sub.nodeID = some sub.thing
  fresh : (sub.serverURI, sub.nodeID) ∉ s.subscriptions

/-- The messages for one data change of a node: the server reports it to every
subscription of the node, and each handler publishes by itself. -/
def deliver (s : State) (serverURI nodeID : String) (item : Item) : List Published :=
  (s.subscriptions.filter (· == (serverURI, nodeID))).filterMap fun x =>
    (publish (messageOf x.1 x.2 item) s.redis).toOption

/-- **At every moment of the history a data change is published at most once for
the pair while it is connected, and not at all while it is not.** -/
def AtMostOnce (s : State) (sub : Subscription) (history : List Link) : Prop :=
  ∀ before rest, history = before ++ rest → ∀ item,
    (deliver (linked s sub before) sub.serverURI sub.nodeID item).countP
        (fun p => p.channel = sub.chan ∧ p.publisher = sub.thing)
      ≤ if connected s sub before then 1 else 0

/-! ## §2. The subscriptions that are left. -/

section Linked

variable {s : State} {sub : Subscription}

/-- The routes of channel and thing, both ways. -/
def HasRoutes (s : State) (sub : Subscription) : Prop :=
  (cell .channel s.redis sub.chan = some sub.serverURI ∧
      cell .thing s.redis sub.thing = some sub.nodeID) ∧
    cell .channel s.redis sub.serverURI = some sub.chan ∧
      cell .thing s.redis sub.nodeID = some sub.thing

theorem serve_connect (h : HasRoutes s sub) :
    serve s (Link.connect.event sub)
      = ⟨(connectRM.save (connKey sub.chan sub.thing) (connKey sub.chan sub.thing) served
            s.redis).1,
          s.subscriptions ++ [(sub.serverURI, sub.nodeID)]⟩ := by
  have hchan : channelsRM.get sub.chan .done s.redis = .ok sub.serverURI :=
    (get_eq_ok (k := .channel)).mpr h.1.1
  have hthing : thingsRM.get sub.thing .done s.redis = .ok sub.nodeID :=
    (get_eq_ok (k := .thing)).mpr h.1.2
  show (connectThing ⟨sub.chan, sub.thing⟩ served s).1 = _
  unfold connectThing
  simp only [hchan, hthing]
  rfl

/-- One event: the routes stay, a connect adds a subscription, and the connection is
what the event says. -/
theorem serve_link (h : HasRoutes s sub) (l : Link) :
    HasRoutes (serve s (l.event sub)) sub ∧
      (serve s (l.event sub)).subscriptions.count (sub.serverURI, sub.nodeID)
        = s.subscriptions.count (sub.serverURI, sub.nodeID) + (if l = .connect then 1 else 0) ∧
      (cell .connection (serve s (l.event sub)).redis (connKey sub.chan sub.thing)).isSome
        = decide (l = .connect) := by
  cases l with
  | connect =>
      rw [serve_connect h]
      refine ⟨?_, ?_, ?_⟩
      · have hchan : ∀ x, cell .channel (Kind.connection.map.save (connKey sub.chan sub.thing)
            (connKey sub.chan sub.thing) served s.redis).1 x = cell .channel s.redis x :=
          fun x => cell_save_of_ne (by decide)
        have hthing : ∀ x, cell .thing (Kind.connection.map.save (connKey sub.chan sub.thing)
            (connKey sub.chan sub.thing) served s.redis).1 x = cell .thing s.redis x :=
          fun x => cell_save_of_ne (by decide)
        exact ⟨⟨(hchan _).trans h.1.1, (hthing _).trans h.1.2⟩, (hchan _).trans h.2.1,
          (hthing _).trans h.2.2⟩
      · rw [List.count_append, List.count_singleton_self, if_pos rfl]
      · refine (congrArg Option.isSome (cell_save .connection .connection _ _ _ _)).trans ?_
        rw [if_pos ⟨rfl, rfl⟩]
        rfl
  | disconnect =>
      refine ⟨?_, rfl, ?_⟩
      · have hchan : ∀ x, cell .channel (Kind.connection.map.remove (connKey sub.chan sub.thing)
            served s.redis).1 x = cell .channel s.redis x :=
          fun x => cell_remove_of_ne (by decide)
        have hthing : ∀ x, cell .thing (Kind.connection.map.remove (connKey sub.chan sub.thing)
            served s.redis).1 x = cell .thing s.redis x :=
          fun x => cell_remove_of_ne (by decide)
        exact ⟨⟨(hchan _).trans h.1.1, (hthing _).trans h.1.2⟩, (hchan _).trans h.2.1,
          (hthing _).trans h.2.2⟩
      · refine (congrArg Option.isSome (cell_remove .connection .connection _ _ _)).trans ?_
        rw [if_pos ⟨rfl, .inl rfl⟩]
        rfl

/-- **After a history of events there is a subscription for each connect of it.** -/
theorem linked_spec (h : HasRoutes s sub) (history : List Link) :
    HasRoutes (linked s sub history) sub ∧
      (linked s sub history).subscriptions.count (sub.serverURI, sub.nodeID)
        = s.subscriptions.count (sub.serverURI, sub.nodeID) + history.count .connect ∧
      (cell .connection (linked s sub history).redis (connKey sub.chan sub.thing)).isSome
        = connected s sub history := by
  induction history using List.reverseRecOn with
  | nil => exact ⟨h, rfl, rfl⟩
  | append_singleton history l ih =>
      obtain ⟨hroutes, hcount, -⟩ := ih
      obtain ⟨hroutes', hcount', hconn'⟩ := serve_link hroutes l
      have hlinked : linked s sub (history ++ [l])
          = serve (linked s sub history) (l.event sub) := run_append _ _ _
      have hconnected : connected s sub (history ++ [l]) = decide (l = .connect) :=
        run_append _ _ _
      rw [hlinked, hconnected]
      refine ⟨hroutes', ?_, hconn'⟩
      rw [hcount', hcount, List.count_append, List.count_singleton, Nat.add_assoc]
      cases l <;> rfl

/-- **A data change is published once for each subscription while the pair is
connected.** -/
theorem deliver_eq (h : HasRoutes s sub) (history : List Link) (item : Item) :
    deliver (linked s sub history) sub.serverURI sub.nodeID item
      = if connected s sub history then
          List.replicate
            (s.subscriptions.count (sub.serverURI, sub.nodeID) + history.count .connect)
            ⟨sub.thing, sub.chan, senML (messageOf sub.serverURI sub.nodeID item)⟩
        else [] := by
  obtain ⟨hroutes, hcount, hconn⟩ := linked_spec h history
  unfold deliver
  rw [List.filter_beq, hcount]
  split
  next hc =>
      rw [hc, Option.isSome_iff_ne_none] at hconn
      have hpub := publish_iff.mpr ⟨hroutes.2.1, hroutes.2.2, hconn⟩ item
      exact List.filterMap_replicate_of_some (by rw [hpub]; rfl)
  next hc =>
      rw [List.filterMap_eq_nil_iff]
      intro x hx
      rw [List.eq_of_mem_replicate hx]
      -- the connection is not there
      cases hpub : publish (messageOf sub.serverURI sub.nodeID item) (linked s sub history).redis with
      | error e => rfl
      | ok p =>
          obtain ⟨hchan, hthing, ⟨v, hv⟩, -⟩ := publish_eq_ok.mp hpub
          have hp : p.channel = sub.chan ∧ p.publisher = sub.thing := by
            have hchan := (get_eq_ok (k := .channel)).mp hchan
            have hthing := (get_eq_ok (k := .thing)).mp hthing
            exact ⟨Option.some.inj (hchan.symm.trans hroutes.2.1),
              Option.some.inj (hthing.symm.trans hroutes.2.2)⟩
          rw [hp.1, hp.2] at hv
          have hv := (get_eq_ok (k := .connection)).mp hv
          rw [hv] at hconn
          exact absurd hconn.symm hc

end Linked

/-! ## §3. At most once. -/

theorem Ready.hasRoutes {s : State} {sub : Subscription} (h : Ready s sub) : HasRoutes s sub :=
  ⟨⟨h.serverURI, h.nodeID⟩, h.chan, h.thing⟩

/-- **A history publishes at most once exactly when it connects at most once.** -/
theorem atMostOnce_iff {s : State} {sub : Subscription} (h : Ready s sub) (history : List Link) :
    AtMostOnce s sub history ↔ history.count .connect ≤ 1 := by
  have hfresh : s.subscriptions.count (sub.serverURI, sub.nodeID) = 0 :=
    List.count_eq_zero.mpr h.fresh
  have hcount : ∀ before item,
      (deliver (linked s sub before) sub.serverURI sub.nodeID item).countP
          (fun p => p.channel = sub.chan ∧ p.publisher = sub.thing)
        = if connected s sub before then before.count .connect else 0 := by
    intro before item
    rw [deliver_eq h.hasRoutes, hfresh, Nat.zero_add]
    split
    next => simp [List.countP_replicate]
    next => rfl
  constructor
  · intro honce
    induction history using List.reverseRecOn with
    | nil => exact Nat.zero_le 1
    | append_singleton history l ih =>
        have hbefore : AtMostOnce s sub history := by
          intro before rest heq item
          exact honce before (rest ++ [l]) (by rw [heq, List.append_assoc]) item
        cases l with
        | disconnect =>
            rw [List.count_append]
            exact ih hbefore
        | connect =>
            -- now the pair is connected, and every connect counts
            have hnow := honce (history ++ [.connect]) [] (List.append_nil _).symm ⟨⟨.null, ()⟩, .zero⟩
            have hconnected : connected s sub (history ++ [.connect]) = true := run_append _ _ _
            rw [hcount, hconnected] at hnow
            exact hnow
  · intro hle before rest heq item
    rw [hcount]
    split
    next =>
        rw [heq, List.count_append] at hle
        omega
    next => exact Nat.le_refl 0

/-- One channel and one thing that the adapter has been told of. -/
theorem atMostOnce_connect_disconnect :
    AtMostOnce (after [.createThing ⟨"t", "ns=2;s=Temp"⟩, .createChannel ⟨"c", "opc.tcp://a"⟩]).adapter
      ⟨"c", "t", "opc.tcp://a", "ns=2;s=Temp"⟩ [.connect, .disconnect] :=
  (atMostOnce_iff ⟨by decide +kernel, by decide +kernel, by decide +kernel, by decide +kernel,
    List.not_mem_nil⟩ _).mpr (by decide)

/-- After a reconnect every value is published twice. -/
theorem reconnect_publishes_twice :
    ¬ AtMostOnce (after [.createThing ⟨"t", "ns=2;s=Temp"⟩, .createChannel ⟨"c", "opc.tcp://a"⟩]).adapter
      ⟨"c", "t", "opc.tcp://a", "ns=2;s=Temp"⟩ [.connect, .disconnect, .connect] := by
  intro h
  exact absurd (h [.connect, .disconnect, .connect] [] rfl ⟨⟨.boolean, true⟩, .unix 0⟩)
    (by decide +kernel)

end Mainflux.Adapters.Opcua
