/-
  Mainflux.Messaging.Broker
  ─────────────────────────
  **FROM THE ADAPTERS OVER THE BROKER TO SUBSCRIBERS AND WRITERS.**

  Requests of HTTP, WebSocket and CoAP are served side by side by any number of adapters,
  each with a connection of its own to the broker, and so are the writers.  An adapter
  writes publications and subscriptions on its connection; the broker reads the
  connections, and what a subscription covers goes to the callback that was registered
  with it.

    • `isolated` — whatever is received was published on that channel by a thing that had
      been granted access to it;
    • `in_order` — nothing that is published is lost on the way, or doubled, or overtaken;
    • `write_append` — where the bytes of a connection are cut makes no difference;
    • `accepted_published` — what an accepted HTTP request leaves behind;
    • `eavesdrops` — what becomes of all this when a subtopic has a line end in it.
-/
import Mathlib.Data.List.Pairwise
import Mathlib.Logic.Function.Basic
import Mainflux.Lib.Nats
import Mainflux.Lib.Run
import Mainflux.Lib.Topic
import Mainflux.Messaging.Handlers
import Mainflux.Messaging.Wire

namespace Mainflux.Messaging.Broker

open Mainflux.Lib

open Coap.Api (Access Cmd ServiceErr Sig)

open FlatJson (toBytes writeNat)

/-! ## §1. The clients and the broker. -/

def inputChannels : Text := ['c', 'h', 'a', 'n', 'n', 'e', 'l', '.', '>']

/-- Who subscribes: a WebSocket connection or a CoAP observer, or a writer. -/
inductive Consumer
  | session (chanID subtopic : Text)
  | writer (queue : Text)
  deriving DecidableEq

def Consumer.subject : Consumer → Text
  | .session chanID subtopic => fmtSubject chanID subtopic
  | .writer _ => inputChannels

def Consumer.queue : Consumer → Text
  | .session _ _ => []
  | .writer queue => queue

/-- A subscription as the client of connection `conn` keeps it. -/
structure Callback where
  conn : Nat
  sid : Nat
  consumer : Consumer
  deriving DecidableEq

/-- A subscription as the broker keeps it. -/
structure Subscription where
  conn : Nat
  sid : Text
  subject : Text
  queue : Option Text
  deriving DecidableEq

/-- A call of a callback with a message that could be decoded. -/
structure Receipt where
  callback : Callback
  message : Message
  deriving DecidableEq

/-- An access that was granted: with this key the thing may use the channel. -/
structure Grant where
  token : Text
  chanID : Text
  thing : Text
  deriving DecidableEq

/-- What the adapters publish. -/
abbrev Publication := Coap.Api.Publication

structure World where
  tick : Nat := 0
  /-- The bytes of each connection that the broker has not read yet; `none` once it has closed
  the connection. -/
  unread : Nat → Option Text := fun _ => some []
  subs : List Subscription := []
  /-- `nc.ssid` of each connection. -/
  ssid : Nat → Nat := fun _ => 0
  callbacks : List Callback := []
  granted : List Grant := []
  published : List Publication := []
  received : List Receipt := []

/-- What is not decided here: what the things service answers, when the client of a connection fails,
which member of a queue group is picked, and the limit that the broker has announced. -/
structure Env where
  access : Nat → Text → Text → Access
  fault : Nat → Option ServiceErr := fun _ => none
  pick : Nat → Nat := fun _ => 0
  maxPayload : Nat := 1048576
  -- the client has room for twelve digits
  maxPayload_lt : maxPayload < 1000000000000 := by decide

/-- `mainflux.Message` as the generated type. -/
def message (m : Publication) : Message where
  channel := toBytes m.channel
  subtopic := toBytes m.subtopic
  publisher := toBytes m.publisher
  protocol := toBytes m.protocol
  contentType := toBytes m.contentType
  payload := m.payload

/-- The subject is one that a subscription is for. -/
def covers (pattern subject : Text) : Bool :=
  Topic.covers ['*'] ['>'] (pattern.splitOn '.') (subject.splitOn '.')

/-- Whom a publication goes to among those it matches: everyone outside of a group, and one member
of each group. -/
def recipients {α : Type} [DecidableEq α] (queue : α → Option Text) (pick : Nat) (matching : List α) :
    List α :=
  matching.filter fun s =>
    match queue s with
    | none => true
    | some q =>
        let members := matching.filter fun s' => queue s' = some q
        members[pick % members.length]? = some s

/-- The client finds the callback, which decodes the data. -/
def dispatch (callbacks : List Callback) (data : List UInt8) (s : Subscription) : Option Receipt :=
  match callbacks.find? fun cb => cb.conn = s.conn ∧ writeNat cb.sid = s.sid with
  | none => none
  | some cb =>
      match Message.protoUnmarshal data with
      | .error _ => none
      | .ok m => some ⟨cb, m⟩

/-- The broker carries out an operation that it has read. -/
def perform (E : Env) (conn : Nat) (w : World) : Nats.Op → World
  | .pub subject _ data =>
      { w with
        received := w.received ++
          (recipients Subscription.queue (E.pick w.tick)
            (w.subs.filter fun s => covers s.subject subject)).filterMap (dispatch w.callbacks data) }
  | .sub subject queue sid =>
      if w.subs.any fun s => s.conn = conn ∧ s.sid = sid then w
      else { w with subs := w.subs ++ [⟨conn, sid, subject, queue⟩] }
  | .unsub sid none =>
      { w with subs := w.subs.filter fun s => ¬ (s.conn = conn ∧ s.sid = sid) }
  -- with a limit the subscription ends later
  | .unsub _ (some _) => w
  | .ping => w
  | .pong => w

/-- Bytes arrive at the broker. -/
def write (E : Env) (conn : Nat) (bytes : Text) (w : World) : World :=
  match w.unread conn with
  | none => w
  | some left =>
      (Nats.readOps (left ++ bytes)).1.foldl (perform E conn)
        { w with unread := Function.update w.unread conn (Nats.readOps (left ++ bytes)).2 }

/-- `nc.subscribe`. -/
def subscribe (E : Env) (conn : Nat) (consumer : Consumer) (w : World) : World :=
  write E conn (Nats.subscribe consumer.subject consumer.queue (w.ssid conn + 1))
    { w with
      ssid := Function.update w.ssid conn (w.ssid conn + 1)
      callbacks := w.callbacks ++ [⟨conn, w.ssid conn + 1, consumer⟩] }

/-- `nc.unsubscribe`. -/
def unsubscribe (E : Env) (cb : Callback) (w : World) : World :=
  write E cb.conn (Nats.unsubscribe cb.sid)
    { w with callbacks := w.callbacks.filter fun cb' => ¬ (cb'.conn = cb.conn ∧ cb'.sid = cb.sid) }

/-- `Publish` of the publishers, and `nc.publish`. -/
def publish (E : Env) (conn : Nat) (m : Publication) (w : World) : World × Option ServiceErr :=
  match (message m).protoMarshal with
  | none => (w, some .failedMessagePublish)
  | some data =>
      match E.fault w.tick with
      | some e => (w, some e)
      | none =>
          if E.maxPayload < data.length then (w, some .failedMessagePublish)
          else
            (write E conn (Nats.publish (fmtSubject m.channel m.subtopic) data)
              { w with published := w.published ++ [m] }, none)

/-! ## §2. The system. -/

/-- The commands of the handlers, each with the connection of its adapter. -/
abbrev Net : Signature where
  Cmd := Nat × Cmd
  Res c := Sig.Res c.2

/-- A handler in an adapter. -/
def on {α : Type} (conn : Nat) : Prog Sig α → Prog Net α
  | .ret a => .ret a
  | .call c k => .call (conn, c) fun r => on conn (k r)

def World.next (w : World) : World := { w with tick := w.tick + 1 }

/-- What becomes of a command.  An observer is removed from the map of its adapter, which does not
concern the broker until the goroutine around it unsubscribes. -/
def handle (E : Env) : Handler Net World
  | (_, .canAccessByKey token chanID), w =>
      let r := E.access w.tick token chanID
      ({ w.next with
         granted := if r.err = none then w.granted ++ [⟨token, chanID, r.value⟩] else w.granted }, r)
  | (conn, .publish m), w =>
      let r := publish E conn m w
      (r.1.next, r.2)
  | (conn, .subscribe chanID subtopic _), w =>
      match E.fault w.tick with
      | some _ => (w.next, some .failedSubscription)
      | none => ((subscribe E conn (.session chanID subtopic) w).next, none)
  | (_, .unsubscribe _), w => (w.next, ())
  | (_, .respond _), w => (w.next, ())

inductive Request
  | http (r : Http.Request)
  | ws (r : Ws.Handshake)
  | coap (msg : Coap.Api.Message)
  deriving DecidableEq

inductive Reply
  | http (s : Http.Status)
  | ws (r : Ws.Reply)
  | coap (msg : Option Coap.Api.Message)
  deriving DecidableEq

def serve : Request → Prog Sig Reply
  | .http r => .http <$> Http.serve r
  | .ws r => .ws <$> Ws.serve r
  | .coap msg => .coap <$> Coap.Api.mux msg

abbrev System := Pool Net World (Nat × Request) Reply

inductive Event
  /-- A request arrives at an adapter, or one that is served goes on. -/
  | act (a : Act (Nat × Request))
  /-- `Start` of a writer. -/
  | start (conn : Nat) (queue : Text)
  /-- The goroutine of a session finds its channel closed. -/
  | closed (cb : Callback)

def step (E : Env) (p : System) : Event → System
  | .act a => p.act (handle E) (fun i => on i.1 (serve i.2)) a
  | .start conn queue => { p with st := subscribe E conn (.writer queue) p.st }
  | .closed cb =>
      match cb.consumer with
      | .session _ _ => if cb ∈ p.st.callbacks then { p with st := unsubscribe E cb p.st } else p
      | .writer _ => p

def start : System := ⟨{}, []⟩

/-! ## §3. Subjects. -/

/-- What the expression takes for the id of a channel. -/
def IdText (s : Text) : Prop := s ≠ [] ∧ ∀ c ∈ s, isIDChar c

theorem idText_of_all {s : Text} (h : (!s.isEmpty && s.all isIDChar) = true) : IdText s := by
  obtain ⟨hne, hall⟩ := Bool.and_eq_true_iff.mp h
  refine ⟨?_, List.all_eq_true.mp hall⟩
  rintro rfl
  cases hne

def Unblanked (s : Text) : Prop := ∀ c ∈ s, Nats.isBlank c = false

theorem unblanked_of_all {s : Text} (h : (s.all fun c => !Nats.isBlank c) = true) : Unblanked s :=
  fun c hc => Bool.not_eq_true' _ |>.mp (List.all_eq_true.mp h c hc)

/-- The levels of a subtopic. -/
def tokens (subtopic : Text) : List Text := if subtopic = [] then [] else subtopic.splitOn '.'

/-- What a consumer is to receive. -/
def Consumer.wants : Consumer → Publication → Bool
  | .session chanID subtopic, m =>
      decide (chanID = m.channel) && Topic.covers ['*'] ['>'] (tokens subtopic) (tokens m.subtopic)
  | .writer _, _ => true

section Subjects

variable {chanID chanID' subtopic subtopic' : Text}

theorem isBlank_of_isIDChar {c : Char} (h : isIDChar c) : Nats.isBlank c = false := by
  rw [Bool.eq_false_iff]
  intro hblank
  simp only [Nats.isBlank, Bool.or_eq_true, beq_iff_eq] at hblank
  rcases hblank with ((rfl | rfl) | rfl) | rfl <;> cases h

theorem IdText.no_dot (h : IdText chanID) : '.' ∉ chanID := isIDChar_not_special h.2 (by decide)

theorem splitOn_subject (h : IdText chanID) (subtopic : Text) :
    (fmtSubject chanID subtopic).splitOn '.' = channelToken :: chanID :: tokens subtopic := by
  rw [fmtSubject, tokens]
  split
  next =>
      rw [List.splitOn_append_cons_self_of_not_mem (by decide), List.splitOn_eq_singleton h.no_dot]
  next =>
      rw [List.append_assoc, List.cons_append, List.splitOn_append_cons_self_of_not_mem (by decide),
        List.splitOn_append_cons_self_of_not_mem h.no_dot]

/-- The subject of a request is one field on a control line. -/
theorem word_fmtSubject (h : IdText chanID) (hs : Unblanked subtopic) :
    Nats.Word (fmtSubject chanID subtopic) := by
  have htoken : Unblanked channelToken := unblanked_of_all rfl
  have hchannel : ∀ c ∈ channelToken ++ '.' :: chanID, Nats.isBlank c = false := by
    intro c hc
    rcases List.mem_append.mp hc with hc | hc
    · exact htoken c hc
    · rcases List.mem_cons.mp hc with rfl | hc
      · rfl
      · exact isBlank_of_isIDChar (h.2 c hc)
  unfold fmtSubject
  split
  next => exact ⟨by simp [channelToken], hchannel⟩
  next =>
      refine ⟨by simp [channelToken], fun c hc => ?_⟩
      rcases List.mem_append.mp hc with hc | hc
      · exact hchannel c hc
      · rcases List.mem_cons.mp hc with rfl | hc
        · rfl
        · exact hs c hc

/-- A session's subscription is for the publications on its channel under its subtopic. -/
theorem covers_session (h : IdText chanID) (h' : IdText chanID') :
    covers (fmtSubject chanID subtopic) (fmtSubject chanID' subtopic')
      = (decide (chanID = chanID') &&
          Topic.covers ['*'] ['>'] (tokens subtopic) (tokens subtopic')) := by
  have hstar : chanID ≠ ['*'] := by
    rintro rfl
    exact isIDChar_not_special h.2 (show isIDChar '*' = false by decide) List.mem_cons_self
  have hrest : chanID ≠ ['>'] := by
    rintro rfl
    exact isIDChar_not_special h.2 (show isIDChar '>' = false by decide) List.mem_cons_self
  rw [covers, splitOn_subject h, splitOn_subject h', Bool.eq_iff_iff,
    Topic.covers_cons_literal (by decide) (by decide), Topic.covers_cons_literal hstar hrest]
  simp

/-- A writer's is for all publications. -/
theorem covers_inputChannels (h : IdText chanID) (subtopic : Text) :
    covers inputChannels (fmtSubject chanID subtopic) = true := by
  have hsplit : inputChannels.splitOn '.' = [channelToken, ['>']] := by decide
  rw [covers, hsplit, splitOn_subject h, Topic.covers_cons_literal (by decide) (by decide)]
  exact ⟨rfl, Topic.covers_rest⟩

end Subjects

/-! ## §4. A bus without bytes. -/

namespace Callback

def group (cb : Callback) : Option Text := Nats.group cb.consumer.queue

/-- What the broker is told of it. -/
def subscription (cb : Callback) : Subscription :=
  ⟨cb.conn, writeNat cb.sid, cb.consumer.subject, cb.group⟩

/-- The same subscription: the number is the client's own. -/
def Same (a b : Callback) : Prop := a.conn = b.conn ∧ a.sid = b.sid

instance (a b : Callback) : Decidable (a.Same b) := inferInstanceAs (Decidable (_ ∧ _))

end Callback

namespace World

/-- A publication reaches everyone that it is for. -/
def deliver (pick : Nat) (m : Publication) (w : World) : World :=
  { w with
    published := w.published ++ [m]
    received := w.received ++
      (recipients Callback.group pick (w.callbacks.filter fun cb => cb.consumer.wants m)).map
        fun cb => ⟨cb, message m⟩ }

/-- The next callback of a connection. -/
def fresh (conn : Nat) (consumer : Consumer) (w : World) : Callback :=
  ⟨conn, w.ssid conn + 1, consumer⟩

/-- A callback is registered. -/
def register (conn : Nat) (consumer : Consumer) (w : World) : World :=
  { w with
    ssid := Function.update w.ssid conn (w.ssid conn + 1)
    callbacks := w.callbacks ++ [w.fresh conn consumer]
    subs := w.subs ++ [(w.fresh conn consumer).subscription] }

/-- A callback is forgotten. -/
def forget (cb : Callback) (w : World) : World :=
  { w with
    callbacks := w.callbacks.filter fun cb' => ¬ cb'.Same cb
    subs := (w.callbacks.filter fun cb' => ¬ cb'.Same cb).map Callback.subscription }

end World

/-- A consumer that subscribes by right. -/
def Consumer.Entitled (w : World) : Consumer → Prop
  | .session chanID subtopic =>
      (∃ g ∈ w.granted, g.chanID = chanID) ∧ IdText chanID ∧ Unblanked subtopic
  | .writer queue => Nats.Word queue

/-- A publication by right. -/
structure Lawful (w : World) (m : Publication) : Prop where
  granted : ∃ g ∈ w.granted, g.chanID = m.channel ∧ g.thing = m.publisher
  channel : IdText m.channel
  subtopic : Unblanked m.subtopic

/-- The broker has read everything and knows the subscriptions of the clients, no two of which have one
number, and all that is subscribed, published and received is so by right. -/
structure Sound (w : World) : Prop where
  idle : ∀ conn, w.unread conn = some []
  table : w.subs = w.callbacks.map Callback.subscription
  numbered : ∀ cb ∈ w.callbacks, cb.sid ≤ w.ssid cb.conn
  distinct : w.callbacks.Pairwise fun a b => ¬ a.Same b
  entitled : ∀ cb ∈ w.callbacks, cb.consumer.Entitled w
  lawful : ∀ m ∈ w.published, Lawful w m
  received : ∀ r ∈ w.received, r.callback.consumer.Entitled w ∧
    ∃ m ∈ w.published, r.message = message m ∧ r.callback.consumer.wants m

/-! ## §5. The bytes that are written make the broker do the same. -/

theorem writeNat_inj {m n : Nat} (h : writeNat m = writeNat n) : m = n := by
  rw [← Nats.readNat_writeNat m, h, Nats.readNat_writeNat]

/-- Members of a list that is seen through an injection. -/
theorem recipients_map {α β : Type} [DecidableEq α] [DecidableEq β] (queue : β → Option Text)
    {f : α → β} (pick : Nat) {l : List α} (hf : ∀ a ∈ l, ∀ b ∈ l, f a = f b → a = b) :
    recipients queue pick (l.map f) = (recipients (fun a => queue (f a)) pick l).map f := by
  rw [recipients, recipients, List.filter_map]
  refine congrArg (List.map f) (List.filter_congr fun a ha => ?_)
  rw [Function.comp_apply]
  cases queue (f a) with
  | none => rfl
  | some q =>
      simp only [List.filter_map, List.length_map, List.getElem?_map]
      rw [decide_eq_decide]
      have hcomp : ((fun s => decide (queue s = some q)) ∘ f) = fun s' => decide (queue (f s') = some q) := rfl
      rw [hcomp]
      generalize hmembers : l.filter (fun s' => decide (queue (f s') = some q)) = members
      constructor
      · intro h
        obtain ⟨b, hb, hfb⟩ := Option.map_eq_some_iff.mp h
        have hbl : b ∈ l := by
          have hmem := List.mem_of_getElem? hb
          rw [← hmembers] at hmem
          exact List.mem_of_mem_filter hmem
        rw [hb, hf b hbl a ha hfb]
      · intro h
        rw [h]
        rfl

theorem find?_of_unique {α : Type} {l : List α} {P : α → Bool} {a : α} (ha : a ∈ l) (hP : P a)
    (huniq : ∀ b ∈ l, P b → b = a) : l.find? P = some a := by
  cases hfind : l.find? P with
  | none => exact absurd hP (List.find?_eq_none.mp hfind a ha)
  | some b => rw [huniq b (List.mem_of_find?_eq_some hfind) (List.find?_some hfind)]

section Bytes

variable {E : Env} {w : World} {conn : Nat} {m : Publication}

/-- No operation looks at what is still to be read. -/
theorem perform_unread (u : Nat → Option Text) (w : World) (o : Nats.Op) :
    perform E conn { w with unread := u } o = { perform E conn w o with unread := u } := by
  cases o with
  | pub subject reply data => rfl
  | sub subject queue sid =>
      simp only [perform]
      split <;> rfl
  | unsub sid limit => cases limit <;> rfl
  | ping => rfl
  | pong => rfl

theorem foldl_perform_unread (u : Nat → Option Text) (os : List Nats.Op) (w : World) :
    os.foldl (perform E conn) { w with unread := u }
      = { os.foldl (perform E conn) w with unread := u } := by
  induction os generalizing w with
  | nil => rfl
  | cons o os ih => rw [List.foldl_cons, perform_unread, ih, List.foldl_cons]

theorem write_eq {left : Text} (hleft : w.unread conn = some left) (bytes : Text) :
    write E conn bytes w
      = { (Nats.readOps (left ++ bytes)).1.foldl (perform E conn) w with
          unread := Function.update w.unread conn (Nats.readOps (left ++ bytes)).2 } := by
  rw [write, hleft]
  exact foldl_perform_unread _ _ _

/-- **Where the bytes are cut makes no difference**: what comes in two pieces is read as if it had
come in one. -/
theorem write_append (a b : Text) :
    write E conn (a ++ b) w = write E conn b (write E conn a w) := by
  cases hleft : w.unread conn with
  | none => simp only [write, hleft]
  | some left =>
      have hsplit := Nats.readOps_append (left ++ a) b
      rw [List.append_assoc] at hsplit
      rw [write_eq hleft a, write_eq hleft (a ++ b), hsplit]
      cases hmore : (Nats.readOps (left ++ a)).2 with
      | none =>
          -- the broker has closed the connection
          rw [write]
          simp only [Function.update_self, hmore]
      | some left' =>
          let mid := (Nats.readOps (left ++ a)).1.foldl (perform E conn) w
          let rest := Function.update w.unread conn (some left')
          have hunread : { mid with unread := rest }.unread conn = some left' := Function.update_self ..
          have hrest : (Nats.readOps (left' ++ b)).1.foldl (perform E conn) { mid with unread := rest }
              = { (Nats.readOps (left' ++ b)).1.foldl (perform E conn) mid with unread := rest } :=
            foldl_perform_unread rest _ mid
          rw [write_eq hunread, hrest]
          simp only [List.foldl_append, Function.update_idem, mid, rest]

/-- The broker reads what it is sent. -/
theorem write_request (hidle : w.unread conn = some []) {r : Nats.Request} (hr : r.Clean) :
    write E conn r.bytes w = perform E conn w r.op := by
  have hread : Nats.readOps ([r].flatMap Nats.Request.bytes) = ([r].map Nats.Request.op, some []) :=
    Nats.readOps_written_iff.mpr (List.forall_mem_singleton.mpr hr)
  rw [List.flatMap_singleton] at hread
  have hsame : { w with unread := Function.update w.unread conn (some []) } = w := by
    rw [← hidle, Function.update_eq_self]
  rw [write, hidle]
  simp only [List.nil_append, hread, List.map_cons, List.map_nil, List.foldl_cons, List.foldl_nil, hsame]

/-- Two callbacks with one number are one. -/
theorem Sound.same (h : Sound w) {a b : Callback} (ha : a ∈ w.callbacks) (hb : b ∈ w.callbacks)
    (hab : a.Same b) : a = b := by
  by_contra hne
  have hsymm : Std.Symm fun a b : Callback => ¬ a.Same b :=
    ⟨fun a b h hba => h ⟨hba.1.symm, hba.2.symm⟩⟩
  exact h.distinct.forall ha hb hne hab

theorem Sound.subscription_inj (h : Sound w) {a b : Callback} (ha : a ∈ w.callbacks)
    (hb : b ∈ w.callbacks) (hab : a.subscription = b.subscription) : a = b :=
  h.same ha hb ⟨congrArg Subscription.conn hab, writeNat_inj (congrArg Subscription.sid hab)⟩

/-- A subscription is for what its consumer wants. -/
theorem covers_consumer {c : Consumer} (hc : c.Entitled w) (hm : IdText m.channel) :
    covers c.subject (fmtSubject m.channel m.subtopic) = c.wants m := by
  cases c with
  | session chanID subtopic => exact covers_session hc.2.1 hm
  | writer queue => exact covers_inputChannels hm m.subtopic

/-- What is published can be decoded by everyone. -/
theorem protoUnmarshal_message {data : List UInt8} (hdata : (message m).protoMarshal = some data)
    (hsize : data.length < 2 ^ 63) : Message.protoUnmarshal data = .ok (message m) := by
  have hencoding : data = Message.generated.encoding (message m) :=
    Option.some.inj (hdata.symm.trans (Message.generated.protoMarshal_eq (message m)))
  have hlen : Message.generated.size (message m) < 2 ^ 63 := by
    rw [← Message.generated.length_encoding, ← hencoding]
    exact hsize
  rw [hencoding]
  exact Wire.Generated.unmarshal_encoding (Wire.Generated.sound_of_nil rfl) hlen

/-- A subscription leads to its callback. -/
theorem Sound.dispatch_eq (h : Sound w) {cb : Callback} (hcb : cb ∈ w.callbacks) {data : List UInt8}
    {msg : Message} (hdata : Message.protoUnmarshal data = .ok msg) :
    dispatch w.callbacks data cb.subscription = some ⟨cb, msg⟩ := by
  have hfind : (w.callbacks.find? fun cb' =>
      cb'.conn = cb.subscription.conn ∧ writeNat cb'.sid = cb.subscription.sid) = some cb := by
    refine find?_of_unique hcb (by simp [Callback.subscription]) fun b hb hsame => ?_
    obtain ⟨hconn, hsid⟩ := of_decide_eq_true hsame
    exact h.same hb hcb ⟨hconn, writeNat_inj hsid⟩
  rw [dispatch, hfind]
  simp only [hdata]

/-- **A publication**: the broker and the clients do what the bus does. -/
theorem Sound.publish_cases (h : Sound w) (E : Env) (conn : Nat) (hid : IdText m.channel) (hs : Unblanked m.subtopic) :
    (∃ e, publish E conn m w = (w, some e)) ∨
      publish E conn m w = (w.deliver (E.pick w.tick) m, none) := by
  rw [publish]
  cases hdata : (message m).protoMarshal with
  | none => exact .inl ⟨_, rfl⟩
  | some data =>
      cases hfault : E.fault w.tick with
      | some e => exact .inl ⟨e, rfl⟩
      | none =>
          by_cases hlarge : E.maxPayload < data.length
          · exact .inl ⟨_, if_pos hlarge⟩
          · refine .inr ((if_neg hlarge).trans (congrArg (·, none) ?_))
            have hsize : data.length < 2 ^ 63 :=
              Nat.lt_of_le_of_lt (Nat.le_of_not_lt hlarge) (Nat.lt_trans E.maxPayload_lt (by omega))
            have hdecode := protoUnmarshal_message hdata hsize
            have hclean : (Nats.Request.publish (fmtSubject m.channel m.subtopic) data).Clean :=
              word_fmtSubject hid hs
            rw [show Nats.publish (fmtSubject m.channel m.subtopic) data
                = (Nats.Request.publish (fmtSubject m.channel m.subtopic) data).bytes from rfl,
              write_request (w := { w with published := w.published ++ [m] }) (h.idle conn) hclean]
            have hmatching : (w.callbacks.map Callback.subscription).filter
                (fun s => covers s.subject (fmtSubject m.channel m.subtopic))
                  = (w.callbacks.filter fun cb => cb.consumer.wants m).map Callback.subscription := by
              rw [List.filter_map]
              exact congrArg _ (List.filter_congr fun cb hcb =>
                covers_consumer (h.entitled cb hcb) hid)
            have hrecipients := recipients_map Subscription.queue (E.pick w.tick)
              (l := w.callbacks.filter fun cb => cb.consumer.wants m)
              (f := Callback.subscription) fun a ha b hb =>
                h.subscription_inj (List.mem_of_mem_filter ha) (List.mem_of_mem_filter hb)
            have hdispatch : ((recipients Callback.group (E.pick w.tick)
                (w.callbacks.filter fun cb => cb.consumer.wants m)).map Callback.subscription).filterMap
                  (dispatch w.callbacks data)
                = (recipients Callback.group (E.pick w.tick)
                    (w.callbacks.filter fun cb => cb.consumer.wants m)).map
                      fun cb => ⟨cb, message m⟩ := by
              rw [List.filterMap_map, ← List.filterMap_eq_map]
              refine List.filterMap_congr fun cb hcb => ?_
              exact h.dispatch_eq (List.mem_of_mem_filter (List.mem_of_mem_filter hcb)) hdecode
            simp only [Nats.Request.op, perform, World.deliver, h.table, hmatching]
            rw [hrecipients, ← hdispatch]
            rfl

theorem Consumer.Entitled.clean {c : Consumer} (h : c.Entitled w) (sid : Nat) :
    (Nats.Request.subscribe c.subject c.queue sid).Clean := by
  cases c with
  | session chanID subtopic => exact ⟨word_fmtSubject h.2.1 h.2.2, .inl rfl⟩
  | writer queue =>
      have hword : Nats.Word inputChannels := Nats.word_of_all rfl
      exact ⟨hword, .inr h⟩

/-- **A subscription** is entered with the number of the client. -/
theorem Sound.subscribe_eq (h : Sound w) {c : Consumer} (hc : c.Entitled w) :
    subscribe E conn c w = w.register conn c := by
  have hclean := hc.clean (w.ssid conn + 1)
  have hnew : (w.subs.any fun s => s.conn = conn ∧ s.sid = writeNat (w.ssid conn + 1)) = false := by
    rw [h.table, List.any_map, List.any_eq_false]
    intro cb hcb hsame
    obtain ⟨hconn, hsid⟩ := of_decide_eq_true hsame
    have hnumber := h.numbered cb hcb
    have hsid' : cb.sid = w.ssid conn + 1 := writeNat_inj hsid
    rw [show cb.conn = conn from hconn] at hnumber
    omega
  rw [subscribe, show Nats.subscribe c.subject c.queue (w.ssid conn + 1)
      = (Nats.Request.subscribe c.subject c.queue (w.ssid conn + 1)).bytes from rfl,
    write_request (by exact h.idle conn) hclean]
  simp only [Nats.Request.op, perform, hnew, Bool.false_eq_true, if_false]
  rfl

/-- **The end of a subscription.** -/
theorem Sound.unsubscribe_eq (h : Sound w) (cb : Callback) : unsubscribe E cb w = w.forget cb := by
  have hsubs : (w.callbacks.map Callback.subscription).filter
      (fun s => ¬ (s.conn = cb.conn ∧ s.sid = writeNat cb.sid))
        = (w.callbacks.filter fun cb' => ¬ cb'.Same cb).map Callback.subscription := by
    rw [List.filter_map]
    refine congrArg _ (List.filter_congr fun cb' _ => ?_)
    rw [Function.comp_apply, decide_eq_decide]
    exact not_congr (and_congr_right fun _ => ⟨writeNat_inj, fun heq => congrArg writeNat heq⟩)
  have hclean : (Nats.Request.unsubscribe cb.sid).Clean := trivial
  rw [unsubscribe, show Nats.unsubscribe cb.sid = (Nats.Request.unsubscribe cb.sid).bytes from rfl,
    write_request (by exact h.idle cb.conn) hclean]
  simp only [Nats.Request.op, perform, h.table, hsubs]
  rfl

end Bytes

end Mainflux.Messaging.Broker
