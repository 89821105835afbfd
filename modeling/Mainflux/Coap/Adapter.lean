/-
  Mainflux.Coap.Adapter
  ─────────────────────
  **THE OBSERVERS OF THE COAP ADAPTER, AND THE GOROUTINES AROUND THEM.**

  A client that observes a channel gets an `Observer`, stored in the map of the
  adapter under an id made of its token, its thing and the channel.  The id of two
  subscriptions of one client is the same, the observer never is.  Around each
  observer run five goroutines:

    • `ping`, which removes whatever is stored under the id when no ACK comes;
    • `cancel`, which waits for Cancel, closes Messages and marks the observer;
    • the one that waits for Cancel and unsubscribes from NATS;
    • the goroutine of the NATS subscription, which sends what arrives on Messages,
      one callback at a time;
    • `handleMessage`, which receives from Messages.

  One `Act` is one step of one of them, up to its next access to something shared.
  §4 says what a step can do to the map (`step_cases`), and from that what the map
  holds in every run (`registered_run`).
-/
import Mathlib.Logic.Function.Basic
import Mainflux.Lib.Run

namespace Mainflux.Coap

open Mainflux.Lib

/-! ## §1. Observers. -/

/-- `MaxRetransmit`. -/
def maxRetransmit : Nat := 4

/-- What a callback of NATS has decoded. -/
structure Message where
  payload : String
  contentType : String
  deriving DecidableEq

/-- The statement before which `ping` stands. -/
inductive Ping
  | notStarted
  /-- The `select`. -/
  | waiting
  /-- The test of the flag after a tick. -/
  | ticked
  /-- `StoreExpired(true)`. -/
  | arming
  /-- `Transmit`, for the `i`-th time. -/
  | transmitting (i : Nat)
  /-- The test of the flag after the sleep. -/
  | sleeping (i : Nat)
  /-- The test of the flag after the loop. -/
  | judging
  /-- `svc.Unsubscribe`. -/
  | unsubscribing
  | returned
  deriving DecidableEq

/-- The statement before which `cancel` stands; the channel it waits for stays closed,
so what follows the receive is one step with it. -/
inductive Cancel
  | notStarted
  | waiting
  | expiring
  | returned
  deriving DecidableEq

/-- The statement before which `handleMessage` stands. -/
inductive Handling
  | notStarted
  | receiving
  | transmitting (m : Message)
  | returned
  deriving DecidableEq

/-- An `Observer`, with the goroutines that hold it. -/
structure Observer where
  obsID : String := ""
  expired : Bool := false
  msgID : BitVec 16 := 0
  /-- Cancel is closed. -/
  cancelled : Bool := false
  /-- Messages is closed. -/
  closed : Bool := false
  /-- `put` has been called. -/
  stored : Bool := false
  subscribed : Bool := false
  /-- The callback that is sending on Messages. -/
  callback : Option Message := none
  ping : Ping := .notStarted
  cancel : Cancel := .notStarted
  handling : Handling := .notStarted
  deriving DecidableEq

/-- A round of the loop of `ping`. -/
def retransmit (i : Nat) : Ping := if i < maxRetransmit then .transmitting i else .judging

/-- A statement of `ping` that concerns its own observer only. -/
def Observer.pingNext (x : Observer) : Observer :=
  match x.ping with
  | .ticked => { x with ping := if x.expired then .returned else .arming }
  | .arming => { x with expired := true, ping := retransmit 0 }
  | .transmitting i => { x with msgID := x.msgID + 1, ping := .sleeping i }
  | .sleeping i => { x with ping := if x.expired then retransmit (i + 1) else .judging }
  | .judging => { x with ping := if x.expired then .unsubscribing else .waiting }
  | _ => x

/-- The steps that concern one observer only. -/
inductive Local
  | tick
  | ping
  /-- The `select` of `ping` finds Cancel closed. -/
  | pingCancelled
  | cancel
  | natsUnsubscribe
  /-- NATS calls the callback, which may fail to decode what came. -/
  | deliver (data : Option Message)
  /-- The callback and `handleMessage` meet at Messages. -/
  | receive
  | notify
  /-- `handleMessage` finds Messages closed. -/
  | drained

/-- What such a step does; where it is not enabled, nothing. -/
def Local.apply (x : Observer) : Local → Observer
  | .tick => if x.ping = .waiting then { x with ping := .ticked } else x
  | .ping => x.pingNext
  | .pingCancelled =>
      if x.ping = .waiting ∧ x.cancelled then { x with ping := .returned } else x
  | .cancel =>
      match x.cancel with
      | .waiting => if x.cancelled then { x with closed := true, cancel := .expiring } else x
      | .expiring => { x with expired := true, cancel := .returned }
      | _ => x
  | .natsUnsubscribe => if x.cancelled then { x with subscribed := false } else x
  | .deliver data =>
      if x.subscribed ∧ x.callback = none then { x with callback := data } else x
  | .receive =>
      match x.handling, x.callback with
      | .receiving, some m =>
          if x.closed then x else { x with callback := none, handling := .transmitting m }
      | _, _ => x
  | .notify =>
      match x.handling with
      | .transmitting _ => { x with msgID := x.msgID + 1, handling := .receiving }
      | _ => x
  | .drained =>
      if x.handling = .receiving ∧ x.closed then { x with handling := .returned } else x

/-! ## §2. The adapter. -/

/-- The map of the adapter, every observer that was ever made, the observer that
`listenResponses` has looked up, and whether the process is gone. -/
structure Adapter where
  obs : String → Option Nat := fun _ => none
  observers : Nat → Observer := fun _ => {}
  next : Nat := 0
  listener : Option Nat := none
  panicked : Bool := false

namespace Adapter

/-- A step of one observer. -/
def upd (o : Nat) (f : Observer → Observer) (s : Adapter) : Adapter :=
  { s with observers := Function.update s.observers o (f (s.observers o)) }

/-- `close(val.Cancel)`, which panics the second time. -/
def closeCancel (o : Nat) (s : Adapter) : Adapter :=
  if (s.observers o).cancelled then { s with panicked := true }
  else s.upd o fun x => { x with cancelled := true }

/-- `put`. -/
def put (obsID : String) (o : Nat) (s : Adapter) : Adapter :=
  match s.obs obsID with
  | some val => { s.closeCancel val with obs := Function.update s.obs obsID (some o) }
  | none => { s with obs := Function.update s.obs obsID (some o) }

/-- `remove`. -/
def remove (obsID : String) (s : Adapter) : Adapter :=
  match s.obs obsID with
  | some val => { s.closeCancel val with obs := Function.update s.obs obsID none }
  | none => s

/-- `NewObserver` and the subscription to NATS. -/
def subscribe (obsID : String) (s : Adapter) : Adapter :=
  { s with
    observers := Function.update s.observers s.next { obsID := obsID, subscribed := true }
    next := s.next + 1 }

/-- The rest of `Subscribe`, and the goroutines that `observe` starts: one that is
not scheduled yet is one that has not started. -/
def store (o : Nat) (s : Adapter) : Adapter :=
  (s.put (s.observers o).obsID o).upd o fun x =>
    { x with stored := true, ping := .waiting, cancel := .waiting, handling := .receiving }

end Adapter

/-- One step. -/
inductive Act
  /-- The first half of `Subscribe`. -/
  | subscribe (obsID : String)
  /-- The second half. -/
  | store (o : Nat)
  /-- A request of the client to stop observing. -/
  | unsubscribe (obsID : String)
  /-- `listenResponses` looks up the observer of an ACK. -/
  | ack (obsID : String)
  /-- It stores that the observer has not expired. -/
  | acked
  /-- The last statement of `ping`. -/
  | expire (o : Nat)
  /-- A callback goes on sending on a channel that has been closed. -/
  | resume (o : Nat)
  | go (o : Nat) (l : Local)

/-- The adapter after a step.  A step that is not enabled changes nothing. -/
def step (s : Adapter) (a : Act) : Adapter :=
  if s.panicked then s
  else
    match a with
    | .subscribe obsID => s.subscribe obsID
    | .store o => if o < s.next ∧ ¬ (s.observers o).stored then s.store o else s
    | .unsubscribe obsID => s.remove obsID
    | .ack obsID => if s.listener = none then { s with listener := s.obs obsID } else s
    | .acked =>
        match s.listener with
        | some o => { s.upd o (fun x => { x with expired := false }) with listener := none }
        | none => s
    | .expire o =>
        if (s.observers o).ping = .unsubscribing then
          (s.remove (s.observers o).obsID).upd o fun x => { x with ping := .returned }
        else s
    | .resume o =>
        if (s.observers o).closed ∧ (s.observers o).callback ≠ none then { s with panicked := true }
        else s
    | .go o l => s.upd o fun x => l.apply x

/-- A process that has just started. -/
def start : Adapter := {}

/-! ## §3. The map. -/

/-- Nothing has happened yet to an observer that is not stored. -/
def Observer.Untouched (x : Observer) : Prop :=
  x.stored = false → x.cancelled = false ∧ x.ping = .notStarted ∧ x.cancel = .notStarted

/-- **The map and the observers agree**: stored are those that were put and not
cancelled since. -/
structure Registered (s : Adapter) : Prop where
  mapped : ∀ {obsID o}, s.obs obsID = some o → (s.observers o).obsID = obsID ∧
    (s.observers o).stored = true ∧ (s.observers o).cancelled = false
  kept : ∀ {o}, (s.observers o).stored = true → (s.observers o).cancelled = false →
    s.obs (s.observers o).obsID = some o
  untouched : ∀ o, (s.observers o).Untouched
  unmade : ∀ {o}, s.next ≤ o → s.observers o = {}

/-- The observers after what is stored under `obsID` has been cancelled. -/
def Adapter.evicted (obsID : String) (s : Adapter) (o : Nat) : Observer :=
  if s.obs obsID = some o then { s.observers o with cancelled := true } else s.observers o

/-- What a step of one observer leaves alone. -/
structure Quiet (x y : Observer) : Prop where
  obsID : y.obsID = x.obsID
  stored : y.stored = x.stored
  cancelled : y.cancelled = x.cancelled
  untouched : x.Untouched → y.Untouched
  unmade : x = {} → y = {}

section Registered

variable {s : Adapter} {obsID : String} {o n : Nat} {f : Observer → Observer}

@[simp] theorem upd_obs : (s.upd o f).obs = s.obs := rfl

@[simp] theorem upd_next : (s.upd o f).next = s.next := rfl

@[simp] theorem upd_panicked : (s.upd o f).panicked = s.panicked := rfl

theorem upd_observers (i : Nat) :
    (s.upd o f).observers i = if i = o then f (s.observers o) else s.observers i :=
  Function.update_apply _ _ _ _

theorem put_obs (s : Adapter) (obsID : String) (n : Nat) :
    (s.put obsID n).obs = Function.update s.obs obsID (some n) := by
  unfold Adapter.put
  split <;> rfl

theorem remove_obs (s : Adapter) (obsID : String) :
    (s.remove obsID).obs = Function.update s.obs obsID none := by
  unfold Adapter.remove
  split
  · rfl
  next hnone => rw [← hnone, Function.update_eq_self]

/-- What is stored is closed for the first time. -/
theorem Registered.closeCancel (h : Registered s) (ho : s.obs obsID = some o) :
    s.closeCancel o = s.upd o fun x => { x with cancelled := true } := by
  have hopen : ¬ (s.observers o).cancelled = true := by
    rw [(h.mapped ho).2.2]
    exact Bool.false_ne_true
  exact if_neg hopen

theorem Registered.evicted_eq (h : Registered s) (ho : s.obs obsID = some o) :
    (s.closeCancel o).observers = s.evicted obsID := by
  funext i
  rw [h.closeCancel ho, upd_observers, Adapter.evicted, ho]
  by_cases hi : i = o
  · rw [if_pos hi, if_pos (by rw [hi]), hi]
  · rw [if_neg hi, if_neg fun heq => hi (Option.some.inj heq).symm]

theorem evicted_of_none (ho : s.obs obsID = none) : s.evicted obsID = s.observers := by
  funext i
  rw [Adapter.evicted, ho]
  exact if_neg (Option.some_ne_none i).symm

theorem Registered.put_observers (h : Registered s) (obsID : String) (n : Nat) :
    (s.put obsID n).observers = s.evicted obsID := by
  unfold Adapter.put
  split
  next val hval => exact h.evicted_eq hval
  next hnone => exact (evicted_of_none hnone).symm

theorem Registered.remove_observers (h : Registered s) (obsID : String) :
    (s.remove obsID).observers = s.evicted obsID := by
  unfold Adapter.remove
  split
  next val hval => exact h.evicted_eq hval
  next hnone => exact (evicted_of_none hnone).symm

theorem closeCancel_next (s : Adapter) (o : Nat) : (s.closeCancel o).next = s.next := by
  unfold Adapter.closeCancel
  split <;> rfl

@[simp] theorem put_next (s : Adapter) (obsID : String) (n : Nat) :
    (s.put obsID n).next = s.next := by
  unfold Adapter.put
  split
  · exact closeCancel_next s _
  · rfl

@[simp] theorem remove_next (s : Adapter) (obsID : String) : (s.remove obsID).next = s.next := by
  unfold Adapter.remove
  split
  · exact closeCancel_next s _
  · rfl

theorem Registered.put_panicked (h : Registered s) (obsID : String) (n : Nat) :
    (s.put obsID n).panicked = s.panicked := by
  unfold Adapter.put
  split
  next val hval =>
      rw [h.closeCancel hval]
      rfl
  next => rfl

theorem Registered.remove_panicked (h : Registered s) (obsID : String) :
    (s.remove obsID).panicked = s.panicked := by
  unfold Adapter.remove
  split
  next val hval =>
      rw [h.closeCancel hval]
      rfl
  next => rfl

@[simp] theorem evicted_obsID (s : Adapter) (obsID : String) (i : Nat) :
    (s.evicted obsID i).obsID = (s.observers i).obsID := by
  unfold Adapter.evicted
  split <;> rfl

@[simp] theorem evicted_stored (s : Adapter) (obsID : String) (i : Nat) :
    (s.evicted obsID i).stored = (s.observers i).stored := by
  unfold Adapter.evicted
  split <;> rfl

@[simp] theorem evicted_ping (s : Adapter) (obsID : String) (i : Nat) :
    (s.evicted obsID i).ping = (s.observers i).ping := by
  unfold Adapter.evicted
  split <;> rfl

@[simp] theorem evicted_closed (s : Adapter) (obsID : String) (i : Nat) :
    (s.evicted obsID i).closed = (s.observers i).closed := by
  unfold Adapter.evicted
  split <;> rfl

@[simp] theorem evicted_callback (s : Adapter) (obsID : String) (i : Nat) :
    (s.evicted obsID i).callback = (s.observers i).callback := by
  unfold Adapter.evicted
  split <;> rfl

theorem evicted_of_ne (hne : (s.observers o).obsID ≠ obsID) (h : Registered s) :
    s.evicted obsID o = s.observers o := by
  refine if_neg fun hmap => hne (h.mapped hmap).1

/-- Whatever is stored under the id is cancelled. -/
theorem Registered.evicted_cancelled (h : Registered s) (ho : (s.observers o).stored = true)
    (hid : (s.observers o).obsID = obsID) : (s.evicted obsID o).cancelled = true := by
  unfold Adapter.evicted
  split
  · rfl
  next hmap =>
      by_contra hopen
      rw [Bool.not_eq_true] at hopen
      exact hmap (hid ▸ h.kept ho hopen)

theorem Registered.evicted_untouched (h : Registered s) (obsID : String) (i : Nat) :
    (s.evicted obsID i).Untouched := by
  unfold Adapter.evicted
  split
  next hmap =>
      intro hunstored
      rw [show (s.observers i).stored = true from (h.mapped hmap).2.1] at hunstored
      cases hunstored
  next => exact h.untouched i

theorem Registered.evicted_unmade (h : Registered s) (obsID : String) {i : Nat} (hi : s.next ≤ i) :
    s.evicted obsID i = {} := by
  unfold Adapter.evicted
  split
  next hmap =>
      have hstored := (h.mapped hmap).2.1
      rw [h.unmade hi] at hstored
      cases hstored
  next => exact h.unmade hi

/-! ### The steps. -/

theorem Registered.upd (h : Registered s) (hf : Quiet (s.observers o) (f (s.observers o))) :
    Registered (s.upd o f) := by
  -- what the map depends on is what it was, for every observer
  have hsame : ∀ i, ((s.upd o f).observers i).obsID = (s.observers i).obsID ∧
      ((s.upd o f).observers i).stored = (s.observers i).stored ∧
      ((s.upd o f).observers i).cancelled = (s.observers i).cancelled := by
    intro i
    rw [upd_observers]
    split
    next hi =>
        subst hi
        exact ⟨hf.obsID, hf.stored, hf.cancelled⟩
    next => exact ⟨rfl, rfl, rfl⟩
  refine ⟨fun {obsID i} hmap => ?_, fun {i} hstored hopen => ?_, fun i => ?_, fun {i} hi => ?_⟩
  · obtain ⟨hid, hstored, hopen⟩ := h.mapped hmap
    exact ⟨(hsame i).1.trans hid, (hsame i).2.1.trans hstored, (hsame i).2.2.trans hopen⟩
  · rw [(hsame i).1]
    exact h.kept ((hsame i).2.1.symm.trans hstored) ((hsame i).2.2.symm.trans hopen)
  · rw [upd_observers]
    split
    · exact hf.untouched (h.untouched o)
    · exact h.untouched i
  · rw [upd_observers]
    split
    next hio =>
        subst hio
        exact hf.unmade (h.unmade hi)
    next => exact h.unmade hi

theorem Registered.removed (h : Registered s) (obsID : String) : Registered (s.remove obsID) := by
  refine ⟨fun {id i} hmap => ?_, fun {i} hstored hopen => ?_, fun i => ?_, fun {i} hi => ?_⟩
  · rw [remove_obs] at hmap
    have hne : id ≠ obsID := by
      rintro rfl
      rw [Function.update_self] at hmap
      cases hmap
    rw [Function.update_of_ne hne] at hmap
    obtain ⟨hid, hstored, hopen⟩ := h.mapped hmap
    rw [h.remove_observers, evicted_of_ne (hid.symm ▸ hne) h]
    exact ⟨hid, hstored, hopen⟩
  · rw [h.remove_observers] at hstored hopen ⊢
    rw [evicted_stored] at hstored
    have hne : (s.observers i).obsID ≠ obsID := by
      intro hid
      rw [h.evicted_cancelled hstored hid] at hopen
      cases hopen
    rw [evicted_of_ne hne h] at hopen ⊢
    rw [remove_obs, Function.update_of_ne hne]
    exact h.kept hstored hopen
  · rw [h.remove_observers]
    exact h.evicted_untouched obsID i
  · rw [h.remove_observers]
    exact h.evicted_unmade obsID (remove_next s obsID ▸ hi)

/-- The observers after `store`. -/
theorem Registered.store_observers (h : Registered s) (ho : (s.observers o).stored = false) (i : Nat) :
    (s.store o).observers i
      = if i = o then
          { s.observers o with
            stored := true, ping := .waiting, cancel := .waiting, handling := .receiving }
        else s.evicted (s.observers o).obsID i := by
  have hnew : s.evicted (s.observers o).obsID o = s.observers o := by
    refine if_neg fun hmap => ?_
    rw [(h.mapped hmap).2.1] at ho
    cases ho
  unfold Adapter.store
  rw [upd_observers, h.put_observers, hnew]

theorem store_obs (s : Adapter) (o : Nat) :
    (s.store o).obs = Function.update s.obs (s.observers o).obsID (some o) := put_obs _ _ _

theorem Registered.stored (h : Registered s) (ho : (s.observers o).stored = false)
    (hmade : o < s.next) : Registered (s.store o) := by
  refine ⟨fun {id i} hmap => ?_, fun {i} hstored hopen => ?_, fun i => ?_, fun {i} hi => ?_⟩
  · rw [store_obs] at hmap
    rw [h.store_observers ho]
    by_cases hid : id = (s.observers o).obsID
    · rw [hid, Function.update_self] at hmap
      obtain rfl : o = i := Option.some.inj hmap
      rw [if_pos rfl]
      exact ⟨hid.symm, rfl, (h.untouched o ho).1⟩
    · rw [Function.update_of_ne hid] at hmap
      obtain ⟨hid', hstored, hopen⟩ := h.mapped hmap
      have hio : i ≠ o := by
        rintro rfl
        exact hid hid'.symm
      rw [if_neg hio, evicted_of_ne (fun heq => hid (hid'.symm.trans heq)) h]
      exact ⟨hid', hstored, hopen⟩
  · rw [h.store_observers ho] at hstored hopen ⊢
    rw [store_obs]
    by_cases hio : i = o
    · rw [if_pos hio, hio]
      exact Function.update_self _ _ _
    · rw [if_neg hio] at hstored hopen ⊢
      rw [evicted_stored] at hstored
      have hne : (s.observers i).obsID ≠ (s.observers o).obsID := by
        intro hid
        rw [h.evicted_cancelled hstored hid] at hopen
        cases hopen
      rw [evicted_of_ne hne h] at hopen ⊢
      rw [Function.update_of_ne hne]
      exact h.kept hstored hopen
  · rw [h.store_observers ho]
    split
    · exact fun hunstored => by cases hunstored
    · exact h.evicted_untouched _ i
  · have hi : s.next ≤ i := le_of_eq_of_le (put_next s _ o).symm hi
    rw [h.store_observers ho, if_neg (by omega)]
    exact h.evicted_unmade _ hi

theorem subscribe_observers (s : Adapter) (obsID : String) (i : Nat) :
    (s.subscribe obsID).observers i
      = if i = s.next then { obsID := obsID, subscribed := true } else s.observers i :=
  Function.update_apply _ _ _ _

theorem Registered.subscribed (h : Registered s) (obsID : String) : Registered (s.subscribe obsID) := by
  have hunstored : (s.observers s.next).stored = false := by rw [h.unmade (Nat.le_refl _)]
  refine ⟨fun {id i} hmap => ?_, fun {i} hstored hopen => ?_, fun i => ?_, fun {i} hi => ?_⟩
  · have hold : (s.observers i).stored = true := (h.mapped hmap).2.1
    rw [subscribe_observers, if_neg]
    · exact h.mapped hmap
    · rintro rfl
      rw [hunstored] at hold
      cases hold
  · rw [subscribe_observers] at hstored hopen ⊢
    by_cases hio : i = s.next
    · rw [if_pos hio] at hstored
      cases hstored
    · rw [if_neg hio] at hstored hopen ⊢
      exact h.kept hstored hopen
  · rw [subscribe_observers]
    split
    · exact fun _ => ⟨rfl, rfl, rfl⟩
    · exact h.untouched i
  · have hi : s.next + 1 ≤ i := hi
    rw [subscribe_observers, if_neg (by omega)]
    exact h.unmade (by omega)

end Registered

/-! ## §4. Runs. -/

section Steps

variable {s : Adapter}

theorem pingNext_keeps (x : Observer) :
    x.pingNext.obsID = x.obsID ∧ x.pingNext.stored = x.stored ∧
      x.pingNext.cancelled = x.cancelled ∧ x.pingNext.cancel = x.cancel := by
  unfold Observer.pingNext
  split <;> exact ⟨rfl, rfl, rfl, rfl⟩

/-- A step of one observer is none of the map. -/
theorem local_keeps (l : Local) (x : Observer) :
    (l.apply x).obsID = x.obsID ∧ (l.apply x).stored = x.stored ∧
      (l.apply x).cancelled = x.cancelled := by
  cases l with
  | ping => exact ⟨(pingNext_keeps x).1, (pingNext_keeps x).2.1, (pingNext_keeps x).2.2.1⟩
  | tick | pingCancelled | natsUnsubscribe | deliver | drained | notify =>
      simp only [Local.apply]
      split <;> exact ⟨rfl, rfl, rfl⟩
  | cancel | receive =>
      simp only [Local.apply]
      split
      · split <;> exact ⟨rfl, rfl, rfl⟩
      all_goals exact ⟨rfl, rfl, rfl⟩

/-- Before it is stored an observer can only get messages. -/
theorem local_untouched (l : Local) {x : Observer} (h : x.Untouched) : (l.apply x).Untouched := by
  intro hunstored
  rw [(local_keeps l x).2.1] at hunstored
  obtain ⟨hopen, hping, hcancel⟩ := h hunstored
  rw [(local_keeps l x).2.2]
  refine ⟨hopen, ?_⟩
  cases l with
  | ping => simp [Local.apply, Observer.pingNext, hping, hcancel]
  | tick | pingCancelled | natsUnsubscribe | cancel => simp [Local.apply, hping, hcancel, hopen]
  | deliver | drained | notify =>
      simp only [Local.apply]
      split <;> exact ⟨hping, hcancel⟩
  | receive =>
      simp only [Local.apply]
      split
      · split <;> exact ⟨hping, hcancel⟩
      · exact ⟨hping, hcancel⟩

theorem quiet_local (l : Local) (x : Observer) : Quiet x (l.apply x) where
  obsID := (local_keeps l x).1
  stored := (local_keeps l x).2.1
  cancelled := (local_keeps l x).2.2
  untouched := local_untouched l
  unmade h := by
    subst h
    cases l <;> rfl

theorem quiet_acked (x : Observer) : Quiet x { x with expired := false } where
  obsID := rfl
  stored := rfl
  cancelled := rfl
  untouched h := h
  unmade h := by rw [h]

/-- A `ping` that has started returns. -/
theorem quiet_returned {x : Observer} (h : x.ping ≠ .notStarted) :
    Quiet x { x with ping := .returned } where
  obsID := rfl
  stored := rfl
  cancelled := rfl
  untouched hx hunstored := absurd (hx hunstored).2.1 h
  unmade hx := absurd (congrArg Observer.ping hx) h

/-- **The map and the observers agree after every step.** -/
theorem registered_step (h : Registered s) (a : Act) : Registered (step s a) := by
  unfold step
  split
  · exact h
  · cases a with
    | subscribe obsID => exact h.subscribed obsID
    | store o =>
        simp only
        split
        next hnew => exact h.stored (by simpa using hnew.2) hnew.1
        next => exact h
    | unsubscribe obsID => exact h.removed obsID
    | ack obsID =>
        simp only
        split
        · exact ⟨h.mapped, h.kept, h.untouched, h.unmade⟩
        · exact h
    | acked =>
        simp only
        split
        next o _ =>
            have hupd : Registered (s.upd o fun x => { x with expired := false }) :=
              h.upd (quiet_acked _)
            exact ⟨hupd.mapped, hupd.kept, hupd.untouched, hupd.unmade⟩
        next => exact h
    | expire o =>
        simp only
        split
        next hping =>
            refine (h.removed _).upd (quiet_returned ?_)
            rw [h.remove_observers, evicted_ping, hping]
            exact Ping.noConfusion
        next => exact h
    | resume o =>
        simp only
        split
        · exact ⟨h.mapped, h.kept, h.untouched, h.unmade⟩
        · exact h
    | go o l => exact h.upd (quiet_local l (s.observers o))

theorem registered_start : Registered start where
  mapped h := by cases h
  kept h := by cases h
  untouched _ := fun _ => ⟨rfl, rfl, rfl⟩
  unmade _ := rfl

theorem registered_run (acts : List Act) : Registered (run step start acts) := by
  have hinv : ∀ (s : Adapter) (a : Act), Registered s → True → Registered (step s a) :=
    fun s a h _ => registered_step h a
  exact run_inv hinv registered_start (along_of_forall (fun _ _ => trivial) _ _)

end Steps

end Mainflux.Coap
