/-
  Mainflux.Ws.Session
  ───────────────────
  **THE GOROUTINES OF A WEBSOCKET SESSION, AND HOW THEY END.**

  A session has a `Channel`: Messages and Closed, both unbuffered, a flag and a mutex.
  Around it run

    • `broadcast`, which reads from the socket and publishes;
    • `listen`, which receives from Messages and writes to the socket;
    • the goroutine of `Subscribe`, which waits for Closed and unsubscribes from NATS;
    • the callers of `Send`, which hold the mutex while they send on Messages.

  `broadcast` has three exits.  After a close frame it calls `Close`, which tells the
  subscription and closes both channels.  After another error of `ReadMessage` it does
  nothing, and after a lost connection to NATS it tells the subscription and leaves
  Messages open.

    • `Guarded` — who holds the mutex, and what is closed, by where `broadcast` stands;
    • `guarded_run` — it holds in every interleaving, so that nothing panics;
    • `cleansUp_iff` — a session cleans up exactly when no other exit comes first;
    • `can_return` — no schedule leaves `broadcast` stuck before its exit.
-/
import Mathlib.Logic.Function.Basic
import Mainflux.Lib.Run

namespace Mainflux.Ws

open Mainflux.Lib

/-! ## §1. The session. -/

/-- What `svc.Publish` returns. -/
inductive Published
  | ok
  | failedMessagePublish
  | failedConnection
  deriving DecidableEq

/-- What `ReadMessage` returns, and for a message what its `Publish` does. -/
inductive Read
  | message (published : Published)
  /-- `IsUnexpectedCloseError`, which without codes is any close error. -/
  | closeError
  | otherError
  deriving DecidableEq

/-- The three `return`s of `broadcast`. -/
inductive Exit
  | close
  | error
  | connection
  deriving DecidableEq

/-- The statement before which `broadcast` stands. -/
inductive Broadcast
  | reading
  /-- `Close`: the mutex. -/
  | locking
  /-- `channel.closed = true`. -/
  | marking
  /-- `channel.Closed <- true`. -/
  | telling
  /-- `close(channel.Messages)`. -/
  | closingMessages
  /-- `close(channel.Closed)`. -/
  | closingClosed
  | unlocking
  /-- `sub.conn.Close()`; what `listen` then writes fails, which it logs. -/
  | disconnecting
  /-- `sub.channel.Closed <- true`. -/
  | tellingOnly
  | returned (exit : Exit)
  deriving DecidableEq

/-- The statement before which `listen` stands. -/
inductive Listen (μ : Type)
  | receiving
  | writing (m : μ)
  | returned

/-- The goroutine of `Subscribe`. -/
inductive Subscription
  | waiting
  /-- Before `sub.Unsubscribe()`. -/
  | told
  | unsubscribed
  deriving DecidableEq

/-- The statement before which a caller of `Send` stands. -/
inductive Sender (μ : Type)
  | idle
  | locking (m : μ)
  /-- `if !channel.closed`. -/
  | testing (m : μ)
  /-- `channel.Messages <- msg`. -/
  | sending (m : μ)
  | unlocking

/-- Who holds the mutex. -/
inductive Holder
  | broadcast
  | sender (i : Nat)
  deriving DecidableEq

/-- A session, with what its socket will still give. -/
structure Session (μ : Type) where
  reads : List Read
  /-- The flag. -/
  closed : Bool := false
  messagesClosed : Bool := false
  closedClosed : Bool := false
  mutex : Option Holder := none
  broadcast : Broadcast := .reading
  listen : Listen μ := .receiving
  subscription : Subscription := .waiting
  senders : Nat → Sender μ := fun _ => .idle
  /-- A send on a closed channel, or a second `close`. -/
  panicked : Bool := false

section Session

variable {μ : Type}

/-- A session that has just begun. -/
def start (μ : Type) (reads : List Read) : Session μ := { reads := reads }

/-- A round of `broadcast`, from what `ReadMessage` returned. -/
def Read.next : Read → Broadcast
  | .closeError => .locking
  | .otherError => .returned .error
  | .message .failedConnection => .disconnecting
  -- a message that could not be published is logged
  | .message .failedMessagePublish => .reading
  | .message .ok => .reading

/-- A statement of `broadcast`.  A send on Closed waits for the receiver (`tell`). -/
def Session.broadcastNext (s : Session μ) : Session μ :=
  match s.broadcast with
  | .reading =>
      match s.reads with
      | [] => s
      | r :: reads => { s with reads := reads, broadcast := r.next }
  | .locking =>
      if s.mutex = none then { s with mutex := some .broadcast, broadcast := .marking } else s
  | .marking => { s with closed := true, broadcast := .telling }
  | .telling => if s.closedClosed then { s with panicked := true } else s
  | .closingMessages =>
      if s.messagesClosed then { s with panicked := true }
      else { s with messagesClosed := true, broadcast := .closingClosed }
  | .closingClosed =>
      if s.closedClosed then { s with panicked := true }
      else { s with closedClosed := true, broadcast := .unlocking }
  | .unlocking => { s with mutex := none, broadcast := .returned .close }
  | .disconnecting => { s with broadcast := .tellingOnly }
  | .tellingOnly => if s.closedClosed then { s with panicked := true } else s
  | .returned _ => s

/-- `broadcast` and the goroutine of `Subscribe` meet at Closed. -/
def Session.tell (s : Session μ) : Session μ :=
  if s.subscription = .waiting ∧ ¬ s.closedClosed then
    match s.broadcast with
    | .telling => { s with broadcast := .closingMessages, subscription := .told }
    | .tellingOnly => { s with broadcast := .returned .connection, subscription := .told }
    | _ => s
  else s

/-- The goroutine of `Subscribe` goes on; a channel that is closed does not make it wait. -/
def Session.natsNext (s : Session μ) : Session μ :=
  match s.subscription with
  | .waiting => if s.closedClosed then { s with subscription := .told } else s
  | .told => { s with subscription := .unsubscribed }
  | .unsubscribed => s

/-- The `i`-th caller of `Send` is at `x` now. -/
def Session.at (s : Session μ) (i : Nat) (x : Sender μ) : Session μ :=
  { s with senders := Function.update s.senders i x }

/-- A statement of `Send`.  A send on Messages waits for `listen` (`meet`). -/
def Session.sendNext (s : Session μ) (i : Nat) : Session μ :=
  match s.senders i with
  | .idle => s
  | .locking m =>
      if s.mutex = none then { s.at i (.testing m) with mutex := some (.sender i) } else s
  | .testing m => if s.closed then s.at i .unlocking else s.at i (.sending m)
  | .sending _ => if s.messagesClosed then { s with panicked := true } else s
  | .unlocking => { s.at i .idle with mutex := none }

/-- A caller of `Send` and `listen` meet at Messages. -/
def Session.meet (s : Session μ) (i : Nat) : Session μ :=
  match s.senders i, s.listen with
  | .sending m, .receiving =>
      if s.messagesClosed then s else { s.at i .unlocking with listen := .writing m }
  | _, _ => s

/-- `listen` goes on: it has written, or it finds Messages closed. -/
def Session.listenNext (s : Session μ) : Session μ :=
  match s.listen with
  | .receiving => if s.messagesClosed then { s with listen := .returned } else s
  | .writing _ => { s with listen := .receiving }
  | .returned => s

/-- One step of one goroutine, or of two that meet. -/
inductive Act (μ : Type)
  | broadcast
  | tell
  | nats
  /-- A message for the channel: NATS calls `Send`. -/
  | call (i : Nat) (m : μ)
  | send (i : Nat)
  | meet (i : Nat)
  | listen

/-- The session after a step.  A step that is not enabled changes nothing. -/
def step (s : Session μ) (a : Act μ) : Session μ :=
  if s.panicked then s
  else
    match a with
    | .broadcast => s.broadcastNext
    | .tell => s.tell
    | .nats => s.natsNext
    | .call i m =>
        match s.senders i with
        | .idle => s.at i (.locking m)
        | _ => s
    | .send i => s.sendNext i
    | .meet i => s.meet i
    | .listen => s.listenNext

end Session

/-! ## §2. The statement. -/

/-- Whether the step is one of `listen`. -/
def Act.isListen {μ : Type} : Act μ → Bool
  | .listen => true
  | _ => false

/-- **A session that is cleaned up**: the subscription was told, Messages is closed and
marked so, and `listen` ends as soon as it is scheduled twice, whatever else happens. -/
structure Clean {μ : Type} (s : Session μ) : Prop where
  told : s.subscription ≠ .waiting
  messages : s.messagesClosed = true
  marked : s.closed = true
  ends : ∀ acts : List (Act μ), 2 ≤ acts.countP Act.isListen →
    (run step s acts).listen = .returned

/-- **The session cleans up**: in no interleaving does anything panic, and whenever
`broadcast` has returned the session is clean. -/
def CleansUp (μ : Type) (reads : List Read) : Prop :=
  ∀ acts : List (Act μ),
    (run step (start μ reads) acts).panicked = false ∧
      ∀ e, (run step (start μ reads) acts).broadcast = .returned e →
        Clean (run step (start μ reads) acts)

/-- The exit that `broadcast` takes: that of the first result that makes it return. -/
def exitOf : List Read → Option Exit
  | [] => none
  | .closeError :: _ => some .close
  | .otherError :: _ => some .error
  | .message .failedConnection :: _ => some .connection
  | .message _ :: reads => exitOf reads

/-! ## §3. Where `broadcast` stands, and what that says of the rest. -/

/-- What is known of the channel: the flag is set, Messages is closed, Closed is closed,
the subscription was told, `broadcast` holds the mutex. -/
structure Phase where
  marked : Bool := false
  messages : Bool := false
  closed : Bool := false
  told : Bool := false
  holds : Bool := false
  deriving DecidableEq

def Session.phase {μ : Type} (s : Session μ) : Phase where
  marked := s.closed
  messages := s.messagesClosed
  closed := s.closedClosed
  told := !decide (s.subscription = .waiting)
  holds := decide (s.mutex = some .broadcast)

/-- The phase by where `broadcast` stands. -/
def Broadcast.phase : Broadcast → Phase
  | .reading | .locking | .disconnecting | .tellingOnly | .returned .error => {}
  | .marking => { holds := true }
  | .telling => { marked := true, holds := true }
  | .closingMessages => { marked := true, told := true, holds := true }
  | .closingClosed => { marked := true, messages := true, told := true, holds := true }
  | .unlocking => { marked := true, messages := true, closed := true, told := true, holds := true }
  | .returned .close => { marked := true, messages := true, closed := true, told := true }
  -- Messages stays open
  | .returned .connection => { told := true }

/-- The exit that `broadcast` is heading for. -/
def Broadcast.exit (reads : List Read) : Broadcast → Option Exit
  | .reading => exitOf reads
  | .returned e => some e
  | .disconnecting | .tellingOnly => some .connection
  | _ => some .close

/-- A caller of `Send` holds the mutex. -/
def Sender.holds {μ : Type} : Sender μ → Bool
  | .testing _ | .sending _ | .unlocking => true
  | _ => false

/-- **The state of the channel is known from where `broadcast` stands**, and who holds
the mutex from where everybody stands; nobody sends on Messages once the flag is set. -/
structure Guarded {μ : Type} (reads : List Read) (s : Session μ) : Prop where
  running : s.panicked = false
  phase : s.phase = s.broadcast.phase
  sender : ∀ i, s.mutex = some (.sender i) ↔ (s.senders i).holds = true
  sending : ∀ i m, s.senders i = .sending m → s.closed = false
  listening : s.listen = .returned → s.messagesClosed = true
  exit : s.broadcast.exit s.reads = exitOf reads

section Steps

variable {μ : Type} {reads : List Read} {s : Session μ}

theorem guarded_start (reads : List Read) : Guarded reads (start μ reads) := by
  constructor <;> simp [start, Session.phase, Broadcast.phase, Broadcast.exit, Sender.holds]

theorem exit_next (r : Read) (reads : List Read) :
    r.next.exit reads = exitOf (r :: reads) := by
  cases r with
  | message published => cases published <;> rfl
  | closeError => rfl
  | otherError => rfl

/-- What `ReadMessage` leads to leaves the channel alone. -/
theorem phase_next (r : Read) : r.next.phase = {} := by
  cases r with
  | message published => cases published <;> rfl
  | closeError => rfl
  | otherError => rfl

/-- The five facts at once. -/
theorem Guarded.known (h : Guarded reads s) {pc : Broadcast} (hpc : s.broadcast = pc) :
    s.closed = pc.phase.marked ∧ s.messagesClosed = pc.phase.messages ∧
      s.closedClosed = pc.phase.closed ∧
      (s.subscription ≠ .waiting ↔ pc.phase.told = true) ∧
      (s.mutex = some .broadcast ↔ pc.phase.holds = true) := by
  have hphase := h.phase
  rw [hpc] at hphase
  rw [← hphase]
  simp [Session.phase]

/-- While `broadcast` holds the mutex no caller of `Send` does. -/
theorem Guarded.not_holds (h : Guarded reads s) (hmutex : s.mutex = some .broadcast) (i : Nat) :
    (s.senders i).holds = false := by
  by_contra hholds
  rw [Bool.not_eq_false, ← h.sender i, hmutex] at hholds
  cases hholds

/-- A step of `broadcast` that leaves the mutex, the senders and the flag alone. -/
theorem Guarded.moved (h : Guarded reads s) {messages closed : Bool} {pc : Broadcast}
    (hmessages : s.messagesClosed = true → messages = true)
    (hphase : { s with messagesClosed := messages, closedClosed := closed }.phase = pc.phase)
    (hexit : pc.exit s.reads = s.broadcast.exit s.reads) :
    Guarded reads
      { s with messagesClosed := messages, closedClosed := closed, broadcast := pc } where
  running := h.running
  phase := hphase
  sender := h.sender
  sending := h.sending
  listening hreturned := hmessages (h.listening hreturned)
  exit := hexit.trans h.exit

theorem Guarded.broadcastNext (h : Guarded reads s) : Guarded reads s.broadcastNext := by
  have hphase := h.phase
  have hexit := h.exit
  unfold Session.broadcastNext
  split
  next hpc =>
      split
      · exact h
      next r rest hreads =>
          rw [hpc] at hphase hexit
          rw [hreads] at hexit
          exact { h with
            phase := hphase.trans (phase_next r).symm
            exit := (exit_next r rest).trans hexit }
  next hpc =>
      split
      next hfree =>
          -- the mutex is free, so no caller of `Send` holds it
          have hsender : ∀ i, (s.senders i).holds = false := by
            intro i
            by_contra hholds
            rw [Bool.not_eq_false, ← h.sender i, hfree] at hholds
            cases hholds
          obtain ⟨hclosed, hmessages, hcl, htold, -⟩ := h.known hpc
          rw [hpc] at hexit
          refine ⟨h.running, ?_, fun i => ?_, h.sending, h.listening, hexit⟩
          · simp_all [Session.phase, Broadcast.phase]
          · simp [hsender i]
      next => exact h
  next hpc =>
      obtain ⟨hclosed, hmessages, hcl, htold, hholds⟩ := h.known hpc
      rw [hpc] at hexit
      refine ⟨h.running, ?_, h.sender, fun i m hsend => ?_, h.listening, hexit⟩
      · simp_all [Session.phase, Broadcast.phase]
      · have hidle := h.not_holds (hholds.mpr rfl) i
        rw [hsend] at hidle
        cases hidle
  next hpc =>
      rw [if_neg (by rw [(h.known hpc).2.2.1]; decide)]
      exact h
  next hpc =>
      obtain ⟨hclosed, hmessages, hcl, htold, hholds⟩ := h.known hpc
      -- Messages is closed here and nowhere else
      rw [if_neg (by rw [hmessages]; decide)]
      refine h.moved (fun _ => rfl) ?_ (by rw [hpc]; rfl)
      simp_all [Session.phase, Broadcast.phase]
  next hpc =>
      obtain ⟨hclosed, hmessages, hcl, htold, hholds⟩ := h.known hpc
      -- and so is Closed
      rw [if_neg (by rw [hcl]; decide)]
      refine h.moved (fun hm => hm) ?_ (by rw [hpc]; rfl)
      simp_all [Session.phase, Broadcast.phase]
  next hpc =>
      obtain ⟨hclosed, hmessages, hcl, htold, hholds⟩ := h.known hpc
      rw [hpc] at hexit
      refine ⟨h.running, ?_, fun i => ?_, h.sending, h.listening, hexit⟩
      · simp_all [Session.phase, Broadcast.phase]
      · simp [h.not_holds (hholds.mpr rfl) i]
  next hpc =>
      rw [hpc] at hphase hexit
      exact { h with phase := hphase, exit := hexit }
  next hpc =>
      rw [if_neg (by rw [(h.known hpc).2.2.1]; decide)]
      exact h
  next => exact h

theorem Guarded.tell (h : Guarded reads s) : Guarded reads s.tell := by
  have hexit := h.exit
  unfold Session.tell
  split
  next hmeet =>
      split
      next hpc =>
          obtain ⟨hclosed, hmessages, hcl, htold, hholds⟩ := h.known hpc
          rw [hpc] at hexit
          refine ⟨h.running, ?_, h.sender, h.sending, h.listening, hexit⟩
          simp_all [Session.phase, Broadcast.phase]
      next hpc =>
          obtain ⟨hclosed, hmessages, hcl, htold, hholds⟩ := h.known hpc
          rw [hpc] at hexit
          refine ⟨h.running, ?_, h.sender, h.sending, h.listening, hexit⟩
          simp_all [Session.phase, Broadcast.phase]
      next => exact h
  next => exact h

/-- Closed is closed after the subscription was told, so that only its own step is left. -/
theorem Guarded.natsNext (h : Guarded reads s) : Guarded reads s.natsNext := by
  have hphase := h.phase
  unfold Session.natsNext
  split
  next hwaiting =>
      have hopen : ¬ s.closedClosed = true := by
        intro hcl
        have htold : s.phase.told = false := by simp [Session.phase, hwaiting]
        have hclosed : s.phase.closed = true := hcl
        rw [hphase] at htold hclosed
        revert htold hclosed
        cases s.broadcast with
        | returned e => cases e <;> decide
        | _ => decide
      rw [if_neg hopen]
      exact h
  next htold =>
      refine { h with phase := ?_ }
      rw [← hphase]
      simp [Session.phase, htold]
  next => exact h

/-- A step of one caller of `Send`, who takes or gives back the mutex or leaves it. -/
theorem Guarded.sent (h : Guarded reads s) {i : Nat} {x : Sender μ} {mutex : Option Holder}
    (hbroadcast : mutex = some .broadcast ↔ s.mutex = some .broadcast)
    (hown : mutex = some (.sender i) ↔ x.holds = true)
    (hothers : ∀ j, j ≠ i → (mutex = some (.sender j) ↔ s.mutex = some (.sender j)))
    (hsending : ∀ m, x = .sending m → s.closed = false) :
    Guarded reads { s.at i x with mutex := mutex } where
  running := h.running
  phase := by
    have hholds : decide (mutex = some .broadcast) = decide (s.mutex = some .broadcast) := by
      simp only [hbroadcast]
    show Phase.mk s.closed s.messagesClosed s.closedClosed (!decide (s.subscription = .waiting))
      (decide (mutex = some .broadcast)) = s.broadcast.phase
    rw [hholds]
    exact h.phase
  sender j := by
    show mutex = some (.sender j) ↔ (Function.update s.senders i x j).holds = true
    by_cases hj : j = i
    · rw [hj, Function.update_self]
      exact hown
    · rw [Function.update_of_ne hj, hothers j hj]
      exact h.sender j
  sending j m hsend := by
    have hsend : Function.update s.senders i x j = .sending m := hsend
    by_cases hj : j = i
    · rw [hj, Function.update_self] at hsend
      exact hsending m hsend
    · rw [Function.update_of_ne hj] at hsend
      exact h.sending j m hsend
  listening := h.listening
  exit := h.exit

/-- A step of one caller of `Send` that leaves the mutex. -/
theorem Guarded.stays (h : Guarded reads s) {i : Nat} {x : Sender μ}
    (hholds : x.holds = (s.senders i).holds)
    (hsending : ∀ m, x = .sending m → s.closed = false) : Guarded reads (s.at i x) := by
  have hmine : s.mutex = some (.sender i) ↔ x.holds = true := by
    rw [hholds]
    exact h.sender i
  exact h.sent Iff.rfl hmine (fun _ _ => Iff.rfl) hsending

theorem Guarded.sendNext (h : Guarded reads s) (i : Nat) : Guarded reads (s.sendNext i) := by
  unfold Session.sendNext
  split
  next => exact h
  next m hpc =>
      split
      next hfree =>
          refine h.sent ?_ ?_ (fun j hj => ?_) (fun m hm => by cases hm)
          · simp [hfree]
          · simp [Sender.holds]
          · simp [hfree, Ne.symm hj]
      next => exact h
  next m hpc =>
      split
      next => exact h.stays (by rw [hpc]; rfl) fun m hm => by cases hm
      next hopen => exact h.stays (by rw [hpc]; rfl) fun m _ => by simpa using hopen
  next m hpc =>
      -- Messages is not closed before the flag is set
      have hopen : ¬ s.messagesClosed = true := by
        intro hmessages
        have hunmarked : s.phase.marked = false := h.sending i m hpc
        have hclosed : s.phase.messages = true := hmessages
        rw [h.phase] at hunmarked hclosed
        revert hunmarked hclosed
        cases s.broadcast with
        | returned e => cases e <;> decide
        | _ => decide
      rw [if_neg hopen]
      exact h
  next hpc =>
      have hmine : s.mutex = some (.sender i) := (h.sender i).mpr (by rw [hpc]; rfl)
      refine h.sent ?_ ?_ (fun j hj => ?_) (fun m hm => by cases hm)
      · simp [hmine]
      · simp [Sender.holds]
      · simp [hmine, Ne.symm hj]

theorem Guarded.meet (h : Guarded reads s) (i : Nat) : Guarded reads (s.meet i) := by
  unfold Session.meet
  split
  next m hpc _ =>
      split
      next => exact h
      next =>
          have hstays : Guarded reads (s.at i .unlocking) :=
            h.stays (by rw [hpc]; rfl) fun m hm => by cases hm
          exact { hstays with listening := fun hreturned => by cases hreturned }
  next => exact h

theorem Guarded.listenNext (h : Guarded reads s) : Guarded reads s.listenNext := by
  unfold Session.listenNext
  split
  next =>
      split
      next hclosed => exact { h with listening := fun _ => hclosed }
      next => exact h
  next => exact { h with listening := fun hreturned => by cases hreturned }
  next => exact h

/-- **One step**, of whichever goroutine. -/
theorem guarded_step (h : Guarded reads s) (a : Act μ) : Guarded reads (step s a) := by
  unfold step
  rw [if_neg (by rw [h.running]; decide)]
  cases a with
  | broadcast => exact h.broadcastNext
  | tell => exact h.tell
  | nats => exact h.natsNext
  | call i m =>
      simp only
      split
      next hidle => exact h.stays (by rw [hidle]; rfl) fun m hm => by cases hm
      next => exact h
  | send i => exact h.sendNext i
  | meet i => exact h.meet i
  | listen => exact h.listenNext

/-- **Every interleaving**, from wherever the goroutines stand. -/
theorem Guarded.after (h : Guarded reads s) (acts : List (Act μ)) :
    Guarded reads (run step s acts) := by
  have hstep : ∀ (s : Session μ) (a : Act μ), Guarded reads s → True → Guarded reads (step s a) :=
    fun s a h _ => guarded_step h a
  exact run_inv hstep h (along_of_forall (fun _ _ => trivial) _ _)

theorem guarded_run (reads : List Read) (acts : List (Act μ)) :
    Guarded reads (run step (start μ reads) acts) := (guarded_start reads).after acts

end Steps

/-! ## §4. `listen` ends. -/

section Listen

variable {μ : Type} {reads : List Read} {s : Session μ}

/-- How often `listen` is still to be scheduled once Messages is closed. -/
def Listen.left : Listen μ → Nat
  | .returned => 0
  | .receiving => 1
  | .writing _ => 2

theorem Listen.left_le (l : Listen μ) : l.left ≤ 2 := by
  cases l <;> simp [Listen.left]

/-- `listen` is where it was, and Messages is closed if it was. -/
def Apart (s s' : Session μ) : Prop :=
  s'.listen = s.listen ∧ (s.messagesClosed = true → s'.messagesClosed = true)

theorem apart_broadcastNext (s : Session μ) : Apart s s.broadcastNext := by
  unfold Session.broadcastNext
  split
  · split <;> exact ⟨rfl, id⟩
  · split <;> exact ⟨rfl, id⟩
  · exact ⟨rfl, id⟩
  · split <;> exact ⟨rfl, id⟩
  · split
    · exact ⟨rfl, id⟩
    · exact ⟨rfl, fun _ => rfl⟩
  · split <;> exact ⟨rfl, id⟩
  · exact ⟨rfl, id⟩
  · exact ⟨rfl, id⟩
  · split <;> exact ⟨rfl, id⟩
  · exact ⟨rfl, id⟩

theorem apart_tell (s : Session μ) : Apart s s.tell := by
  unfold Session.tell
  split
  · split <;> exact ⟨rfl, id⟩
  · exact ⟨rfl, id⟩

theorem apart_natsNext (s : Session μ) : Apart s s.natsNext := by
  unfold Session.natsNext
  split
  · split <;> exact ⟨rfl, id⟩
  · exact ⟨rfl, id⟩
  · exact ⟨rfl, id⟩

theorem apart_sendNext (s : Session μ) (i : Nat) : Apart s (s.sendNext i) := by
  unfold Session.sendNext
  split
  · exact ⟨rfl, id⟩
  · split <;> exact ⟨rfl, id⟩
  · split <;> exact ⟨rfl, id⟩
  · split <;> exact ⟨rfl, id⟩
  · exact ⟨rfl, id⟩

/-- Nobody can hand a message to `listen` any more. -/
theorem meet_of_closed (hclosed : s.messagesClosed = true) (i : Nat) : s.meet i = s := by
  unfold Session.meet
  split
  · exact if_pos hclosed
  · rfl

/-- The steps of `listen` bring it closer to its end, the others leave it where it is. -/
theorem left_step (h : Guarded reads s) (hclosed : s.messagesClosed = true) (a : Act μ) :
    (step s a).messagesClosed = true ∧
      (step s a).listen.left ≤ s.listen.left - if a.isListen then 1 else 0 := by
  have hapart : ∀ s' : Session μ, Apart s s' →
      s'.messagesClosed = true ∧ s'.listen.left ≤ s.listen.left - 0 :=
    fun s' hs' => ⟨hs'.2 hclosed, by rw [hs'.1]; exact Nat.le_refl _⟩
  unfold step
  rw [if_neg (by rw [h.running]; decide)]
  cases a with
  | broadcast => exact hapart _ (apart_broadcastNext s)
  | tell => exact hapart _ (apart_tell s)
  | nats => exact hapart _ (apart_natsNext s)
  | call i m =>
      refine hapart _ ?_
      simp only
      split <;> exact ⟨rfl, id⟩
  | send i => exact hapart _ (apart_sendNext s i)
  | meet i =>
      simp only [meet_of_closed hclosed]
      exact hapart s ⟨rfl, id⟩
  | listen =>
      simp only [Session.listenNext, Act.isListen]
      split
      next hlisten =>
          rw [if_pos hclosed, hlisten]
          exact ⟨hclosed, Nat.le_refl _⟩
      next m hlisten =>
          rw [hlisten]
          exact ⟨hclosed, Nat.le_refl _⟩
      next hlisten =>
          rw [hlisten]
          exact ⟨hclosed, Nat.zero_le _⟩

theorem left_run (h : Guarded reads s) (hclosed : s.messagesClosed = true) (acts : List (Act μ)) :
    (run step s acts).listen.left ≤ s.listen.left - acts.countP Act.isListen := by
  induction acts generalizing s with
  | nil => exact Nat.le_refl _
  | cons a acts ih =>
      obtain ⟨hstill, hleft⟩ := left_step h hclosed a
      have hrest := ih (guarded_step h a) hstill
      rw [run_cons, List.countP_cons]
      omega

/-- The state after `Close`. -/
theorem Guarded.clean (h : Guarded reads s) (hpc : s.broadcast = .returned .close) : Clean s := by
  obtain ⟨hmarked, hmessages, -, htold, -⟩ := h.known hpc
  refine ⟨htold.mpr rfl, hmessages, hmarked, fun acts hcount => ?_⟩
  have hleft := left_run h hmessages acts
  have hbound := s.listen.left_le
  cases hlisten : (run step s acts).listen with
  | returned => rfl
  | receiving =>
      rw [hlisten, Listen.left] at hleft
      omega
  | writing m =>
      rw [hlisten, Listen.left] at hleft
      omega

end Listen

/-! ## §5. `broadcast` returns. -/

section Progress

variable {μ : Type} {reads : List Read} {s : Session μ}

theorem step_of_running (h : Guarded reads s) (a : Act μ) :
    step s a = match a with
      | .broadcast => s.broadcastNext
      | .tell => s.tell
      | .nats => s.natsNext
      | .call i m =>
          match s.senders i with
          | .idle => s.at i (.locking m)
          | _ => s
      | .send i => s.sendNext i
      | .meet i => s.meet i
      | .listen => s.listenNext :=
  if_neg (by rw [h.running]; decide)

/-- A caller of `Send` before its last statement. -/
theorem freed_of_unlocking (h : Guarded reads s) {i : Nat} (hpc : s.senders i = .unlocking) :
    (step s (.send i)).broadcast = s.broadcast ∧ (step s (.send i)).mutex = none := by
  rw [step_of_running h]
  simp [Session.sendNext, hpc, Session.at]

/-- A caller of `Send` that `listen` is ready for. -/
theorem freed_of_receiving (h : Guarded reads s) {i : Nat} {m : μ}
    (hpc : s.senders i = .sending m) (hlisten : s.listen = .receiving)
    (hopen : s.messagesClosed = false) :
    ∃ acts, (run step s acts).broadcast = s.broadcast ∧ (run step s acts).mutex = none := by
  have hmeet : step s (.meet i) = { s.at i .unlocking with listen := .writing m } := by
    rw [step_of_running h]
    simp only [Session.meet, hpc, hlisten]
    exact if_neg (by rw [hopen]; decide)
  have hpc' : (step s (.meet i)).senders i = .unlocking := by
    rw [hmeet]
    exact Function.update_self _ _ _
  obtain ⟨hbroadcast, hmutex⟩ := freed_of_unlocking (guarded_step h _) hpc'
  refine ⟨[.meet i, .send i], hbroadcast.trans ?_, hmutex⟩
  rw [hmeet]
  rfl

/-- A caller of `Send` that waits for `listen`, which may still be writing. -/
theorem freed_of_sending (h : Guarded reads s) {i : Nat} {m : μ} (hpc : s.senders i = .sending m)
    (hopen : s.messagesClosed = false) :
    ∃ acts, (run step s acts).broadcast = s.broadcast ∧ (run step s acts).mutex = none := by
  cases hlisten : s.listen with
  | receiving => exact freed_of_receiving h hpc hlisten hopen
  | returned =>
      rw [h.listening hlisten] at hopen
      cases hopen
  | writing m' =>
      have hwritten : step s .listen = { s with listen := .receiving } := by
        rw [step_of_running h]
        simp only [Session.listenNext, hlisten]
      have h' := guarded_step h .listen
      rw [hwritten] at h'
      obtain ⟨acts, hbroadcast, hmutex⟩ := freed_of_receiving h' hpc rfl hopen
      refine ⟨.listen :: acts, ?_, ?_⟩
      · rw [run_cons, hwritten]
        exact hbroadcast
      · rw [run_cons, hwritten]
        exact hmutex

/-- **The mutex is given back to `Close`**, whoever holds it. -/
theorem freed_of_locking (h : Guarded reads s) (hpc : s.broadcast = .locking) :
    ∃ acts, (run step s acts).broadcast = .locking ∧ (run step s acts).mutex = none := by
  obtain ⟨hmarked, hmessages, -, -, hholds⟩ := h.known hpc
  rw [← hpc]
  cases hmutex : s.mutex with
  | none => exact ⟨[], rfl, hmutex⟩
  | some holder =>
      cases holder with
      | broadcast => exact absurd (hholds.mp hmutex) (by decide)
      | sender i =>
          have hsender := (h.sender i).mp hmutex
          cases hi : s.senders i with
          | idle =>
              rw [hi] at hsender
              cases hsender
          | locking m =>
              rw [hi] at hsender
              cases hsender
          | unlocking => exact ⟨[.send i], freed_of_unlocking h hi⟩
          | sending m => exact freed_of_sending h hi hmessages
          | testing m =>
              have htested : step s (.send i) = s.at i (.sending m) := by
                rw [step_of_running h]
                simp only [Session.sendNext, hi]
                exact if_neg (by rw [hmarked]; decide)
              have h' := guarded_step h (.send i)
              rw [htested] at h'
              obtain ⟨acts, hbroadcast, hfree⟩ :=
                freed_of_sending h' (Function.update_self _ _ _) hmessages
              refine ⟨.send i :: acts, ?_, ?_⟩
              · rw [run_cons, htested]
                exact hbroadcast
              · rw [run_cons, htested]
                exact hfree

/-- How far `broadcast` is from its `return`. -/
def Broadcast.rank (reads : List Read) : Broadcast → Nat
  | .returned _ => 0
  | .unlocking | .tellingOnly => 1
  | .closingClosed | .disconnecting => 2
  | .closingMessages => 3
  | .telling => 4
  | .marking => 5
  | .locking => 6
  | .reading => 7 + reads.length

def Session.rank (s : Session μ) : Nat := s.broadcast.rank s.reads

/-- **Some schedule brings `broadcast` closer to its `return`.** -/
theorem advance (h : Guarded reads s) (hexit : exitOf reads ≠ none)
    (hpc : ∀ e, s.broadcast ≠ .returned e) :
    ∃ acts, (run step s acts).rank < s.rank := by
  have hone : ∀ a, (step s a).rank < s.rank → ∃ acts, (run step s acts).rank < s.rank :=
    fun a ha => ⟨[a], ha⟩
  cases hat : s.broadcast with
  | returned e => exact absurd hat (hpc e)
  | reading =>
      cases hreads : s.reads with
      | nil =>
          -- the socket has nothing more to give, so that there is no exit to take
          have hnone := h.exit
          rw [hat, hreads] at hnone
          exact absurd hnone.symm hexit
      | cons r rest =>
          refine hone .broadcast ?_
          rw [step_of_running h]
          simp only [Session.rank, Session.broadcastNext, hat, hreads]
          show r.next.rank rest < 7 + (r :: rest).length
          rw [List.length_cons]
          cases r with
          | message published => cases published <;> simp only [Read.next, Broadcast.rank] <;> omega
          | closeError => simp only [Read.next, Broadcast.rank]; omega
          | otherError => simp only [Read.next, Broadcast.rank]; omega
  | locking =>
      -- whoever holds the mutex gives it back first
      obtain ⟨acts, hlocking, hfree⟩ := freed_of_locking h hat
      refine ⟨acts ++ [.broadcast], ?_⟩
      rw [run_append, run_cons, run_nil, step_of_running (h.after acts)]
      simp [Session.rank, Session.broadcastNext, hlocking, hfree, hat, Broadcast.rank]
  | telling | tellingOnly =>
      obtain ⟨-, -, hcl, htold, -⟩ := h.known hat
      have hwaiting : s.subscription = .waiting := by
        by_contra hne
        exact absurd (htold.mp hne) (by decide)
      have hopen : s.closedClosed = false := hcl
      refine hone .tell ?_
      rw [step_of_running h]
      simp [Session.rank, Session.tell, hwaiting, hopen, hat, Broadcast.rank]
  | closingMessages =>
      have hopen : s.messagesClosed = false := (h.known hat).2.1
      refine hone .broadcast ?_
      rw [step_of_running h]
      simp [Session.rank, Session.broadcastNext, hat, hopen, Broadcast.rank]
  | closingClosed =>
      have hopen : s.closedClosed = false := (h.known hat).2.2.1
      refine hone .broadcast ?_
      rw [step_of_running h]
      simp [Session.rank, Session.broadcastNext, hat, hopen, Broadcast.rank]
  | marking | unlocking | disconnecting =>
      refine hone .broadcast ?_
      rw [step_of_running h]
      simp [Session.rank, Session.broadcastNext, hat, Broadcast.rank]

/-- **`broadcast` is never stuck**: from wherever the goroutines stand, some schedule
takes it to the exit that its reads lead to. -/
theorem can_return (h : Guarded reads s) {e : Exit} (hexit : exitOf reads = some e) :
    ∃ acts, (run step s acts).broadcast = .returned e := by
  induction hn : s.rank using Nat.strongRecOn generalizing s with
  | ind n ih =>
      by_cases hpc : ∃ e', s.broadcast = .returned e'
      · obtain ⟨e', he'⟩ := hpc
        have hsame := h.exit
        rw [he', hexit] at hsame
        refine ⟨[], ?_⟩
        rw [run_nil, he', Option.some.inj hsame]
      · obtain ⟨acts, hless⟩ := advance h (by rw [hexit]; exact Option.some_ne_none e)
          fun e' he' => hpc ⟨e', he'⟩
        obtain ⟨more, hmore⟩ := ih _ (hn ▸ hless) (h.after acts) rfl
        exact ⟨acts ++ more, by rw [run_append, hmore]⟩

/-! ## §6. Which sessions clean up. -/

/-- **A session cleans up exactly when the first result that makes `broadcast` return is
a close frame, or there is none.** -/
theorem cleansUp_iff (μ : Type) (reads : List Read) :
    CleansUp μ reads ↔ exitOf reads = none ∨ exitOf reads = some .close := by
  constructor
  · intro hclean
    cases hexit : exitOf reads with
    | none => exact .inl rfl
    | some e =>
        right
        obtain ⟨acts, hreturned⟩ := can_return (guarded_start (μ := μ) reads) hexit
        have hcleaned := (hclean acts).2 e hreturned
        obtain ⟨-, hmessages, -, htold, -⟩ := (guarded_run reads acts).known hreturned
        cases e with
        | close => rfl
        | error => exact absurd (htold.mp hcleaned.told) (by decide)
        | connection =>
            rw [hcleaned.messages] at hmessages
            cases hmessages
  · intro hexit acts
    have h := guarded_run (μ := μ) reads acts
    refine ⟨h.running, fun e hreturned => ?_⟩
    have hsame := h.exit
    rw [hreturned] at hsame
    cases e with
    | close => exact h.clean hreturned
    | error | connection =>
        rw [← hsame] at hexit
        rcases hexit with hnone | hclose
        · cases hnone
        · cases hclose

/-- **The socket fails without a close frame**: `broadcast` returns, and the subscription
waits for ever. -/
theorem not_cleansUp_otherError : ¬ ∀ reads, CleansUp String reads := by
  intro h
  have hclean := (h [.message .ok, .otherError] [.broadcast, .broadcast]).2 .error rfl
  exact hclean.told rfl

end Progress

end Mainflux.Ws
