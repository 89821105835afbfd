/-
  Mainflux.Coap.Notifications
  ───────────────────────────
  **THE OBSERVE OPTION, AND WHICH NOTIFICATION A CLIENT TAKES FOR THE LATER ONE.**

  A client orders the notifications of an observation by their Observe option, a
  number of 24 bits that it compares modulo `2^24` (`Fresher`).  `handleMessage` puts
  the message id there, which `LoadMessageID` draws from a counter of 16 bits that
  `ping` draws from as well: the option never reaches `2^16`, so that the step from
  65535 to 0 is no step forward for the client.

    • `msgID_step` — a step moves the counter of an observer exactly when it draws;
    • `observed_eq` — the options of a run are the numbers of ids drawn, modulo `2^16`;
    • `ordered_iff` — the notifications are in order exactly when no two that follow
      one another are drawn in different rounds of the counter;
    • `disordered_after_round` — a run with 65536 notifications.
-/
import Mathlib.Algebra.Ring.Nat
import Mathlib.Data.List.Chain
import Mathlib.Data.List.Range
import Mainflux.Coap.Adapter

namespace Mainflux.Coap

open Mainflux.Lib

/-! ## §1. The option. -/

/-- `binary.Write(buff, binary.BigEndian, v)` of a `uint64`. -/
def putUint64 (v : BitVec 64) : List (BitVec 8) :=
  [56, 48, 40, 32, 24, 16, 8, 0].map fun low => v.extractLsb' low 8

/-- The value of the Observe option: `observeVal[len(observeVal)-3:]`. -/
def observeVal (messageID : BitVec 16) : List (BitVec 8) :=
  let observeVal := putUint64 (messageID.setWidth 64)
  observeVal.drop (observeVal.length - 3)

/-- `decodeInt`: what the other side reads. -/
def decodeInt (b : List (BitVec 8)) : Nat := b.foldl (fun n byte => n * 256 + byte.toNat) 0

/-- **The later of two notifications**, by the rule for sequence numbers of 24 bits. -/
def Fresher (v₁ v₂ : Nat) : Prop :=
  (v₁ < v₂ ∧ v₂ - v₁ < 2 ^ 23) ∨ (v₁ > v₂ ∧ v₁ - v₂ > 2 ^ 23)

theorem decodeInt_observeVal (id : BitVec 16) : decodeInt (observeVal id) = id.toNat := by
  have hid : id.toNat < 65536 := id.isLt
  simp only [observeVal, putUint64, decodeInt, List.map_cons, List.map_nil, List.length_cons,
    List.length_nil, List.drop_succ_cons, List.drop_zero, List.foldl_cons, List.foldl_nil,
    BitVec.extractLsb'_toNat, BitVec.toNat_setWidth, Nat.shiftRight_eq_div_pow]
  omega

/-! ## §2. Drawing ids. -/

/-- What an id is drawn for. -/
inductive Draw
  | notification
  | ping
  deriving DecidableEq

/-- Whether the step calls `LoadMessageID` of the observer `o`, and for what. -/
def draw (o : Nat) (s : Adapter) (a : Act) : Option Draw :=
  if s.panicked then none
  else
    match a with
    | .go i .notify =>
        match (s.observers i).handling with
        | .transmitting _ => if i = o then some .notification else none
        | _ => none
    | .go i .ping =>
        match (s.observers i).ping with
        | .transmitting _ => if i = o then some .ping else none
        | _ => none
    | _ => none

/-- The Observe options of the notifications to `o`, in the order they are sent. -/
def observed (o : Nat) : Adapter → List Act → List Nat
  | _, [] => []
  | s, a :: acts =>
      if draw o s a = some .notification then
        -- `LoadMessageID` returns the counter after it has moved
        decodeInt (observeVal ((step s a).observers o).msgID) :: observed o (step s a) acts
      else observed o (step s a) acts

/-- For each notification to `o` the number of ids drawn by then, its own included;
`n` of them were drawn before the run. -/
def drawn (o : Nat) : Nat → Adapter → List Act → List Nat
  | _, _, [] => []
  | n, s, a :: acts =>
      match draw o s a with
      | some .notification => (n + 1) :: drawn o (n + 1) (step s a) acts
      | some .ping => drawn o (n + 1) (step s a) acts
      | none => drawn o n (step s a) acts

/-- Fewer than `2^15` ids are drawn between two notifications that follow one another. -/
def Paced (drawn : List Nat) : Prop := drawn.IsChain fun n m => m - n - 1 < 2 ^ 15

/-- The counter does not go from 65535 to 0 between two notifications that follow one
another. -/
def SameRound (drawn : List Nat) : Prop := drawn.IsChain fun n m => n / 2 ^ 16 = m / 2 ^ 16

/-! ## §3. The counter. -/

section Counter

variable {s : Adapter} {o : Nat}

@[simp] theorem evicted_msgID (s : Adapter) (obsID : String) (i : Nat) :
    (s.evicted obsID i).msgID = (s.observers i).msgID := by
  unfold Adapter.evicted
  split <;> rfl

theorem upd_msgID {i : Nat} {f : Observer → Observer}
    (hf : (f (s.observers i)).msgID = (s.observers i).msgID) :
    ((s.upd i f).observers o).msgID = (s.observers o).msgID := by
  rw [upd_observers]
  split
  next ho => rw [hf, ho]
  next => rfl

/-- The steps of one observer that leave its counter alone. -/
theorem local_msgID {l : Local} (hping : l ≠ .ping) (hnotify : l ≠ .notify) (x : Observer) :
    (l.apply x).msgID = x.msgID := by
  cases l with
  | ping => exact absurd rfl hping
  | notify => exact absurd rfl hnotify
  | tick | pingCancelled | natsUnsubscribe | deliver | drained =>
      simp only [Local.apply]
      split <;> rfl
  | cancel | receive =>
      simp only [Local.apply]
      split
      · split <;> rfl
      all_goals rfl

/-- `LoadMessageID` is called by the `Transmit` of a ping only. -/
theorem pingNext_msgID (x : Observer) :
    x.pingNext.msgID
      = match x.ping with
        | .transmitting _ => x.msgID + 1
        | _ => x.msgID := by
  unfold Observer.pingNext
  cases x.ping <;> rfl

theorem notify_msgID (x : Observer) :
    (Local.notify.apply x).msgID
      = match x.handling with
        | .transmitting _ => x.msgID + 1
        | _ => x.msgID := by
  simp only [Local.apply]
  cases x.handling <;> rfl

/-- **A step moves the counter exactly when it draws.** -/
theorem msgID_step (h : Registered s) (a : Act) :
    ((step s a).observers o).msgID
      = match draw o s a with
        | some _ => (s.observers o).msgID + 1
        | none => (s.observers o).msgID := by
  unfold step draw
  by_cases hp : s.panicked = true
  · rw [if_pos hp, if_pos hp]
  rw [if_neg hp, if_neg hp]
  cases a with
  | subscribe obsID =>
      -- an observer that is made now has the counter of one that was never made
      simp only [subscribe_observers]
      split
      next ho =>
          rw [h.unmade (Nat.le_of_eq ho.symm)]
      next => rfl
  | store n =>
      simp only
      split
      next hnew =>
          rw [h.store_observers (by simpa using hnew.2)]
          split
          next ho => rw [ho]
          next => exact evicted_msgID s _ o
      next => rfl
  | unsubscribe obsID =>
      simp only [h.remove_observers, evicted_msgID]
  | ack obsID =>
      simp only
      split <;> rfl
  | acked =>
      simp only
      split
      next i _ => exact upd_msgID (f := fun x => { x with expired := false }) rfl
      next => rfl
  | expire i =>
      simp only
      split
      next =>
          rw [upd_msgID rfl, h.remove_observers, evicted_msgID]
      next => rfl
  | resume i =>
      simp only
      split <;> rfl
  | go i l =>
      cases l with
      | ping =>
          simp only [upd_observers, Local.apply]
          by_cases ho : o = i
          · rw [if_pos ho, pingNext_msgID, ho]
            cases (s.observers i).ping <;> simp
          · rw [if_neg ho]
            cases (s.observers i).ping <;> simp [Ne.symm ho]
      | notify =>
          simp only [upd_observers]
          by_cases ho : o = i
          · rw [if_pos ho, notify_msgID, ho]
            cases (s.observers i).handling <;> simp
          · rw [if_neg ho]
            cases (s.observers i).handling <;> simp [Ne.symm ho]
      | tick | pingCancelled | natsUnsubscribe | deliver | drained | cancel | receive =>
          exact upd_msgID (local_msgID (by simp) (by simp) _)

end Counter

/-! ## §4. Runs. -/

section Runs

variable {s : Adapter} {o n : Nat}

/-- The counter after one more id. -/
theorem ofNat_succ (n : Nat) : BitVec.ofNat 16 n + 1 = BitVec.ofNat 16 (n + 1) :=
  (BitVec.ofNat_add n 1).symm

/-- **The options of a run are the numbers of ids drawn, modulo `2^16`.** -/
theorem observed_eq (acts : List Act) (h : Registered s)
    (hn : (s.observers o).msgID = BitVec.ofNat 16 n) :
    observed o s acts = (drawn o n s acts).map (· % 2 ^ 16) := by
  induction acts generalizing s n with
  | nil => rfl
  | cons a acts ih =>
      have hreg := registered_step h a
      have hid := msgID_step (o := o) h a
      unfold observed drawn
      cases hdraw : draw o s a with
      | none =>
          rw [hdraw] at hid
          exact ih hreg (hid.trans hn)
      | some d =>
          -- whatever the id is for, the counter has moved by one
          have hnext : ((step s a).observers o).msgID = BitVec.ofNat 16 (n + 1) := by
            rw [hid, hdraw, hn]
            exact ofNat_succ n
          cases d with
          | ping => exact ih hreg hnext
          | notification =>
              rw [if_pos rfl, ih hreg hnext, decodeInt_observeVal, hnext, BitVec.toNat_ofNat]
              rfl

/-- The first notification comes after `n`, every other after the one before it. -/
theorem drawn_increasing (acts : List Act) (s : Adapter) (n : Nat) :
    (n :: drawn o n s acts).IsChain (· < ·) := by
  induction acts generalizing s n with
  | nil => exact .singleton n
  | cons a acts ih =>
      unfold drawn
      split
      · exact .cons_cons (Nat.lt_succ_self n) (ih (step s a) (n + 1))
      · exact (ih (step s a) (n + 1)).imp_head fun h => Nat.lt_of_succ_lt h
      · exact ih (step s a) n

/-- One notification and the next, at most `2^15` ids apart. -/
theorem fresher_iff {n m : Nat} (hlt : n < m) (hpace : m - n - 1 < 2 ^ 15) :
    Fresher (n % 2 ^ 16) (m % 2 ^ 16) ↔ n / 2 ^ 16 = m / 2 ^ 16 := by
  unfold Fresher
  omega

/-- Two properties of neighbours that agree wherever a third holds. -/
theorem isChain_congr {α : Type} {P R S : α → α → Prop} (h : ∀ a b, P a b → (R a b ↔ S a b))
    {l : List α} (hl : l.IsChain P) : l.IsChain R ↔ l.IsChain S := by
  induction hl with
  | nil => simp
  | singleton a => simp
  | cons_cons hab _ ih => rw [List.isChain_cons_cons, List.isChain_cons_cons, h _ _ hab, ih]

theorem isChain_and {α : Type} {P R : α → α → Prop} {l : List α} (hP : l.IsChain P)
    (hR : l.IsChain R) : l.IsChain fun a b => P a b ∧ R a b := by
  induction hP with
  | nil => exact .nil
  | singleton a => exact .singleton a
  | cons_cons hab _ ih =>
      rw [List.isChain_cons_cons] at hR
      exact .cons_cons ⟨hab, hR.1⟩ (ih hR.2)

/-- **Notifications are in order exactly as long as the counter does not begin a new
round between two of them.** -/
theorem ordered_iff (o : Nat) (acts : List Act) (hpace : Paced (drawn o 0 start acts)) :
    (observed o start acts).IsChain Fresher ↔ SameRound (drawn o 0 start acts) := by
  have hincr : (drawn o 0 start acts).IsChain (· < ·) := (drawn_increasing acts start 0).tail
  rw [observed_eq acts registered_start rfl, List.isChain_map]
  exact isChain_congr (fun n m hnm => fresher_iff hnm.1 hnm.2) (isChain_and hincr hpace)

/-- A message, a ping, and a second message. -/
theorem ordered_iff_pinged :
    let acts : List Act :=
      [.subscribe "id", .store 0, .go 0 (.deliver (some ⟨"on", ""⟩)), .go 0 .receive,
       .go 0 .notify, .go 0 .tick, .go 0 .ping, .go 0 .ping, .go 0 .ping,
       .go 0 (.deliver (some ⟨"off", ""⟩)), .go 0 .receive, .go 0 .notify]
    observed 0 start acts = [1, 3] ∧ (observed 0 start acts).IsChain Fresher := by
  intro acts
  have hdrawn : drawn 0 0 start acts = [1, 3] := by decide +kernel
  have hpace : Paced (drawn 0 0 start acts) := by
    rw [hdrawn]
    simp [Paced]
  refine ⟨by decide +kernel, (ordered_iff 0 acts hpace).mpr ?_⟩
  rw [hdrawn]
  simp [SameRound]

/-! ## §5. A whole round. -/

/-- One message on its way to the client: NATS delivers it, `handleMessage` receives
and sends it. -/
def forward (m : Message) : List Act := [.go 0 (.deliver (some m)), .go 0 .receive, .go 0 .notify]

/-- A client observes a channel and is sent `k` messages. -/
def sentMany (m : Message) (k : Nat) : List Act :=
  .subscribe "id" :: .store 0 :: (List.replicate k (forward m)).flatten

/-- The observer is ready for a message. -/
structure Idle (s : Adapter) : Prop where
  running : s.panicked = false
  subscribed : (s.observers 0).subscribed = true
  callback : (s.observers 0).callback = none
  handling : (s.observers 0).handling = .receiving
  closed : (s.observers 0).closed = false

/-- The observer while the message is with `handleMessage`. -/
theorem Idle.received (h : Idle s) (m : Message) :
    run step s [.go 0 (.deliver (some m)), .go 0 .receive]
      = s.upd 0 fun x => { x with handling := .transmitting m } := by
  have hdeliver : step s (.go 0 (.deliver (some m)))
      = s.upd 0 fun x => { x with callback := some m } := by
    simp [step, h.running, Adapter.upd, Local.apply, h.subscribed, h.callback]
  rw [run_cons, hdeliver, run_cons, run_nil]
  simp [step, h.running, Adapter.upd, Local.apply, h.handling, h.closed, h.callback]

theorem Idle.forwarded (h : Idle s) (m : Message) (n : Nat) (acts : List Act) :
    ∃ s', Idle s' ∧ drawn 0 n s (forward m ++ acts) = (n + 1) :: drawn 0 (n + 1) s' acts := by
  let s₂ := s.upd 0 fun x => { x with handling := .transmitting m }
  have hrun : run step s [.go 0 (.deliver (some m)), .go 0 .receive] = s₂ := h.received m
  refine ⟨step s₂ (.go 0 .notify), ?_, ?_⟩
  · constructor <;>
      simp [s₂, step, Adapter.upd, Local.apply, h.running, h.subscribed, h.callback, h.closed]
  · have hsend : draw 0 s₂ (.go 0 .notify) = some .notification := by
      simp [s₂, draw, Adapter.upd, h.running]
    have hdeliver : draw 0 s (.go 0 (.deliver (some m))) = none := by simp [draw]
    have hreceive : draw 0 (step s (.go 0 (.deliver (some m)))) (.go 0 .receive) = none := by
      simp [draw]
    rw [run_cons, run_cons, run_nil] at hrun
    simp only [forward, List.cons_append, List.nil_append, drawn, hdeliver, hreceive, hrun, hsend]

/-- Every id goes to a notification. -/
theorem Idle.drawn_forward (h : Idle s) (m : Message) (k n : Nat) :
    drawn 0 n s (List.replicate k (forward m)).flatten = List.range' (n + 1) k := by
  induction k generalizing s n with
  | zero => rfl
  | succ k ih =>
      obtain ⟨s', hidle, hdrawn⟩ := h.forwarded m n (List.replicate k (forward m)).flatten
      rw [List.replicate_succ, List.flatten_cons, hdrawn, ih hidle (n + 1), List.range'_succ]

theorem drawn_sentMany (m : Message) (k : Nat) :
    drawn 0 0 start (sentMany m k) = List.range' 1 k := by
  have hidle : Idle (run step start [.subscribe "id", .store 0]) := by
    constructor <;> decide +kernel
  exact hidle.drawn_forward m k 0

theorem paced_range' (n k : Nat) : Paced (List.range' n k) := by
  refine (List.isChain_range' n k 1).imp fun a b hab => ?_
  subst hab
  omega

/-- **The 65536th message looks older than the one before it.** -/
theorem disordered_after_round :
    ¬ ∀ (o : Nat) (acts : List Act), Paced (drawn o 0 start acts) →
      (observed o start acts).IsChain Fresher := by
  intro h
  have hdrawn := drawn_sentMany ⟨"on", ""⟩ 65536
  have hpace : Paced (drawn 0 0 start (sentMany ⟨"on", ""⟩ 65536)) := by
    rw [hdrawn]
    exact paced_range' 1 65536
  have hordered := h 0 _ hpace
  rw [observed_eq _ registered_start rfl, hdrawn, List.isChain_map, List.isChain_iff_getElem]
    at hordered
  -- the ids of the last two are 65535 and 0
  have hlast := hordered 65534 (by rw [List.length_range']; omega)
  rw [List.getElem_range'_1, List.getElem_range'_1] at hlast
  unfold Fresher at hlast
  omega

end Runs

end Mainflux.Coap
