/-
  Mainflux.Coap.Delivery
  ──────────────────────
  **SENDING ON A CLOSED CHANNEL.**

  One signal, Cancel, sets off two goroutines: one closes Messages, the other
  unsubscribes from NATS.  Nothing orders them, and nothing waits for a callback that
  is blocked on Messages, which is not buffered.

    • `never_sends_on_closed_iff` — a run in which nothing is sent on a closed channel
      is one in which Messages is closed while no callback is sending, and no callback
      with a message is called between that and the unsubscription;
    • `closed_under_callback` — a run that crashes the adapter.
-/
import Mainflux.Coap.Adapter

namespace Mainflux.Coap

open Mainflux.Lib

/-! ## §1. The statement. -/

/-- Nobody is sending on Messages when it is closed. -/
def Observer.Sound (x : Observer) : Prop := x.closed = true → x.callback = none

/-- **Nobody is sending on a closed channel**, and the process is up. -/
def Adapter.Sound (s : Adapter) : Prop :=
  s.panicked = false ∧ ∀ o, (s.observers o).Sound

/-- The order that nothing enforces: `cancel` closes Messages while no callback is
sending, and NATS calls no callback with a message after that. -/
def Local.Ordered (x : Observer) : Local → Prop
  | .cancel => x.cancel = .waiting → x.cancelled = true → x.callback = none
  | .deliver (some _) => x.subscribed = true → x.closed = false
  | _ => True

def Ordered (s : Adapter) : Act → Prop
  | .go o l => l.Ordered (s.observers o)
  | _ => True

/-! ## §2. One step. -/

section Step

variable {s : Adapter} {a : Act}

theorem pingNext_messages (x : Observer) :
    x.pingNext.closed = x.closed ∧ x.pingNext.callback = x.callback := by
  unfold Observer.pingNext
  split <;> exact ⟨rfl, rfl⟩

theorem cancel_sound {x : Observer} (hx : x.Sound) :
    (Local.apply x .cancel).Sound ↔ Local.cancel.Ordered x := by
  unfold Observer.Sound at hx ⊢
  simp only [Local.apply, Local.Ordered]
  cases hc : x.cancel with
  | waiting =>
      by_cases hcancelled : x.cancelled = true
      · simp [hcancelled]
      · simp only [if_neg hcancelled]
        exact iff_of_true hx fun _ h => absurd h hcancelled
  | notStarted | expiring | returned => simpa using hx

theorem deliver_sound {x : Observer} (hx : x.Sound) (data : Option Message) :
    (Local.apply x (.deliver data)).Sound ↔ (Local.deliver data).Ordered x := by
  unfold Observer.Sound at hx ⊢
  simp only [Local.apply]
  cases data with
  | none =>
      refine iff_of_true ?_ trivial
      split
      · exact fun _ => rfl
      · exact hx
  | some m =>
      simp only [Local.Ordered]
      by_cases hsub : x.subscribed = true
      · by_cases hclosed : x.closed = true
        · simp [hsub, hclosed, hx hclosed]
        · refine iff_of_true (fun h => ?_) fun _ => by simpa using hclosed
          split at h <;> exact absurd h hclosed
      · rw [if_neg fun h => hsub h.1]
        exact iff_of_true hx fun h => absurd h hsub

/-- **The steps of one observer that may go wrong are `cancel` and a delivery.** -/
theorem local_sound {x : Observer} (hx : x.Sound) (l : Local) :
    (l.apply x).Sound ↔ l.Ordered x := by
  cases l with
  | cancel => exact cancel_sound hx
  | deliver data => exact deliver_sound hx data
  | ping =>
      refine iff_of_true (fun h => ?_) trivial
      obtain ⟨hclosed, hcallback⟩ := pingNext_messages x
      exact hcallback.trans (hx (hclosed.symm.trans h))
  | tick | pingCancelled | natsUnsubscribe | drained | notify =>
      refine iff_of_true ?_ trivial
      simp only [Local.apply]
      split <;> exact hx
  | receive =>
      refine iff_of_true ?_ trivial
      simp only [Local.apply]
      split
      · split
        · exact hx
        · exact fun _ => rfl
      · exact hx

/-- A step that leaves Messages and the callbacks of all observers alone. -/
theorem sound_of_same {t : Adapter} (h : s.Sound) (hup : t.panicked = s.panicked)
    (hsame : ∀ o, (t.observers o).closed = (s.observers o).closed ∧
      (t.observers o).callback = (s.observers o).callback) : t.Sound := by
  refine ⟨hup.trans h.1, fun o hclosed => ?_⟩
  rw [(hsame o).1] at hclosed
  rw [(hsame o).2]
  exact h.2 o hclosed

theorem sound_removed (h : Registered s) (hs : s.Sound) (obsID : String) : (s.remove obsID).Sound := by
  refine sound_of_same hs (h.remove_panicked obsID) fun o => ?_
  rw [h.remove_observers, evicted_closed, evicted_callback]
  exact ⟨rfl, rfl⟩

theorem sound_stored (h : Registered s) (hs : s.Sound) {n : Nat}
    (hn : (s.observers n).stored = false) : (s.store n).Sound := by
  refine sound_of_same hs (h.put_panicked _ n) fun o => ?_
  rw [h.store_observers hn]
  split
  next ho => exact ho ▸ ⟨rfl, rfl⟩
  next => exact ⟨evicted_closed _ _ _, evicted_callback _ _ _⟩

theorem sound_upd {o : Nat} {f : Observer → Observer} (hs : s.Sound) :
    (s.upd o f).Sound ↔ (f (s.observers o)).Sound := by
  constructor
  · intro h
    have ho := h.2 o
    rw [upd_observers, if_pos rfl] at ho
    exact ho
  · intro h
    refine ⟨hs.1, fun i => ?_⟩
    rw [upd_observers]
    split
    · exact h
    · exact hs.2 i

/-- **A step keeps the adapter sound exactly when it is in order.** -/
theorem sound_step (h : Registered s) (hs : s.Sound) (a : Act) :
    (step s a).Sound ↔ Ordered s a := by
  unfold step
  rw [if_neg (by rw [hs.1]; exact Bool.false_ne_true)]
  cases a with
  | go o l =>
      show (s.upd o fun x => l.apply x).Sound ↔ l.Ordered (s.observers o)
      rw [sound_upd hs]
      exact local_sound (hs.2 o) l
  | subscribe obsID =>
      refine iff_of_true ⟨hs.1, fun o => ?_⟩ trivial
      rw [subscribe_observers]
      split
      · exact fun _ => rfl
      · exact hs.2 o
  | store n =>
      refine iff_of_true ?_ trivial
      simp only
      split
      next hnew => exact sound_stored h hs (by simpa using hnew.2)
      next => exact hs
  | unsubscribe obsID => exact iff_of_true (sound_removed h hs obsID) trivial
  | ack obsID =>
      refine iff_of_true ?_ trivial
      simp only
      split
      · exact hs
      · exact hs
  | acked =>
      refine iff_of_true ?_ trivial
      simp only
      split
      next o _ =>
          have hupd : (s.upd o fun x => { x with expired := false }).Sound :=
            (sound_upd hs).mpr (hs.2 o)
          exact hupd
      next => exact hs
  | expire o =>
      refine iff_of_true ?_ trivial
      simp only
      split
      · have hremoved := sound_removed h hs (s.observers o).obsID
        exact (sound_upd hremoved).mpr (hremoved.2 o)
      · exact hs
  | resume o =>
      refine iff_of_true ?_ trivial
      simp only
      split
      next hsend => exact absurd (hs.2 o hsend.1) hsend.2
      next => exact hs

end Step

/-! ## §3. Runs. -/

/-- **When nothing is ever sent on a closed channel**: exactly when every step is in
order. -/
theorem never_sends_on_closed_iff (acts : List Act) :
    (∀ before after, acts = before ++ after → (run step start before).Sound) ↔
      Along step Ordered start acts := by
  have hstart : start.Sound := ⟨rfl, fun o h => by cases h⟩
  have hkept : ∀ (s : Adapter) (a : Act), Registered s → Registered (step s a) :=
    fun s a h => registered_step h a
  have hstep : ∀ (s : Adapter) (a : Act), Registered s → s.Sound →
      ((step s a).Sound ↔ Ordered s a) := fun s a h hs => sound_step h hs a
  exact run_iff hkept hstep registered_start hstart

/-- A message arrives before `handleMessage` gets to receive, and the client stops
observing: Cancel is closed, and then Messages. -/
def stoppedUnderCallback : List Act :=
  [.subscribe "id", .store 0, .go 0 (.deliver (some ⟨"21.5", "application/senml+json"⟩)),
    .unsubscribe "id", .go 0 .cancel, .resume 0]

/-- **The callback goes on**, and takes the adapter down. -/
theorem closed_under_callback :
    ¬ ∀ acts before after : List Act, acts = before ++ after → (run step start before).Sound := by
  intro h
  have hsound := (h stoppedUnderCallback stoppedUnderCallback [] (List.append_nil _).symm).1
  revert hsound
  decide

end Mainflux.Coap
