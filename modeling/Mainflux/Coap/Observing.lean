/-
  Mainflux.Coap.Observing
  ───────────────────────
  **WHO ENDS AN OBSERVER.**

  `ping` knows its observer, but removes by id.  When no ACK comes it calls
  `svc.Unsubscribe(obsID)`, and by then the client may have observed the channel
  again: the id is the same, and what goes is the new observer.  It takes a `ping`
  that is past the test of the flag when its observer is replaced, or that takes a
  tick when Cancel is closed and `cancel` has not marked the observer yet.

    • `own_account_of_undisturbed` — in runs without the two, an observer goes by a
      request of the client, by its successor or by its own `ping`;
    • `old_ping_ends_new` — a run with the first.
-/
import Mainflux.Coap.Adapter

namespace Mainflux.Coap

open Mainflux.Lib

/-! ## §1. The statement. -/

/-- The statements between the test of the flag and the end of a sequence of pings. -/
def Ping.InSequence : Ping → Prop
  | .arming => True
  | .transmitting _ => True
  | .sleeping _ => True
  | .judging => True
  | .unsubscribing => True
  | _ => False

/-- **What the step ends, it may end**: an observer that is stored is cancelled or
removed by a request of the client, by the observer that replaces it, or by its own
`ping`. -/
def OwnAccount (s : Adapter) (a : Act) : Prop :=
  ∀ obsID o, s.obs obsID = some o →
    ((step s a).obs obsID ≠ some o ∨ ((step s a).observers o).cancelled = true) →
      a = .unsubscribe obsID ∨
        (∃ n, a = .store n ∧ (s.observers n).obsID = obsID) ∨
        a = .expire o

/-- No observer is stored while a sequence of pings runs under its id, and no sequence
is begun for an observer that is cancelled. -/
def Undisturbed (s : Adapter) : Act → Prop
  | .store n =>
      ∀ o, (s.observers o).obsID = (s.observers n).obsID → ¬ (s.observers o).ping.InSequence
  | .go o .ping =>
      (s.observers o).ping = .ticked → (s.observers o).expired = false →
        (s.observers o).cancelled = false
  | _ => True

/-! ## §2. One step. -/

/-- Under the id of a `ping` in a sequence only its own observer is stored. -/
def Alone (s : Adapter) : Prop :=
  ∀ o, (s.observers o).ping.InSequence →
    s.obs (s.observers o).obsID = some o ∨ s.obs (s.observers o).obsID = none

section Step

variable {s : Adapter} {a : Act}

/-- Where a sequence begins. -/
theorem inSequence_pingNext {x : Observer} (h : x.pingNext.ping.InSequence) :
    x.ping.InSequence ∨ x.ping = .ticked ∧ x.expired = false := by
  unfold Observer.pingNext at h
  split at h
  next hping =>
      right
      refine ⟨hping, ?_⟩
      by_contra hexpired
      rw [Bool.not_eq_false] at hexpired
      rw [if_pos hexpired] at h
      exact h
  next hping => exact .inl (by rw [hping]; trivial)
  next i hping => exact .inl (by rw [hping]; trivial)
  next i hping => exact .inl (by rw [hping]; trivial)
  next hping => exact .inl (by rw [hping]; trivial)
  next => exact .inl h

theorem inSequence_local {l : Local} {x : Observer} (h : (l.apply x).ping.InSequence) :
    x.ping.InSequence ∨ l = .ping ∧ x.ping = .ticked ∧ x.expired = false := by
  cases l with
  | ping => exact (inSequence_pingNext h).imp id fun hbegin => ⟨rfl, hbegin⟩
  | tick | pingCancelled =>
      simp only [Local.apply] at h
      split at h
      · exact absurd h id
      · exact .inl h
  | natsUnsubscribe | deliver | drained | notify =>
      simp only [Local.apply] at h
      split at h <;> exact .inl h
  | cancel =>
      simp only [Local.apply] at h
      split at h
      · split at h <;> exact .inl h
      · exact .inl h
      · exact .inl h
  | receive =>
      simp only [Local.apply] at h
      split at h
      · split at h <;> exact .inl h
      · exact .inl h

theorem Alone.removed (h : Registered s) (hs : Alone s) (obsID : String) : Alone (s.remove obsID) := by
  intro o ho
  rw [h.remove_observers, evicted_ping] at ho
  rw [h.remove_observers, evicted_obsID, remove_obs]
  by_cases hid : (s.observers o).obsID = obsID
  · rw [hid]
    exact .inr (Function.update_self _ _ _)
  · rw [Function.update_of_ne hid]
    exact hs o ho

theorem Alone.stored (h : Registered s) (hs : Alone s) {n : Nat}
    (hn : (s.observers n).stored = false)
    (hu : ∀ o, (s.observers o).obsID = (s.observers n).obsID → ¬ (s.observers o).ping.InSequence) :
    Alone (s.store n) := by
  intro o ho
  rw [h.store_observers hn] at ho ⊢
  by_cases hon : o = n
  · rw [if_pos hon] at ho
    exact absurd ho id
  · rw [if_neg hon, evicted_ping] at ho
    rw [if_neg hon, evicted_obsID, store_obs, Function.update_of_ne fun hid => hu o hid ho]
    exact hs o ho

/-- A step of one observer, in which no sequence begins. -/
theorem Alone.upd (hs : Alone s) {o : Nat} {f : Observer → Observer}
    (hid : (f (s.observers o)).obsID = (s.observers o).obsID)
    (hping : (f (s.observers o)).ping.InSequence → (s.observers o).ping.InSequence ∨
      s.obs (s.observers o).obsID = some o) : Alone (s.upd o f) := by
  intro i hi
  rw [upd_observers] at hi ⊢
  rw [upd_obs]
  by_cases hio : i = o
  · rw [if_pos hio] at hi
    rw [if_pos hio, hid, hio]
    exact (hping hi).elim (hs o) .inl
  · rw [if_neg hio] at hi ⊢
    exact hs i hi

/-- **An undisturbed step leaves every sequence of pings alone.** -/
theorem alone_step (h : Registered s) (hs : Alone s) (hu : Undisturbed s a) : Alone (step s a) := by
  unfold step
  split
  · exact hs
  · cases a with
    | subscribe obsID =>
        intro o ho
        rw [subscribe_observers] at ho ⊢
        split at ho
        · exact absurd ho id
        next hne =>
            rw [if_neg hne]
            exact hs o ho
    | store n =>
        simp only
        split
        next hnew => exact hs.stored h (by simpa using hnew.2) hu
        next => exact hs
    | unsubscribe obsID => exact hs.removed h obsID
    | ack obsID =>
        simp only
        split
        · exact hs
        · exact hs
    | acked =>
        simp only
        split
        next o _ =>
            have hupd : Alone (s.upd o fun x => { x with expired := false }) := hs.upd rfl .inl
            exact hupd
        next => exact hs
    | expire o =>
        simp only
        split
        · exact (hs.removed h _).upd rfl fun hbegin => absurd hbegin id
        · exact hs
    | resume o =>
        simp only
        split
        · exact hs
        · exact hs
    | go o l =>
        refine hs.upd (local_keeps l _).1 fun hbegin => ?_
        rcases inSequence_local hbegin with hin | ⟨rfl, hticked, hexpired⟩
        · exact .inl hin
        · right
          -- the observer of a `ping` that runs is stored, as long as it is not cancelled
          have hstored : (s.observers o).stored = true := by
            by_contra hunstored
            rw [Bool.not_eq_true] at hunstored
            rw [(h.untouched o hunstored).2.1] at hticked
            cases hticked
          exact h.kept hstored (hu hticked hexpired)

/-- **What goes in such a state goes on its own account**, whatever the step. -/
theorem ownAccount_of_alone (h : Registered s) (hs : Alone s) (a : Act) : OwnAccount s a := by
  intro obsID o ho hends
  have hgone : (step s a).obs obsID ≠ some o := by
    intro hkept
    rcases hends with hne | hcancelled
    · exact hne hkept
    · rw [((registered_step h a).mapped hkept).2.2] at hcancelled
      cases hcancelled
  unfold step at hgone
  split at hgone
  · exact absurd ho hgone
  · cases a with
    | subscribe _ => exact absurd ho hgone
    | store n =>
        simp only at hgone
        split at hgone
        · by_cases hid : (s.observers n).obsID = obsID
          · exact .inr (.inl ⟨n, rfl, hid⟩)
          · rw [store_obs, Function.update_of_ne fun heq => hid heq.symm] at hgone
            exact absurd ho hgone
        · exact absurd ho hgone
    | unsubscribe id =>
        by_cases hid : id = obsID
        · exact .inl (by rw [hid])
        · simp only [remove_obs] at hgone
          rw [Function.update_of_ne fun heq => hid heq.symm] at hgone
          exact absurd ho hgone
    | ack _ =>
        simp only at hgone
        split at hgone <;> exact absurd ho hgone
    | acked =>
        simp only at hgone
        split at hgone <;> exact absurd ho hgone
    | expire p =>
        simp only at hgone
        split at hgone
        next hping =>
            by_cases hid : (s.observers p).obsID = obsID
            · have hin : (s.observers p).ping.InSequence := by
                rw [hping]
                trivial
              rcases hs p hin with hown | hnone
              · rw [hid, ho] at hown
                exact .inr (.inr (by rw [Option.some.inj hown]))
              · rw [hid, ho] at hnone
                cases hnone
            · rw [upd_obs, remove_obs, Function.update_of_ne fun heq => hid heq.symm] at hgone
              exact absurd ho hgone
        next => exact absurd ho hgone
    | resume _ =>
        simp only at hgone
        split at hgone <;> exact absurd ho hgone
    | go _ _ => exact absurd ho hgone

end Step

/-! ## §3. Runs. -/

/-- **In undisturbed runs every observer is ended on its own account.** -/
theorem own_account_of_undisturbed (acts : List Act) (h : Along step Undisturbed start acts) :
    Along step OwnAccount start acts := by
  have hinv : ∀ (s : Adapter) (a : Act), (Registered s ∧ Alone s) → Undisturbed s a →
      Registered (step s a) ∧ Alone (step s a) :=
    fun s a hs hu => ⟨registered_step hs.1 a, alone_step hs.1 hs.2 hu⟩
  have hstart : Registered start ∧ Alone start :=
    ⟨registered_start, fun o ho => absurd ho id⟩
  exact Along.of_inv hinv (fun s a hs _ => ownAccount_of_alone hs.1 hs.2 a) hstart h

/-- A client observes the channel; a tick comes, and the first ping is sent. -/
def observedAndPinged : List Act :=
  [.subscribe "id", .store 0, .go 0 .tick, .go 0 .ping, .go 0 .ping, .go 0 .ping]

/-- No ACK comes, up to the last statement of `ping`. -/
def unanswered : List Act := List.replicate 8 (.go 0 .ping)

theorem store_undisturbed : Undisturbed (run step start [.subscribe "id"]) (.store 0) := by
  intro o _
  have hping : ((run step start [.subscribe "id"]).observers o).ping = .notStarted := by
    show ((start.subscribe "id").observers o).ping = .notStarted
    rw [subscribe_observers]
    split <;> rfl
  rw [hping]
  exact id

/-- A client that is gone: its observer goes by its own `ping`. -/
theorem own_account_of_undisturbed_gone :
    Along step OwnAccount start (observedAndPinged ++ unanswered ++ [.expire 0]) ∧
      (run step start (observedAndPinged ++ unanswered ++ [.expire 0])).obs "id" = none := by
  refine ⟨own_account_of_undisturbed _ ?_, by decide +kernel⟩
  refine ⟨trivial, store_undisturbed, trivial, ?_⟩
  repeat' apply And.intro
  all_goals first | trivial | exact fun _ _ => rfl

/-- **A client that observes the channel again**, while the pings of its first
observer are under way: they end its second one. -/
theorem old_ping_ends_new : ¬ ∀ acts : List Act, Along step OwnAccount start acts := by
  intro h
  let before := observedAndPinged ++ [.subscribe "id", .store 1] ++ unanswered
  have hlast : OwnAccount (run step start before) (.expire 0) :=
    ((along_append start before [.expire 0]).mp (h _)).2.1
  have hstored : (run step start before).obs "id" = some 1 := by decide +kernel
  have hgone : (step (run step start before) (.expire 0)).obs "id" = none := by decide +kernel
  rcases hlast "id" 1 hstored (.inl (by rw [hgone]; exact (Option.some_ne_none 1).symm)) with
    hclient | ⟨n, hstore, -⟩ | hown
  · cases hclient
  · cases hstore
  · cases hown

end Mainflux.Coap
