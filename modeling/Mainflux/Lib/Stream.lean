/-
  Mainflux.Lib.Stream
  ───────────────────
  **A REDIS STREAM READ BY ONE CONSUMER GROUP.**

  The group has a cursor: `XREADGROUP … >` hands out the entries behind it,
  each entry once, and moves it past the whole batch at once.  What was handed
  out and not acknowledged is pending, and `>` never returns it again.

  `poll` is one turn of the usual consumer loop: read a batch, handle its
  entries one after another, acknowledge each one handled without error, and
  LEAVE THE BATCH at the first error.

    • `Lossless` — every entry the cursor has passed was handed to the handler,
      in order, and the state is the fold of the handler over them;
    • `lossless_iff_along` — a run keeps `Lossless` exactly when, in every batch
      read, only the last entry's handler may fail.
-/
import Mainflux.Lib.Run

namespace Mainflux.Lib

/-! ## §1. The group and the loop. -/

/-- A stream and one consumer group on it: how many entries were handed out, and
which of these are not acknowledged. -/
structure Group (ε : Type) where
  entries : List ε
  cursor : Nat := 0
  pending : List Nat := []
  inBounds : cursor ≤ entries.length := by omega

namespace Group

variable {ε : Type}

/-- The entries behind the cursor, at most `n`. -/
def next (g : Group ε) (n : Nat) : List ε := (g.entries.drop g.cursor).take n

/-- The group once these have been handed out. -/
def advance (g : Group ε) (n : Nat) : Group ε :=
  { g with
    cursor := g.cursor + (g.next n).length
    pending := g.pending ++ (List.range (g.next n).length).map (g.cursor + ·)
    inBounds := by
      have hle := g.inBounds
      rw [next, List.length_take, List.length_drop]
      omega }

/-- `XACK`. -/
def ack (g : Group ε) (id : Nat) : Group ε :=
  { g with pending := g.pending.filter (· ≠ id) }

end Group

/-- A consumer: its group, its own state, and the entries it has passed to its
handler so far. -/
structure Loop (σ ε : Type) where
  group : Group ε
  state : σ
  handled : List ε := []

section Consume

variable {σ ε : Type} (handle : ε → σ → σ × Bool)

/-- The entries of a batch, numbered from `id`; the handler's second component
says whether the loop goes on. -/
def handleBatch : Nat → List ε → Loop σ ε → Loop σ ε
  | _, [], w => w
  | id, e :: es, w =>
      if (handle e w.state).2 then
        handleBatch (id + 1) es
          ⟨w.group.ack id, (handle e w.state).1, w.handled ++ [e]⟩
      else
        -- break: the entry stays pending, the rest of the batch is dropped
        ⟨w.group, (handle e w.state).1, w.handled ++ [e]⟩

/-- One turn of the loop: the server returns at most `n` entries, and never more
than `count`; 0 is an empty or failed read. -/
def poll (count : Nat) (w : Loop σ ε) (n : Nat) : Loop σ ε :=
  handleBatch handle w.group.cursor (w.group.next (min n count))
    { w with group := w.group.advance (min n count) }

/-- The handler over entries, whatever it answers. -/
def foldHandler (s : σ) (es : List ε) : σ := es.foldl (fun s e => (handle e s).1) s

/-- All entries but the last are handled without error. -/
def GoesThrough : List ε → σ → Prop
  | [], _ => True
  | [_], _ => True
  | e :: e' :: es, s => (handle e s).2 = true ∧ GoesThrough (e' :: es) (handle e s).1

/-- Every entry the cursor has passed was handled, in order. -/
structure Lossless (s : σ) (w : Loop σ ε) : Prop where
  handled : w.handled = w.group.entries.take w.group.cursor
  state : w.state = foldHandler handle s (w.group.entries.take w.group.cursor)

/-! ## §2. One batch. -/

/-- The entries of a batch that reach the handler. -/
def passed : List ε → σ → List ε
  | [], _ => []
  | e :: es, s => if (handle e s).2 then e :: passed es (handle e s).1 else [e]

variable {handle}

theorem passed_initial (handle : ε → σ → σ × Bool) (es : List ε) (s : σ) :
    passed handle es s <+: es := by
  induction es generalizing s with
  | nil => exact List.prefix_rfl
  | cons e es ih =>
      rw [passed]
      split
      · exact List.prefix_cons_inj e |>.mpr (ih _)
      · exact ⟨es, rfl⟩

/-- The whole batch reaches the handler exactly when it goes through. -/
theorem passed_eq_iff (es : List ε) (s : σ) : passed handle es s = es ↔ GoesThrough handle es s := by
  induction es generalizing s with
  | nil => exact ⟨fun _ => trivial, fun _ => rfl⟩
  | cons e es ih =>
      rw [passed]
      cases es with
      | nil =>
          refine ⟨fun _ => trivial, fun _ => ?_⟩
          split <;> rfl
      | cons e' es =>
          rw [GoesThrough]
          split
          next hok => simp only [List.cons.injEq, true_and, hok, ih]
          next hfail => simp [hfail]

/-- What a batch does to the loop. -/
theorem handleBatch_eq (id : Nat) (es : List ε) (w : Loop σ ε) :
    (handleBatch handle id es w).handled = w.handled ++ passed handle es w.state ∧
      (handleBatch handle id es w).state = foldHandler handle w.state (passed handle es w.state) ∧
      (handleBatch handle id es w).group.entries = w.group.entries ∧
      (handleBatch handle id es w).group.cursor = w.group.cursor := by
  induction es generalizing id w with
  | nil => exact ⟨(List.append_nil _).symm, rfl, rfl, rfl⟩
  | cons e es ih =>
      rw [handleBatch, passed]
      split
      next =>
          obtain ⟨hhandled, hstate, hentries, hcursor⟩ := ih (id + 1)
            ⟨w.group.ack id, (handle e w.state).1, w.handled ++ [e]⟩
          refine ⟨?_, hstate, hentries, hcursor⟩
          rw [hhandled, List.append_assoc, List.singleton_append]
      next => exact ⟨rfl, rfl, rfl, rfl⟩

/-! ## §3. Runs. -/

variable {count : Nat} {s : σ} {w : Loop σ ε}

/-- What one turn does to what was handled, to the state and to the cursor. -/
theorem poll_eq (handle : ε → σ → σ × Bool) (count : Nat) (w : Loop σ ε) (n : Nat) :
    (poll handle count w n).handled
        = w.handled ++ passed handle (w.group.next (min n count)) w.state ∧
      (poll handle count w n).state
        = foldHandler handle w.state (passed handle (w.group.next (min n count)) w.state) ∧
      (poll handle count w n).group.entries = w.group.entries ∧
      (poll handle count w n).group.cursor
        = w.group.cursor + (w.group.next (min n count)).length :=
  handleBatch_eq w.group.cursor (w.group.next (min n count)) _

/-- Some entry that the cursor has passed was not handled. -/
def Lagging (w : Loop σ ε) : Prop := w.handled.length < w.group.cursor

/-- What was dropped is never read again. -/
theorem lagging_poll (n : Nat) (h : Lagging w) : Lagging (poll handle count w n) := by
  obtain ⟨hhandled, -, -, hcursor⟩ := poll_eq handle count w n
  have hlen := (passed_initial handle (w.group.next (min n count)) w.state).length_le
  unfold Lagging at h ⊢
  rw [hhandled, hcursor, List.length_append]
  omega

theorem lagging_run (handle : ε → σ → σ × Bool) (count : Nat) (reads : List Nat)
    (h : Lagging w) :
    Lagging (run (poll handle count) w reads) := by
  induction reads generalizing w with
  | nil => exact h
  | cons n reads ih => exact ih (lagging_poll n h)

theorem Lossless.not_lagging (h : Lossless handle s w) : ¬ Lagging w := by
  intro hlag
  have hlen := w.group.inBounds
  unfold Lagging at hlag
  rw [h.handled, List.length_take] at hlag
  omega

/-- The entries before the cursor after a batch: those before, and the batch. -/
theorem take_next (g : Group ε) (n : Nat) :
    g.entries.take (g.cursor + (g.next n).length) = g.entries.take g.cursor ++ g.next n := by
  rw [List.take_add]
  congr 1
  rw [Group.next, List.length_take, List.take_eq_take_iff]
  omega

/-- **One turn keeps `Lossless` exactly when its batch goes through.** -/
theorem lossless_poll_iff (n : Nat) (h : Lossless handle s w) :
    Lossless handle s (poll handle count w n) ↔
      GoesThrough handle (w.group.next (min n count)) w.state := by
  obtain ⟨hhandled, hstate, hentries, hcursor⟩ :=
    poll_eq handle count w n
  rw [← passed_eq_iff]
  constructor
  · intro h'
    have heq := h'.handled
    rw [hhandled, hentries, hcursor, take_next, ← h.handled] at heq
    exact List.append_cancel_left heq
  · intro hpassed
    constructor
    · rw [hhandled, hentries, hcursor, take_next, ← h.handled, hpassed]
    · rw [hstate, hentries, hcursor, take_next, hpassed, foldHandler, h.state,
        foldHandler, foldHandler, List.foldl_append]

/-- A batch that does not go through leaves the loop lagging. -/
theorem lagging_of_not_goesThrough (n : Nat) (h : Lossless handle s w)
    (hbad : ¬ GoesThrough handle (w.group.next (min n count)) w.state) :
    Lagging (poll handle count w n) := by
  obtain ⟨hhandled, -, -, hcursor⟩ := poll_eq handle count w n
  have hpre := passed_initial handle (w.group.next (min n count)) w.state
  have hlt : (passed handle (w.group.next (min n count)) w.state).length
      < (w.group.next (min n count)).length := by
    refine Nat.lt_of_le_of_ne hpre.length_le fun heq => hbad ?_
    exact (passed_eq_iff _ _).mp (hpre.eq_of_length heq)
  have hlen := w.group.inBounds
  unfold Lagging
  rw [hhandled, hcursor, List.length_append, h.handled, List.length_take]
  omega

/-- **A run keeps `Lossless` exactly when every batch of it goes through.** -/
theorem lossless_iff_along (reads : List Nat) (h : Lossless handle s w) :
    Lossless handle s (run (poll handle count) w reads) ↔
      Along (poll handle count)
        (fun w n => GoesThrough handle (w.group.next (min n count)) w.state) w reads := by
  induction reads generalizing w with
  | nil => exact ⟨fun _ => trivial, fun _ => h⟩
  | cons n reads ih =>
      rw [run_cons, Along]
      by_cases hgo : GoesThrough handle (w.group.next (min n count)) w.state
      · rw [ih ((lossless_poll_iff n h).mpr hgo)]
        exact ⟨fun h' => ⟨hgo, h'⟩, fun h' => h'.2⟩
      · have hlag := lagging_run handle count reads
          (lagging_of_not_goesThrough n h hgo)
        exact ⟨fun h' => absurd hlag h'.not_lagging, fun h' => absurd h'.1 hgo⟩

end Consume

end Mainflux.Lib
