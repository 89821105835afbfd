/-
  Mainflux.Adapters.Delivery
  ──────────────────────────
  **DO THE CONSUMERS OF THE THINGS STREAM LOSE EVENTS?**

  The three `Subscribe` loops are one loop (`Lib.Stream.poll` with `Count: 100`)
  around three handlers: a batch is read with `>`, which moves the group's
  cursor past all of it, and the first entry whose handler fails ends the batch.
  The rest of the batch is never handled and never read again.

    • `delivered_iff` — a run loses nothing exactly when, in each batch it reads,
      only the last entry's handler fails;
    • `unknown_removal_loses_creation` — a removal of a device the LoRa adapter
      never knew (GET answers nil, an error) costs it the device created next.

  The bootstrap loop is modelled around the service itself; what its decorators
  make of `UpdateChannelHandler` is the subject of `Bootstrap.Producer`.
-/
import Mainflux.Adapters.Codec
import Mainflux.Lib.Stream

namespace Mainflux.Adapters

open Mainflux.Lib

open Mainflux.Things (Event Record)

/-! ## §1. The handlers. -/

/-- The handlers of the bootstrap service, each statement with its outcome. -/
def bootstrapApply (answers : Nat → Answer) :
    Bootstrap.Decoded → Bootstrap.DB → Bootstrap.DB × Option Err
  | .removeThing id, d =>
      let (d', err) := (answers 0).write (Bootstrap.deleteConfigs fun cfg => cfg.mfThing = id) d
      -- the cleanup runs whatever became of the deletion; its own error is only logged
      (((answers 1).write Bootstrap.cleanup d').1, err)
  | .disconnectThing channelID thingID, d =>
      (answers 0).write (Bootstrap.ConfigRepository.disconnectThing channelID thingID) d
  | .updateChannel channel, d =>
      (answers 0).write (Bootstrap.ConfigRepository.updateChannel channel) d
  | .removeChannel id, d => (answers 0).write (Bootstrap.ConfigRepository.removeChannel id) d
  | .skipped, d => (d, none)

/-- When the database answers, the handlers do what they do. -/
theorem bootstrapApply_done (decoded : Bootstrap.Decoded) (d : Bootstrap.DB) :
    bootstrapApply (fun _ => .done) decoded d = (decoded.apply d, none) := by
  cases decoded <;> rfl

/-- An entry of the stream, and how the commands of its handler will end. -/
structure Entry where
  record : Record
  answers : Nat → Answer

/-- What a consumer keeps. -/
@[reducible] def Consumer.State : Consumer → Type
  | .bootstrap => Bootstrap.DB
  | .lora => Redis
  | .opcua => Opcua.State

/-- Whether the loop goes on with the batch: `err == nil`, or the metadata is not
of the adapter's protocol. -/
def goesOn : Option Err → Bool
  | none => true
  | some .metadataType => true
  | some _ => false

/-- The body of the loop, up to the `break`. -/
def Consumer.handle : (c : Consumer) → Entry → c.State → c.State × Bool
  | .bootstrap, e, d =>
      ((bootstrapApply e.answers (Bootstrap.decode e.record) d).1,
        goesOn (bootstrapApply e.answers (Bootstrap.decode e.record) d).2)
  | .lora, e, r =>
      ((Lora.handle e.record e.answers r).1, goesOn (Lora.handle e.record e.answers r).2)
  | .opcua, e, s =>
      ((Opcua.handle e.record e.answers s).1, goesOn (Opcua.handle e.record e.answers s).2)

/-! ## §2. Runs of the loop. -/

/-- `Count`. -/
def readCount : Nat := 100

/-- A consumer whose group has read nothing of the stream yet. -/
def Consumer.start (c : Consumer) (s : c.State) (entries : List Entry) : Loop c.State Entry where
  group := { entries := entries }
  state := s

/-- The loop after reads that returned up to these numbers of entries. -/
def Consumer.consume (c : Consumer) (s : c.State) (entries : List Entry) (reads : List Nat) :
    Loop c.State Entry :=
  run (poll c.handle readCount) (c.start s entries) reads

/-- The batch of the next read has no failure before its last entry. -/
def Consumer.BatchGoesThrough (c : Consumer) (w : Loop c.State Entry) (n : Nat) : Prop :=
  GoesThrough c.handle (w.group.next (min n readCount)) w.state

theorem lossless_start (c : Consumer) (s : c.State) (entries : List Entry) :
    Lossless c.handle s (c.start s entries) :=
  ⟨rfl, rfl⟩

/-- **A consumer loses nothing exactly when each batch it reads goes through**:
every entry read was handled, in order, and its state is the fold of its handler
over them. -/
theorem delivered_iff (c : Consumer) (s : c.State) (entries : List Entry) (reads : List Nat) :
    Lossless c.handle s (c.consume s entries reads) ↔
      Along (poll c.handle readCount) c.BatchGoesThrough (c.start s entries) reads :=
  lossless_iff_along reads (lossless_start c s entries)

/-! ### One run. -/

/-- A device the adapter never knew is removed, then a device of its own is
created; Redis answers every command. -/
def removalAndCreation : List Entry :=
  [⟨(Event.removeThing "t9").encode Json.marshal, fun _ => .done⟩,
    ⟨(Event.createThing "t1" "ann" "probe" (some deviceMetadata)).encode Json.marshal,
      fun _ => .done⟩]

/-- **Read in one batch, the creation is lost.** -/
theorem unknown_removal_loses_creation :
    ¬ Lossless Consumer.lora.handle Redis.empty
      (Consumer.lora.consume Redis.empty removalAndCreation [2]) := by
  intro h
  have hone : (Consumer.lora.consume Redis.empty removalAndCreation [2]).handled.length = 1 := rfl
  rw [h.handled] at hone
  revert hone
  exact (by decide : ¬ (2 = 1))

end Mainflux.Adapters
