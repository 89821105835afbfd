/-
  Mainflux.Things.Effects
  ───────────────────────
  **WHAT THE REPOSITORY METHODS DO TO THE TABLES.**

  One lemma per method and table: which connection rows are there afterwards,
  which things, under which ids and keys.  Whatever a method's outcome, an
  error leaves the tables as they were, so none of the lemmas asks for
  success.  The three deletions are described by the rows they HIT
  (`HitByThing`, `HitByChannel`, `HitByPair`).
-/
import Mainflux.Things.Repository

namespace Mainflux.Things

open Mainflux.Lib

/-! ## §1. Connection rows. -/

variable {d : DB} {o : String}

theorem DB.Connected.mono {d' : DB} {c t : String} (h : d.Connected c t)
    (hsub : ∀ co ∈ d.connections, co ∈ d'.connections) : d'.Connected c t := by
  obtain ⟨co, hco, hct⟩ := h
  exact ⟨co, hsub co hco, hct⟩

@[simp] theorem connections_thingsSave (l : List Thing) :
    (ThingRepository.save l d).1.connections = d.connections := by
  unfold ThingRepository.save
  split
  next d' h =>
      refine transaction_keeps (fun d => d.connections) (fun q hq a b hab => ?_) h
      obtain ⟨th, -, rfl⟩ := List.mem_map.mp hq
      obtain ⟨u, -, -, -, rfl⟩ := insertThing_ok hab
      rfl
  next => rfl

@[simp] theorem connections_thingsUpdate (th : Thing) :
    (ThingRepository.update th d).1.connections = d.connections := by
  unfold ThingRepository.update
  split
  next => rfl
  next => rfl
  next => rfl
  next d' n h => obtain ⟨u, -, -, rfl⟩ := updateThing_ok h; rfl

@[simp] theorem connections_thingsUpdateKey (id key : String) :
    (ThingRepository.updateKey o id key d).1.connections = d.connections := by
  unfold ThingRepository.updateKey
  split
  next => rfl
  next => rfl
  next => rfl
  next d' n h => obtain ⟨u, -, -, -, -, rfl⟩ := updateThingKey_ok h; rfl

/-- A channel insert or update touches neither things nor connections. -/
theorem channelsSave_frame (l : List Channel) :
    (ChannelRepository.save l d).1.connections = d.connections ∧
      (ChannelRepository.save l d).1.things = d.things := by
  unfold ChannelRepository.save
  split
  next d' h =>
      have hkeep := transaction_keeps (fun d => (d.connections, d.things))
        (fun q hq a b hab => ?_) h
      · exact ⟨congrArg Prod.fst hkeep, congrArg Prod.snd hkeep⟩
      · obtain ⟨ch, -, rfl⟩ := List.mem_map.mp hq
        obtain ⟨u, -, -, -, rfl⟩ := insertChannel_ok hab
        rfl
  next => exact ⟨rfl, rfl⟩

theorem channelsUpdate_frame (ch : Channel) :
    (ChannelRepository.update ch d).1.connections = d.connections ∧
      (ChannelRepository.update ch d).1.things = d.things := by
  unfold ChannelRepository.update
  split
  next => exact ⟨rfl, rfl⟩
  next => exact ⟨rfl, rfl⟩
  next => exact ⟨rfl, rfl⟩
  next d' n h => obtain ⟨u, -, -, -, rfl⟩ := updateChannel_ok h; exact ⟨rfl, rfl⟩

/-- `Connect` only adds connection rows. -/
theorem connect_frame (chIDs thIDs : List String) :
    (∀ co ∈ d.connections, co ∈ (ChannelRepository.connect o chIDs thIDs d).1.connections) ∧
      (ChannelRepository.connect o chIDs thIDs d).1.things = d.things := by
  unfold ChannelRepository.connect
  split
  next d' h =>
      refine transaction_rel
        (R := fun a b => (∀ co ∈ a.connections, co ∈ b.connections) ∧ b.things = a.things)
        (fun _ => ⟨fun _ h => h, rfl⟩) ?_ (fun q hq a b hab => ?_) h
      · intro a b c h1 h2
        exact ⟨fun co hco => h2.1 co (h1.1 co hco), h2.2.trans h1.2⟩
      · obtain ⟨chID, -, hq⟩ := List.mem_flatMap.mp hq
        obtain ⟨thID, -, rfl⟩ := List.mem_map.mp hq
        obtain ⟨ch, th, -, -, -, -, -, rfl⟩ := insertConnection_ok hab
        exact ⟨fun co hco => List.mem_append_left _ hco, rfl⟩
  next => exact ⟨fun _ h => h, rfl⟩
  next => exact ⟨fun _ h => h, rfl⟩
  next => exact ⟨fun _ h => h, rfl⟩

/-- Saved things are added under the ids they carry. -/
theorem thingsSave_things (l : List Thing) :
    (∀ th ∈ d.things, th ∈ (ThingRepository.save l d).1.things) ∧
      ∀ th ∈ (ThingRepository.save l d).1.things,
        th ∈ d.things ∨ ∃ x ∈ l, uuidIn x.id = some th.id := by
  unfold ThingRepository.save
  split
  next d' h =>
      refine transaction_rel
        (R := fun a b => (∀ th ∈ a.things, th ∈ b.things) ∧
          ∀ th ∈ b.things, th ∈ a.things ∨ ∃ x ∈ l, uuidIn x.id = some th.id)
        (fun _ => ⟨fun _ h => h, fun _ h => .inl h⟩) ?_ (fun q hq a b hab => ?_) h
      · intro a b c h1 h2
        refine ⟨fun th hth => h2.1 th (h1.1 th hth), fun th hth => ?_⟩
        rcases h2.2 th hth with hb | hx
        · exact h1.2 th hb
        · exact .inr hx
      · obtain ⟨x, hx, rfl⟩ := List.mem_map.mp hq
        obtain ⟨u, hu, -, -, rfl⟩ := insertThing_ok hab
        refine ⟨fun th hth => List.mem_append_left _ hth, fun th hth => ?_⟩
        rcases List.mem_append.mp hth with hth | hth
        · exact .inl hth
        · exact .inr ⟨x, hx, by rw [List.mem_singleton.mp hth, hu]⟩
  next => exact ⟨fun _ h => h, fun _ h => .inl h⟩

/-! ## §2. The rows the three deletions hit. -/

/-- `DELETE FROM things` on `(id, o)` cascades to the row. -/
def HitByThing (o id : String) (co : ConnectionRow) : Prop :=
  uuidIn id = some co.thingID ∧ co.thingOwner = o

/-- `DELETE FROM channels` on `(id, o)` cascades to the row. -/
def HitByChannel (o id : String) (co : ConnectionRow) : Prop :=
  uuidIn id = some co.channelID ∧ co.channelOwner = o

/-- `DELETE FROM connections` of `o` on the pair `(c, t)` deletes the row. -/
def HitByPair (o c t : String) (co : ConnectionRow) : Prop :=
  uuidIn c = some co.channelID ∧ uuidIn t = some co.thingID ∧ co.channelOwner = o ∧
    co.thingOwner = o

/-- The tables join `c` and `t` by a row that `p` does not hit. -/
def DB.ConnectedBut (d : DB) (p : ConnectionRow → Prop) (c t : String) : Prop :=
  ∃ co ∈ d.connections, ¬ p co ∧ uuidIn c = some co.channelID ∧ uuidIn t = some co.thingID

theorem connected_thingsRemove {id c t : String} (h : d.ConnectedBut (HitByThing o id) c t) :
    (ThingRepository.remove o id d).1.Connected c t := by
  obtain ⟨co, hco, hspared, hct⟩ := h
  unfold ThingRepository.remove
  split
  next d' hd =>
      obtain ⟨u, hu, rfl⟩ := deleteThing_ok hd
      refine ⟨co, mem_deleteWhere.mpr ⟨hco, fun hdel => hspared ⟨?_, hdel.2⟩⟩, hct⟩
      rw [hu, hdel.1]
  next => exact ⟨co, hco, hct⟩

theorem connected_channelsRemove {id c t : String}
    (h : d.ConnectedBut (HitByChannel o id) c t) :
    (ChannelRepository.remove o id d).1.Connected c t := by
  obtain ⟨co, hco, hspared, hct⟩ := h
  unfold ChannelRepository.remove
  split
  next d' hd =>
      obtain ⟨u, hu, rfl⟩ := deleteChannel_ok hd
      refine ⟨co, mem_deleteWhere.mpr ⟨hco, fun hdel => hspared ⟨?_, hdel.2⟩⟩, hct⟩
      rw [hu, hdel.1]
  next => exact ⟨co, hco, hct⟩

theorem connected_disconnect {chanID thingID c t : String}
    (h : d.ConnectedBut (HitByPair o chanID thingID) c t) :
    (ChannelRepository.disconnect o chanID thingID d).1.Connected c t := by
  obtain ⟨co, hco, hspared, hct⟩ := h
  unfold ChannelRepository.disconnect
  split
  next => exact ⟨co, hco, hct⟩
  next d' n hd =>
      obtain ⟨ch, th, hch, hth, -, rfl⟩ := deleteConnection_ok hd
      refine ⟨co, mem_deleteWhere.mpr ⟨hco, fun hdel => hspared ?_⟩, hct⟩
      rw [hdel]
      exact ⟨hch, hth, rfl, rfl⟩

/-! ## §3. Things and channels. -/

theorem things_channelsRemove (id : String) :
    (ChannelRepository.remove o id d).1.things = d.things := by
  unfold ChannelRepository.remove
  split
  next d' hd => obtain ⟨u, -, rfl⟩ := deleteChannel_ok hd; rfl
  next => rfl

theorem things_disconnect (c t : String) :
    (ChannelRepository.disconnect o c t d).1.things = d.things := by
  unfold ChannelRepository.disconnect
  split
  next => rfl
  next d' n hd => obtain ⟨ch, th, -, -, -, rfl⟩ := deleteConnection_ok hd; rfl

theorem mem_things_thingsRemove {id : String} {th : ThingRow} :
    th ∈ (ThingRepository.remove o id d).1.things ↔
      th ∈ d.things ∧ ¬ (uuidIn id = some th.id ∧ th.owner = o) := by
  unfold ThingRepository.remove deleteThing
  cases hid : uuidIn id with
  | none => simp
  | some u =>
      simp only [mem_deleteWhere, ThingRow.Is, Option.some.injEq, and_congr_right_iff]
      intro _
      rw [eq_comm]

theorem mem_channels_channelsRemove {id : String} {ch : ChannelRow} :
    ch ∈ (ChannelRepository.remove o id d).1.channels ↔
      ch ∈ d.channels ∧ ¬ (uuidIn id = some ch.id ∧ ch.owner = o) := by
  unfold ChannelRepository.remove deleteChannel
  cases hid : uuidIn id with
  | none => simp
  | some u =>
      simp only [mem_deleteWhere, ChannelRow.Is, Option.some.injEq, and_congr_right_iff]
      intro _
      rw [eq_comm]

/-- Things keep their ids, and keep their keys but for the one `UpdateKey`
names, when the new key fits and no other row has it. -/
theorem thingsUpdateKey_things (id key : String) :
    (∀ th' ∈ (ThingRepository.updateKey o id key d).1.things, ∃ th ∈ d.things, th.id = th'.id) ∧
      ∀ th ∈ d.things, ∃ th' ∈ (ThingRepository.updateKey o id key d).1.things,
        th'.id = th.id ∧ (th'.key = th.key ∨
          (fitsVarchar 4096 key ∧
            (∀ r ∈ d.things, r.key = key → uuidIn id = some r.id ∧ r.owner = o) ∧
            uuidIn id = some th.id ∧ th.owner = o ∧ th'.key = key)) := by
  unfold ThingRepository.updateKey
  split
  next => exact ⟨fun th h => ⟨th, h, rfl⟩, fun th h => ⟨th, h, rfl, .inl rfl⟩⟩
  next => exact ⟨fun th h => ⟨th, h, rfl⟩, fun th h => ⟨th, h, rfl, .inl rfl⟩⟩
  next => exact ⟨fun th h => ⟨th, h, rfl⟩, fun th h => ⟨th, h, rfl, .inl rfl⟩⟩
  next d' n hd =>
      obtain ⟨u, hu, hfit, hfree, -, rfl⟩ := updateThingKey_ok hd
      have hids : ∀ r : ThingRow, r.Is u o → uuidIn id = some r.id ∧ r.owner = o := by
        intro r his
        exact ⟨by rw [hu, his.1], his.2⟩
      constructor
      · intro th' hth'
        rcases mem_updateWhere.mp hth' with ⟨th, hth, -, rfl⟩ | ⟨hth, -⟩
        · exact ⟨th, hth, rfl⟩
        · exact ⟨th', hth, rfl⟩
      · intro th hth
        by_cases his : th.Is u o
        · refine ⟨_, mem_updateWhere.mpr (.inl ⟨th, hth, his, rfl⟩), rfl, .inr ⟨hfit, ?_, ?_⟩⟩
          · intro r hr hkey
            by_contra hother
            exact hfree ⟨th, hth, his⟩ r hr (fun h => hother (hids r h)) hkey
          · exact ⟨(hids th his).1, his.2, rfl⟩
        · exact ⟨th, mem_updateWhere.mpr (.inr ⟨hth, his⟩), rfl, .inl rfl⟩

theorem thingsUpdate_things (x : Thing) :
    (∀ th' ∈ (ThingRepository.update x d).1.things, ∃ th ∈ d.things, th.id = th'.id) ∧
      ∀ th ∈ d.things, ∃ th' ∈ (ThingRepository.update x d).1.things,
        th'.id = th.id ∧ th'.key = th.key := by
  unfold ThingRepository.update
  split
  next => exact ⟨fun th h => ⟨th, h, rfl⟩, fun th h => ⟨th, h, rfl, rfl⟩⟩
  next => exact ⟨fun th h => ⟨th, h, rfl⟩, fun th h => ⟨th, h, rfl, rfl⟩⟩
  next => exact ⟨fun th h => ⟨th, h, rfl⟩, fun th h => ⟨th, h, rfl, rfl⟩⟩
  next d' n hd =>
      obtain ⟨u, -, -, rfl⟩ := updateThing_ok hd
      constructor
      · intro th' hth'
        rcases mem_updateWhere.mp hth' with ⟨th, hth, -, rfl⟩ | ⟨hth, -⟩
        · exact ⟨th, hth, rfl⟩
        · exact ⟨th', hth, rfl⟩
      · intro th hth
        by_cases his : th.Is u x.owner
        · exact ⟨_, mem_updateWhere.mpr (.inl ⟨th, hth, his, rfl⟩), rfl, rfl⟩
        · exact ⟨th, mem_updateWhere.mpr (.inr ⟨hth, his⟩), rfl, rfl⟩

/-! ## §4. When `Disconnect` and `UpdateChannel` succeed. -/

theorem disconnect_ok_iff {a c t : String} :
    (ChannelRepository.disconnect a c t d).2 = .ok () ↔
      ∃ co ∈ d.connections, uuidIn c = some co.channelID ∧ uuidIn t = some co.thingID ∧
        co.channelOwner = a ∧ co.thingOwner = a := by
  unfold ChannelRepository.disconnect deleteConnection
  cases uuidIn c with
  | none => simp
  | some ch =>
      cases uuidIn t with
      | none => simp
      | some th =>
          simp only [ite_eq_right_iff, length_selectWhere_eq_zero, Option.some.injEq]
          constructor
          · intro h
            by_contra hno
            refine absurd (h fun co hco heq => hno ⟨co, hco, ?_⟩) (by simp)
            rw [heq]
            exact ⟨rfl, rfl, rfl, rfl⟩
          · rintro ⟨co, hco, rfl, rfl, hch, hth⟩ hnone
            refine absurd ?_ (hnone co hco)
            obtain ⟨x, xo, y, yo⟩ := co
            cases hch
            cases hth
            rfl

theorem update_ok_iff {a : String} {ch : Channel} :
    (ChannelRepository.update { ch with owner := a } d).2 = .ok () ↔
      fitsVarchar 1024 ch.name ∧ ∃ r ∈ d.channels, uuidIn ch.id = some r.id ∧ r.owner = a := by
  unfold ChannelRepository.update updateChannel
  cases uuidIn ch.id with
  | none => simp
  | some id =>
      by_cases hfit : fitsVarchar 1024 ch.name
      · simp only [hfit, if_true, ite_eq_right_iff, length_selectWhere_eq_zero, true_and,
          Option.some.injEq]
        constructor
        · intro h
          by_contra hno
          exact absurd (h fun r hr his => hno ⟨r, hr, his.1.symm, his.2⟩) (by simp)
        · rintro ⟨r, hr, rfl, rfl⟩ hnone
          exact absurd ⟨rfl, rfl⟩ (hnone r hr)
      · simp [hfit]

end Mainflux.Things
