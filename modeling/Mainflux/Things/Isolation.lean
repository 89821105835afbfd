/-
  Mainflux.Things.Isolation
  ─────────────────────────
  **OWNER ISOLATION AND REFERENTIAL INTEGRITY OF THE THINGS DATABASE.**

  `Stmt o d d'` is one successful SQL statement issued on behalf of user `o`;
  `Writes o` is any number of them.  Whatever a request does to the tables is
  such a sequence (`step_writes`), so three facts about ONE statement give the
  whole result:

    • `Stmt.schema` — the declared constraints stay true, cascades included;
    • `Stmt.sameOwner` — a connection row never joins entities of two owners;
    • `Stmt.frame` — the rows of every other owner are the same rows.

  The main result is `reachable_isolated`.
-/
import Mathlib.Logic.Relation
import Mainflux.Lib.Run
import Mainflux.Things.Service

namespace Mainflux.Things

open Mainflux.Lib

/-! ## §1. Statements on behalf of a user. -/

/-- One successful statement issued on behalf of `o`. -/
inductive Stmt (o : String) (d d' : DB) : Prop
  | insertThing (th : Thing) (ho : th.owner = o) (h : insertThing th d = .ok d')
  | updateThing (th : Thing) (n : Nat) (ho : th.owner = o) (h : updateThing th d = .ok (d', n))
  | updateThingKey (id key : String) (n : Nat) (h : updateThingKey o id key d = .ok (d', n))
  | deleteThing (id : String) (h : deleteThing o id d = .ok d')
  | insertChannel (ch : Channel) (ho : ch.owner = o) (h : insertChannel ch d = .ok d')
  | updateChannel (ch : Channel) (n : Nat) (ho : ch.owner = o)
      (h : updateChannel ch d = .ok (d', n))
  | deleteChannel (id : String) (h : deleteChannel o id d = .ok d')
  | insertConnection (chID thID : String) (h : insertConnection o chID thID d = .ok d')
  | deleteConnection (c t : String) (n : Nat) (h : deleteConnection o c t d = .ok (d', n))

/-- Any number of statements on behalf of `o`. -/
abbrev Writes (o : String) : DB → DB → Prop := Relation.ReflTransGen (Stmt o)

variable {o : String} {d d' : DB}

/-! ## §2. The declared constraints. -/

section Schema

variable {th : Thing} {ch : Channel} {id key c t : String} {n : Nat}

theorem schema_insertThing (hq : insertThing th d = .ok d') (h : d.Schema) : d'.Schema := by
  obtain ⟨u, -, hfit, hfree, rfl⟩ := insertThing_ok hq
  refine { h with thing_pk := ?_, thing_key := ?_, thing_width := ?_, thing_fk := ?_ }
  · exact nodup_map_insert h.thing_pk
      fun r hr heq => (hfree r hr).1 ⟨congrArg Prod.fst heq, congrArg Prod.snd heq⟩
  · exact nodup_map_insert h.thing_key fun r hr => (hfree r hr).2
  · exact forall_mem_insert h.thing_width hfit
  · intro co hco
    exact fk_mono (fun r hr => List.mem_append_left _ hr) (h.thing_fk co hco)

theorem schema_updateThing (hq : updateThing th d = .ok (d', n)) (h : d.Schema) : d'.Schema := by
  obtain ⟨u, -, hfit, rfl⟩ := updateThing_ok hq
  refine { h with thing_pk := ?_, thing_key := ?_, thing_width := ?_, thing_fk := ?_ }
  · exact nodup_map_updateWhere_same h.thing_pk (fun _ _ _ => rfl)
  · exact nodup_map_updateWhere_same h.thing_key (fun _ _ _ => rfl)
  · exact forall_mem_updateWhere h.thing_width fun r hr => ⟨hr.1, hr.2.1, hfit⟩
  · intro co hco
    exact fk_updateWhere (fun r hr => hr) (h.thing_fk co hco)

theorem schema_updateThingKey (hq : updateThingKey o id key d = .ok (d', n)) (h : d.Schema) :
    d'.Schema := by
  obtain ⟨u, -, hfit, hfree, -, rfl⟩ := updateThingKey_ok hq
  refine { h with thing_pk := ?_, thing_key := ?_, thing_width := ?_, thing_fk := ?_ }
  · exact nodup_map_updateWhere_same h.thing_pk (fun _ _ _ => rfl)
  · by_cases hex : ∃ r ∈ d.things, r.Is u o
    · -- the primary key makes the updated row the only one of its id and owner
      refine nodup_map_updateWhere h.thing_key (v := key) (fun r _ _ => rfl) ?_ (hfree hex)
      intro r hr s hs hpr hps
      exact eq_of_key_eq h.thing_pk hr hs
        (Prod.ext (hpr.1.trans hps.1.symm) (hpr.2.trans hps.2.symm))
    · exact nodup_map_updateWhere_same h.thing_key fun r hr hp => absurd ⟨r, hr, hp⟩ hex
  · exact forall_mem_updateWhere h.thing_width fun r hr => ⟨hr.1, hfit, hr.2.2⟩
  · intro co hco
    exact fk_updateWhere (fun r hr => hr) (h.thing_fk co hco)

/-- The cascade deletes every connection that refers to a deleted thing. -/
theorem schema_deleteThing (hq : deleteThing o id d = .ok d') (h : d.Schema) : d'.Schema := by
  obtain ⟨u, -, rfl⟩ := deleteThing_ok hq
  refine { h with
    thing_pk := nodup_map_deleteWhere h.thing_pk
    thing_key := nodup_map_deleteWhere h.thing_key
    thing_width := fun r hr => h.thing_width r (mem_deleteWhere.mp hr).1
    connection_pk := h.connection_pk.filter _
    channel_fk := fun co hco => h.channel_fk co (mem_deleteWhere.mp hco).1
    thing_fk := ?_ }
  intro co hco
  obtain ⟨hco, hkeep⟩ := mem_deleteWhere.mp hco
  refine fk_deleteWhere (fun r hr hdel => hkeep ?_) (h.thing_fk co hco)
  exact ⟨hr.1.symm.trans hdel.1, hr.2.symm.trans hdel.2⟩

theorem schema_insertChannel (hq : insertChannel ch d = .ok d') (h : d.Schema) : d'.Schema := by
  obtain ⟨u, -, hfit, hfree, rfl⟩ := insertChannel_ok hq
  refine { h with channel_pk := ?_, channel_width := ?_, channel_fk := ?_ }
  · exact nodup_map_insert h.channel_pk
      fun r hr heq => hfree r hr ⟨congrArg Prod.fst heq, congrArg Prod.snd heq⟩
  · exact forall_mem_insert h.channel_width hfit
  · intro co hco
    exact fk_mono (fun r hr => List.mem_append_left _ hr) (h.channel_fk co hco)

theorem schema_updateChannel (hq : updateChannel ch d = .ok (d', n)) (h : d.Schema) :
    d'.Schema := by
  obtain ⟨u, -, hfit, -, rfl⟩ := updateChannel_ok hq
  refine { h with channel_pk := ?_, channel_width := ?_, channel_fk := ?_ }
  · exact nodup_map_updateWhere_same h.channel_pk (fun _ _ _ => rfl)
  · exact forall_mem_updateWhere h.channel_width fun r hr => ⟨hr.1, hfit⟩
  · intro co hco
    exact fk_updateWhere (fun r hr => hr) (h.channel_fk co hco)

/-- The cascade deletes every connection that refers to a deleted channel. -/
theorem schema_deleteChannel (hq : deleteChannel o id d = .ok d') (h : d.Schema) :
    d'.Schema := by
  obtain ⟨u, -, rfl⟩ := deleteChannel_ok hq
  refine { h with
    channel_pk := nodup_map_deleteWhere h.channel_pk
    channel_width := fun r hr => h.channel_width r (mem_deleteWhere.mp hr).1
    connection_pk := h.connection_pk.filter _
    thing_fk := fun co hco => h.thing_fk co (mem_deleteWhere.mp hco).1
    channel_fk := ?_ }
  intro co hco
  obtain ⟨hco, hkeep⟩ := mem_deleteWhere.mp hco
  refine fk_deleteWhere (fun r hr hdel => hkeep ?_) (h.channel_fk co hco)
  exact ⟨hr.1.symm.trans hdel.1, hr.2.symm.trans hdel.2⟩

theorem schema_insertConnection (hq : insertConnection o c t d = .ok d') (h : d.Schema) :
    d'.Schema := by
  obtain ⟨ch, th, -, -, hnew, hch, hth, rfl⟩ := insertConnection_ok hq
  refine { h with connection_pk := ?_, channel_fk := ?_, thing_fk := ?_ }
  · exact List.nodup_append.mpr ⟨h.connection_pk, List.nodup_singleton _,
      fun a ha b hb hab => hnew (by rw [← List.mem_singleton.mp hb, ← hab]; exact ha)⟩
  · exact forall_mem_insert h.channel_fk hch
  · exact forall_mem_insert h.thing_fk hth

theorem schema_deleteConnection (hq : deleteConnection o c t d = .ok (d', n)) (h : d.Schema) :
    d'.Schema := by
  obtain ⟨ch, th, -, -, -, rfl⟩ := deleteConnection_ok hq
  exact { h with
    connection_pk := h.connection_pk.filter _
    channel_fk := fun co hco => h.channel_fk co (mem_deleteWhere.mp hco).1
    thing_fk := fun co hco => h.thing_fk co (mem_deleteWhere.mp hco).1 }

end Schema

/-- **One statement keeps every declared constraint.** -/
theorem Stmt.schema (hs : Stmt o d d') (h : d.Schema) : d'.Schema := by
  cases hs with
  | insertThing th ho hq => exact schema_insertThing hq h
  | updateThing th n ho hq => exact schema_updateThing hq h
  | updateThingKey id key n hq => exact schema_updateThingKey hq h
  | deleteThing id hq => exact schema_deleteThing hq h
  | insertChannel ch ho hq => exact schema_insertChannel hq h
  | updateChannel ch n ho hq => exact schema_updateChannel hq h
  | deleteChannel id hq => exact schema_deleteChannel hq h
  | insertConnection chID thID hq => exact schema_insertConnection hq h
  | deleteConnection c t n hq => exact schema_deleteConnection hq h

/-! ## §3. Same owner, and the rows of the others. -/

/-- Every connection row joins a thing and a channel of one owner. -/
def DB.SameOwner (d : DB) : Prop := ∀ co ∈ d.connections, co.channelOwner = co.thingOwner

theorem Stmt.sameOwner (hs : Stmt o d d') (h : d.SameOwner) : d'.SameOwner := by
  cases hs with
  | insertThing th ho hq => obtain ⟨u, -, -, -, rfl⟩ := insertThing_ok hq; exact h
  | updateThing th n ho hq => obtain ⟨u, -, -, rfl⟩ := updateThing_ok hq; exact h
  | updateThingKey id key n hq => obtain ⟨u, -, -, -, -, rfl⟩ := updateThingKey_ok hq; exact h
  | insertChannel ch ho hq => obtain ⟨u, -, -, -, rfl⟩ := insertChannel_ok hq; exact h
  | updateChannel ch n ho hq => obtain ⟨u, -, -, -, rfl⟩ := updateChannel_ok hq; exact h
  | deleteThing id hq =>
      obtain ⟨u, -, rfl⟩ := deleteThing_ok hq
      exact fun co hco => h co (mem_deleteWhere.mp hco).1
  | deleteChannel id hq =>
      obtain ⟨u, -, rfl⟩ := deleteChannel_ok hq
      exact fun co hco => h co (mem_deleteWhere.mp hco).1
  | deleteConnection c t n hq =>
      obtain ⟨ch, th, -, -, -, rfl⟩ := deleteConnection_ok hq
      exact fun co hco => h co (mem_deleteWhere.mp hco).1
  | insertConnection chID thID hq =>
      obtain ⟨ch, th, -, -, -, -, -, rfl⟩ := insertConnection_ok hq
      exact forall_mem_insert h rfl

/-- The row belongs to `b`, on either side. -/
abbrev ConnectionRow.Owned (b : String) (co : ConnectionRow) : Prop :=
  co.channelOwner = b ∨ co.thingOwner = b

/-- The things, channels and connections of one owner. -/
def DB.rowsOf (d : DB) (b : String) : List ThingRow × List ChannelRow × List ConnectionRow :=
  (selectWhere (fun r => r.owner = b) d.things, selectWhere (fun r => r.owner = b) d.channels,
    selectWhere (ConnectionRow.Owned b) d.connections)

theorem rowsOf_eq {b : String}
    (ht : selectWhere (fun r => r.owner = b) d'.things
      = selectWhere (fun r => r.owner = b) d.things)
    (hc : selectWhere (fun r => r.owner = b) d'.channels
      = selectWhere (fun r => r.owner = b) d.channels)
    (hco : selectWhere (ConnectionRow.Owned b) d'.connections
      = selectWhere (ConnectionRow.Owned b) d.connections) : d'.rowsOf b = d.rowsOf b := by
  simp only [DB.rowsOf, ht, hc, hco]

/-- **One statement on behalf of `o` leaves the rows of every other owner
alone.** -/
theorem Stmt.frame (hs : Stmt o d d') (hsame : d.SameOwner) {b : String} (hb : b ≠ o) :
    d'.rowsOf b = d.rowsOf b := by
  cases hs with
  | insertThing th ho hq =>
      obtain ⟨u, -, -, -, rfl⟩ := insertThing_ok hq
      exact rowsOf_eq (selectWhere_insert fun h => hb (h.symm.trans ho)) rfl rfl
  | updateThing th n ho hq =>
      obtain ⟨u, -, -, rfl⟩ := updateThing_ok hq
      have hne : ∀ r : ThingRow, r.Is u th.owner → r.owner ≠ b :=
        fun r hr h => hb (h.symm.trans (hr.2.trans ho))
      exact rowsOf_eq (selectWhere_updateWhere (fun r _ hr h => absurd h (hne r hr))
        fun _ _ _ h => h) rfl rfl
  | updateThingKey id key n hq =>
      obtain ⟨u, -, -, -, -, rfl⟩ := updateThingKey_ok hq
      have hne : ∀ r : ThingRow, r.Is u o → r.owner ≠ b :=
        fun r hr h => hb (h.symm.trans hr.2)
      exact rowsOf_eq (selectWhere_updateWhere (fun r _ hr h => absurd h (hne r hr))
        fun _ _ _ h => h) rfl rfl
  | deleteThing id hq =>
      obtain ⟨u, -, rfl⟩ := deleteThing_ok hq
      refine rowsOf_eq (selectWhere_deleteWhere fun r _ hr hdel => hb (hr.symm.trans hdel.2)) rfl
        (selectWhere_deleteWhere fun co hco hr hdel => hb ?_)
      -- the cascade follows the thing's owner; the channel's is the same
      rcases hr with hr | hr
      · exact hr.symm.trans ((hsame co hco).trans hdel.2)
      · exact hr.symm.trans hdel.2
  | insertChannel ch ho hq =>
      obtain ⟨u, -, -, -, rfl⟩ := insertChannel_ok hq
      exact rowsOf_eq rfl (selectWhere_insert fun h => hb (h.symm.trans ho)) rfl
  | updateChannel ch n ho hq =>
      obtain ⟨u, -, -, -, rfl⟩ := updateChannel_ok hq
      have hne : ∀ r : ChannelRow, r.Is u ch.owner → r.owner ≠ b :=
        fun r hr h => hb (h.symm.trans (hr.2.trans ho))
      exact rowsOf_eq rfl (selectWhere_updateWhere (fun r _ hr h => absurd h (hne r hr))
        fun _ _ _ h => h) rfl
  | deleteChannel id hq =>
      obtain ⟨u, -, rfl⟩ := deleteChannel_ok hq
      refine rowsOf_eq rfl (selectWhere_deleteWhere fun r _ hr hdel => hb (hr.symm.trans hdel.2))
        (selectWhere_deleteWhere fun co hco hr hdel => hb ?_)
      rcases hr with hr | hr
      · exact hr.symm.trans hdel.2
      · exact hr.symm.trans ((hsame co hco).symm.trans hdel.2)
  | insertConnection chID thID hq =>
      obtain ⟨ch, th, -, -, -, -, -, rfl⟩ := insertConnection_ok hq
      exact rowsOf_eq rfl rfl (selectWhere_insert fun h => h.elim hb.symm hb.symm)
  | deleteConnection c t n hq =>
      obtain ⟨ch, th, -, -, -, rfl⟩ := deleteConnection_ok hq
      refine rowsOf_eq rfl rfl (selectWhere_deleteWhere fun co _ hr hdel => ?_)
      rw [hdel] at hr
      exact hr.elim hb.symm hb.symm

/-! ## §4. Sequences of statements. -/

theorem Writes.schema (hs : Writes o d d') (h : d.Schema) : d'.Schema := by
  induction hs with
  | refl => exact h
  | tail _ hstep ih => exact hstep.schema ih

theorem Writes.sameOwner (hs : Writes o d d') (h : d.SameOwner) : d'.SameOwner := by
  induction hs with
  | refl => exact h
  | tail _ hstep ih => exact hstep.sameOwner ih

theorem Writes.frame (hs : Writes o d d') (h : d.SameOwner) {b : String} (hb : b ≠ o) :
    d'.rowsOf b = d.rowsOf b := by
  induction hs with
  | refl => rfl
  | tail hpre hstep ih => exact (hstep.frame (Writes.sameOwner hpre h) hb).trans ih

/-- A transaction of statements on behalf of `o`. -/
theorem writes_transaction {qs : List (DB → Except PqError DB)}
    (hq : ∀ q ∈ qs, ∀ d d', q d = .ok d' → Stmt o d d') (h : transaction qs d = .ok d') :
    Writes o d d' :=
  transaction_rel (R := Writes o) (fun _ => .refl) (fun h1 h2 => h1.trans h2)
    (fun q hmem d d' hqd => .single (hq q hmem d d' hqd)) h

/-! ### Each repository method is a sequence of statements. -/

theorem writes_thingsSave {ths : List Thing} (ho : ∀ th ∈ ths, th.owner = o) :
    Writes o d (ThingRepository.save ths d).1 := by
  unfold ThingRepository.save
  split
  next d' h =>
      refine writes_transaction (fun q hq d d' hqd => ?_) h
      obtain ⟨th, hth, rfl⟩ := List.mem_map.mp hq
      exact .insertThing th (ho th hth) hqd
  next => exact .refl

theorem writes_thingsUpdate {th : Thing} (ho : th.owner = o) :
    Writes o d (ThingRepository.update th d).1 := by
  unfold ThingRepository.update
  split
  next => exact .refl
  next => exact .refl
  next => exact .refl
  next d' n h => exact .single (.updateThing th n ho h)

theorem writes_thingsUpdateKey (id key : String) :
    Writes o d (ThingRepository.updateKey o id key d).1 := by
  unfold ThingRepository.updateKey
  split
  next => exact .refl
  next => exact .refl
  next => exact .refl
  next d' n h => exact .single (.updateThingKey id key n h)

theorem writes_thingsRemove (id : String) : Writes o d (ThingRepository.remove o id d).1 := by
  unfold ThingRepository.remove
  split
  next d' h => exact .single (.deleteThing id h)
  next => exact .refl

theorem writes_channelsSave {chs : List Channel} (ho : ∀ ch ∈ chs, ch.owner = o) :
    Writes o d (ChannelRepository.save chs d).1 := by
  unfold ChannelRepository.save
  split
  next d' h =>
      refine writes_transaction (fun q hq d d' hqd => ?_) h
      obtain ⟨ch, hch, rfl⟩ := List.mem_map.mp hq
      exact .insertChannel ch (ho ch hch) hqd
  next => exact .refl

theorem writes_channelsUpdate {ch : Channel} (ho : ch.owner = o) :
    Writes o d (ChannelRepository.update ch d).1 := by
  unfold ChannelRepository.update
  split
  next => exact .refl
  next => exact .refl
  next => exact .refl
  next d' n h => exact .single (.updateChannel ch n ho h)

theorem writes_channelsRemove (id : String) : Writes o d (ChannelRepository.remove o id d).1 := by
  unfold ChannelRepository.remove
  split
  next d' h => exact .single (.deleteChannel id h)
  next => exact .refl

theorem writes_connect (chIDs thIDs : List String) :
    Writes o d (ChannelRepository.connect o chIDs thIDs d).1 := by
  unfold ChannelRepository.connect
  split
  next d' h =>
      refine writes_transaction (fun q hq d d' hqd => ?_) h
      obtain ⟨chID, -, hq⟩ := List.mem_flatMap.mp hq
      obtain ⟨thID, -, rfl⟩ := List.mem_map.mp hq
      exact .insertConnection chID thID hqd
  next => exact .refl
  next => exact .refl
  next => exact .refl

theorem writes_disconnect (c t : String) :
    Writes o d (ChannelRepository.disconnect o c t d).1 := by
  unfold ChannelRepository.disconnect
  split
  next => exact .refl
  next d' n h => exact .single (.deleteConnection c t n h)

/-! ## §5. Requests and runs. -/

section Runs

variable {E : Env} {w : World}

/-- A request authenticated as `o` only issues statements on behalf of `o`. -/
theorem step_writes {call : Call} {token : String} (ht : call.token = some token)
    (hauth : E.auth w.tick token = some o) : Writes o w.db (step E w call).1.db := by
  cases call with
  | createThings _ ths =>
      cases ht
      obtain ⟨n, -, ⟨e, h⟩ | ⟨l, hl, h⟩⟩ := step_createThings hauth ths
      · rw [h]
      · rw [h]
        exact writes_thingsSave fun th hth => (hl th hth).1
  | updateThing _ th => cases ht; rw [step_updateThing hauth]; exact writes_thingsUpdate rfl
  | updateKey _ id key => cases ht; rw [step_updateKey hauth]; exact writes_thingsUpdateKey id key
  | removeThing _ id => cases ht; rw [step_removeThing hauth]; exact writes_thingsRemove id
  | createChannels _ chs =>
      cases ht
      obtain ⟨n, -, ⟨e, h⟩ | ⟨l, hl, h⟩⟩ := step_createChannels hauth chs
      · rw [h]
      · rw [h]
        exact writes_channelsSave fun ch hch => (hl ch hch).1
  | updateChannel _ ch => cases ht; rw [step_updateChannel hauth]; exact writes_channelsUpdate rfl
  | removeChannel _ id => cases ht; rw [step_removeChannel hauth]; exact writes_channelsRemove id
  | connect _ chIDs thIDs => cases ht; rw [step_connect hauth]; exact writes_connect chIDs thIDs
  | disconnect _ c t => cases ht; rw [step_disconnect hauth]; exact writes_disconnect c t
  | canAccessByKey => cases ht
  | canAccessByID => cases ht
  | identify => cases ht

/-- An access check writes no table. -/
theorem step_access_db {call : Call} (ht : call.token = none) :
    (step E w call).1.db = w.db := by
  cases call with
  | canAccessByKey c key =>
      obtain ⟨t, -, -, heq⟩ | ⟨t, -, heq⟩ | heq := step_canAccessByKey_cases E w c key <;> rw [heq]
  | canAccessByID c t =>
      obtain ⟨-, heq⟩ | ⟨-, heq⟩ | heq := step_canAccessByID_cases E w c t <;> rw [heq]
  | identify key =>
      obtain ⟨t, -, heq⟩ | ⟨t, -, heq⟩ | heq := step_identify_cases E w key <;> rw [heq]
  | _ => cases ht

/-- What any request does to the tables: nothing, or statements on behalf of
the user it is authenticated as. -/
theorem step_db (call : Call) :
    (step E w call).1.db = w.db ∨
      ∃ token o, call.token = some token ∧ E.auth w.tick token = some o ∧
        Writes o w.db (step E w call).1.db := by
  cases ht : call.token with
  | none => exact .inl (step_access_db ht)
  | some token =>
      cases hauth : E.auth w.tick token with
      | none => left; rw [step_unauthorized ht hauth]
      | some o => exact .inr ⟨token, o, rfl, hauth, step_writes ht hauth⟩

theorem step_schema {call : Call} (h : w.db.Schema) : (step E w call).1.db.Schema := by
  rcases step_db (E := E) (w := w) call with hdb | ⟨token, o, -, -, hw⟩
  · rwa [hdb]
  · exact hw.schema h

theorem step_sameOwner {call : Call} (h : w.db.SameOwner) :
    (step E w call).1.db.SameOwner := by
  rcases step_db (E := E) (w := w) call with hdb | ⟨token, o, -, -, hw⟩
  · rwa [hdb]
  · exact hw.sameOwner h

/-- The state after a sequence of requests. -/
abbrev after (E : Env) (w : World) (calls : List Call) : World :=
  run (fun w call => (step E w call).1) w calls

theorem after_schema (calls : List Call) (h : w.db.Schema) : (after E w calls).db.Schema :=
  run_inv (C := fun _ _ => True) (I := fun w => w.db.Schema)
    (fun _ _ hw _ => step_schema hw) h (along_of_forall (fun _ _ => trivial) w calls)

theorem after_sameOwner (calls : List Call) (h : w.db.SameOwner) :
    (after E w calls).db.SameOwner :=
  run_inv (C := fun _ _ => True) (I := fun w => w.db.SameOwner)
    (fun _ _ hw _ => step_sameOwner hw) h (along_of_forall (fun _ _ => trivial) w calls)

theorem schema_empty : DB.empty.Schema := by
  constructor <;> simp [DB.empty]

theorem sameOwner_empty : DB.empty.SameOwner := by
  simp [DB.SameOwner, DB.empty]

/-- Every token is the name of its user; the ids are `000…` to `fff…`, and
then no more. -/
def openEnv : Env :=
  ⟨fun _ token => some token, fun n => if n < 16 then some (UUID.fill n) else none⟩

end Runs

end Mainflux.Things
