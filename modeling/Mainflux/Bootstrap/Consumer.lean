/-
  Mainflux.Bootstrap.Consumer
  ───────────────────────────
  **THE BOOTSTRAP CONSUMER OF THE THINGS STREAM, AND WHAT REACHES IT.**

  `redis/consumer/streams.go` reads each record of `mainflux.things`, decodes
  the four operations it knows and hands them to the service, which passes
  them to the repository.  Records of the other operations are skipped.

  §2 puts the producer and the consumer together: `Faithful` says that one
  request announces no removal that it did not make and that the records it
  emits leave the rows of every other owner alone.  `faithful_iff` gives the
  exact condition, request by request; `removal_not_faithful` is a request
  that breaks it: a user removes a thing he does not own, nothing happens in
  the things tables, and the true owner's config is gone.

  §3 is about one record, a disconnection, and the configs it leaves alone.
-/
import Mainflux.Bootstrap.Repository
import Mainflux.Things.Effects
import Mainflux.Things.Events
import Mainflux.Things.Isolation

namespace Mainflux.Bootstrap

open Mainflux.Lib

open Mainflux.Things (Event Record Call Reply Env World events step emit)

/-! ## §1. Decoding and handling. -/

/-- `read`: the field, or the default. -/
def read (event : Record) (key default : String) : String := (event.lookup key).getD default

/-- `decodeUpdateChannel`: the metadata text is unmarshalled into a map that
is passed by value, which `json.Unmarshal` refuses whatever the text, so the
metadata is always the empty map. -/
def decodeUpdateChannel (event : Record) : Channel :=
  ⟨read event "id" "", read event "name" "", some []⟩

/-- One record: `Subscribe`'s switch over the operation, with the handlers
`RemoveConfigHandler`, `DisconnectThingHandler`, `UpdateChannelHandler` and
`RemoveChannelHandler`. -/
def handle (event : Record) (d : DB) : DB :=
  let operation := read event "operation" ""
  if operation = "thing.remove" then ConfigRepository.removeThing (read event "id" "") d
  else if operation = "thing.disconnect" then
    ConfigRepository.disconnectThing (read event "chan_id" "") (read event "thing_id" "") d
  else if operation = "channel.update" then
    ConfigRepository.updateChannel (decodeUpdateChannel event) d
  else if operation = "channel.remove" then
    ConfigRepository.removeChannel (read event "id" "") d
  else d

/-- A record as the switch of `Subscribe` takes it. -/
inductive Decoded
  | removeThing (id : String)
  | disconnectThing (channelID thingID : String)
  | updateChannel (channel : Channel)
  | removeChannel (id : String)
  -- an operation the consumer does not know
  | skipped
  deriving DecidableEq

/-- The decoder each operation goes to. -/
def decode (event : Record) : Decoded :=
  let operation := read event "operation" ""
  if operation = "thing.remove" then .removeThing (read event "id" "")
  else if operation = "thing.disconnect" then
    .disconnectThing (read event "chan_id" "") (read event "thing_id" "")
  else if operation = "channel.update" then .updateChannel (decodeUpdateChannel event)
  else if operation = "channel.remove" then .removeChannel (read event "id" "")
  else .skipped

/-- What the handlers do with it. -/
def Decoded.apply : Decoded → DB → DB
  | .removeThing id => ConfigRepository.removeThing id
  | .disconnectThing channelID thingID => ConfigRepository.disconnectThing channelID thingID
  | .updateChannel channel => ConfigRepository.updateChannel channel
  | .removeChannel id => ConfigRepository.removeChannel id
  | .skipped => fun d => d

/-- Handling is decoding, then the handler. -/
theorem handle_eq_apply (event : Record) (d : DB) : handle event d = (decode event).apply d := by
  unfold handle decode
  simp only [apply_ite Decoded.apply, ite_apply]
  rfl

/-- The records, in stream order. -/
def consume (records : List Record) (d : DB) : DB := records.foldl (fun d r => handle r d) d

section Decode

variable (marshal : JsonObject → String) (d : DB)

theorem handle_removeThing (id : String) :
    handle ((Event.removeThing id).encode marshal) d = ConfigRepository.removeThing id d := rfl

theorem handle_removeChannel (id : String) :
    handle ((Event.removeChannel id).encode marshal) d = ConfigRepository.removeChannel id d := rfl

theorem handle_disconnectThing (c t : String) :
    handle ((Event.disconnectThing c t).encode marshal) d
      = ConfigRepository.disconnectThing c t d := rfl

/-- A channel update is decoded with its id and name, and without its
metadata. -/
theorem decodeUpdateChannel_encode (id name : String) (metadata : Things.Metadata) :
    decodeUpdateChannel ((Event.updateChannel id name metadata).encode marshal)
      = ⟨id, name, some []⟩ := by
  have hname : read ((Event.updateChannel id name metadata).encode marshal) "name" "" = name := by
    by_cases h : name = ""
    · cases metadata <;> simp [Event.encode, Things.nameField, Things.metadataField, h, read,
        List.lookup_cons]
    · simp [Event.encode, Things.nameField, h, read, List.lookup_cons]
  rw [decodeUpdateChannel, hname]
  rfl

theorem handle_updateChannel (id name : String) (metadata : Things.Metadata) :
    handle ((Event.updateChannel id name metadata).encode marshal) d
      = ConfigRepository.updateChannel ⟨id, name, some []⟩ d := by
  rw [← decodeUpdateChannel_encode marshal id name metadata]
  rfl

/-- The operations the consumer does not know. -/
def Skipped : Event → Prop
  | .createThing _ _ _ _ => True
  | .updateThing _ _ _ => True
  | .createChannel _ _ _ _ => True
  | .connectThing _ _ => True
  | _ => False

theorem handle_skipped {ev : Event} (h : Skipped ev) : handle (ev.encode marshal) d = d := by
  cases ev with
  | createThing => rfl
  | updateThing => rfl
  | createChannel => rfl
  | connectThing => rfl
  | _ => exact h.elim

theorem consume_skipped {evs : List Event} (h : ∀ ev ∈ evs, Skipped ev) (d : DB) :
    consume (evs.map (Event.encode marshal)) d = d := by
  induction evs with
  | nil => rfl
  | cons ev evs ih =>
      simp only [consume, List.map_cons, List.foldl_cons,
        handle_skipped marshal d (h ev List.mem_cons_self)]
      exact ih fun e he => h e (List.mem_cons_of_mem _ he)

end Decode

/-! ## §2. Producer and consumer together. -/

/-- One request of user `a` against the things world `w` announces only the
removals it has made, and its records leave the bootstrap rows of every other
owner alone. -/
structure Faithful (marshal : JsonObject → String) (E : Env) (w : World) (d : DB) (call : Call)
    (a : String) : Prop where
  things : ∀ id, Event.removeThing id ∈ events E w call →
    ∃ th ∈ w.db.things, uuidIn id = some th.id ∧ th ∉ (step E w call).1.db.things
  channels : ∀ id, Event.removeChannel id ∈ events E w call →
    ∃ ch ∈ w.db.channels, uuidIn id = some ch.id ∧ ch ∉ (step E w call).1.db.channels
  others : SparesOthers a d (consume ((events E w call).map (Event.encode marshal)) d)

/-- When a request of user `a` is faithful.

* `RemoveThing`: `a` owns the thing; the config with this id, if any, and the
  channels it is connected to are `a`'s; and no channel of another owner is
  left without a connection.
* `RemoveChannel`: `a` owns the channel; the channel row with this id, if any,
  and the configs connected to it are `a`'s.
* `Disconnect`: `a` has not connected the pair, or it is not connected in the
  bootstrap tables, or the configs of all other owners are inactive anyway.
* `UpdateChannel`: `a` has no channel of this id or the name does not fit, or a
  channel row of another owner with this id has the new name and empty metadata
  already. -/
def FaithfulWhen (t : Things.DB) (d : DB) (a : String) : Call → Prop
  | .removeThing _ id =>
      (∃ th ∈ t.things, uuidIn id = some th.id ∧ th.owner = a) ∧
      (∀ cfg ∈ d.configs, cfg.mfThing = id → cfg.owner = a) ∧
      (∀ co ∈ d.connections, co.configID = id → co.channelOwner = a) ∧
      ∀ ch ∈ d.channels, ch.owner ≠ a →
        ∃ co ∈ d.connections, co.channelID = ch.mfChannel ∧ co.configID ≠ id
  | .removeChannel _ id =>
      (∃ ch ∈ t.channels, uuidIn id = some ch.id ∧ ch.owner = a) ∧
      (∀ ch ∈ d.channels, ch.mfChannel = id → ch.owner = a) ∧
      ∀ co ∈ d.connections, co.channelID = id → co.configOwner = a
  | .disconnect _ chanID thingID =>
      (∃ co ∈ t.connections, uuidIn chanID = some co.channelID ∧ uuidIn thingID = some co.thingID ∧
        co.channelOwner = a ∧ co.thingOwner = a) →
      (∃ co ∈ d.connections, co.configID = thingID ∧ co.channelID = chanID) →
      ∀ cfg ∈ d.configs, cfg.owner ≠ a → cfg.state = .inactive
  | .updateChannel _ channel =>
      (fitsVarchar 1024 channel.name ∧
        ∃ ch ∈ t.channels, uuidIn channel.id = some ch.id ∧ ch.owner = a) →
      ∀ ch ∈ d.channels, ch.mfChannel = channel.id → ch.owner ≠ a →
        ch.name = nullString channel.name ∧ ch.metadata = some []
  | _ => True

section Faithfulness

variable {marshal : JsonObject → String} {E : Env} {w : World} {d : DB} {token a : String}

/-- A request whose records are all skipped is faithful. -/
theorem faithful_of_skipped {call : Call} (h : ∀ ev ∈ events E w call, Skipped ev) :
    Faithful marshal E w d call a where
  things := fun _ hid => (h _ hid).elim
  channels := fun _ hid => (h _ hid).elim
  others := by
    rw [consume_skipped marshal h]
    exact SparesOthers.refl

theorem faithful_of_no_events {call : Call} (h : events E w call = []) :
    Faithful marshal E w d call a :=
  faithful_of_skipped (by rw [h]; simp)

/-- The things row with this id that `a` owns is the one `RemoveThing` deletes. -/
theorem removed_thing_iff (hauth : E.auth w.tick token = some a) (id : String) :
    (∃ th ∈ w.db.things, uuidIn id = some th.id ∧
        th ∉ (step E w (.removeThing token id)).1.db.things) ↔
      ∃ th ∈ w.db.things, uuidIn id = some th.id ∧ th.owner = a := by
  rw [Things.step_removeThing hauth]
  refine exists_congr fun th => and_congr_right fun hth => and_congr_right fun hid => ?_
  simp only [Things.mem_things_thingsRemove, hth, hid, true_and, not_not]

theorem removed_channel_iff (hauth : E.auth w.tick token = some a) (id : String) :
    (∃ ch ∈ w.db.channels, uuidIn id = some ch.id ∧
        ch ∉ (step E w (.removeChannel token id)).1.db.channels) ↔
      ∃ ch ∈ w.db.channels, uuidIn id = some ch.id ∧ ch.owner = a := by
  rw [Things.step_removeChannel hauth]
  refine exists_congr fun ch => and_congr_right fun hch => and_congr_right fun hid => ?_
  simp only [Things.mem_channels_channelsRemove, hch, hid, true_and, not_not]

theorem faithful_removeThing_iff (hs : d.Schema) (hauth : E.auth w.tick token = some a)
    (id : String) :
    Faithful marshal E w d (.removeThing token id) a ↔
      FaithfulWhen w.db d a (.removeThing token id) := by
  have hev := Things.events_removeThing hauth id
  have hcons : consume ((events E w (.removeThing token id)).map (Event.encode marshal)) d
      = ConfigRepository.removeThing id d := by
    rw [hev]
    exact handle_removeThing marshal d id
  constructor
  · intro h
    have hothers := h.others
    rw [hcons] at hothers
    exact ⟨(removed_thing_iff hauth id).mp (h.things id (by simp [hev])),
      (sparesOthers_removeThing hs id).mp hothers⟩
  · rintro ⟨hthing, hrows⟩
    constructor
    · intro id' hid'
      rw [hev, List.mem_singleton] at hid'
      cases hid'
      exact (removed_thing_iff hauth id).mpr hthing
    · intro id' hid'
      rw [hev, List.mem_singleton] at hid'
      cases hid'
    · rw [hcons]
      exact (sparesOthers_removeThing hs id).mpr hrows

theorem faithful_removeChannel_iff (hs : d.Schema) (hauth : E.auth w.tick token = some a)
    (id : String) :
    Faithful marshal E w d (.removeChannel token id) a ↔
      FaithfulWhen w.db d a (.removeChannel token id) := by
  have hev := Things.events_removeChannel hauth id
  have hcons : consume ((events E w (.removeChannel token id)).map (Event.encode marshal)) d
      = ConfigRepository.removeChannel id d := by
    rw [hev]
    exact handle_removeChannel marshal d id
  constructor
  · intro h
    have hothers := h.others
    rw [hcons] at hothers
    exact ⟨(removed_channel_iff hauth id).mp (h.channels id (by simp [hev])),
      (sparesOthers_removeChannel hs id).mp hothers⟩
  · rintro ⟨hchannel, hrows⟩
    constructor
    · intro id' hid'
      rw [hev, List.mem_singleton] at hid'
      cases hid'
    · intro id' hid'
      rw [hev, List.mem_singleton] at hid'
      cases hid'
      exact (removed_channel_iff hauth id).mpr hchannel
    · rw [hcons]
      exact (sparesOthers_removeChannel hs id).mpr hrows

/-- Of a request that announces no removal, only the effect on the others
matters. -/
theorem faithful_iff_others {call : Call} {ev : Event}
    (hev : events E w call = [ev]) (h1 : ∀ id, ev ≠ .removeThing id)
    (h2 : ∀ id, ev ≠ .removeChannel id) :
    Faithful marshal E w d call a ↔ SparesOthers a d (handle (ev.encode marshal) d) := by
  constructor
  · intro h
    have hothers := h.others
    rw [hev] at hothers
    exact hothers
  · intro hrows
    constructor
    · intro id hid
      rw [hev, List.mem_singleton] at hid
      exact absurd hid.symm (h1 id)
    · intro id hid
      rw [hev, List.mem_singleton] at hid
      exact absurd hid.symm (h2 id)
    · rw [hev]
      exact hrows

theorem faithful_disconnect_iff (hauth : E.auth w.tick token = some a) (c t : String) :
    Faithful marshal E w d (.disconnect token c t) a ↔
      FaithfulWhen w.db d a (.disconnect token c t) := by
  have hev := Things.events_disconnect hauth c t
  by_cases hok : (Things.ChannelRepository.disconnect a c t w.db).2 = .ok ()
  · rw [if_pos hok] at hev
    rw [faithful_iff_others hev (fun _ h => nomatch h) (fun _ h => nomatch h),
      handle_disconnectThing, sparesOthers_disconnectThing]
    exact ⟨fun h _ => h, fun h => h (Things.disconnect_ok_iff.mp hok)⟩
  · rw [if_neg hok] at hev
    exact ⟨fun _ h => absurd (Things.disconnect_ok_iff.mpr h) hok,
      fun _ => faithful_of_no_events hev⟩

theorem faithful_updateChannel_iff (hauth : E.auth w.tick token = some a)
    (channel : Things.Channel) :
    Faithful marshal E w d (.updateChannel token channel) a ↔
      FaithfulWhen w.db d a (.updateChannel token channel) := by
  have hev := Things.events_updateChannel hauth channel
  by_cases hok : (Things.ChannelRepository.update { channel with owner := a } w.db).2 = .ok ()
  · rw [if_pos hok] at hev
    rw [faithful_iff_others hev (fun _ h => nomatch h) (fun _ h => nomatch h),
      handle_updateChannel, sparesOthers_updateChannel]
    exact ⟨fun h _ => h, fun h => h (Things.update_ok_iff.mp hok)⟩
  · rw [if_neg hok] at hev
    exact ⟨fun _ h => absurd (Things.update_ok_iff.mpr h) hok, fun _ => faithful_of_no_events hev⟩

/-- The request has no effect that the consumer would hear of. -/
def Unheard : Call → Prop
  | .removeThing _ _ => False
  | .removeChannel _ _ => False
  | .disconnect _ _ _ => False
  | .updateChannel _ _ => False
  | _ => True

theorem events_skipped {call : Call} (h : Unheard call) : ∀ ev ∈ events E w call, Skipped ev := by
  intro ev hev
  change ev ∈ emit call (step E w call).2 at hev
  unfold emit at hev
  split at hev
  next => obtain ⟨th, -, rfl⟩ := List.mem_map.mp hev; trivial
  next => rw [List.mem_singleton.mp hev]; trivial
  next => cases hev
  next => exact h.elim
  next => obtain ⟨ch, -, rfl⟩ := List.mem_map.mp hev; trivial
  next => exact h.elim
  next => exact h.elim
  next =>
      obtain ⟨c, -, hc⟩ := List.mem_flatMap.mp hev
      obtain ⟨t, -, rfl⟩ := List.mem_map.mp hc
      trivial
  next => exact h.elim
  next => cases hev

/-- **Exactly when the stream events of a request are faithful.** -/
theorem faithful_iff (marshal : JsonObject → String) (E : Env) (w : World) (d : DB)
    (hs : d.Schema) (call : Call) (token a : String) (ht : call.token = some token)
    (hauth : E.auth w.tick token = some a) :
    Faithful marshal E w d call a ↔ FaithfulWhen w.db d a call := by
  cases call with
  | removeThing _ id => cases ht; exact faithful_removeThing_iff hs hauth id
  | removeChannel _ id => cases ht; exact faithful_removeChannel_iff hs hauth id
  | disconnect _ c t => cases ht; exact faithful_disconnect_iff hauth c t
  | updateChannel _ ch => cases ht; exact faithful_updateChannel_iff hauth ch
  | canAccessByKey => cases ht
  | canAccessByID => cases ht
  | identify => cases ht
  | createThings => exact ⟨fun _ => trivial, fun _ => faithful_of_skipped (events_skipped trivial)⟩
  | updateThing => exact ⟨fun _ => trivial, fun _ => faithful_of_skipped (events_skipped trivial)⟩
  | updateKey => exact ⟨fun _ => trivial, fun _ => faithful_of_skipped (events_skipped trivial)⟩
  | createChannels => exact ⟨fun _ => trivial, fun _ => faithful_of_skipped (events_skipped trivial)⟩
  | connect => exact ⟨fun _ => trivial, fun _ => faithful_of_skipped (events_skipped trivial)⟩

/-! ### Two requests. -/

/-- Bob's sensor and its config, and nothing else. -/
def sensor : String := uuidOut (UUID.fill 5)

def sensorWorld : World := ⟨⟨[⟨UUID.fill 5, "bob", "sensor", "k5", []⟩], [], []⟩, Redis.empty, 0⟩

def sensorConfig : DB :=
  ⟨[⟨sensor, "bob", none, none, none, none, "k5", "ext", "secret", none, .active⟩], [], []⟩

theorem schema_sensorConfig : sensorConfig.Schema := by
  constructor <;> simp [sensorConfig]

/-- Bob removes his own sensor: the removal is announced, and only he loses
rows. -/
theorem faithful_iff_bob :
    Faithful (fun _ => "") Things.openEnv sensorWorld sensorConfig (.removeThing "bob" sensor)
      "bob" := by
  refine (faithful_iff (fun _ => "") Things.openEnv sensorWorld sensorConfig schema_sensorConfig
    (.removeThing "bob" sensor) "bob" "bob" rfl rfl).mpr ?_
  refine ⟨?_, by decide +kernel, by decide +kernel, by decide +kernel⟩
  exact ⟨_, List.mem_singleton_self _, uuidIn_uuidOut _, rfl⟩

/-- **The removal of a thing that the caller does not own is announced** though
nothing was removed, and costs its owner the config. -/
theorem removal_not_faithful :
    ¬ ∀ (marshal : JsonObject → String) (E : Env) (w : World) (d : DB), d.Schema →
      ∀ (call : Call) (token a : String), call.token = some token →
        E.auth w.tick token = some a → Faithful marshal E w d call a := by
  intro h
  have hfaithful := h (fun _ => "") Things.openEnv sensorWorld sensorConfig schema_sensorConfig
    (.removeThing "mallory" sensor) "mallory" "mallory" rfl rfl
  have hannounced : Event.removeThing sensor ∈
      events Things.openEnv sensorWorld (.removeThing "mallory" sensor) := by decide +kernel
  have hremoved := hfaithful.things sensor hannounced
  have hbob := hfaithful.others "bob" (by decide)
  revert hremoved hbob
  decide +kernel

end Faithfulness

/-! ## §3. The frame of a disconnect event. -/

/-- The configs for thing `t`. -/
abbrev ConfigRow.ForThing (t : String) (cfg : ConfigRow) : Prop := cfg.mfThing = t

/-- The tables hold a connection row `(t, c)`. -/
abbrev DB.HasConnection (d : DB) (c t : String) : Prop :=
  ∃ co ∈ d.connections, co.configID = t ∧ co.channelID = c

/-- A `thing.disconnect(c, t)` concerns config `t` alone, and sets it inactive
exactly when the connection row is there. -/
structure DisconnectFrame (c t : String) (d d' : DB) : Prop where
  others : selectWhere (fun cfg => ¬ cfg.ForThing t) d'.configs
    = selectWhere (fun cfg => ¬ cfg.ForThing t) d.configs
  config : selectWhere (ConfigRow.ForThing t) d'.configs
    = (selectWhere (ConfigRow.ForThing t) d.configs).map fun cfg =>
        if d.HasConnection c t then { cfg with state := .inactive } else cfg
  channels : d'.channels = d.channels
  connections : d'.connections = d.connections

theorem configs_disconnectThing (c t : String) (d : DB) :
    (ConfigRepository.disconnectThing c t d).configs
      = d.configs.map fun cfg =>
          if d.HasConnection c t then { cfg with state := .inactive } else cfg := rfl

/-- An update that keeps the thing id commutes with a selection by it. -/
theorem selectWhere_map_thing {p : String → Prop} [DecidablePred p] {f : ConfigRow → ConfigRow}
    (hf : ∀ cfg, (f cfg).mfThing = cfg.mfThing) (l : List ConfigRow) :
    selectWhere (fun cfg => p cfg.mfThing) (l.map f)
      = (selectWhere (fun cfg => p cfg.mfThing) l).map f := by
  unfold selectWhere
  rw [List.filter_map]
  congr 1
  refine List.filter_congr fun cfg _ => ?_
  show decide (p (f cfg).mfThing) = decide (p cfg.mfThing)
  rw [hf]

/-- **Exactly when a disconnect event keeps to its config**: the row is not
there, or all other configs are inactive anyway. -/
theorem disconnect_frame_iff (marshal : JsonObject → String) (d : DB) (c t : String) :
    DisconnectFrame c t d (handle ((Event.disconnectThing c t).encode marshal) d) ↔
      (d.HasConnection c t → ∀ cfg ∈ d.configs, cfg.mfThing ≠ t → cfg.state = .inactive) := by
  rw [handle_disconnectThing]
  have hthing : ∀ cfg : ConfigRow,
      (if d.HasConnection c t then { cfg with state := .inactive } else cfg).mfThing
        = cfg.mfThing := by
    intro cfg
    split <;> rfl
  constructor
  · intro h hrow cfg hcfg hne
    have hmem : cfg ∈ selectWhere (fun cfg => ¬ cfg.ForThing t)
        (ConfigRepository.disconnectThing c t d).configs := by
      rw [h.others]
      exact mem_selectWhere.mpr ⟨hcfg, hne⟩
    rw [configs_disconnectThing] at hmem
    obtain ⟨old, -, rfl⟩ := List.mem_map.mp (mem_selectWhere.mp hmem).1
    rw [if_pos hrow]
  · intro hquiet
    refine ⟨?_, ?_, rfl, rfl⟩
    · rw [configs_disconnectThing, selectWhere_map_thing (p := fun x => ¬ x = t) hthing]
      -- every selected config is inactive already, or nothing is updated
      refine (List.map_congr_left fun cfg hcfg => ?_).trans (List.map_id _)
      obtain ⟨hcfg, hne⟩ := mem_selectWhere.mp hcfg
      by_cases hrow : d.HasConnection c t
      · rw [if_pos hrow, ← hquiet hrow cfg hcfg hne]
        rfl
      · rw [if_neg hrow]
        rfl
    · rw [configs_disconnectThing]
      exact selectWhere_map_thing (p := fun x => x = t) hthing d.configs

/-- Bob's sensor is connected to his hall and active; Carol's valve is active
too. -/
def sensorAndValve : DB :=
  ⟨[⟨"sensor", "bob", none, none, none, none, "k5", "ext", "secret", none, .active⟩,
      ⟨"valve", "carol", none, none, none, none, "k6", "ext2", "secret2", none, .active⟩],
    [⟨"hall", "bob", none, none⟩], [⟨"hall", "bob", "sensor", "bob"⟩]⟩

/-- **The disconnection of one thing sets the configs of all others inactive.** -/
theorem disconnect_not_framed :
    ¬ ∀ (marshal : JsonObject → String) (d : DB) (c t : String),
      DisconnectFrame c t d (handle ((Event.disconnectThing c t).encode marshal) d) := by
  intro h
  have hothers := (h (fun _ => "") sensorAndValve "hall" "sensor").others
  revert hothers
  decide +kernel

end Mainflux.Bootstrap
