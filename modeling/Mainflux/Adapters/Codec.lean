/-
  Mainflux.Adapters.Codec
  ───────────────────────
  **ONE ENCODER, THREE DECODERS.**

  `things/redis/events.go` writes an event as a field map; the bootstrap
  service, the LoRa adapter and the OPC-UA adapter each decode it on their own.
  `Keeps` says, consumer by consumer, what a decoded record must hold of the
  event it was made from: its ids, and of the metadata either all of it
  (bootstrap) or the text that the adapter looks for in it (`Holds`).

    • `roundTrip_iff` — decoding what was encoded keeps the event, for every
      event and consumer, EXCEPT that the bootstrap consumer loses the metadata
      of a channel update unless it is empty;
    • `channelUpdate_not_roundTrip` — one such update.
-/
import Mainflux.Adapters.Lora
import Mainflux.Adapters.Opcua
import Mainflux.Bootstrap.Consumer

namespace Mainflux.Adapters

open Mainflux.Lib

open Mainflux.Things (Event Record Metadata)

/-! ## §1. What a consumer keeps of an event. -/

/-- The consumers of the stream `mainflux.things`. -/
inductive Consumer
  | bootstrap
  | lora
  | opcua

/-- The metadata holds the text `v` under the protocol's field. -/
def Holds (metadata : Metadata) (protocol field v : String) : Prop :=
  ∃ fields, (protocol, Json.obj fields) ∈ metadata.getD [] ∧ (field, Json.str v) ∈ fields

/-- The bootstrap service: ids, and a channel's name and metadata, where nil and
empty metadata count as one. -/
def BootstrapKeeps (ev : Event) (d : Bootstrap.Decoded) : Prop :=
  match ev with
  | .removeThing id => d = .removeThing id
  | .disconnectThing chanID thingID => d = .disconnectThing chanID thingID
  | .updateChannel id name metadata =>
      ∃ m, d = .updateChannel ⟨id, name, m⟩ ∧ m.getD [] = metadata.getD []
  | .removeChannel id => d = .removeChannel id
  | _ => d = .skipped

/-- The LoRa adapter: ids, the device of a thing, the application of a channel. -/
def LoraKeeps (ev : Event) (d : Lora.Decoded) : Prop :=
  match ev with
  | .createThing id _ _ metadata =>
      ∃ v, Holds metadata "lora" "devEUI" v ∧ d = .createThing ⟨id, v⟩
  | .updateThing id _ metadata =>
      ∃ v, Holds metadata "lora" "devEUI" v ∧ d = .createThing ⟨id, v⟩
  | .removeThing id => d = .removeThing id
  | .createChannel id _ _ metadata =>
      ∃ v, Holds metadata "lora" "appID" v ∧ d = .createChannel ⟨id, v⟩
  | .updateChannel id _ metadata =>
      ∃ v, Holds metadata "lora" "appID" v ∧ d = .createChannel ⟨id, v⟩
  | .removeChannel id => d = .removeChannel id
  | _ => d = .skipped

/-- The OPC-UA adapter: ids, the node of a thing, the server of a channel, where
an empty text counts as none. -/
def OpcuaKeeps (ev : Event) (d : Opcua.Decoded) : Prop :=
  match ev with
  | .createThing id _ _ metadata =>
      ∃ v, (Holds metadata "opcua" "nodeID" v ∧ v ≠ "") ∧ d = .createThing ⟨id, v⟩
  | .updateThing id _ metadata =>
      ∃ v, (Holds metadata "opcua" "nodeID" v ∧ v ≠ "") ∧ d = .createThing ⟨id, v⟩
  | .removeThing id => d = .removeThing id
  | .createChannel id _ _ metadata =>
      ∃ v, (Holds metadata "opcua" "serverURI" v ∧ v ≠ "") ∧ d = .createChannel ⟨id, v⟩
  | .updateChannel id _ metadata =>
      ∃ v, (Holds metadata "opcua" "serverURI" v ∧ v ≠ "") ∧ d = .createChannel ⟨id, v⟩
  | .removeChannel id => d = .removeChannel id
  | .connectThing chanID thingID => d = .connectThing ⟨chanID, thingID⟩
  | .disconnectThing chanID thingID => d = .disconnectThing ⟨chanID, thingID⟩

/-- Decoding what was encoded gives what the consumer is to keep of the event,
and an error only when there is nothing of that kind in it. -/
def RoundTrip (ev : Event) : Consumer → Prop
  | .bootstrap => BootstrapKeeps ev (Bootstrap.decode (ev.encode Json.marshal))
  | .lora => ∀ d, Lora.decode (ev.encode Json.marshal) = .ok d ↔ LoraKeeps ev d
  | .opcua => ∀ d, Opcua.decode (ev.encode Json.marshal) = .ok d ↔ OpcuaKeeps ev d

/-- The metadata of an event. -/
def eventMetadata : Event → Metadata
  | .createThing _ _ _ metadata => metadata
  | .updateThing _ _ metadata => metadata
  | .createChannel _ _ _ metadata => metadata
  | .updateChannel _ _ metadata => metadata
  | _ => none

/-- The metadata is a value of Go: maps with each key once, number literals. -/
def ValueMetadata (metadata : Metadata) : Prop := Json.IsValue (.obj (metadata.getD []))

/-! ## §2. Fields. -/

theorem textField_eq_ok {fields : JsonObject} (h : Json.IsValue (.obj fields)) {field v : String} :
    textField field fields = .ok v ↔ (field, Json.str v) ∈ fields := by
  rw [Json.IsValue] at h
  rw [← Json.lookup_eq_some_iff h.1, textField]
  split
  next s hs => simp [hs]
  next hs =>
      simp only [reduceCtorEq, false_iff]
      exact fun heq => hs v heq

/-- What the adapters look up is what the metadata holds. -/
theorem textField_ok_iff {metadata : Metadata} (h : ValueMetadata metadata)
    (protocol field v : String) :
    (protocolFields protocol (metadata.getD []) >>= textField field) = .ok v ↔
      Holds metadata protocol field v := by
  rw [ValueMetadata, Json.IsValue] at h
  unfold protocolFields Holds
  -- the protocol's entry is missing, is an object, or is something else
  split
  next hnone =>
      simp only [bind, Except.bind, reduceCtorEq, false_iff]
      rintro ⟨fields, hin, -⟩
      rw [(Json.lookup_eq_some_iff h.1).mpr hin] at hnone
      cases hnone
  next fields hsome =>
      have hin := (Json.lookup_eq_some_iff h.1).mp hsome
      show textField field fields = .ok v ↔ _
      rw [textField_eq_ok (Json.isValue_of_mem h.2 hin)]
      constructor
      · intro hv
        exact ⟨fields, hin, hv⟩
      · rintro ⟨fields', hin', hv⟩
        have heq := ((Json.lookup_eq_some_iff h.1).mpr hin').symm.trans hsome
        cases heq
        exact hv
  next other hsome hother =>
      simp only [bind, Except.bind, reduceCtorEq, false_iff]
      rintro ⟨fields, hin, -⟩
      rw [(Json.lookup_eq_some_iff h.1).mpr hin] at hother
      exact hsome fields (Option.some.inj hother).symm

/-! ## §3. Decoding what was encoded. -/

theorem lookup_nameField {key name : String} (h : key ≠ "name") :
    (Things.nameField name).lookup key = none := by
  unfold Things.nameField
  split
  · rfl
  · simp [List.lookup_cons, beq_false_of_ne h]

/-- A record with a metadata field at its end, if any. -/
theorem readMetadata_append (event : Record) (hevent : event.lookup "metadata" = none)
    (name : String) {metadata : Metadata} (h : ValueMetadata metadata) :
    readMetadata (event ++ Things.nameField name ++ Things.metadataField Json.marshal metadata)
      = .ok (metadata.getD []) := by
  have hname : (Things.nameField name).lookup "metadata" = none :=
    lookup_nameField (by decide)
  have hread : read (event ++ Things.nameField name ++
      Things.metadataField Json.marshal metadata) "metadata" "\x7b\x7d"
      = Json.marshal (metadata.getD []) := by
    rw [read, List.lookup_append, List.lookup_append, hevent, hname]
    cases metadata with
    | none => rfl
    | some m => rfl
  rw [readMetadata, hread, Json.unmarshal_marshal h]
  rfl

theorem map_ok_iff {α β : Type} {x : Except Err α} {f : α → β} {b : β} :
    x.map f = .ok b ↔ ∃ a, x = .ok a ∧ b = f a := by
  cases x with
  | error e => simp [Except.map]
  | ok a => simp [Except.map, eq_comm]

theorem nonEmptyField_ok_iff {field v : String} {fields : JsonObject} :
    Opcua.nonEmptyField field fields = .ok v ↔ textField field fields = .ok v ∧ v ≠ "" := by
  unfold Opcua.nonEmptyField
  cases textField field fields with
  | error e => simp [bind, Except.bind]
  | ok w =>
      by_cases hw : w = ""
      · subst hw
        simp [bind, Except.bind, throw, throwThe, MonadExceptOf.throw]
      · simp only [bind, Except.bind, pure, Except.pure, hw, if_false, Except.ok.injEq,
          iff_self_and]
        intro heq
        rwa [← heq]

/-- A decoder as a chain: the metadata, the protocol's object, its text. -/
theorem chain_map {α β : Type} (event : Record) (protocol : String)
    (field : JsonObject → Except Err String) (make : String → α) (tag : α → β) :
    (do
      let metadata ← readMetadata event
      let fields ← protocolFields protocol metadata
      let val ← field fields
      return make val : Except Err α).map tag
      = ((readMetadata event >>= protocolFields protocol) >>= field).map fun v => tag (make v) := by
  cases readMetadata event with
  | error e => rfl
  | ok metadata =>
      show (protocolFields protocol metadata >>= _ : Except Err α).map tag
        = (protocolFields protocol metadata >>= field).map _
      cases protocolFields protocol metadata with
      | error e => rfl
      | ok fields =>
          show (field fields >>= _ : Except Err α).map tag = (field fields).map _
          cases field fields with
          | error e => rfl
          | ok v => rfl

section Decoders

variable {event : Record} {metadata : Metadata}
  (hmeta : readMetadata event = .ok (metadata.getD [])) (h : ValueMetadata metadata)
include hmeta h

/-- One text of the metadata, as LoRa reads it. -/
theorem lora_text_iff {α : Type} (field : String) (make : String → α) (a : α) :
    ((readMetadata event >>= protocolFields "lora") >>= textField field).map make = .ok a ↔
      ∃ v, Holds metadata "lora" field v ∧ a = make v := by
  rw [hmeta, map_ok_iff]
  exact exists_congr fun v => and_congr_left fun _ => textField_ok_iff h "lora" field v

theorem lora_thing_iff (d : Lora.Decoded) :
    (Lora.decodeCreateThing event).map .createThing = .ok d ↔
      ∃ v, Holds metadata "lora" "devEUI" v ∧ d = .createThing ⟨read event "id" "", v⟩ := by
  rw [Lora.decodeCreateThing, chain_map]
  exact lora_text_iff hmeta h "devEUI" _ d

theorem lora_channel_iff (d : Lora.Decoded) :
    (Lora.decodeCreateChannel event).map .createChannel = .ok d ↔
      ∃ v, Holds metadata "lora" "appID" v ∧ d = .createChannel ⟨read event "id" "", v⟩ := by
  rw [Lora.decodeCreateChannel, chain_map]
  exact lora_text_iff hmeta h "appID" _ d

/-- One text of the metadata, as OPC-UA reads it: it must not be empty. -/
theorem opcua_text_iff {α : Type} (field : String) (make : String → α) (a : α) :
    ((readMetadata event >>= protocolFields "opcua") >>= Opcua.nonEmptyField field).map make
        = .ok a ↔
      ∃ v, (Holds metadata "opcua" field v ∧ v ≠ "") ∧ a = make v := by
  rw [hmeta, map_ok_iff]
  refine exists_congr fun v => and_congr_left fun _ => ?_
  rw [← textField_ok_iff h "opcua" field v]
  show (protocolFields "opcua" (metadata.getD []) >>= Opcua.nonEmptyField field) = .ok v ↔ _
  cases protocolFields "opcua" (metadata.getD []) with
  | error e => simp [bind, Except.bind]
  | ok fields => exact nonEmptyField_ok_iff

theorem opcua_thing_iff (d : Opcua.Decoded) :
    (Opcua.decodeCreateThing event).map .createThing = .ok d ↔
      ∃ v, (Holds metadata "opcua" "nodeID" v ∧ v ≠ "") ∧
        d = .createThing ⟨read event "id" "", v⟩ := by
  rw [Opcua.decodeCreateThing, chain_map]
  exact opcua_text_iff hmeta h "nodeID" _ d

theorem opcua_channel_iff (d : Opcua.Decoded) :
    (Opcua.decodeCreateChannel event).map .createChannel = .ok d ↔
      ∃ v, (Holds metadata "opcua" "serverURI" v ∧ v ≠ "") ∧
        d = .createChannel ⟨read event "id" "", v⟩ := by
  rw [Opcua.decodeCreateChannel, chain_map]
  exact opcua_text_iff hmeta h "serverURI" _ d

end Decoders

/-! ## §4. The round trip. -/

theorem roundTrip_lora {ev : Event} (h : ValueMetadata (eventMetadata ev)) :
    RoundTrip ev .lora := by
  intro d
  have hfixed : ∀ x : Lora.Decoded, (Except.ok x : Except Err Lora.Decoded) = .ok d ↔ d = x := by
    intro x
    rw [Except.ok.injEq, eq_comm]
  cases ev with
  | createThing id owner name metadata =>
      exact lora_thing_iff (readMetadata_append
        [("id", id), ("owner", owner), ("operation", Things.thingPrefix ++ "create")] rfl name h) h d
  | updateThing id name metadata =>
      exact lora_thing_iff (readMetadata_append
        [("id", id), ("operation", Things.thingPrefix ++ "update")] rfl name h) h d
  | removeThing id => exact hfixed (.removeThing id)
  | createChannel id owner name metadata =>
      exact lora_channel_iff (readMetadata_append
        [("id", id), ("owner", owner), ("operation", Things.channelPrefix ++ "create")] rfl name h)
        h d
  | updateChannel id name metadata =>
      exact lora_channel_iff (readMetadata_append
        [("id", id), ("operation", Things.channelPrefix ++ "update")] rfl name h) h d
  | removeChannel id => exact hfixed (.removeChannel id)
  | connectThing chanID thingID => exact hfixed .skipped
  | disconnectThing chanID thingID => exact hfixed .skipped

theorem roundTrip_opcua {ev : Event} (h : ValueMetadata (eventMetadata ev)) :
    RoundTrip ev .opcua := by
  intro d
  have hfixed : ∀ x : Opcua.Decoded,
      (Except.ok x : Except Err Opcua.Decoded) = .ok d ↔ d = x := by
    intro x
    rw [Except.ok.injEq, eq_comm]
  cases ev with
  | createThing id owner name metadata =>
      exact opcua_thing_iff (readMetadata_append
        [("id", id), ("owner", owner), ("operation", Things.thingPrefix ++ "create")] rfl name h) h d
  | updateThing id name metadata =>
      exact opcua_thing_iff (readMetadata_append
        [("id", id), ("operation", Things.thingPrefix ++ "update")] rfl name h) h d
  | removeThing id => exact hfixed (.removeThing id)
  | createChannel id owner name metadata =>
      exact opcua_channel_iff (readMetadata_append
        [("id", id), ("owner", owner), ("operation", Things.channelPrefix ++ "create")] rfl name h)
        h d
  | updateChannel id name metadata =>
      exact opcua_channel_iff (readMetadata_append
        [("id", id), ("operation", Things.channelPrefix ++ "update")] rfl name h) h d
  | removeChannel id => exact hfixed (.removeChannel id)
  | connectThing chanID thingID => exact hfixed (.connectThing ⟨chanID, thingID⟩)
  | disconnectThing chanID thingID => exact hfixed (.disconnectThing ⟨chanID, thingID⟩)

theorem roundTrip_bootstrap_iff (ev : Event) :
    RoundTrip ev .bootstrap ↔
      ∀ id name metadata, ev = .updateChannel id name metadata → metadata.getD [] = [] := by
  have hother : (∀ id name metadata, ev ≠ .updateChannel id name metadata) →
      RoundTrip ev .bootstrap →
      (RoundTrip ev .bootstrap ↔
        ∀ id name metadata, ev = .updateChannel id name metadata → metadata.getD [] = []) := by
    intro hne hround
    exact ⟨fun _ id name metadata heq => absurd heq (hne id name metadata), fun _ => hround⟩
  cases ev with
  | updateChannel id name metadata =>
      have hdecode : Bootstrap.decode ((Event.updateChannel id name metadata).encode Json.marshal)
          = .updateChannel ⟨id, name, some []⟩ := by
        rw [← Bootstrap.decodeUpdateChannel_encode Json.marshal id name metadata]
        rfl
      rw [RoundTrip, hdecode]
      constructor
      · rintro ⟨m, heq, hm⟩ id' name' metadata' hev
        cases hev
        cases heq
        exact hm.symm
      · intro h
        exact ⟨some [], rfl, (h id name metadata rfl).symm⟩
  | _ => exact hother (by simp) rfl

/-- **Exactly when decoding keeps the event**: always, but for the metadata of a
channel update at the bootstrap service. -/
theorem roundTrip_iff (ev : Event) (c : Consumer) (h : ValueMetadata (eventMetadata ev)) :
    RoundTrip ev c ↔
      (c = .bootstrap → ∀ id name metadata, ev = .updateChannel id name metadata →
        metadata.getD [] = []) := by
  cases c with
  | bootstrap =>
      rw [roundTrip_bootstrap_iff]
      exact ⟨fun hround _ => hround, fun hround => hround rfl⟩
  | lora => exact ⟨fun _ hc => (by cases hc), fun _ => roundTrip_lora h⟩
  | opcua => exact ⟨fun _ hc => (by cases hc), fun _ => roundTrip_opcua h⟩

/-! ### Two events. -/

/-- The metadata of a LoRa device. -/
def deviceMetadata : JsonObject :=
  [("lora", .obj [("devEUI", .str "70b3d57ed0000001"), ("port", .num "-1.5e3")])]

theorem isValue_deviceMetadata : Json.IsValue (.obj deviceMetadata) := by
  simp only [deviceMetadata, Json.IsValue, Json.AreFields]
  decide +kernel

/-- A device is created: the LoRa adapter reads its EUI back. -/
theorem roundTrip_iff_device :
    Lora.decode ((Event.createThing "t1" "ann" "probe" (some deviceMetadata)).encode Json.marshal)
      = .ok (.createThing ⟨"t1", "70b3d57ed0000001"⟩) := by
  have hround := (roundTrip_iff (.createThing "t1" "ann" "probe" (some deviceMetadata)) .lora
    isValue_deviceMetadata).mpr (fun hc => by cases hc)
  refine (hround _).mpr ⟨_, ⟨_, List.mem_cons_self, List.mem_cons_self⟩, rfl⟩

/-- A channel gets metadata: the bootstrap service decodes an empty map. -/
theorem channelUpdate_not_roundTrip :
    ¬ RoundTrip (.updateChannel "c1" "hall" (some [("floor", .num "2")])) .bootstrap := by
  intro h
  have hempty := (roundTrip_bootstrap_iff _).mp h "c1" "hall" _ rfl
  cases hempty

end Mainflux.Adapters
