/-
  Mainflux.Bootstrap.Tables
  ─────────────────────────
  **WHAT THE METHODS OF THE CONFIG REPOSITORY KEEP.**

  `DB.Valid` is what `init.go` declares together with one thing that it does
  not declare and every insert does: a connection row joins a config and a
  channel of ONE owner.  Each statement keeps it (§1, §2), so each method and
  each event handler does (§3).

  §4 reads the channels of a config off its connection rows, in both
  directions, which takes both halves of `DB.Valid`.
-/
import Mainflux.Bootstrap.Configs
import Mainflux.Bootstrap.Consumer

namespace Mainflux.Bootstrap

open Mainflux.Lib

/-! ## §1. Updates and deletions. -/

/-- The declared constraints, and one owner for both ends of a connection. -/
structure DB.Valid (d : DB) : Prop extends d.Schema where
  same_owner : ∀ co ∈ d.connections, co.channelOwner = co.configOwner

variable {d d' : DB}

/-- An update of `configs` that leaves the keys alone. -/
theorem DB.Valid.updateConfigs (h : d.Valid) (p : ConfigRow → Prop) [DecidablePred p]
    {f : ConfigRow → ConfigRow}
    (hf : ∀ r, (f r).mfThing = r.mfThing ∧ (f r).owner = r.owner ∧ (f r).mfKey = r.mfKey ∧
      (f r).externalID = r.externalID) :
    DB.Valid { d with configs := updateWhere p f d.configs } := by
  refine { h with config_thing := ?_, config_key := ?_, config_external := ?_, config_fk := ?_ }
  · exact nodup_map_updateWhere_same h.config_thing fun r _ _ => (hf r).1
  · exact nodup_map_updateWhere_same h.config_key fun r _ _ => (hf r).2.2.1
  · exact nodup_map_updateWhere_same h.config_external fun r _ _ => (hf r).2.2.2
  · intro co hco
    refine fk_updateWhere (fun r hr => ?_) (h.config_fk co hco)
    exact ⟨hr.1.trans (hf r).1.symm, hr.2.trans (hf r).2.1.symm⟩

/-- An update of `channels` that leaves the keys alone. -/
theorem DB.Valid.updateChannels (h : d.Valid) (p : ChannelRow → Prop) [DecidablePred p]
    {f : ChannelRow → ChannelRow}
    (hf : ∀ r, (f r).mfChannel = r.mfChannel ∧ (f r).owner = r.owner) :
    DB.Valid { d with channels := updateWhere p f d.channels } := by
  refine { h with channel_id := ?_, channel_fk := ?_ }
  · exact nodup_map_updateWhere_same h.channel_id fun r _ _ => (hf r).1
  · intro co hco
    refine fk_updateWhere (fun r hr => ?_) (h.channel_fk co hco)
    exact ⟨hr.1.trans (hf r).1.symm, hr.2.trans (hf r).2.symm⟩

theorem DB.Valid.deleteConnections (h : d.Valid) (p : ConnectionRow → Prop) [DecidablePred p] :
    DB.Valid { d with connections := deleteWhere p d.connections } :=
  { h with
    connection_pk := h.connection_pk.filter _
    channel_fk := fun co hco => h.channel_fk co (mem_deleteWhere.mp hco).1
    config_fk := fun co hco => h.config_fk co (mem_deleteWhere.mp hco).1
    same_owner := fun co hco => h.same_owner co (mem_deleteWhere.mp hco).1 }

theorem DB.Valid.deleteConfigs (h : d.Valid) (p : ConfigRow → Prop) [DecidablePred p] :
    (deleteConfigs p d).Valid := by
  refine { h.deleteConnections _ with
    config_thing := nodup_map_deleteWhere h.config_thing
    config_key := nodup_map_deleteWhere h.config_key
    config_external := nodup_map_deleteWhere h.config_external
    config_fk := ?_ }
  intro co hco
  obtain ⟨hco, hkeep⟩ := mem_deleteWhere.mp hco
  obtain ⟨cfg, hcfg, hof⟩ := h.config_fk co hco
  exact ⟨cfg, mem_deleteWhere.mpr ⟨hcfg, fun hp => hkeep ⟨cfg, hcfg, hp, hof⟩⟩, hof⟩

theorem DB.Valid.deleteChannels (h : d.Valid) (p : ChannelRow → Prop) [DecidablePred p] :
    (deleteChannels p d).Valid := by
  refine { h.deleteConnections _ with
    channel_id := nodup_map_deleteWhere h.channel_id
    channel_fk := ?_ }
  intro co hco
  obtain ⟨hco, hkeep⟩ := mem_deleteWhere.mp hco
  obtain ⟨ch, hch, hof⟩ := h.channel_fk co hco
  exact ⟨ch, mem_deleteWhere.mpr ⟨hch, fun hp => hkeep ⟨ch, hch, hp, hof⟩⟩, hof⟩

theorem DB.Valid.cleanup (h : d.Valid) : (cleanup d).Valid := h.deleteChannels _

/-! ## §2. Inserts. -/

theorem insertConfig_ok {cfg : Config} (h : insertConfig cfg d = .ok d') :
    (∀ r ∈ d.configs, r.mfThing ≠ cfg.mfThing ∧ r.mfKey ≠ char36 cfg.mfKey ∧
      r.externalID ≠ cfg.externalID) ∧
      d' = { d with configs := d.configs ++ [toDBConfig cfg] } := by
  unfold insertConfig at h
  split at h
  next => cases h
  next =>
      split at h
      next => cases h
      next hfree =>
          cases h
          refine ⟨fun r hr => ?_, rfl⟩
          have hr' : ¬ (r.mfThing = cfg.mfThing ∨ r.mfKey = char36 cfg.mfKey ∨
              r.externalID = cfg.externalID) := fun hbad => hfree ⟨r, hr, hbad⟩
          simpa only [not_or] using hr'

theorem insertChannels_ok {owner : String} {channels : List Channel}
    (h : insertChannels owner channels d = .ok d') :
    (channels.map Channel.id).Nodup ∧
      (∀ ch ∈ channels, ∀ r ∈ d.channels, r.mfChannel ≠ ch.id) ∧
      d' = { d with channels := d.channels ++ channels.map (toDBChannel owner) } := by
  unfold insertChannels at h
  split at h
  next hnil =>
      cases h
      subst hnil
      exact ⟨List.nodup_nil, by simp, by simp⟩
  next =>
      split at h
      next => cases h
      next =>
          split at h
          next => cases h
          next =>
              split at h
              next => cases h
              next hfree =>
                  cases h
                  rw [not_or, not_not] at hfree
                  exact ⟨hfree.1, fun ch hch r hr heq => hfree.2 ⟨ch, hch, r, hr, heq⟩, rfl⟩

theorem insertConnections_ok {owner id : String} {connections : List String}
    (h : insertConnections owner id connections d = .ok d') :
    connections.Nodup ∧
      (∀ co ∈ connectionRows owner id connections, co ∉ d.connections) ∧
      (∀ co ∈ connectionRows owner id connections, ∃ ch ∈ d.channels, co.OfChannel ch) ∧
      (connections ≠ [] → ∃ cfg ∈ d.configs, cfg.mfThing = id ∧ cfg.owner = owner) ∧
      d' = { d with connections := d.connections ++ connectionRows owner id connections } := by
  unfold insertConnections at h
  split at h
  next hnil =>
      cases h
      subst hnil
      exact ⟨List.nodup_nil, by simp [connectionRows], by simp [connectionRows], by simp,
        by simp [connectionRows]⟩
  next =>
      split at h
      next => cases h
      next =>
          split at h
          next => cases h
          next hfree =>
              split at h
              next => cases h
              next hchan =>
                  split at h
                  next => cases h
                  next hcfg =>
                      cases h
                      rw [not_or, not_not] at hfree
                      exact ⟨hfree.1, fun co hco hin => hfree.2 ⟨co, hco, hin⟩, not_not.mp hchan,
                        fun _ => not_not.mp hcfg, rfl⟩

theorem DB.Valid.insertConfig (h : d.Valid) {cfg : Config} (hq : insertConfig cfg d = .ok d') :
    d'.Valid := by
  obtain ⟨hfree, rfl⟩ := insertConfig_ok hq
  refine { h with config_thing := ?_, config_key := ?_, config_external := ?_, config_fk := ?_ }
  · exact nodup_map_insert h.config_thing fun r hr => (hfree r hr).1
  · exact nodup_map_insert h.config_key fun r hr => (hfree r hr).2.1
  · exact nodup_map_insert h.config_external fun r hr => (hfree r hr).2.2
  · intro co hco
    exact fk_mono (fun r hr => List.mem_append_left _ hr) (h.config_fk co hco)

theorem DB.Valid.insertChannels (h : d.Valid) {owner : String} {channels : List Channel}
    (hq : insertChannels owner channels d = .ok d') : d'.Valid := by
  obtain ⟨hnodup, hfree, rfl⟩ := insertChannels_ok hq
  refine { h with channel_id := ?_, channel_fk := ?_ }
  · rw [List.map_append, List.map_map]
    refine List.nodup_append.mpr ⟨h.channel_id, hnodup, ?_⟩
    intro a ha b hb
    obtain ⟨r, hr, rfl⟩ := List.mem_map.mp ha
    obtain ⟨ch, hch, rfl⟩ := List.mem_map.mp hb
    exact hfree ch hch r hr
  · intro co hco
    exact fk_mono (fun r hr => List.mem_append_left _ hr) (h.channel_fk co hco)

theorem mem_connectionRows {owner id : String} {connections : List String} {co : ConnectionRow} :
    co ∈ connectionRows owner id connections ↔
      co.channelID ∈ connections ∧ co.channelOwner = owner ∧ co.configID = id ∧
        co.configOwner = owner := by
  unfold connectionRows
  constructor
  · intro h
    obtain ⟨c, hc, rfl⟩ := List.mem_map.mp h
    exact ⟨hc, rfl, rfl, rfl⟩
  · rintro ⟨hc, h1, h2, h3⟩
    refine List.mem_map.mpr ⟨co.channelID, hc, ?_⟩
    rw [← h1, ← h2]
    cases co
    simp_all

theorem DB.Valid.insertConnections (h : d.Valid) {owner id : String} {connections : List String}
    (hq : insertConnections owner id connections d = .ok d') : d'.Valid := by
  obtain ⟨hnodup, hfree, hchan, hcfg, rfl⟩ := insertConnections_ok hq
  refine { h with connection_pk := ?_, channel_fk := ?_, config_fk := ?_, same_owner := ?_ }
  · refine List.nodup_append.mpr ⟨h.connection_pk, ?_, ?_⟩
    · exact hnodup.map fun a b hab => congrArg ConnectionRow.channelID hab
    · intro a ha b hb hab
      exact hfree b hb (hab ▸ ha)
  · exact List.forall_mem_append.mpr ⟨h.channel_fk, hchan⟩
  · refine List.forall_mem_append.mpr ⟨h.config_fk, fun co hco => ?_⟩
    obtain ⟨hin, -, hid, ho⟩ := mem_connectionRows.mp hco
    obtain ⟨cfg, hmem, hthing, howner⟩ := hcfg (List.ne_nil_of_mem hin)
    exact ⟨cfg, hmem, hid.trans hthing.symm, ho.trans howner.symm⟩
  · refine List.forall_mem_append.mpr ⟨h.same_owner, fun co hco => ?_⟩
    obtain ⟨-, hch, -, hcfg⟩ := mem_connectionRows.mp hco
    exact hch.trans hcfg.symm

/-! ## §3. The methods. -/

namespace ConfigRepository

/-- What `Save` has done when it returns no error, and what it asks for. -/
structure Saved (cfg : Config) (connections : List String) (d d' : DB) : Prop where
  fresh : ∀ r ∈ d.configs, r.mfThing ≠ cfg.mfThing
  configs : d'.configs = d.configs ++ [toDBConfig cfg]
  connections : d'.connections = d.connections ++ connectionRows cfg.owner cfg.mfThing connections
  valid : d.Valid → d'.Valid

theorem save_cases (cfg : Config) (connections : List String) (d : DB) :
    (∃ e, save cfg connections d = (d, .error e)) ∨
      ∃ d', save cfg connections d = (d', .ok cfg.mfThing) ∧ Saved cfg connections d d' := by
  unfold save
  split
  next => exact .inl ⟨_, rfl⟩
  next => exact .inl ⟨_, rfl⟩
  next d1 h1 =>
      split
      next => exact .inl ⟨_, rfl⟩
      next => exact .inl ⟨_, rfl⟩
      next d2 h2 =>
          split
          next => exact .inl ⟨_, rfl⟩
          next d3 h3 =>
              have hvalid : d.Valid → d3.Valid := fun h =>
                ((h.insertConfig h1).insertChannels h2).insertConnections h3
              obtain ⟨hfree, rfl⟩ := insertConfig_ok h1
              obtain ⟨-, -, rfl⟩ := insertChannels_ok h2
              obtain ⟨-, -, -, -, rfl⟩ := insertConnections_ok h3
              exact .inr ⟨_, rfl, fun r hr => (hfree r hr).1, rfl, rfl, hvalid⟩

/-- What `UpdateConnections` has done when it returns no error. -/
structure Replaced (key id : String) (connections : List String) (d d' : DB) : Prop where
  configs : d'.configs = d.configs
  nothing : connections = [] → d'.connections = d.connections
  rows : connections ≠ [] → d'.connections
    = deleteWhere (ConnectionRow.Replaced key id connections) d.connections
      ++ connectionRows key id connections
  valid : d.Valid → d'.Valid

theorem replaced_of_updateConnections {key id : String} {connections : List String} {d d' : DB}
    (h : Bootstrap.updateConnections key id connections d = .ok d') :
    Replaced key id connections d d' := by
  unfold Bootstrap.updateConnections at h
  split at h
  next hnil =>
      cases h
      exact ⟨rfl, fun _ => rfl, fun hne => absurd hnil hne, fun hv => hv⟩
  next hne =>
      split at h
      next => cases h
      next d1 h1 =>
          have hvalid : d.Valid → d1.Valid := fun hv =>
            (hv.deleteConnections _).insertConnections h1
          obtain ⟨-, -, -, -, rfl⟩ := insertConnections_ok h1
          split at h
          next =>
              cases h
              exact ⟨rfl, fun hnil => absurd hnil hne, fun _ => rfl, hvalid⟩
          next =>
              cases h
              exact ⟨rfl, fun hnil => absurd hnil hne, fun _ => connections_cleanup _,
                fun hv => (hvalid hv).cleanup⟩

theorem updateConnections_cases (key id : String) (channels : List Channel)
    (connections : List String) (d : DB) :
    (∃ e, updateConnections key id channels connections d = (d, .error e)) ∨
      ∃ d', updateConnections key id channels connections d = (d', .ok ()) ∧
        Replaced key id connections d d' := by
  unfold updateConnections
  split
  next => exact .inl ⟨_, rfl⟩
  next => exact .inl ⟨_, rfl⟩
  next d1 h1 =>
      split
      next => exact .inl ⟨_, rfl⟩
      next => exact .inl ⟨_, rfl⟩
      next d2 h2 =>
          have hrep := replaced_of_updateConnections h2
          have hvalid : d.Valid → d2.Valid := fun hv => hrep.valid (hv.insertChannels h1)
          obtain ⟨-, -, rfl⟩ := insertChannels_ok h1
          exact .inr ⟨d2, rfl, hrep.configs, hrep.nothing, hrep.rows, hvalid⟩

end ConfigRepository

/-- What the consumer does with a record keeps the tables valid. -/
theorem DB.Valid.apply (h : d.Valid) (ev : Decoded) : (ev.apply d).Valid := by
  cases ev with
  | removeThing id => exact (h.deleteConfigs _).cleanup
  | disconnectThing c t => exact h.updateConfigs _ fun r => ⟨rfl, rfl, rfl, rfl⟩
  | updateChannel channel => exact h.updateChannels _ fun r => ⟨rfl, rfl⟩
  | removeChannel id => exact h.deleteChannels _
  | skipped => exact h

/-! ## §4. The channels of a config. -/

/-- The channels that `RetrieveByID` joins to a config are those of its
connection rows. -/
theorem DB.Valid.mem_channelsOf_iff (h : d.Valid) {key id c : String} :
    (∃ ch ∈ ConfigRepository.channelsOf key id d, ch.id = c) ↔
      ∃ co ∈ d.connections, co.configID = id ∧ co.configOwner = key ∧ co.channelID = c := by
  constructor
  · rintro ⟨ch, hch, rfl⟩
    obtain ⟨co, hco, hid, ho, hc⟩ := ConfigRepository.mem_channelsOf hch
    exact ⟨co, hco, hid, ho, hc.symm⟩
  · rintro ⟨co, hco, rfl, rfl, rfl⟩
    obtain ⟨row, hrow, hof⟩ := h.channel_fk co hco
    have hso := h.same_owner co hco
    cases hfind : d.channels.find?
        (fun ch => ch.mfChannel = co.channelID ∧ ch.owner = co.configOwner) with
    | none =>
        refine absurd (List.find?_eq_none.mp hfind row hrow) ?_
        simp [hof.1, ← hof.2, hso]
    | some found =>
        have hfound : found.mfChannel = co.channelID ∧ found.owner = co.configOwner := by
          simpa using List.find?_some hfind
        refine ⟨toChannel found, List.mem_filterMap.mpr ⟨co, hco, ?_⟩, hfound.1⟩
        simp only [and_self, if_true, hfind, Option.map_some]

/-- A config has no channel twice. -/
theorem DB.Valid.nodup_channelsOf (h : d.Valid) (key id : String) :
    ((ConfigRepository.channelsOf key id d).map Channel.id).Nodup := by
  unfold List.Nodup ConfigRepository.channelsOf
  rw [List.pairwise_map, List.pairwise_filterMap]
  refine List.Pairwise.imp_of_mem ?_ h.connection_pk
  intro co co' hco hco' hne ch hch ch' hch' heq
  -- two rows of one config and one channel have one owner too, so are one row
  have hrow : ∀ x ∈ d.connections, ∀ y, (if x.configID = id ∧ x.configOwner = key then
      (d.channels.find? fun ch => ch.mfChannel = x.channelID ∧ ch.owner = x.configOwner).map
        toChannel else none) = some y → x = ⟨y.id, key, id, key⟩ := by
    intro x hx y hy
    split at hy
    next hof =>
        obtain ⟨row, hfind, rfl⟩ := Option.map_eq_some_iff.mp hy
        have hid : row.mfChannel = x.channelID ∧ row.owner = x.configOwner := by
          simpa using List.find?_some hfind
        have hso := h.same_owner x hx
        obtain ⟨xc, xo, xt, xco⟩ := x
        simp only [toChannel, ConnectionRow.mk.injEq]
        exact ⟨hid.1.symm, hso.trans hof.2, hof.1, hof.2⟩
    next => cases hy
  apply hne
  rw [hrow co hco ch hch, hrow co' hco' ch' hch', heq]

end Mainflux.Bootstrap
