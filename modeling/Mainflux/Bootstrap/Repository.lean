/-
  Mainflux.Bootstrap.Repository
  ─────────────────────────────
  **THE BOOTSTRAP TABLES AND THE METHODS THE EVENT HANDLERS CALL.**

  `bootstrap/postgres/init.go` declares `configs`, `channels` and
  `connections`; ids are TEXT here, so nothing parses them.  The four
  repository methods below are the ones behind the stream handlers:
  `RemoveThing`, `UpdateChannel`, `RemoveChannel` and `DisconnectThing`.  NONE
  of them is given an owner: they act on whatever rows carry the id.

  §3 says EXACTLY when each of them leaves the rows of every owner but one
  alone.
-/
import Mainflux.Lib.Postgres
import Mainflux.Lib.Table

namespace Mainflux.Bootstrap

open Mainflux.Lib

/-! ## §1. The tables. -/

/-- `bootstrap.State`. -/
inductive State
  | inactive
  | active
  deriving Repr, DecidableEq

structure ConfigRow where
  mfThing : String
  owner : String
  name : Option String
  clientCert : Option String
  clientKey : Option String
  caCert : Option String
  mfKey : String
  externalID : String
  externalKey : String
  content : Option String
  state : State
  deriving DecidableEq

structure ChannelRow where
  mfChannel : String
  owner : String
  name : Option String
  metadata : Option JsonObject
  deriving DecidableEq

structure ConnectionRow where
  channelID : String
  channelOwner : String
  configID : String
  configOwner : String
  deriving DecidableEq

structure DB where
  configs : List ConfigRow
  channels : List ChannelRow
  connections : List ConnectionRow
  deriving DecidableEq

/-- The row references the config. -/
abbrev ConnectionRow.OfConfig (cfg : ConfigRow) (co : ConnectionRow) : Prop :=
  co.configID = cfg.mfThing ∧ co.configOwner = cfg.owner

/-- The row references the channel. -/
abbrev ConnectionRow.OfChannel (ch : ChannelRow) (co : ConnectionRow) : Prop :=
  co.channelID = ch.mfChannel ∧ co.channelOwner = ch.owner

/-- What the declarations of `init.go` enforce. -/
structure DB.Schema (d : DB) : Prop where
  config_thing : (d.configs.map fun r => r.mfThing).Nodup
  config_key : (d.configs.map fun r => r.mfKey).Nodup
  config_external : (d.configs.map fun r => r.externalID).Nodup
  channel_id : (d.channels.map fun r => r.mfChannel).Nodup
  connection_pk : d.connections.Nodup
  channel_fk : ∀ co ∈ d.connections, ∃ ch ∈ d.channels, co.OfChannel ch
  config_fk : ∀ co ∈ d.connections, ∃ cfg ∈ d.configs, co.OfConfig cfg

/-! ## §2. Statements and methods. -/

/-- `DELETE FROM configs WHERE p`, cascading to `connections`. -/
def deleteConfigs (p : ConfigRow → Prop) [DecidablePred p] (d : DB) : DB :=
  { d with
    configs := deleteWhere p d.configs
    connections := deleteWhere (fun co => ∃ cfg ∈ d.configs, p cfg ∧ co.OfConfig cfg)
      d.connections }

/-- `DELETE FROM channels WHERE p`, cascading to `connections`. -/
def deleteChannels (p : ChannelRow → Prop) [DecidablePred p] (d : DB) : DB :=
  { d with
    channels := deleteWhere p d.channels
    connections := deleteWhere (fun co => ∃ ch ∈ d.channels, p ch ∧ co.OfChannel ch)
      d.connections }

/-- No connection row names the channel id, under whatever owner. -/
abbrev Dangling (d : DB) (ch : ChannelRow) : Prop :=
  ¬ ∃ co ∈ d.connections, ch.mfChannel = co.channelID

/-- `cleanupQuery`. -/
def cleanup (d : DB) : DB := deleteChannels (Dangling d) d

/-- `bootstrap.Channel`; a nil map is marshalled as `null`. -/
structure Channel where
  id : String
  name : String
  metadata : Option JsonObject
  deriving DecidableEq

/-- `nullString`. -/
def nullString (s : String) : Option String := if s = "" then none else some s

namespace ConfigRepository

/-- `configRepository.RemoveThing`. -/
def removeThing (id : String) (d : DB) : DB :=
  cleanup (deleteConfigs (fun cfg => cfg.mfThing = id) d)

/-- `configRepository.UpdateChannel`. -/
def updateChannel (channel : Channel) (d : DB) : DB :=
  { d with
    channels := updateWhere (fun ch => ch.mfChannel = channel.id)
      (fun ch => { ch with name := nullString channel.name, metadata := channel.metadata })
      d.channels }

/-- `configRepository.RemoveChannel`. -/
def removeChannel (id : String) (d : DB) : DB :=
  deleteChannels (fun ch => ch.mfChannel = id) d

/-- `configRepository.DisconnectThing`: the sub-select does not mention the
config that is updated. -/
def disconnectThing (channelID thingID : String) (d : DB) : DB :=
  { d with
    configs := updateWhere
      (fun _ => ∃ co ∈ d.connections, co.configID = thingID ∧ co.channelID = channelID)
      (fun cfg => { cfg with state := .inactive }) d.configs }

end ConfigRepository

/-! ## §3. When the rows of the others are left alone. -/

/-- The row belongs to `b`, on either side. -/
abbrev ConnectionRow.Owned (b : String) (co : ConnectionRow) : Prop :=
  co.configOwner = b ∨ co.channelOwner = b

/-- The configs, channels and connections of one owner. -/
def DB.rowsOf (d : DB) (b : String) : List ConfigRow × List ChannelRow × List ConnectionRow :=
  (selectWhere (fun r => r.owner = b) d.configs, selectWhere (fun r => r.owner = b) d.channels,
    selectWhere (ConnectionRow.Owned b) d.connections)

/-- The rows of every owner other than `a` are the same rows. -/
def SparesOthers (a : String) (d d' : DB) : Prop := ∀ b, b ≠ a → d'.rowsOf b = d.rowsOf b

section Spares

variable {a : String} {d d' : DB}

theorem SparesOthers.refl : SparesOthers a d d := fun _ _ => rfl

theorem SparesOthers.config (h : SparesOthers a d d') {cfg : ConfigRow} (hcfg : cfg ∈ d.configs)
    (ho : cfg.owner ≠ a) : cfg ∈ d'.configs := by
  have hrows := congrArg Prod.fst (h cfg.owner ho)
  have hmem : cfg ∈ (d'.rowsOf cfg.owner).1 := hrows ▸ mem_selectWhere.mpr ⟨hcfg, rfl⟩
  exact (mem_selectWhere.mp hmem).1

theorem SparesOthers.channel (h : SparesOthers a d d') {ch : ChannelRow} (hch : ch ∈ d.channels)
    (ho : ch.owner ≠ a) : ch ∈ d'.channels := by
  have hrows := congrArg (fun x => x.2.1) (h ch.owner ho)
  have hmem : ch ∈ (d'.rowsOf ch.owner).2.1 := hrows ▸ mem_selectWhere.mpr ⟨hch, rfl⟩
  exact (mem_selectWhere.mp hmem).1

theorem SparesOthers.connection (h : SparesOthers a d d') {co : ConnectionRow}
    (hco : co ∈ d.connections) (ho : co.configOwner ≠ a ∨ co.channelOwner ≠ a) :
    co ∈ d'.connections := by
  have hkeep : ∀ b, b ≠ a → co.Owned b → co ∈ d'.connections := by
    intro b hb hown
    have hrows := congrArg (fun x => x.2.2) (h b hb)
    have hmem : co ∈ (d'.rowsOf b).2.2 := hrows ▸ mem_selectWhere.mpr ⟨hco, hown⟩
    exact (mem_selectWhere.mp hmem).1
  rcases ho with ho | ho
  · exact hkeep co.configOwner ho (.inl rfl)
  · exact hkeep co.channelOwner ho (.inr rfl)

theorem not_owned {b : String} {co : ConnectionRow} (hb : b ≠ a) (h1 : co.configOwner = a)
    (h2 : co.channelOwner = a) : ¬ co.Owned b := by
  rintro (h | h)
  · exact hb (h.symm.trans h1)
  · exact hb (h.symm.trans h2)

/-- The cascade of a config deletion follows the config id alone. -/
theorem mem_connections_deleteConfigs (hs : d.Schema) {id : String} {co : ConnectionRow} :
    co ∈ (deleteConfigs (fun cfg => cfg.mfThing = id) d).connections ↔
      co ∈ d.connections ∧ co.configID ≠ id := by
  simp only [deleteConfigs, mem_deleteWhere]
  constructor
  · rintro ⟨hco, hkeep⟩
    refine ⟨hco, fun hid => hkeep ?_⟩
    obtain ⟨cfg, hcfg, hof⟩ := hs.config_fk co hco
    exact ⟨cfg, hcfg, hof.1.symm.trans hid, hof⟩
  · rintro ⟨hco, hid⟩
    refine ⟨hco, ?_⟩
    rintro ⟨cfg, -, hcfg, hof⟩
    exact hid (hof.1.trans hcfg)

/-- The cleanup deletes channels that no connection names, so no connection. -/
theorem connections_cleanup (d : DB) : (cleanup d).connections = d.connections := by
  refine deleteWhere_eq_self fun co hco => ?_
  rintro ⟨ch, -, hdangling, hof⟩
  exact hdangling ⟨co, hco, hof.1.symm⟩

theorem sparesOthers_removeThing (hs : d.Schema) (id : String) :
    SparesOthers a d (ConfigRepository.removeThing id d) ↔
      (∀ cfg ∈ d.configs, cfg.mfThing = id → cfg.owner = a) ∧
      (∀ co ∈ d.connections, co.configID = id → co.channelOwner = a) ∧
      ∀ ch ∈ d.channels, ch.owner ≠ a →
        ∃ co ∈ d.connections, co.channelID = ch.mfChannel ∧ co.configID ≠ id := by
  constructor
  · intro h
    refine ⟨?_, ?_, ?_⟩
    · intro cfg hcfg hid
      by_contra ho
      exact (mem_deleteWhere.mp (h.config hcfg ho)).2 hid
    · intro co hco hid
      by_contra ho
      have hkept := h.connection hco (.inr ho)
      rw [ConfigRepository.removeThing, connections_cleanup,
        mem_connections_deleteConfigs hs] at hkept
      exact hkept.2 hid
    · intro ch hch ho
      obtain ⟨-, hkept⟩ := mem_deleteWhere.mp (h.channel hch ho)
      obtain ⟨co, hco, hid⟩ := not_not.mp hkept
      obtain ⟨hco, hne⟩ := (mem_connections_deleteConfigs hs).mp hco
      exact ⟨co, hco, hid.symm, hne⟩
  · rintro ⟨hcfg, hconn, hchan⟩ b hb
    have hconfigs : selectWhere (fun r => r.owner = b) (ConfigRepository.removeThing id d).configs
        = selectWhere (fun r => r.owner = b) d.configs :=
      selectWhere_deleteWhere fun cfg h ho hid => hb (ho.symm.trans (hcfg cfg h hid))
    have hchannels : selectWhere (fun r => r.owner = b) (ConfigRepository.removeThing id d).channels
        = selectWhere (fun r => r.owner = b) d.channels := by
      refine selectWhere_deleteWhere fun ch h ho hdangling => hdangling ?_
      obtain ⟨co, hco, hid, hne⟩ := hchan ch h (fun hoa => hb (ho.symm.trans hoa))
      exact ⟨co, (mem_connections_deleteConfigs hs).mpr ⟨hco, hne⟩, hid.symm⟩
    have hconnections : selectWhere (ConnectionRow.Owned b)
        (ConfigRepository.removeThing id d).connections
          = selectWhere (ConnectionRow.Owned b) d.connections := by
      rw [ConfigRepository.removeThing, connections_cleanup]
      refine selectWhere_deleteWhere fun co hco hown => ?_
      rintro ⟨cfg, hmem, hid, hof⟩
      have hid' : co.configID = id := hof.1.trans hid
      exact not_owned hb (hof.2.trans (hcfg cfg hmem hid)) (hconn co hco hid') hown
    simp only [DB.rowsOf, hconfigs, hchannels, hconnections]

theorem sparesOthers_removeChannel (hs : d.Schema) (id : String) :
    SparesOthers a d (ConfigRepository.removeChannel id d) ↔
      (∀ ch ∈ d.channels, ch.mfChannel = id → ch.owner = a) ∧
      ∀ co ∈ d.connections, co.channelID = id → co.configOwner = a := by
  constructor
  · intro h
    refine ⟨?_, ?_⟩
    · intro ch hch hid
      by_contra ho
      exact (mem_deleteWhere.mp (h.channel hch ho)).2 hid
    · intro co hco hid
      by_contra ho
      obtain ⟨-, hkept⟩ := mem_deleteWhere.mp (h.connection hco (.inl ho))
      obtain ⟨ch, hch, hof⟩ := hs.channel_fk co hco
      exact hkept ⟨ch, hch, hof.1.symm.trans hid, hof⟩
  · rintro ⟨hchan, hconn⟩ b hb
    have hchannels : selectWhere (fun r => r.owner = b)
        (ConfigRepository.removeChannel id d).channels
          = selectWhere (fun r => r.owner = b) d.channels :=
      selectWhere_deleteWhere fun ch h ho hid => hb (ho.symm.trans (hchan ch h hid))
    have hconnections : selectWhere (ConnectionRow.Owned b)
        (ConfigRepository.removeChannel id d).connections
          = selectWhere (ConnectionRow.Owned b) d.connections := by
      refine selectWhere_deleteWhere fun co hco hown => ?_
      rintro ⟨ch, hmem, hid, hof⟩
      exact not_owned hb (hconn co hco (hof.1.trans hid)) (hof.2.trans (hchan ch hmem hid)) hown
    simp only [DB.rowsOf, hchannels, hconnections]
    rfl

theorem sparesOthers_updateChannel (channel : Channel) :
    SparesOthers a d (ConfigRepository.updateChannel channel d) ↔
      ∀ ch ∈ d.channels, ch.mfChannel = channel.id → ch.owner ≠ a →
        ch.name = nullString channel.name ∧ ch.metadata = channel.metadata := by
  constructor
  · intro h ch hch hid ho
    rcases mem_updateWhere.mp (h.channel hch ho) with ⟨s, -, -, rfl⟩ | ⟨-, hne⟩
    · exact ⟨rfl, rfl⟩
    · exact absurd hid hne
  · intro hsame b hb
    have hchannels : selectWhere (fun r => r.owner = b)
        (ConfigRepository.updateChannel channel d).channels
          = selectWhere (fun r => r.owner = b) d.channels := by
      refine selectWhere_updateWhere (fun ch hch hid ho => ?_) (fun _ _ _ ho => ho)
      obtain ⟨hname, hmeta⟩ := hsame ch hch hid (fun hoa => hb (ho.symm.trans hoa))
      rw [← hname, ← hmeta]
    simp only [DB.rowsOf, hchannels]
    rfl

theorem sparesOthers_disconnectThing (c t : String) :
    SparesOthers a d (ConfigRepository.disconnectThing c t d) ↔
      ((∃ co ∈ d.connections, co.configID = t ∧ co.channelID = c) →
        ∀ cfg ∈ d.configs, cfg.owner ≠ a → cfg.state = .inactive) := by
  constructor
  · intro h hex cfg hcfg ho
    rcases mem_updateWhere.mp (h.config hcfg ho) with ⟨s, -, -, rfl⟩ | ⟨-, hne⟩
    · rfl
    · exact absurd hex hne
  · intro hsame b hb
    have hconfigs : selectWhere (fun r => r.owner = b)
        (ConfigRepository.disconnectThing c t d).configs
          = selectWhere (fun r => r.owner = b) d.configs := by
      refine selectWhere_updateWhere (fun cfg hcfg hex ho => ?_) (fun _ _ _ ho => ho)
      rw [← hsame hex cfg hcfg (fun hoa => hb (ho.symm.trans hoa))]
    simp only [DB.rowsOf, hconfigs]
    rfl

end Spares

end Mainflux.Bootstrap
