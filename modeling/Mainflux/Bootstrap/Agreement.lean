/-
  Mainflux.Bootstrap.Agreement
  ────────────────────────────
  **THE INVARIANT OF THE TABLES AND THE CONNECTIONS.**

  `Inv` is consistency over valid tables.  §1 has one rule for each way in which
  the tables and the connections can move together: rows go, one config changes
  its state, a config comes, the rows of one config are replaced, all configs
  are set inactive.  §2 says what the records of a disconnecting loop do once
  they are handled: nothing, or ALL configs inactive.  §3 reads the invariant
  for the channels that `RetrieveByID` finds.
-/
import Mainflux.Bootstrap.Runs
import Mainflux.Bootstrap.Tables

namespace Mainflux.Bootstrap.Consistency

open Mainflux.Lib

/-! ## §1. The invariant. -/

/-- Valid tables that agree with the connections. -/
structure Inv (d : DB) (links : List (String × String)) : Prop where
  valid : d.Valid
  consistent : Consistent d links

section Invariant

variable {d d' : DB} {links links' : List (String × String)}

/-- Of the two states, active is the connected one. -/
theorem consistent_iff :
    Consistent d links ↔ ∀ cfg ∈ d.configs, ∀ co ∈ d.connections, co.OfConfig cfg →
      (cfg.state = .active ↔ (co.channelID, co.configID) ∈ links) := by
  unfold Consistent
  refine forall₂_congr fun cfg _ => forall₂_congr fun co _ => forall_congr' fun hof => ?_
  rw [hof.1]
  cases cfg.state <;> simp

theorem Inv.linked_iff (h : Inv d links) {cfg : ConfigRow} (hcfg : cfg ∈ d.configs)
    {co : ConnectionRow} (hco : co ∈ d.connections) (hof : co.OfConfig cfg) :
    cfg.state = .active ↔ (co.channelID, co.configID) ∈ links :=
  consistent_iff.mp h.consistent cfg hcfg co hco hof

/-- A config is the only one that the connections of its thing belong to. -/
theorem ofConfig_of_thing (hv : d.Valid) {r : ConfigRow} (hr : r ∈ d.configs) {co : ConnectionRow}
    (hco : co ∈ d.connections) (hid : co.configID = r.mfThing) : co.OfConfig r := by
  obtain ⟨s, hs, hof⟩ := hv.config_fk co hco
  have heq : s = r := eq_of_key_eq hv.config_thing hs hr (hof.1.symm.trans hid)
  rw [← heq]
  exact hof

/-- Fewer rows, the same states, and the same connections for the rows that
are left. -/
theorem Inv.shrink (h : Inv d links) (hv : d'.Valid)
    (hcfg : ∀ r ∈ d'.configs, ∃ s ∈ d.configs,
      s.mfThing = r.mfThing ∧ s.owner = r.owner ∧ s.state = r.state)
    (hco : ∀ co ∈ d'.connections, co ∈ d.connections)
    (hl : ∀ co ∈ d'.connections,
      ((co.channelID, co.configID) ∈ links' ↔ (co.channelID, co.configID) ∈ links)) :
    Inv d' links' := by
  refine ⟨hv, consistent_iff.mpr fun cfg hmem co hmem' hof => ?_⟩
  obtain ⟨s, hs, hthing, howner, hstate⟩ := hcfg cfg hmem
  rw [hl co hmem', ← hstate]
  exact h.linked_iff hs (hco co hmem') ⟨hof.1.trans hthing.symm, hof.2.trans howner.symm⟩

/-- The same tables, and the same connections for their rows. -/
theorem Inv.relink (h : Inv d links)
    (hl : ∀ co ∈ d.connections,
      ((co.channelID, co.configID) ∈ links' ↔ (co.channelID, co.configID) ∈ links)) :
    Inv d links' :=
  h.shrink h.valid (fun r hr => ⟨r, hr, rfl, rfl, rfl⟩) (fun _ hco => hco) hl

/-- Configs updated in other fields than the state. -/
theorem Inv.updateConfigs (h : Inv d links) (p : ConfigRow → Prop) [DecidablePred p]
    {f : ConfigRow → ConfigRow}
    (hf : ∀ r, (f r).mfThing = r.mfThing ∧ (f r).owner = r.owner ∧ (f r).mfKey = r.mfKey ∧
      (f r).externalID = r.externalID) (hs : ∀ r, (f r).state = r.state) :
    Inv { d with configs := updateWhere p f d.configs } links := by
  refine h.shrink (h.valid.updateConfigs p hf) ?_ (fun _ hco => hco) (fun _ _ => Iff.rfl)
  intro r hr
  rcases mem_updateWhere.mp hr with ⟨s, hsmem, -, rfl⟩ | ⟨hr, -⟩
  · exact ⟨s, hsmem, (hf s).1.symm, (hf s).2.1.symm, (hs s).symm⟩
  · exact ⟨r, hr, rfl, rfl, rfl⟩

/-- Configs and channels deleted, with whatever connections no row has. -/
theorem Inv.deleteConfigs (h : Inv d links) (p : ConfigRow → Prop) [DecidablePred p]
    (hl : ∀ co ∈ (Bootstrap.deleteConfigs p d).connections,
      ((co.channelID, co.configID) ∈ links' ↔ (co.channelID, co.configID) ∈ links)) :
    Inv (Bootstrap.deleteConfigs p d) links' :=
  h.shrink (h.valid.deleteConfigs p)
    (fun r hr => ⟨r, (mem_deleteWhere.mp hr).1, rfl, rfl, rfl⟩)
    (fun _ hco => (mem_deleteWhere.mp hco).1) hl

theorem Inv.deleteChannels (h : Inv d links) (p : ChannelRow → Prop) [DecidablePred p]
    (hl : ∀ co ∈ (Bootstrap.deleteChannels p d).connections,
      ((co.channelID, co.configID) ∈ links' ↔ (co.channelID, co.configID) ∈ links)) :
    Inv (Bootstrap.deleteChannels p d) links' :=
  h.shrink (h.valid.deleteChannels p) (fun r hr => ⟨r, hr, rfl, rfl, rfl⟩)
    (fun _ hco => (mem_deleteWhere.mp hco).1) hl

theorem Inv.cleanup (h : Inv d links) : Inv (Bootstrap.cleanup d) links :=
  h.deleteChannels _ fun _ _ => Iff.rfl

/-- The removal of a thing, whatever becomes of its connections. -/
theorem Inv.removeThing (h : Inv d links) {t : String}
    (hl : ∀ p, p.2 ≠ t → (p ∈ links' ↔ p ∈ links)) :
    Inv (ConfigRepository.removeThing t d) links' := by
  refine Inv.cleanup (h.deleteConfigs _ fun co hco => hl _ ?_)
  exact ((mem_connections_deleteConfigs h.valid.toSchema).mp hco).2

/-- The removal of a channel, whatever becomes of its connections. -/
theorem Inv.removeChannel (h : Inv d links) {c : String}
    (hl : ∀ p, p.1 ≠ c → (p ∈ links' ↔ p ∈ links)) :
    Inv (ConfigRepository.removeChannel c d) links' := by
  refine h.deleteChannels _ fun co hco => hl _ ?_
  intro hid
  obtain ⟨hco, hkeep⟩ := mem_deleteWhere.mp hco
  obtain ⟨ch, hch, hof⟩ := h.valid.channel_fk co hco
  exact hkeep ⟨ch, hch, hof.1.symm.trans hid, hof⟩

/-- All configs set inactive. -/
def inactivated (d : DB) : DB :=
  { d with
    configs := updateWhere (fun _ => True) (fun cfg => { cfg with state := .inactive }) d.configs }

/-- Nothing that a row has is connected any more. -/
theorem inv_inactivated (hv : d.Valid)
    (hl : ∀ co ∈ d.connections, (co.channelID, co.configID) ∉ links') :
    Inv (inactivated d) links' := by
  refine ⟨hv.updateConfigs _ fun r => ⟨rfl, rfl, rfl, rfl⟩, consistent_iff.mpr ?_⟩
  intro cfg hcfg co hco _
  rcases mem_updateWhere.mp hcfg with ⟨s, -, -, rfl⟩ | ⟨-, hnot⟩
  · exact ⟨fun hbad => (by cases hbad), fun hin => absurd hin (hl co hco)⟩
  · exact absurd trivial hnot

/-- One config set to a state that its connections agree with. -/
theorem Inv.setState (h : Inv d links) {r : ConfigRow} (hr : r ∈ d.configs) {state : State}
    (hrow : ∀ co ∈ d.connections, co.configID = r.mfThing →
      (state = .active ↔ (co.channelID, co.configID) ∈ links'))
    (hother : ∀ co ∈ d.connections, co.configID ≠ r.mfThing →
      ((co.channelID, co.configID) ∈ links' ↔ (co.channelID, co.configID) ∈ links)) :
    Inv (ConfigRepository.changeState r.owner r.mfThing state d).1 links' := by
  rw [ConfigRepository.changeState_row hr]
  refine ⟨h.valid.updateConfigs _ fun r => ⟨rfl, rfl, rfl, rfl⟩, consistent_iff.mpr ?_⟩
  intro cfg hcfg co hco hof
  rcases mem_updateWhere.mp hcfg with ⟨s, -, hs, rfl⟩ | ⟨hcfg, hne⟩
  · exact hrow co hco (hof.1.trans hs.1)
  · have hid : co.configID ≠ r.mfThing := by
      intro hid
      have hof' := ofConfig_of_thing h.valid hr hco hid
      exact hne ⟨hof.1.symm.trans hid, hof.2.symm.trans hof'.2⟩
    rw [hother co hco hid]
    exact h.linked_iff hcfg hco hof

/-- A new config, inactive and with nothing connected. -/
theorem Inv.saved (h : Inv d links) {cfg : Config} {connections : List String}
    (hs : ConfigRepository.Saved cfg connections d d') (hstate : cfg.state = .inactive)
    (hfree : ∀ c ∈ connections, (c, cfg.mfThing) ∉ links) : Inv d' links := by
  refine ⟨hs.valid h.valid, consistent_iff.mpr fun r hr co hco hof => ?_⟩
  rw [hs.configs] at hr
  rw [hs.connections] at hco
  rcases List.mem_append.mp hr with hr | hr <;> rcases List.mem_append.mp hco with hco | hco
  · exact h.linked_iff hr hco hof
  · -- a new row does not belong to an old config
    obtain ⟨-, -, hid, -⟩ := mem_connectionRows.mp hco
    exact absurd (hof.1.symm.trans hid) (hs.fresh r hr)
  · -- an old row does not belong to the new config
    rw [List.mem_singleton.mp hr] at hof
    obtain ⟨s, hsmem, hof'⟩ := h.valid.config_fk co hco
    exact absurd (hof'.1.symm.trans hof.1) (hs.fresh s hsmem)
  · obtain ⟨hc, -, hid, -⟩ := mem_connectionRows.mp hco
    rw [List.mem_singleton.mp hr]
    show cfg.state = .active ↔ _
    rw [hstate, hid]
    exact ⟨fun hbad => (by cases hbad), fun hin => absurd hin (hfree _ hc)⟩

/-- A row after `UpdateConnections` is a row from before or a listed one. -/
theorem mem_replaced {key id : String} {connections : List String}
    (hs : ConfigRepository.Replaced key id connections d d') {co : ConnectionRow}
    (hco : co ∈ d'.connections) :
    co ∈ d.connections ∨ co ∈ connectionRows key id connections := by
  by_cases hnil : connections = []
  · rw [hs.nothing hnil] at hco
    exact .inl hco
  · rw [hs.rows hnil] at hco
    rcases List.mem_append.mp hco with hco | hco
    · exact .inl (mem_deleteWhere.mp hco).1
    · exact .inr hco

/-- The rows of one config replaced by rows that its state agrees with. -/
theorem Inv.replaced (h : Inv d links) {r : ConfigRow} (hr : r ∈ d.configs)
    {connections : List String}
    (hs : ConfigRepository.Replaced r.owner r.mfThing connections d d')
    (hrow : ∀ co ∈ d'.connections, co.configID = r.mfThing →
      (r.state = .active ↔ (co.channelID, co.configID) ∈ links'))
    (hother : ∀ co ∈ d.connections, co.configID ≠ r.mfThing →
      ((co.channelID, co.configID) ∈ links' ↔ (co.channelID, co.configID) ∈ links)) :
    Inv d' links' := by
  have hv := hs.valid h.valid
  refine ⟨hv, consistent_iff.mpr fun cfg hcfg co hco hof => ?_⟩
  have hcfg' := hcfg
  rw [hs.configs] at hcfg'
  by_cases hid : co.configID = r.mfThing
  · have hsame : cfg = r := eq_of_key_eq h.valid.config_thing hcfg' hr (hof.1.symm.trans hid)
    rw [hsame]
    exact hrow co hco hid
  · rcases mem_replaced hs hco with hco | hco
    · rw [hother co hco hid]
      exact h.linked_iff hcfg' hco hof
    · exact absurd (mem_connectionRows.mp hco).2.2.1 hid

/-! ## §2. Settling the records of a loop. -/

theorem disconnectThing_of_row {c t : String} (h : d.HasConnection c t) :
    ConfigRepository.disconnectThing c t d = inactivated d := by
  simp only [ConfigRepository.disconnectThing, inactivated, updateWhere, if_pos h, if_true]

theorem disconnectThing_of_no_row {c t : String} (h : ¬ d.HasConnection c t) :
    ConfigRepository.disconnectThing c t d = d := by
  simp only [ConfigRepository.disconnectThing, updateWhere, if_neg h, List.map_id']

theorem inactivated_inactivated (d : DB) : inactivated (inactivated d) = inactivated d := by
  simp [inactivated, updateWhere]

/-- Once every config is inactive, further disconnections change nothing. -/
theorem settle_inactivated (t : String) (cs : List String) :
    settle (cs.map (Decoded.disconnectThing · t)) (inactivated d) = inactivated d := by
  induction cs with
  | nil => rfl
  | cons c cs ih =>
      show settle _ (ConfigRepository.disconnectThing c t (inactivated d)) = _
      by_cases hrow : (inactivated d).HasConnection c t
      · rw [disconnectThing_of_row hrow, inactivated_inactivated]
        exact ih
      · rw [disconnectThing_of_no_row hrow]
        exact ih

/-- One record of a row is enough. -/
theorem settle_of_row {t : String} {taken : List String}
    (h : ∃ c ∈ taken, d.HasConnection c t) :
    settle (taken.map (Decoded.disconnectThing · t)) d = inactivated d := by
  induction taken with
  | nil =>
      obtain ⟨c, hc, -⟩ := h
      cases hc
  | cons c taken ih =>
      show settle _ (ConfigRepository.disconnectThing c t d) = _
      by_cases hrow : d.HasConnection c t
      · rw [disconnectThing_of_row hrow]
        exact settle_inactivated t taken
      · rw [disconnectThing_of_no_row hrow]
        obtain ⟨c', hc', hrow'⟩ := h
        rcases List.mem_cons.mp hc' with rfl | hc'
        · exact absurd hrow' hrow
        · exact ih ⟨c', hc', hrow'⟩

theorem settle_of_no_row {t : String} {taken : List String}
    (h : ∀ c ∈ taken, ¬ d.HasConnection c t) :
    settle (taken.map (Decoded.disconnectThing · t)) d = d := by
  induction taken with
  | nil => rfl
  | cons c taken ih =>
      show settle _ (ConfigRepository.disconnectThing c t d) = _
      rw [disconnectThing_of_no_row (h c List.mem_cons_self)]
      exact ih fun c' hc' => h c' (List.mem_cons_of_mem _ hc')

end Invariant

/-! ## §3. The channels of a config. -/

section Channels

variable {d : DB} {links : List (String × String)} {r : ConfigRow} {c : String}

/-- The channels that `RetrieveByID` finds for a row. -/
abbrev channelIDs (r : ConfigRow) (d : DB) : List String :=
  Service.toIDList (ConfigRepository.channelsOf r.owner r.mfThing d)

theorem mem_channelIDs (hv : d.Valid) (hr : r ∈ d.configs) :
    c ∈ channelIDs r d ↔ d.HasConnection c r.mfThing := by
  unfold channelIDs Service.toIDList
  rw [List.mem_map, hv.mem_channelsOf_iff]
  constructor
  · rintro ⟨co, hco, hid, -, hc⟩
    exact ⟨co, hco, hid, hc⟩
  · rintro ⟨co, hco, hid, hc⟩
    exact ⟨co, hco, hid, (ofConfig_of_thing hv hr hco hid).2, hc⟩

/-- The state of a config says whether its channels are connected. -/
theorem Inv.channel_linked_iff (h : Inv d links) (hr : r ∈ d.configs) (hc : c ∈ channelIDs r d) :
    r.state = .active ↔ (c, r.mfThing) ∈ links := by
  obtain ⟨co, hco, hid, rfl⟩ := (mem_channelIDs h.valid hr).mp hc
  rw [← hid]
  exact h.linked_iff hr hco (ofConfig_of_thing h.valid hr hco hid)

/-- With no other config active, nothing but the channels of the config is
connected to a thing that has a config. -/
theorem Inv.thing_of_linked (h : Inv d links) (hq : Quiet d r.mfThing) {co : ConnectionRow}
    (hco : co ∈ d.connections) (hl : (co.channelID, co.configID) ∈ links) :
    co.configID = r.mfThing := by
  by_contra hne
  obtain ⟨s, hs, hof⟩ := h.valid.config_fk co hco
  refine hq s hs (fun hid => hne (hof.1.trans hid)) ?_ co hco hof
  exact (h.linked_iff hs hco hof).mpr hl

end Channels

end Mainflux.Bootstrap.Consistency
