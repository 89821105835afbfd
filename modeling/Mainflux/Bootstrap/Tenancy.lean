/-
  Mainflux.Bootstrap.Tenancy
  ──────────────────────────
  **WHOSE ROWS THE BOOTSTRAP TABLES HOLD, AND WHO CHANGES THEM.**

  Channels are shared among the configs of one owner, and go with the last
  connection to them: `cleanupQuery` deletes every channel without one, whoever
  owns it. `UpdateConnections` runs it in its transaction. `Remove` and
  `RemoveThing` run it as a statement of its own, whose failure they only log.

    • `tenancy_of_run` — what holds in every run, and what holds in addition as
      long as the deletions of `Remove` and `RemoveThing` are cleaned up after;
    • `failed_cleanup_dangles` — a run in which one cleanup fails.
-/
import Mainflux.Bootstrap.Consistency
import Mainflux.Bootstrap.Registry

namespace Mainflux.Bootstrap

open Mainflux.Lib

open Consistency

/-! ## §1. The statement. -/

/-- Every channels row has a connection row. -/
def DB.Tidy (d : DB) : Prop := ∀ ch ∈ d.channels, ∃ co ∈ d.connections, co.OfChannel ch

/-- Every connection row references a config and a channel, of one owner. -/
def DB.Referenced (d : DB) : Prop :=
  ∀ co ∈ d.connections, ∃ cfg ∈ d.configs, ∃ ch ∈ d.channels,
    co.OfConfig cfg ∧ co.OfChannel ch ∧ ch.owner = cfg.owner

/-- Of the rows of others, only channels without a connection are deleted. -/
structure Touches (a : String) (d d' : DB) : Prop where
  configs : ∀ b, b ≠ a → selectWhere (fun r => r.owner = b) d'.configs
    = selectWhere (fun r => r.owner = b) d.configs
  connections : ∀ b, b ≠ a → selectWhere (ConnectionRow.Owned b) d'.connections
    = selectWhere (ConnectionRow.Owned b) d.connections
  channels : ∀ b, b ≠ a → selectWhere (fun r => r.owner = b) d'.channels
      = selectWhere (fun r => r.owner = b) d.channels ∨
    selectWhere (fun r => r.owner = b) d'.channels
      = deleteWhere (Dangling d) (selectWhere (fun r => r.owner = b) d.channels)

/-- The SDK returns the channel that it is asked for. -/
def RegistryStep.SdkFaithful : RegistryStep → Prop
  | .call net _ => ∀ id ch, net.channel id = .ok ch → ch.id = id
  | _ => True

/-- A deletion of configs that takes effect is cleaned up after. -/
def RegistryStep.CleansUp : RegistryStep → Prop
  | .call net (.remove _ _) => effective net.write → net.write = none ∧ effective net.cleanup
  | .event write cleanup (.removeThing _) => effective write → effective cleanup
  | _ => True

/-- A step of a user, or of a device; the event handlers belong to nobody. -/
def RegistryStep.By (owner : String) : RegistryStep → Prop
  | .call net req => ∀ user, net.identify req.key = some user → user = owner
  | .bootstrap _ _ _ _ => True
  | .event _ _ _ => False

/-! ## §2. Dangling channels. -/

section Dangling

variable {a b : String} {d d' : DB}

/-- A connection that names the id of a channel is a connection of the channel. -/
theorem DB.Valid.ofChannel (h : d.Valid) {ch : ChannelRow} (hch : ch ∈ d.channels)
    {co : ConnectionRow} (hco : co ∈ d.connections) (hid : ch.mfChannel = co.channelID) :
    co.OfChannel ch := by
  obtain ⟨ch', hch', hof⟩ := h.channel_fk co hco
  obtain rfl : ch' = ch := eq_of_key_eq h.channel_id hch' hch (hof.1.symm.trans hid.symm)
  exact hof

theorem DB.Valid.tidy_iff (h : d.Valid) : d.Tidy ↔ ∀ ch ∈ d.channels, ¬ Dangling d ch := by
  constructor
  · intro ht ch hch hdangling
    obtain ⟨co, hco, hof⟩ := ht ch hch
    exact hdangling ⟨co, hco, hof.1.symm⟩
  · intro ht ch hch
    obtain ⟨co, hco, hid⟩ := not_not.mp (ht ch hch)
    exact ⟨co, hco, h.ofChannel hch hco hid⟩

/-- The cleanup leaves no dangling channel. -/
theorem tidy_cleanup (h : d.Valid) : (cleanup d).Tidy := by
  rw [h.cleanup.tidy_iff]
  intro ch hch hdangling
  refine (mem_deleteWhere.mp hch).2 ?_
  rintro ⟨co, hco, hid⟩
  exact hdangling ⟨co, connections_cleanup d ▸ hco, hid⟩

theorem DB.Valid.referenced (h : d.Valid) : d.Referenced := by
  intro co hco
  obtain ⟨cfg, hcfg, hofc⟩ := h.config_fk co hco
  obtain ⟨ch, hch, hof⟩ := h.channel_fk co hco
  exact ⟨cfg, hcfg, ch, hch, hofc, hof, by rw [← hof.2, ← hofc.2, h.same_owner co hco]⟩

/-- Whether a channel of somebody else dangles is not decided by rows of `a`. -/
theorem dangling_iff (hv : d.Valid) (hv' : d'.Valid) (hspares : SparesOthers a d d') (hb : b ≠ a)
    {ch : ChannelRow} (hch : ch ∈ d.channels) (ho : ch.owner = b) :
    Dangling d' ch ↔ Dangling d ch := by
  have hch' : ch ∈ d'.channels := hspares.channel hch (ho ▸ hb)
  have hrows : selectWhere (ConnectionRow.Owned b) d'.connections
      = selectWhere (ConnectionRow.Owned b) d.connections :=
    congrArg (fun x => x.2.2) (hspares b hb)
  have hsame : ∀ co, ch.mfChannel = co.channelID →
      (co ∈ d'.connections ↔ co ∈ d.connections) := by
    intro co hid
    constructor
    · intro hco
      have howned : co.Owned b := .inr ((hv'.ofChannel hch' hco hid).2.trans ho)
      exact (mem_selectWhere.mp (hrows ▸ mem_selectWhere.mpr ⟨hco, howned⟩)).1
    · intro hco
      have howned : co.Owned b := .inr ((hv.ofChannel hch hco hid).2.trans ho)
      exact (mem_selectWhere.mp (hrows ▸ mem_selectWhere.mpr ⟨hco, howned⟩)).1
  refine not_congr ⟨?_, ?_⟩
  · rintro ⟨co, hco, hid⟩
    exact ⟨co, (hsame co hid).mp hco, hid⟩
  · rintro ⟨co, hco, hid⟩
    exact ⟨co, (hsame co hid).mpr hco, hid⟩

theorem SparesOthers.touches (h : SparesOthers a d d') : Touches a d d' where
  configs b hb := congrArg Prod.fst (h b hb)
  connections b hb := congrArg (fun x => x.2.2) (h b hb)
  channels b hb := .inl (congrArg (fun x => x.2.1) (h b hb))

/-- A write of own rows, and the cleanup. -/
theorem SparesOthers.touches_cleanup (h : SparesOthers a d d') (hv : d.Valid) (hv' : d'.Valid) :
    Touches a d (cleanup d') where
  configs b hb := congrArg Prod.fst (h b hb)
  connections b hb := by
    rw [connections_cleanup]
    exact congrArg (fun x => x.2.2) (h b hb)
  channels b hb := by
    right
    have hchannels : selectWhere (fun r : ChannelRow => r.owner = b) d'.channels
        = selectWhere (fun r => r.owner = b) d.channels := congrArg (fun x => x.2.1) (h b hb)
    have hswap : selectWhere (fun r : ChannelRow => r.owner = b) (cleanup d').channels
        = deleteWhere (Dangling d') (selectWhere (fun r => r.owner = b) d'.channels) := by
      simp only [cleanup, deleteChannels, selectWhere, deleteWhere, List.filter_filter]
      exact List.filter_congr fun r _ => Bool.and_comm _ _
    rw [hswap, hchannels]
    refine List.filter_congr fun ch hch => ?_
    obtain ⟨hch, ho⟩ := mem_selectWhere.mp hch
    simp only [dangling_iff hv hv' h hb hch ho]

/-- In tidy tables nothing of the others dangles. -/
theorem Touches.sparesOthers (h : Touches a d d') (hv : d.Valid) (ht : d.Tidy) :
    SparesOthers a d d' := by
  intro b hb
  have hkept : deleteWhere (Dangling d) (selectWhere (fun r : ChannelRow => r.owner = b) d.channels)
      = selectWhere (fun r => r.owner = b) d.channels :=
    deleteWhere_eq_self fun ch hch => hv.tidy_iff.mp ht ch (mem_selectWhere.mp hch).1
  have hchannels := h.channels b hb
  rw [hkept, or_self] at hchannels
  simp only [DB.rowsOf, h.configs b hb, h.connections b hb, hchannels]

end Dangling

/-! ## §3. The writes of a call. -/

section Writes

variable {net : Net} {owner : String} {d d' : DB}

theorem sparesOthers_updateConfig (id : String) {f : ConfigRow → ConfigRow}
    (hf : ∀ r, (f r).owner = r.owner) :
    SparesOthers owner d
      { d with configs := updateWhere (fun r => r.mfThing = id ∧ r.owner = owner) f d.configs } := by
  intro b hb
  have hconfigs : selectWhere (fun r : ConfigRow => r.owner = b)
      (updateWhere (fun r => r.mfThing = id ∧ r.owner = owner) f d.configs)
        = selectWhere (fun r => r.owner = b) d.configs := by
    refine selectWhere_updateWhere (fun r _ hp ho => absurd (ho.symm.trans hp.2) hb) ?_
    intro r _ _ ho hfr
    exact ho ((hf r).symm.trans hfr)
  simp only [DB.rowsOf, hconfigs]

/-- Own rows behind the rows of a table. -/
theorem selectWhere_append {α : Type} {p : α → Prop} [DecidablePred p] {l new : List α}
    (h : ∀ r ∈ new, ¬ p r) : selectWhere p (l ++ new) = selectWhere p l := by
  have hnone : selectWhere p new = [] := by
    rw [List.eq_nil_iff_forall_not_mem]
    intro r hr
    exact h r (mem_selectWhere.mp hr).1 (mem_selectWhere.mp hr).2
  rw [selectWhere, List.filter_append]
  exact (congrArg _ hnone).trans (List.append_nil _)

theorem not_owned_connectionRows {id b : String} {connections : List String} (hb : b ≠ owner)
    {co : ConnectionRow} (h : co ∈ connectionRows owner id connections) : ¬ co.Owned b := by
  obtain ⟨-, hchannel, -, hconfig⟩ := mem_connectionRows.mp h
  exact not_owned hb hconfig hchannel

theorem selectWhere_newChannels {b : String} {l : List ChannelRow} {channels : List Channel}
    (hb : b ≠ owner) :
    selectWhere (fun r => r.owner = b) (l ++ channels.map (toDBChannel owner))
      = selectWhere (fun r => r.owner = b) l := by
  refine selectWhere_append fun r hr => ?_
  obtain ⟨ch, -, rfl⟩ := List.mem_map.mp hr
  exact hb.symm

theorem sparesOthers_save {new : Config} {connections : List String} (howner : new.owner = owner)
    (h : ConfigRepository.save new connections d = (d', .ok new.mfThing)) :
    SparesOthers owner d d' := by
  intro b hb
  obtain ⟨-, rfl⟩ := save_rows h
  subst howner
  have hconfigs : selectWhere (fun r => r.owner = b) (d.configs ++ [toDBConfig new])
      = selectWhere (fun r => r.owner = b) d.configs := selectWhere_insert hb.symm
  have hconnections : selectWhere (ConnectionRow.Owned b)
      (d.connections ++ connectionRows new.owner new.mfThing connections)
        = selectWhere (ConnectionRow.Owned b) d.connections :=
    selectWhere_append fun co hco => not_owned_connectionRows hb hco
  simp only [DB.rowsOf, hconfigs, selectWhere_newChannels hb, hconnections]

/-- The channels that are fetched are those that were asked for. -/
theorem fetched_ids (hsdk : ∀ id ch, net.channel id = .ok ch → ch.id = id) {ids : List String}
    {channels : List Channel} (h : fetched net ids = .ok channels) :
    channels.map Channel.id = ids := by
  induction ids generalizing channels with
  | nil =>
      cases h
      rfl
  | cons id ids ih =>
      unfold fetched at h
      cases hch : net.channel id with
      | error e =>
          rw [hch] at h
          cases h
      | ok ch =>
          rw [hch] at h
          cases hrest : fetched net ids with
          | error e =>
              rw [hrest] at h
              cases h
          | ok rest =>
              rw [hrest] at h
              cases h
              rw [List.map_cons, ih hrest, hsdk id ch hch]

theorem newChannels_listed (hsdk : ∀ id ch, net.channel id = .ok ch → ch.id = id)
    {connections : List String} {channels : List Channel}
    (h : newChannels net d owner connections = .ok channels) :
    ∀ ch ∈ channels, ch.id ∈ connections := by
  unfold newChannels at h
  split at h
  next => cases h
  next =>
      intro ch hch
      have hids := fetched_ids hsdk h
      have hmem : ch.id ∈ channels.map Channel.id := List.mem_map_of_mem hch
      rw [hids, (net.order_perm _).mem_iff, Service.missing] at hmem
      exact List.mem_dedup.mp (List.mem_filter.mp hmem).1

/-- No channel is fetched for an empty list. -/
theorem newChannels_nil (hsdk : ∀ id ch, net.channel id = .ok ch → ch.id = id)
    {channels : List Channel} (h : newChannels net d owner [] = .ok channels) : channels = [] := by
  rw [List.eq_nil_iff_forall_not_mem]
  exact fun ch hch => absurd (newChannels_listed hsdk h ch hch) List.not_mem_nil

/-- New channels come with a connection. -/
theorem connected_new {connections : List String} {channels : List Channel}
    (h : ∀ ch ∈ channels, ch.id ∈ connections) (id : String) {row : ChannelRow}
    (hrow : row ∈ channels.map (toDBChannel owner)) :
    ∃ co ∈ connectionRows owner id connections, co.OfChannel row := by
  obtain ⟨ch, hch, rfl⟩ := List.mem_map.mp hrow
  exact ⟨⟨ch.id, owner, id, owner⟩, mem_connectionRows.mpr ⟨h ch hch, rfl, rfl, rfl⟩, rfl, rfl⟩

theorem tidy_save (hsdk : ∀ id ch, net.channel id = .ok ch → ch.id = id) {new : Config}
    {connections : List String} (howner : new.owner = owner)
    (hchannels : newChannels net d owner connections = .ok new.mfChannels)
    (h : ConfigRepository.save new connections d = (d', .ok new.mfThing)) (ht : d.Tidy) :
    d'.Tidy := by
  obtain ⟨-, rfl⟩ := save_rows h
  subst howner
  intro ch hch
  rcases List.mem_append.mp hch with hch | hch
  · obtain ⟨co, hco, hof⟩ := ht ch hch
    exact ⟨co, List.mem_append_left _ hco, hof⟩
  · obtain ⟨co, hco, hof⟩ := connected_new (newChannels_listed hsdk hchannels) new.mfThing hch
    exact ⟨co, List.mem_append_right _ hco, hof⟩

/-- The tables before the cleanup of `UpdateConnections`. -/
def reconnectedRows (owner id : String) (channels : List Channel) (connections : List String)
    (d : DB) : DB :=
  ⟨d.configs, d.channels ++ channels.map (toDBChannel owner),
    deleteWhere (ConnectionRow.Replaced owner id connections) d.connections
      ++ connectionRows owner id connections⟩

/-- What `UpdateConnections` has written: the cleanup follows when a row was
deleted. -/
theorem updateConnections_rows {id : String} {channels : List Channel} {connections : List String}
    (h : ConfigRepository.updateConnections owner id channels connections d = (d', .ok ())) :
    connections = [] ∧ d' = { d with channels := d.channels ++ channels.map (toDBChannel owner) } ∨
      (d.Valid → (reconnectedRows owner id channels connections d).Valid) ∧
        ((∀ co ∈ d.connections, ¬ co.Replaced owner id connections) ∧
            d' = reconnectedRows owner id channels connections d ∨
          d' = cleanup (reconnectedRows owner id channels connections d)) := by
  unfold ConfigRepository.updateConnections at h
  split at h
  next => cases h
  next => cases h
  next d1 h1 =>
      have hvalid1 : d.Valid → d1.Valid := fun hv => hv.insertChannels h1
      obtain ⟨-, -, rfl⟩ := insertChannels_ok h1
      split at h
      next => cases h
      next => cases h
      next d2 h2 =>
          obtain rfl : d2 = d' := congrArg Prod.fst h
          unfold Bootstrap.updateConnections at h2
          split at h2
          next hnil =>
              cases h2
              exact .inl ⟨hnil, rfl⟩
          next =>
              split at h2
              next => cases h2
              next d3 h3 =>
                  right
                  have hvalid : d.Valid → d3.Valid := fun hv =>
                    ((hvalid1 hv).deleteConnections _).insertConnections h3
                  obtain ⟨-, -, -, -, rfl⟩ := insertConnections_ok h3
                  refine ⟨hvalid, ?_⟩
                  split at h2
                  next hcnt =>
                      cases h2
                      exact .inl ⟨length_selectWhere_eq_zero.mp hcnt, rfl⟩
                  next =>
                      cases h2
                      exact .inr rfl

theorem sparesOthers_reconnectedRows (id : String) (channels : List Channel)
    (connections : List String) (d : DB) :
    SparesOthers owner d (reconnectedRows owner id channels connections d) := by
  intro b hb
  have hconnections : selectWhere (ConnectionRow.Owned b)
      (deleteWhere (ConnectionRow.Replaced owner id connections) d.connections
        ++ connectionRows owner id connections)
        = selectWhere (ConnectionRow.Owned b) d.connections := by
    rw [selectWhere_append fun co hco => not_owned_connectionRows hb hco]
    refine selectWhere_deleteWhere fun co _ howned hreplaced => ?_
    exact not_owned hb hreplaced.2.1 hreplaced.2.2.1 howned
  simp only [DB.rowsOf, reconnectedRows, selectWhere_newChannels hb, hconnections]

theorem tidy_reconnectedRows (hsdk : ∀ id ch, net.channel id = .ok ch → ch.id = id) {id : String}
    {channels : List Channel} {connections : List String}
    (hchannels : newChannels net d owner connections = .ok channels)
    (hkept : ∀ co ∈ d.connections, ¬ co.Replaced owner id connections) (ht : d.Tidy) :
    (reconnectedRows owner id channels connections d).Tidy := by
  intro ch hch
  rcases List.mem_append.mp hch with hch | hch
  · obtain ⟨co, hco, hof⟩ := ht ch hch
    exact ⟨co, List.mem_append_left _ (mem_deleteWhere.mpr ⟨hco, hkept co hco⟩), hof⟩
  · obtain ⟨co, hco, hof⟩ := connected_new (newChannels_listed hsdk hchannels) id hch
    exact ⟨co, List.mem_append_right _ hco, hof⟩

theorem sparesOthers_remove (hv : d.Valid) (id : String) :
    SparesOthers owner d (ConfigRepository.remove owner id d) := by
  intro b hb
  have hconfigs : selectWhere (fun r => r.owner = b) (ConfigRepository.remove owner id d).configs
      = selectWhere (fun r => r.owner = b) d.configs :=
    selectWhere_deleteWhere fun cfg _ ho hp => hb (ho.symm.trans hp.2)
  have hconnections : selectWhere (ConnectionRow.Owned b)
      (ConfigRepository.remove owner id d).connections
        = selectWhere (ConnectionRow.Owned b) d.connections := by
    refine selectWhere_deleteWhere fun co hco howned => ?_
    rintro ⟨cfg, -, hp, hof⟩
    have hconfig : co.configOwner = owner := hof.2.trans hp.2
    exact not_owned hb hconfig ((hv.same_owner co hco).trans hconfig) howned
  simp only [DB.rowsOf, hconfigs, hconnections]
  rfl

/-! ### All of them. -/

theorem Written.valid {req : Request} (h : Written net owner req d d') (hv : d.Valid) : d'.Valid := by
  cases h with
  | config id f hf => exact hv.updateConfigs _ hf
  | saved new connections howner hid hchannels hsave =>
      rcases ConfigRepository.save_cases new connections d with ⟨e, heq⟩ | ⟨d1, heq, hsaved⟩
      · rw [heq] at hsave
        cases hsave
      · rw [heq] at hsave
        cases hsave
        exact hsaved.valid hv
  | replaced channels hchannels hupdate =>
      rcases ConfigRepository.updateConnections_cases owner _ channels _ d with
        ⟨e, heq⟩ | ⟨d1, heq, hreplaced⟩
      · rw [heq] at hupdate
        cases hupdate
      · rw [heq] at hupdate
        cases hupdate
        exact hreplaced.valid hv
  | removed hdeleted hcleaned => exact (hv.deleteConfigs _).cleanup
  | left hdeleted hskipped => exact hv.deleteConfigs _
  | cleaned hkept => exact hv.cleanup

/-- **A call touches rows of its user and dangling channels only.** -/
theorem Written.touches (hsdk : ∀ id ch, net.channel id = .ok ch → ch.id = id) {req : Request}
    (h : Written net owner req d d') (hv : d.Valid) : Touches owner d d' := by
  cases h with
  | config id f hf => exact (sparesOthers_updateConfig id fun r => (hf r).2.1).touches
  | saved new connections howner hid hchannels hsave => exact (sparesOthers_save howner hsave).touches
  | replaced channels hchannels hupdate =>
      rcases updateConnections_rows hupdate with ⟨rfl, rfl⟩ | ⟨hvalid, ⟨-, rfl⟩ | rfl⟩
      · obtain rfl := newChannels_nil hsdk hchannels
        rw [List.map_nil, List.append_nil]
        exact SparesOthers.refl.touches
      · exact (sparesOthers_reconnectedRows _ _ _ _).touches
      · exact (sparesOthers_reconnectedRows _ _ _ _).touches_cleanup hv (hvalid hv)
  | removed hdeleted hcleaned =>
      exact (sparesOthers_remove hv _).touches_cleanup hv (hv.deleteConfigs _)
  | left hdeleted hskipped => exact (sparesOthers_remove hv _).touches
  | cleaned hkept => exact SparesOthers.refl.touches_cleanup hv hv

/-- **A call leaves no channel dangling**, if its removals are cleaned up after. -/
theorem Written.tidy (hsdk : ∀ id ch, net.channel id = .ok ch → ch.id = id) {req : Request}
    (hclean : (RegistryStep.call net req).CleansUp) (h : Written net owner req d d') (hv : d.Valid)
    (ht : d.Tidy) : d'.Tidy := by
  cases h with
  | config id f hf => exact ht
  | saved new connections howner hid hchannels hsave =>
      exact tidy_save hsdk howner hchannels hsave ht
  | replaced channels hchannels hupdate =>
      rcases updateConnections_rows hupdate with ⟨rfl, rfl⟩ | ⟨hvalid, ⟨hkept, rfl⟩ | rfl⟩
      · obtain rfl := newChannels_nil hsdk hchannels
        rw [List.map_nil, List.append_nil]
        exact ht
      · exact tidy_reconnectedRows hsdk hchannels hkept ht
      · exact tidy_cleanup (hvalid hv)
  | removed hdeleted hcleaned => exact tidy_cleanup (hv.deleteConfigs _)
  | left hdeleted hskipped => exact absurd (hclean hdeleted) hskipped
  | cleaned hkept => exact tidy_cleanup hv

end Writes

/-! ## §4. Runs. -/

section Runs

variable {s : Registry} {st : RegistryStep}

theorem bootstrap_world (attempt : Attempt) (externalKey externalID : String) (secure : Bool)
    (s : Registry) : (bootstrap attempt externalKey externalID secure s).1.world = s.world := by
  unfold bootstrap
  split
  · split
    · rfl
    · rfl
    · split
      · rfl
      · split
        · rfl
        · rfl
  · rfl

theorem bootstrap_db (attempt : Attempt) (externalKey externalID : String) (secure : Bool)
    (s : Registry) :
    (registryStep s (.bootstrap attempt externalKey externalID secure)).db = s.db :=
  congrArg World.db (bootstrap_world attempt externalKey externalID secure s)

theorem valid_handleEvent (write cleanup : Option RepoFault) (ev : Decoded) {d : DB} (hv : d.Valid) :
    (handleEvent write cleanup ev d).Valid := by
  unfold handleEvent
  split
  next id =>
      have hdeleted : DB.Valid
          (if effective write then deleteConfigs (fun cfg => cfg.mfThing = id) d else d) := by
        split
        · exact hv.deleteConfigs _
        · exact hv
      simp only
      split
      · exact hdeleted.cleanup
      · exact hdeleted
  next =>
      split
      · exact hv.apply _
      · exact hv

theorem tidy_handleEvent {write cleanup : Option RepoFault} {ev : Decoded} {d : DB} (hv : d.Valid)
    (ht : d.Tidy) (hclean : (RegistryStep.event write cleanup ev).CleansUp) :
    (handleEvent write cleanup ev d).Tidy := by
  cases ev with
  | removeThing id =>
      simp only [handleEvent]
      by_cases hc : effective cleanup
      · rw [if_pos hc]
        split
        · exact tidy_cleanup (hv.deleteConfigs _)
        · exact tidy_cleanup hv
      · have hw : ¬ effective write := fun hw => hc (hclean hw)
        rw [if_neg hc, if_neg hw]
        exact ht
  | disconnectThing c t =>
      simp only [handleEvent]
      split
      · exact ht
      · exact ht
  | updateChannel channel =>
      simp only [handleEvent]
      split
      · -- the columns that are updated are not the key
        intro ch hch
        rcases mem_updateWhere.mp hch with ⟨old, hold, -, rfl⟩ | ⟨hch, -⟩
        · exact ht old hold
        · exact ht ch hch
      · exact ht
  | removeChannel id =>
      simp only [handleEvent]
      split
      · intro ch hch
        obtain ⟨hch, hid⟩ := mem_deleteWhere.mp hch
        obtain ⟨co, hco, hof⟩ := ht ch hch
        refine ⟨co, mem_deleteWhere.mpr ⟨hco, ?_⟩, hof⟩
        rintro ⟨ch', -, hid', hof'⟩
        exact hid (hof.1.symm.trans (hof'.1.trans hid'))
      · exact ht
  | skipped =>
      simp only [handleEvent]
      split
      · exact ht
      · exact ht

theorem valid_step (hv : s.db.Valid) : (registryStep s st).db.Valid := by
  cases st with
  | call net req =>
      rcases call_cases s net req with hsame | ⟨owner, -, hwritten⟩
      · rw [hsame]
        exact hv
      · exact hwritten.valid hv
  | bootstrap attempt externalKey externalID secure =>
      rw [bootstrap_db]
      exact hv
  | event write cleanup ev => exact valid_handleEvent write cleanup ev hv

theorem tidy_step (hsdk : st.SdkFaithful) (hclean : st.CleansUp) (hv : s.db.Valid) (ht : s.db.Tidy) :
    (registryStep s st).db.Tidy := by
  cases st with
  | call net req =>
      rcases call_cases s net req with hsame | ⟨owner, -, hwritten⟩
      · rw [hsame]
        exact ht
      · exact hwritten.tidy hsdk hclean hv ht
  | bootstrap attempt externalKey externalID secure =>
      rw [bootstrap_db]
      exact ht
  | event write cleanup ev => exact tidy_handleEvent hv ht hclean

theorem touches_step {owner : String} (hsdk : st.SdkFaithful) (hby : st.By owner) (hv : s.db.Valid) :
    Touches owner s.db (registryStep s st).db := by
  cases st with
  | call net req =>
      rcases call_cases s net req with hsame | ⟨user, hid, hwritten⟩
      · rw [hsame]
        exact SparesOthers.refl.touches
      · obtain rfl := hby user hid
        exact hwritten.touches hsdk hv
  | bootstrap attempt externalKey externalID secure =>
      rw [bootstrap_db]
      exact SparesOthers.refl.touches
  | event write cleanup ev => exact absurd hby id

theorem valid_emptyRegistry (links : List (String × String)) : (emptyRegistry links).db.Valid := by
  refine ⟨⟨?_, ?_, ?_, ?_, ?_, ?_, ?_⟩, ?_⟩ <;>
    simp [emptyRegistry, Registry.db, Consistency.start]

theorem valid_run (links : List (String × String)) (steps : List RegistryStep) :
    (run registryStep (emptyRegistry links) steps).db.Valid := by
  have hinv : ∀ (s : Registry) (st : RegistryStep), s.db.Valid → True →
      (registryStep s st).db.Valid := fun s st hv _ => valid_step hv
  exact run_inv hinv (valid_emptyRegistry links) (along_of_forall (fun _ _ => trivial) _ _)

theorem tidy_run (links : List (String × String)) {steps : List RegistryStep}
    (hsdk : ∀ st ∈ steps, st.SdkFaithful) (hclean : ∀ st ∈ steps, st.CleansUp) :
    (run registryStep (emptyRegistry links) steps).db.Tidy := by
  have hinv : ∀ (s : Registry) (st : RegistryStep), (s.db.Valid ∧ s.db.Tidy) →
      st.SdkFaithful ∧ st.CleansUp → (registryStep s st).db.Valid ∧ (registryStep s st).db.Tidy := by
    intro s st hs hst
    exact ⟨valid_step hs.1, tidy_step hst.1 hst.2 hs.1 hs.2⟩
  have hstart : (emptyRegistry links).db.Tidy := fun ch hch => absurd hch List.not_mem_nil
  exact (run_inv hinv ⟨valid_emptyRegistry links, hstart⟩
    (along_of_mem fun st hst _ => ⟨hsdk st hst, hclean st hst⟩)).2

/-- What the tables of `s` should be like: nothing dangles, and nobody changes what
is not theirs. -/
def Registry.Tenancy (s : Registry) : Prop :=
  (s.db.Tidy ∧ s.db.Referenced) ∧
    ∀ owner st, st.SdkFaithful → st.By owner → SparesOthers owner s.db (registryStep s st).db

/-- **Who owns what, and who changes it.**  In every run the connection rows are in
order, and a step of a user changes no row of anybody else but for channels that
have no connection.  As long as removals are cleaned up after, there are no such
channels. -/
theorem tenancy_of_run (links : List (String × String)) (steps : List RegistryStep)
    (hsdk : ∀ st ∈ steps, st.SdkFaithful) :
    let s := run registryStep (emptyRegistry links) steps
    (s.db.Referenced ∧
      ∀ owner st, st.SdkFaithful → st.By owner → Touches owner s.db (registryStep s st).db) ∧
      ((∀ st ∈ steps, st.CleansUp) → s.Tenancy) := by
  intro s
  have hv : s.db.Valid := valid_run links steps
  refine ⟨⟨hv.referenced, fun owner st hst hby => touches_step hst hby hv⟩, fun hclean => ?_⟩
  have ht : s.db.Tidy := tidy_run links hsdk hclean
  refine ⟨⟨ht, hv.referenced⟩, fun owner st hst hby => ?_⟩
  exact (touches_step hst hby hv).sparesOthers hv ht

end Runs

/-! ## §5. A sensor that is removed. -/

/-- Bob adds his sensor with its two channels, and removes it. -/
def addAndRemove (cleanup : Option RepoFault) : List RegistryStep :=
  [.call (answeringBut fun _ => none) (.add "bob" sensorHallLab),
    .call { answeringBut (fun _ => none) with cleanup := cleanup } (.remove "bob" "sensor")]

theorem sdkFaithful_addAndRemove (cleanup : Option RepoFault) :
    ∀ st ∈ addAndRemove cleanup, st.SdkFaithful := by
  intro st hst
  simp only [addAndRemove, List.mem_cons, List.not_mem_nil, or_false] at hst
  rcases hst with rfl | rfl
  · intro id ch h
    cases h
    rfl
  · intro id ch h
    cases h
    rfl

/-- Both steps succeed: the channels go with the sensor. -/
theorem tenancy_of_run_sensor :
    (run registryStep (emptyRegistry []) (addAndRemove none)).Tenancy ∧
      (run registryStep (emptyRegistry []) (addAndRemove none)).db.channels = [] := by
  refine ⟨(tenancy_of_run [] _ (sdkFaithful_addAndRemove none)).2 ?_, by decide +kernel⟩
  intro st hst
  simp only [addAndRemove, List.mem_cons, List.not_mem_nil, or_false] at hst
  rcases hst with rfl | rfl
  · trivial
  · exact fun _ => ⟨rfl, rfl⟩

/-- **The cleanup fails**: the two channels stay, without a connection. -/
theorem failed_cleanup_dangles :
    ¬ ∀ (links : List (String × String)) (steps : List RegistryStep),
      (∀ st ∈ steps, st.SdkFaithful) → (run registryStep (emptyRegistry links) steps).Tenancy := by
  intro h
  have htidy := (h [] _ (sdkFaithful_addAndRemove (some .refused))).1.1
  have hleft : ⟨"hall", "bob", none, none⟩
      ∈ (run registryStep (emptyRegistry []) (addAndRemove (some .refused))).db.channels := by
    decide +kernel
  obtain ⟨co, hco, -⟩ := htidy _ hleft
  have hnone : (run registryStep (emptyRegistry []) (addAndRemove (some .refused))).db.connections
      = [] := by decide +kernel
  rw [hnone] at hco
  cases hco

end Mainflux.Bootstrap
