/-
  Mainflux.Bootstrap.Calls
  ────────────────────────
  **THE CALLS OF THE API KEEP THE INVARIANT.**

  Every call but `UpdateConnections`: what it leaves, for every failure of every
  call it makes, and that a safe one keeps `Inv` once the records it caused are
  handled.  `Update`, `UpdateCert` and `Remove` always do.
-/
import Mainflux.Bootstrap.Agreement

namespace Mainflux.Bootstrap.Consistency

open Mainflux.Lib

/-! ## §1. The calls that do not reach Things. -/

section Calls

variable {net : Net} {w : World}

theorem settled_of_nil (hp : w.pending = []) : settled w = w.db := by
  rw [settled, hp]
  rfl

theorem settled_mk {d : DB} {links : List (String × String)} {evs : List Decoded}
    (hp : evs = []) : settled ⟨d, links, evs⟩ = d := settled_of_nil (w := ⟨d, links, evs⟩) hp

/-- A write takes effect or changes nothing. -/
theorem repoCall_cases {α : Type} (fault : Option RepoFault) (w : World)
    (done : DB × Except Err α) :
    Effective fault ∧ (repoCall fault w done).1 = { w with db := done.1 } ∨
      (repoCall fault w done).1 = w := by
  cases fault with
  | none => exact .inl ⟨.inl rfl, rfl⟩
  | some f =>
      cases f with
      | refused => exact .inr rfl
      | unanswered => exact .inl ⟨.inr rfl, rfl⟩
      | lost => exact .inr rfl

theorem repoCall_effective {α : Type} {fault : Option RepoFault} (he : Effective fault) (w : World)
    (done : DB × Except Err α) : (repoCall fault w done).1 = { w with db := done.1 } := by
  rcases he with rfl | rfl
  · rfl
  · rfl

/-- A write that keeps the invariant keeps it whatever becomes of the call. -/
theorem inv_repoCall {α : Type} {fault : Option RepoFault} {done : DB × Except Err α}
    (h : Inv w.db w.links) (hp : w.pending = []) (hd : Inv done.1 w.links) :
    Inv (settled (repoCall fault w done).1) (repoCall fault w done).1.links := by
  rcases repoCall_cases fault w done with ⟨-, heq⟩ | heq
  · rw [heq, settled_mk hp]
    exact hd
  · rw [heq, settled_of_nil hp]
    exact h

theorem run_identify (key : String) :
    (Service.identify key).run (handler net) w
      = (w, match net.identify key with
          | none => .error .unauthorizedAccess
          | some owner => .ok owner) := by
  simp only [Service.identify, cmd, Prog.run_bind, Prog.run_call, Prog.run_ret, handler]
  cases net.identify key <;> rfl

variable (h : Inv w.db w.links) (hp : w.pending = [])
include h hp

theorem inv_same : Inv (settled w) w.links := by
  rw [settled_of_nil hp]
  exact h

theorem inv_update (key : String) (cfg : Config) :
    let w' := step w (.call net (.update key cfg))
    Inv (settled w') w'.links := by
  simp only [step, serve, Service.update, cmd, Prog.run_bind, run_identify]
  cases net.identify key with
  | none => exact inv_same h hp
  | some owner =>
      refine inv_repoCall h hp (h.updateConfigs _ ?_ ?_)
      · exact fun r => ⟨rfl, rfl, rfl, rfl⟩
      · exact fun r => rfl

theorem inv_updateCert (key thingID clientCert clientKey caCert : String) :
    let w' := step w (.call net (.updateCert key thingID clientCert clientKey caCert))
    Inv (settled w') w'.links := by
  simp only [step, serve, Service.updateCert, cmd, Prog.run_bind, run_identify]
  cases net.identify key with
  | none => exact inv_same h hp
  | some owner =>
      refine inv_repoCall h hp (h.updateConfigs _ ?_ ?_)
      · exact fun r => ⟨rfl, rfl, rfl, rfl⟩
      · exact fun r => rfl

/-- `Remove` leaves the thing connected, but no config that says so. -/
theorem inv_remove (key id : String) :
    let w' := step w (.call net (.remove key id))
    Inv (settled w') w'.links := by
  cases hid : net.identify key with
  | none =>
      simp only [step, serve, Service.remove, Prog.run_bind, run_identify, hid, Prog.run_pure]
      exact inv_same h hp
  | some owner =>
      have hremoved : Inv (ConfigRepository.remove owner id w.db) w.links :=
        h.deleteConfigs _ fun _ _ => Iff.rfl
      -- the cleanup runs on whatever the first statement left
      have hfirst : ∃ d, Inv d w.links ∧
          (repoCall net.write w (ConfigRepository.remove owner id w.db, Except.ok ())).1
            = { w with db := d } := by
        rcases repoCall_cases net.write w
          (ConfigRepository.remove owner id w.db, (Except.ok () : Except Err Unit)) with
          ⟨-, heq⟩ | heq
        · exact ⟨_, hremoved, heq⟩
        · exact ⟨_, h, heq⟩
      obtain ⟨d, hd, heq⟩ := hfirst
      simp only [step, serve, Service.remove, cmd, Prog.run_bind, run_identify, hid,
        Prog.run_call, Prog.run_ret, handler, heq]
      cases (repoCall net.write w (ConfigRepository.remove owner id w.db, Except.ok ())).2 with
      | error e => exact inv_same (w := { w with db := d }) hd hp
      | ok u =>
          exact inv_repoCall (w := { w with db := d }) hd hp hd.cleanup

end Calls

/-! ## §2. `Add`. -/

section Add

variable {net : Net} {w : World}

theorem run_fetchChannels (key : String) (ids : List String) :
    (Service.fetchChannels key ids).run (handler net) w = (w, fetched net ids) := by
  induction ids with
  | nil => rfl
  | cons id ids ih =>
      simp only [Service.fetchChannels, cmd, Prog.run_bind, Prog.run_call, Prog.run_ret, handler,
        fetched]
      cases net.channel id with
      | error e => rfl
      | ok ch => simp only [Prog.run_bind, ih, Prog.run_pure]

theorem run_connectionChannels (channels existing : List String) (key : String) :
    (Service.connectionChannels channels existing key).run (handler net) w
      = (w, fetched net (net.order (Service.missing channels existing))) := by
  simp only [Service.connectionChannels, cmd, Prog.run_bind, Prog.run_call, Prog.run_ret, handler,
    run_fetchChannels]

/-- The deletion of a thing takes effect or changes nothing. -/
theorem sdkCall_delete (fault : Option SdkFault) (w : World) (t : String) :
    (sdkCall fault w (w.deleteThing t, .ok ())).1 = w ∨
      (sdkCall fault w (w.deleteThing t, .ok ())).1 = w.deleteThing t := by
  cases fault with
  | none => exact .inr rfl
  | some f =>
      cases f with
      | refused e => exact .inl rfl
      | unanswered => exact .inr rfl

/-- Fetching a thing changes nothing when it succeeds, and at most deletes a
thing when it fails. -/
theorem run_fetchThing (net : Net) (w : World) (key id thingID : String) :
    (∃ th, net.thing thingID = .ok th ∧
        (Service.fetchThing key id thingID).run (handler net) w = (w, .ok th)) ∨
      ∃ e w1, (Service.fetchThing key id thingID).run (handler net) w = (w1, .error e) ∧
        (w1 = w ∨ ∃ t, w1 = w.deleteThing t) := by
  simp only [Service.fetchThing, cmd, Prog.run_bind, Prog.run_call, Prog.run_ret, handler]
  cases hth : net.thing thingID with
  | ok th => exact .inl ⟨th, rfl, rfl⟩
  | error e =>
      have hstopped : ∀ w1, (w1 = w ∨ ∃ t, w1 = w.deleteThing t) →
          ∃ e w1', ((w1, .error .things) : World × Except Err SdkThing) = (w1', .error e) ∧
            (w1' = w ∨ ∃ t, w1' = w.deleteThing t) := fun w1 hw1 => ⟨_, w1, rfl, hw1⟩
      by_cases hid : id = ""
      · cases e <;> simp only [hid, if_true, Prog.run_pure] <;>
          exact .inr ⟨_, w, rfl, .inl rfl⟩
      · cases e with
        | notFound => exact .inr ⟨_, w, rfl, .inl rfl⟩
        | _ =>
            simp only [hid, if_false, Prog.run_bind, Prog.run_call, Prog.run_ret, Prog.run_pure,
              handler]
            refine .inr (hstopped _ ?_)
            rcases sdkCall_delete net.deleteThing w thingID with heq | heq
            · exact .inl heq
            · exact .inr ⟨_, heq⟩

theorem run_thing (net : Net) (w : World) (key : String) (cfg : Config) :
    (∃ id th, askedThing net cfg = some id ∧ net.thing id = .ok th ∧
        (Service.thing key cfg.mfThing).run (handler net) w = (w, .ok th)) ∨
      ∃ e w1, (Service.thing key cfg.mfThing).run (handler net) w = (w1, .error e) ∧
        (w1 = w ∨ ∃ t, w1 = w.deleteThing t) := by
  by_cases hid : cfg.mfThing = ""
  · simp only [Service.thing, askedThing, hid, if_true, cmd, Prog.run_bind, Prog.run_call,
      Prog.run_ret, handler]
    cases hcreate : net.createThing with
    | error e => exact .inr ⟨_, w, rfl, .inl rfl⟩
    | ok id =>
        rcases run_fetchThing net w key "" id with ⟨th, hth, hrun⟩ | hrun
        · exact .inl ⟨id, th, rfl, hth, hrun⟩
        · exact .inr hrun
  · simp only [Service.thing, askedThing, hid, if_false]
    rcases run_fetchThing net w key cfg.mfThing cfg.mfThing with
      ⟨th, hth, hrun⟩ | hrun
    · exact .inl ⟨_, th, rfl, hth, hrun⟩
    · exact .inr hrun

/-- What `Add` can leave: the tables of before or with the new config, and at
most one thing deleted. -/
def AddLeaves (w w' : World) : Prop :=
  ∃ d, Inv d w.links ∧ (w' = { w with db := d } ∨ ∃ t, w' = World.deleteThing t { w with db := d })

theorem inv_of_addLeaves {w' : World} (hp : w.pending = []) (h : AddLeaves w w') :
    Inv (settled w') w'.links := by
  obtain ⟨d, hd, rfl | ⟨t, rfl⟩⟩ := h
  · exact inv_same (w := { w with db := d }) hd hp
  · have hsettled : settled (World.deleteThing t { w with db := d })
        = ConfigRepository.removeThing t d := by
      simp only [settled, World.deleteThing, hp]
      rfl
    rw [hsettled]
    refine hd.removeThing fun p hne => ?_
    simp only [World.deleteThing, mem_deleteWhere, hne, not_false_iff, and_true]

/-- Storing the new config, and deleting its thing if that fails. -/
theorem addLeaves_save (net : Net) (h : Inv w.db w.links) (new : Config) {connections : List String}
    (hstate : new.state = .inactive) (hfree : ∀ c ∈ connections, (c, new.mfThing) ∉ w.links) :
    let w1 := (repoCall net.write w (ConfigRepository.save new connections w.db)).1
    AddLeaves w w1 ∧ AddLeaves w (sdkCall net.deleteThing w1 (w1.deleteThing new.mfThing, .ok ())).1 := by
  have hstored : ∃ d, Inv d w.links ∧
      (repoCall net.write w (ConfigRepository.save new connections w.db)).1 = { w with db := d } := by
    rcases repoCall_cases net.write w (ConfigRepository.save new connections w.db) with
      ⟨-, heq⟩ | heq
    · rcases ConfigRepository.save_cases new connections w.db with ⟨e, hsave⟩ | ⟨d, hsave, hs⟩
      · exact ⟨w.db, h, by rw [heq, hsave]⟩
      · exact ⟨d, h.saved hs hstate hfree, by rw [heq, hsave]⟩
    · exact ⟨w.db, h, heq⟩
  obtain ⟨d, hd, heq⟩ := hstored
  rw [heq]
  refine ⟨⟨d, hd, .inl rfl⟩, d, hd, ?_⟩
  rcases sdkCall_delete net.deleteThing { w with db := d } new.mfThing with hdel | hdel
  · exact .inl hdel
  · exact .inr ⟨_, hdel⟩

theorem inv_add (h : Inv w.db w.links) (hp : w.pending = []) {key : String} {cfg : Config}
    (hsafe : SafeCall net w (.add key cfg)) :
    let w' := step w (.call net (.add key cfg))
    Inv (settled w') w'.links := by
  refine inv_of_addLeaves hp ?_
  have hsame : AddLeaves w w := ⟨w.db, h, .inl rfl⟩
  simp only [step, serve, Service.add, cmd, Prog.run_bind, run_identify, Prog.run_pure]
  cases net.identify key with
  | none => exact hsame
  | some owner =>
      simp only [Prog.run_bind, Prog.run_call, Prog.run_ret, handler]
      cases net.listExisting with
      | some e => exact hsame
      | none =>
          simp only [repoRead, Prog.run_bind, run_connectionChannels]
          cases fetched net (net.order (Service.missing (Service.toIDList cfg.mfChannels)
              (Service.toIDList (ConfigRepository.listExisting owner
                (Service.toIDList cfg.mfChannels) w.db)))) with
          | error e => exact hsame
          | ok channels =>
              simp only [Prog.run_bind]
              rcases run_thing net w key cfg with
                ⟨id, th, hasked, hth, hrun⟩ | ⟨e, w1, hrun, hw1⟩
              · -- the thing exists; what remains is `Save`, and undoing a thing just made
                simp only [hrun, Prog.run_bind, Prog.run_call, Prog.run_ret, handler]
                obtain ⟨hsaved, hdeleted⟩ := addLeaves_save net h
                  { cfg with mfThing := th.id, owner := owner, state := .inactive,
                                     mfKey := th.key, mfChannels := channels } rfl
                  (hsafe id th hasked hth)
                cases (repoCall net.write w (ConfigRepository.save _ _ w.db)).2 with
                | ok saved => exact hsaved
                | error e =>
                    by_cases hid : cfg.mfThing = ""
                    · simp only [hid, if_true, Prog.run_bind, Prog.run_call, Prog.run_ret,
                        Prog.run_pure, handler]
                      exact hdeleted
                    · simp only [hid, if_false, Prog.run_pure]
                      exact hsaved
              · simp only [hrun, Prog.run_pure]
                rcases hw1 with rfl | ⟨t, rfl⟩
                · exact hsame
                · exact ⟨w.db, h, .inr ⟨t, rfl⟩⟩

end Add

/-! ## §3. `ChangeState`. -/

section ChangeState

variable {net : Net} {w : World}

/-- A call that finds a config finds a row. -/
theorem Finds.row {key id owner : String} {cfg : Config} (hf : Finds net w key id owner cfg) :
    ∃ r ∈ w.db.configs, r.mfThing = id ∧ r.owner = owner ∧ cfg.state = r.state ∧
      cfg.mfThing = id ∧ Service.toIDList cfg.mfChannels = channelIDs r w.db := by
  obtain ⟨r, hr, rfl, rfl, hstate, hthing, hchan⟩ :=
    ConfigRepository.row_of_retrieveByID hf.2.2
  exact ⟨r, hr, rfl, rfl, hstate, hthing, by rw [hchan]⟩

/-- What follows the calls on Things: the write, unless they stopped. -/
def thenWrite (net : Net) (write : DB → DB × Except Err Unit) :
    World × Except Err Unit → World
  | (w1, .error _) => w1
  | (w1, .ok ()) => (repoCall net.write w1 (write w1.db)).1

/-- The write is made or not. -/
theorem thenWrite_cases (net : Net) (write : DB → DB × Except Err Unit) (x : World × Except Err Unit) :
    Effective net.write ∧ x.2 = .ok () ∧ thenWrite net write x = { x.1 with db := (write x.1.db).1 } ∨
      thenWrite net write x = x.1 := by
  obtain ⟨w1, e | u⟩ := x
  · exact .inr rfl
  · rcases repoCall_cases net.write w1 (write w1.db) with ⟨he, heq⟩ | heq
    · exact .inl ⟨he, rfl, heq⟩
    · exact .inr heq

/-- `ChangeState` changes nothing, or finds a config in the other state and
switches it. -/
theorem run_changeState (net : Net) (w : World) (key id : String) (state : State) :
    step w (.call net (.changeState key id state)) = w ∨
      ∃ owner cfg, Finds net w key id owner cfg ∧ cfg.state ≠ state ∧
        step w (.call net (.changeState key id state))
          = thenWrite net (ConfigRepository.changeState owner id state)
              ((Service.switchThing key cfg state).run (handler net) w) := by
  simp only [step, serve, Service.changeState, cmd, Prog.run_bind, run_identify]
  cases hid : net.identify key with
  | none => exact .inl rfl
  | some owner =>
      simp only [Prog.run_bind, Prog.run_call, Prog.run_ret, handler]
      cases hret : net.retrieve with
      | some e => exact .inl rfl
      | none =>
          simp only [repoRead]
          cases hfind : ConfigRepository.retrieveByID owner id w.db with
          | error e => exact .inl rfl
          | ok cfg =>
              by_cases hstate : cfg.state = state
              · left
                simp only [hstate, if_true, Prog.run_pure]
              · refine .inr ⟨owner, cfg, ⟨hid, hret, hfind⟩, hstate, ?_⟩
                simp only [hstate, if_false, Prog.run_bind]
                rcases (Service.switchThing key cfg state).run (handler net) w with ⟨w1, e | u⟩
                · rfl
                · rfl

variable (h : Inv w.db w.links) (hp : w.pending = [])
include h hp

omit hp in
/-- A config without channels can be in either state. -/
theorem inv_setState_nil {r : ConfigRow} (hr : r ∈ w.db.configs) (hnil : channelIDs r w.db = [])
    (state : State) :
    Inv (ConfigRepository.changeState r.owner r.mfThing state w.db).1 w.links := by
  refine h.setState hr (fun co hco hid => ?_) (fun _ _ _ => Iff.rfl)
  have hmem : co.channelID ∈ channelIDs r w.db :=
    (mem_channelIDs h.valid hr).mpr ⟨co, hco, hid, rfl⟩
  rw [hnil] at hmem
  cases hmem

/-- After disconnections from all channels of a config that was connected to
some, the records set every config inactive; no other one was active. -/
theorem inv_parted {r : ConfigRow} (hr : r ∈ w.db.configs) {cs taken : List String} {w1 : World}
    (hparted : Parted r.mfThing cs taken w w1) (hactive : r.state = .active)
    (hne : channelIDs r w.db ≠ []) (hall : ∀ c ∈ channelIDs r w.db, (c, r.mfThing) ∉ w1.links)
    (hq : Quiet w.db r.mfThing) {d : DB} {links : List (String × String)} (hv : d.Valid)
    (hconn : d.connections = w.db.connections)
    (hlinks : ∀ p ∈ links, p ∈ w1.links ∨ p.2 = r.mfThing ∧ p.1 ∉ channelIDs r w.db) :
    Inv (settle w1.pending d) links := by
  -- a channel of the config was connected, so its disconnection is among the records
  have hrow : ∃ c ∈ taken, d.HasConnection c r.mfThing := by
    obtain ⟨c, hc⟩ := List.exists_mem_of_ne_nil _ hne
    have hlinked := (h.channel_linked_iff hr hc).mp hactive
    have htaken : c ∈ taken := by
      by_contra hnot
      exact hall c hc ((hparted.links _).mpr ⟨hlinked, fun hin => hnot hin.2⟩)
    refine ⟨c, htaken, ?_⟩
    unfold DB.HasConnection
    rw [hconn]
    exact (mem_channelIDs h.valid hr).mp hc
  rw [hparted.pending, hp, List.nil_append, settle_of_row hrow]
  refine inv_inactivated hv fun co hco hin => ?_
  rw [hconn] at hco
  rcases hlinks _ hin with hin | ⟨hid, hout⟩
  · have hold := ((hparted.links _).mp hin).1
    have hid := h.thing_of_linked hq hco hold
    have hc : co.channelID ∈ channelIDs r w.db :=
      (mem_channelIDs h.valid hr).mpr ⟨co, hco, hid, rfl⟩
    rw [hid] at hin
    exact hall _ hc hin
  · exact hout ((mem_channelIDs h.valid hr).mpr ⟨co, hco, hid, rfl⟩)

/-- Activation: all channels are connected and the config is active, or nothing
has happened. -/
theorem inv_activate {key id owner : String} {cfg : Config} (hf : Finds net w key id owner cfg)
    (hstate : cfg.state ≠ .active)
    (hsafe : SafeSwitch net w id (Service.toIDList cfg.mfChannels) .active) :
    let w' := thenWrite net (ConfigRepository.changeState owner id .active)
      ((Service.switchThing key cfg .active).run (handler net) w)
    Inv (settled w') w'.links := by
  obtain ⟨r, hr, rfl, rfl, hst, hthing, hchan⟩ := hf.row
  rw [hst] at hstate
  have hconnects := connects_connectThing net key r.mfThing
  simp only [Service.switchThing, Prog.run_each, hthing, hchan]
  rw [hchan] at hsafe
  rcases hsafe with hnil | ⟨c, e, hc, hrefused⟩ | ⟨hcalls, heffective⟩
  · rw [hnil]
    exact inv_repoCall h hp (inv_setState_nil h hr hnil .active)
  · obtain ⟨e', hloop⟩ := loop_refused hconnects (w := w) hc hrefused
    rw [hloop]
    exact inv_same h hp
  · -- an inactive config has no connected channel, so no call can conflict
    have hfree : ∀ c ∈ channelIDs r w.db, (c, r.mfThing) ∉ w.links := fun c hc hin =>
      hstate ((h.channel_linked_iff hr hc).mpr hin)
    have hok := loop_ok hconnects hcalls (h.valid.nodup_channelsOf _ _) hfree
    have hlinked := linked_of_loop_ok hconnects hok
    have hjoined := joined_loop hconnects (channelIDs r w.db) w
    rcases hloop : Prog.eachOn
      (fun c w => (Service.connectThing key r.mfThing c).run (handler net) w)
      (channelIDs r w.db) w with ⟨w1, res⟩
    rw [hloop] at hok hlinked hjoined
    cases hok
    have hdb : w1.db = w.db := hjoined.db
    rw [thenWrite, repoCall_effective heffective, hdb, settled_mk (hjoined.pending.trans hp)]
    refine h.setState hr (fun co hco hid => ?_) (fun co hco hid => ?_)
    · rw [hid]
      have hc := (mem_channelIDs h.valid hr).mpr ⟨co, hco, hid, rfl⟩
      exact ⟨fun _ => hlinked _ hc, fun _ => rfl⟩
    · constructor
      · intro hin
        rcases hjoined.made _ hin with hin | ⟨hthing, -⟩
        · exact hin
        · exact absurd hthing hid
      · exact hjoined.kept _

/-- Deactivation: all channels are disconnected and all configs inactive, or
nothing has happened. -/
theorem inv_deactivate {key id owner : String} {cfg : Config} (hf : Finds net w key id owner cfg)
    (hstate : cfg.state ≠ .inactive)
    (hsafe : SafeSwitch net w id (Service.toIDList cfg.mfChannels) .inactive) :
    let w' := thenWrite net (ConfigRepository.changeState owner id .inactive)
      ((Service.switchThing key cfg .inactive).run (handler net) w)
    Inv (settled w') w'.links := by
  obtain ⟨r, hr, rfl, rfl, hst, hthing, hchan⟩ := hf.row
  rw [hst] at hstate
  have hactive : r.state = .active := by
    cases hs : r.state with
    | active => rfl
    | inactive => exact absurd hs hstate
  simp only [Service.switchThing, Prog.run_each, hthing, hchan]
  rw [hchan] at hsafe
  by_cases hnil : channelIDs r w.db = []
  · rw [hnil]
    exact inv_repoCall h hp (inv_setState_nil h hr hnil .inactive)
  · rcases hsafe with hnil' | hrefused | ⟨htaken, hq⟩
    · exact absurd hnil' hnil
    · rw [partLoop_refused hrefused]
      exact inv_same h hp
    · obtain ⟨taken, hparted⟩ := parted_loop net key r.mfThing (channelIDs r w.db) w
      have hall := partLoop_all key r.mfThing w htaken
      have hdb := hparted.db
      -- whether the write is made or not, the records settle it
      have hdone : ∀ d : DB, d.Valid → d.connections = w.db.connections →
          Inv (settle (Prog.eachOn (partBody net key r.mfThing) (channelIDs r w.db) w).1.pending d)
            (Prog.eachOn (partBody net key r.mfThing) (channelIDs r w.db) w).1.links :=
        fun d hv hconn =>
          inv_parted h hp hr hparted hactive hnil hall hq hv hconn fun p hin => .inl hin
      rcases thenWrite_cases net
        (ConfigRepository.changeState r.owner r.mfThing .inactive)
        (Prog.eachOn (partBody net key r.mfThing) (channelIDs r w.db) w) with ⟨-, -, heq⟩ | heq
      · rw [heq, hdb]
        exact hdone _ (h.valid.updateConfigs _ fun r => ⟨rfl, rfl, rfl, rfl⟩) rfl
      · rw [heq]
        exact hdone _ (by rw [hdb]; exact h.valid) (by rw [hdb])

theorem inv_changeState {key id : String} {state : State}
    (hsafe : SafeCall net w (.changeState key id state)) :
    let w' := step w (.call net (.changeState key id state))
    Inv (settled w') w'.links := by
  rcases run_changeState net w key id state with heq | ⟨owner, cfg, hf, hne, heq⟩
  · rw [heq]
    exact inv_same h hp
  · rw [heq]
    have hswitch := hsafe owner cfg hf hne
    cases state with
    | active => exact inv_activate h hp hf hne hswitch
    | inactive => exact inv_deactivate h hp hf hne hswitch

end ChangeState

end Mainflux.Bootstrap.Consistency
