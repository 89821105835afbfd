/-
  Mainflux.Bootstrap.Reconnect
  ────────────────────────────
  **`UpdateConnections` KEEPS THE INVARIANT.**

  `UpdateConnections` of an active config disconnects the channels that are not
  on the new list, connects the new ones, and stores the list LAST.  Whatever
  stops it in between leaves the old rows, and the records of the
  disconnections that were made then find them: all configs become inactive.
  §2 follows the two loops and the write through every outcome.
-/
import Mainflux.Bootstrap.Calls

namespace Mainflux.Bootstrap.Consistency

open Mainflux.Lib

/-! ## §1. The list and the write. -/

/-- What `updateList` removes are the channels of the config that are not
listed. -/
theorem mem_updateList_remove {c : String} (disconnect connections : List String) :
    c ∈ (Service.updateListLoop disconnect connections).2 ↔ c ∈ disconnect ∧ c ∉ connections := by
  induction connections generalizing disconnect with
  | nil => simp [Service.updateListLoop]
  | cons a connections ih =>
      simp only [Service.updateListLoop]
      split
      next => rw [ih]; simp [and_assoc]
      next hnot =>
          rw [ih, List.mem_cons, not_or]
          constructor
          · rintro ⟨hin, hout⟩
            exact ⟨hin, fun heq => hnot (heq ▸ hin), hout⟩
          · rintro ⟨hin, -, hout⟩
            exact ⟨hin, hout⟩

/-- What `updateList` adds is listed. -/
theorem mem_of_updateList_add {c : String} (disconnect connections : List String)
    (h : c ∈ (Service.updateListLoop disconnect connections).1) : c ∈ connections := by
  induction connections generalizing disconnect with
  | nil => exact h
  | cons a connections ih =>
      simp only [Service.updateListLoop] at h
      split at h
      next => exact List.mem_cons_of_mem _ (ih _ h)
      next =>
          rcases List.mem_cons.mp h with rfl | h
          · exact List.mem_cons_self
          · exact List.mem_cons_of_mem _ (ih _ h)

/-- What is listed is added, or was there. -/
theorem updateList_listed {c : String} (disconnect connections : List String)
    (h : c ∈ connections) :
    c ∈ (Service.updateListLoop disconnect connections).1 ∨ c ∈ disconnect := by
  induction connections generalizing disconnect with
  | nil => cases h
  | cons a connections ih =>
      simp only [Service.updateListLoop]
      split
      next hin =>
          rcases List.mem_cons.mp h with rfl | h
          · exact .inr hin
          · exact (ih _ h).imp id fun hd => (List.mem_filter.mp hd).1
      next =>
          rcases List.mem_cons.mp h with rfl | h
          · exact .inl List.mem_cons_self
          · exact (ih _ h).imp (List.mem_cons_of_mem _) id

section UpdateConnections

variable {net : Net} {w : World}

/-- `UpdateConnections` changes nothing, or finds a config and gets as far as
the calls on Things. -/
theorem run_updateConnections (net : Net) (w : World) (key id : String) (connections : List String) :
    step w (.call net (.updateConnections key id connections)) = w ∨
      ∃ owner cfg channels, Finds net w key id owner cfg ∧
        newChannels net w.db owner connections = .ok channels ∧
        step w (.call net (.updateConnections key id connections))
          = thenWrite net (ConfigRepository.updateConnections owner id channels connections)
              ((Service.reconnect key id cfg.state
                (Service.updateListLoop (Service.toIDList cfg.mfChannels).dedup connections).1
                (net.order (Service.updateListLoop (Service.toIDList cfg.mfChannels).dedup
                  connections).2)).run (handler net) w) := by
  simp only [step, serve, Service.updateConnections, cmd, Prog.run_bind, run_identify]
  cases hid : net.identify key with
  | none => exact .inl rfl
  | some owner =>
      simp only [Prog.run_bind, Prog.run_call, Prog.run_ret, handler]
      cases hret : net.retrieve with
      | some e => exact .inl rfl
      | none =>
          simp only [repoRead]
          cases hfind : ConfigRepository.retrieveByID owner id w.db with
          | error e => exact .inl rfl
          | ok cfg =>
              simp only [Service.updateList, cmd, Prog.run_bind, Prog.run_call, Prog.run_ret,
                Prog.run_pure, handler]
              cases hlist : net.listExisting with
              | some e => exact .inl rfl
              | none =>
                  simp only [repoRead, Prog.run_bind, run_connectionChannels]
                  cases hfetch : fetched net (net.order (Service.missing connections
                      (Service.toIDList (ConfigRepository.listExisting owner connections
                        w.db)))) with
                  | error e => exact .inl rfl
                  | ok channels =>
                      refine .inr ⟨owner, cfg, channels, ⟨hid, hret, hfind⟩, ?_, ?_⟩
                      · simp only [newChannels, hlist, hfetch]
                      · simp only [Prog.run_bind]
                        generalize (Service.reconnect key id cfg.state _ _).run (handler net) w = x
                        obtain ⟨w1, e | u⟩ := x
                        · rfl
                        · rfl

/-- The list is stored, or the tables are as before. -/
theorem thenWrite_connections (net : Net) (owner id : String) (channels : List Channel)
    (connections : List String) (x : World × Except Err Unit) :
    thenWrite net (ConfigRepository.updateConnections owner id channels connections) x = x.1 ∨
      ∃ d, ConfigRepository.Replaced owner id connections x.1.db d ∧ x.2 = .ok () ∧
        Effective net.write ∧
        (ConfigRepository.updateConnections owner id channels connections x.1.db).2 = .ok () ∧
        thenWrite net (ConfigRepository.updateConnections owner id channels connections) x
          = ⟨d, x.1.links, x.1.pending⟩ := by
  rcases thenWrite_cases net
    (ConfigRepository.updateConnections owner id channels connections) x with
    ⟨he, hok, heq⟩ | heq
  · rcases ConfigRepository.updateConnections_cases owner id channels connections x.1.db with
      ⟨e, hstmt⟩ | ⟨d, hstmt, hrep⟩
    · left
      rw [heq, hstmt]
    · refine .inr ⟨d, hrep, hok, he, by rw [hstmt], ?_⟩
      rw [heq, hstmt]
  · exact .inl heq

theorem thenWrite_stored {owner id : String} {channels : List Channel} {connections : List String}
    {x : World × Except Err Unit} (hok : x.2 = .ok ()) (he : Effective net.write)
    (hstmt : (ConfigRepository.updateConnections owner id channels connections x.1.db).2
      = .ok ()) :
    ∃ d, ConfigRepository.Replaced owner id connections x.1.db d ∧
      thenWrite net (ConfigRepository.updateConnections owner id channels connections) x
        = ⟨d, x.1.links, x.1.pending⟩ := by
  obtain ⟨w1, res⟩ := x
  cases hok
  rcases ConfigRepository.updateConnections_cases owner id channels connections w1.db with
    ⟨e, heq⟩ | ⟨d, heq, hrep⟩
  · rw [heq] at hstmt
    cases hstmt
  · refine ⟨d, hrep, ?_⟩
    rw [thenWrite, repoCall_effective he, heq]

/-- The rows of the config after a list has been stored. -/
theorem mem_replaced_thing {d d' : DB} (hv : d.Valid) {r : ConfigRow} (hr : r ∈ d.configs)
    {connections : List String} (hs : ConfigRepository.Replaced r.owner r.mfThing connections d d')
    (hne : connections ≠ []) {co : ConnectionRow} (hco : co ∈ d'.connections)
    (hid : co.configID = r.mfThing) :
    co.channelID ∈ connections ∨
      co ∈ d.connections ∧ co.channelID = pqArray connections := by
  rw [hs.rows hne] at hco
  rcases List.mem_append.mp hco with hco | hco
  · obtain ⟨hco, hkeep⟩ := mem_deleteWhere.mp hco
    have hof := ofConfig_of_thing hv hr hco hid
    refine .inr ⟨hco, ?_⟩
    by_contra hc
    exact hkeep ⟨hid, hof.2, (hv.same_owner co hco).trans hof.2, hc⟩
  · exact .inl (mem_connectionRows.mp hco).1

variable (h : Inv w.db w.links) (hp : w.pending = [])
include h hp

/-- An inactive config: the list is stored and nothing on it is connected, or
the tables are as before. -/
theorem inv_updateInactive {r : ConfigRow} (hr : r ∈ w.db.configs) (hstate : r.state = .inactive)
    {connections : List String} {channels : List Channel}
    (hsafe : Stores net w.db r.owner r.mfThing connections channels →
      ∀ c ∈ connections, (c, r.mfThing) ∉ w.links) :
    let w' := thenWrite net
      (ConfigRepository.updateConnections r.owner r.mfThing channels connections) (w, .ok ())
    Inv (settled w') w'.links := by
  rcases thenWrite_connections net r.owner r.mfThing channels connections (w, .ok ()) with
    heq | ⟨d, hrep, -, he, hok, heq⟩
  · rw [heq]
    exact inv_same h hp
  · rw [heq]
    show Inv (settled ⟨d, w.links, w.pending⟩) w.links
    rw [settled_mk hp]
    refine h.replaced hr hrep (fun co hco hid => ?_) (fun _ _ _ => Iff.rfl)
    rcases mem_replaced hrep hco with hold | hnew
    · exact h.linked_iff hr hold (ofConfig_of_thing h.valid hr hold hid)
    · have hc := (mem_connectionRows.mp hnew).1
      have hfree := hsafe ⟨List.ne_nil_of_mem hc, he, hok⟩ _ hc
      rw [hstate, hid]
      exact ⟨fun hbad => (by cases hbad), fun hin => absurd hin hfree⟩

end UpdateConnections

/-! ## §2. An active config. -/

section UpdateActive

variable {net : Net} {w : World} {key : String} {r : ConfigRow} {connections : List String}
  {channels : List Channel} {add remove taken : List String} {x : World × Except Err Unit}

/-- What the two loops of `UpdateConnections` can leave. -/
structure Reconnected (net : Net) (t : String) (add remove taken : List String) (w : World)
    (x : World × Except Err Unit) : Prop where
  parted : ∃ w1, Parted t remove taken w w1 ∧ Joined t add w1 x.1 ∧
    (AllTaken net.disconnect remove → ∀ c ∈ remove, (c, t) ∉ w1.links)
  linked : x.2 = .ok () → ∀ c ∈ add, (c, t) ∈ x.1.links

theorem reconnected_reconnect (net : Net) (w : World) (key t : String) (add remove : List String) :
    ∃ taken, Reconnected net t add remove taken w
      ((Service.reconnect key t .active add remove).run (handler net) w) := by
  have hconnects := connects_connectListed net key t
  obtain ⟨taken, hparted⟩ := parted_loop net key t remove w
  have hall := fun (htaken : AllTaken net.disconnect remove) => partLoop_all key t w htaken
  refine ⟨taken, ?_⟩
  simp only [Service.reconnect, Prog.run_bind, Prog.run_each]
  rcases hloop : Prog.eachOn (partBody net key t) remove w with ⟨w1, e | u⟩
  · rw [hloop] at hparted hall
    exact ⟨⟨w1, hparted, Joined.refl w1, hall⟩, fun hbad => (by cases hbad)⟩
  · rw [hloop] at hparted hall
    simp only [Prog.run_each]
    exact ⟨⟨w1, hparted, joined_loop hconnects _ _, hall⟩, linked_of_loop_ok hconnects⟩

/-- The two loops go through when no call fails and nothing on the list is
connected. -/
theorem reconnect_ok {t : String}
    (hdis : ∀ c ∈ remove, net.disconnect c = none ∨ net.disconnect c = some (.refused .notFound))
    (hcon : ∀ c ∈ add, net.connect c = none ∧ (c, t) ∉ w.links) (hnodup : add.Nodup) :
    ((Service.reconnect key t .active add remove).run (handler net) w).2 = .ok () := by
  obtain ⟨taken, hparted⟩ := parted_loop net key t remove w
  have hok := partLoop_ok key t w hdis
  simp only [Service.reconnect, Prog.run_bind, Prog.run_each]
  rcases hloop : Prog.eachOn (partBody net key t) remove w with ⟨w1, res⟩
  rw [hloop] at hparted hok
  cases hok
  simp only [Prog.run_each]
  refine loop_ok (connects_connectListed net key t) (fun c hc => (hcon c hc).1) hnodup ?_
  exact fun c hc hin => (hcon c hc).2 ((hparted.links _).mp hin).1

theorem reconnect_refused {t : String} (hrefused : FirstRefused net.disconnect remove) :
    (Service.reconnect key t .active add remove).run (handler net) w = (w, .error .things) := by
  simp only [Service.reconnect, Prog.run_bind, Prog.run_each]
  rw [partLoop_refused hrefused]
  rfl

theorem Reconnected.db {t : String} (hx : Reconnected net t add remove taken w x) :
    x.1.db = w.db := by
  obtain ⟨w1, hparted, hjoined, -⟩ := hx.parted
  exact hjoined.db.trans hparted.db

theorem Reconnected.pending {t : String} (hx : Reconnected net t add remove taken w x)
    (hp : w.pending = []) : x.1.pending = taken.map (Decoded.disconnectThing · t) := by
  obtain ⟨w1, hparted, hjoined, -⟩ := hx.parted
  rw [hjoined.pending, hparted.pending, hp, List.nil_append]

/-- A connection that the loops did not take is still there. -/
theorem Reconnected.kept {t c : String} (hx : Reconnected net t add remove taken w x)
    (hin : (c, t) ∈ w.links) (hc : c ∉ taken) : (c, t) ∈ x.1.links := by
  obtain ⟨w1, hparted, hjoined, -⟩ := hx.parted
  exact hjoined.kept _ ((hparted.links _).mpr ⟨hin, fun htaken => hc htaken.2⟩)

/-- The connections of other things are as before. -/
theorem Reconnected.other {t : String} (hx : Reconnected net t add remove taken w x)
    {p : String × String} (hne : p.2 ≠ t) : p ∈ x.1.links ↔ p ∈ w.links := by
  obtain ⟨w1, hparted, hjoined, -⟩ := hx.parted
  constructor
  · intro hin
    rcases hjoined.made p hin with hin | ⟨ht, -⟩
    · exact ((hparted.links p).mp hin).1
    · exact absurd ht hne
  · intro hin
    exact hjoined.kept p ((hparted.links p).mpr ⟨hin, fun htaken => hne htaken.1⟩)

variable (h : Inv w.db w.links) (hp : w.pending = []) (hr : r ∈ w.db.configs)
  (hactive : r.state = .active) (hx : Reconnected net r.mfThing add remove taken w x)
include h hp hr hactive hx

/-- The list is stored, and no row that is left belongs to a channel that was
taken: the records change nothing, and every row is connected. -/
theorem inv_stored {d : DB}
    (hrep : ConfigRepository.Replaced r.owner r.mfThing connections x.1.db d) (hok : x.2 = .ok ())
    (hlist : ∀ c ∈ connections, c ∈ add ∨ c ∈ channelIDs r w.db)
    (hkeep : ∀ co ∈ d.connections, co.configID = r.mfThing → co.channelID ∉ taken) :
    Inv (settled ⟨d, x.1.links, x.1.pending⟩) x.1.links := by
  have hold : ∀ c ∈ channelIDs r w.db, c ∉ taken → (c, r.mfThing) ∈ x.1.links := fun c hc hout =>
    hx.kept ((h.channel_linked_iff hr hc).mp hactive) hout
  rw [hx.db] at hrep
  rw [settled, hx.pending hp, settle_of_no_row]
  · refine h.replaced hr hrep (fun co hco hid => ?_) (fun co _ hne => hx.other hne)
    have hout := hkeep co hco hid
    have hlinked : (co.channelID, r.mfThing) ∈ x.1.links := by
      rcases mem_replaced hrep hco with hco | hco
      · exact hold _ ((mem_channelIDs h.valid hr).mpr ⟨co, hco, hid, rfl⟩) hout
      · rcases hlist _ (mem_connectionRows.mp hco).1 with hadd | hc
        · exact hx.linked hok _ hadd
        · exact hold _ hc hout
    rw [hid]
    exact ⟨fun _ => hlinked, fun _ => hactive⟩
  · rintro c hc ⟨co, hco, hid, rfl⟩
    exact hkeep co hco hid hc

/-- No channel was taken, and the tables are as before. -/
theorem inv_untaken (hnone : taken = []) : Inv (settled x.1) x.1.links := by
  have hpend : x.1.pending = [] := by rw [hx.pending hp, hnone]; rfl
  rw [settled_of_nil hpend, hx.db]
  refine h.relink fun co hco => ?_
  by_cases hid : co.configID = r.mfThing
  · have hin := (h.linked_iff hr hco (ofConfig_of_thing h.valid hr hco hid)).mp hactive
    rw [hid] at hin ⊢
    exact ⟨fun _ => hin, fun _ => hx.kept hin (by rw [hnone]; exact List.not_mem_nil)⟩
  · exact hx.other hid

/-- All channels of the config were taken, and the tables have the same rows. -/
theorem inv_all_taken (hcs : ∀ c ∈ channelIDs r w.db, c ∈ remove) (hne : channelIDs r w.db ≠ [])
    (hadd : ∀ c ∈ add, c ∉ channelIDs r w.db) (htaken : AllTaken net.disconnect remove)
    (hq : Quiet w.db r.mfThing) {d : DB} (hv : d.Valid)
    (hconn : d.connections = w.db.connections) :
    Inv (settled ⟨d, x.1.links, x.1.pending⟩) x.1.links := by
  obtain ⟨w1, hparted, hjoined, hall⟩ := hx.parted
  rw [settled, hjoined.pending]
  refine inv_parted h hp hr hparted hactive hne (fun c hc => hall htaken c (hcs c hc)) hq hv hconn ?_
  intro p hin
  rcases hjoined.made p hin with hin | ⟨ht, hc⟩
  · exact .inl hin
  · exact .inr ⟨ht, hadd _ hc⟩

omit hp hactive in
/-- After a list has been stored, no row is left of a channel that is not on
it, provided none is called like the text of the list. -/
theorem not_taken_of_stored {d : DB}
    (hrep : ConfigRepository.Replaced r.owner r.mfThing connections x.1.db d)
    (hne : connections ≠ []) (hpq : pqArray connections ∉ channelIDs r w.db)
    (hremove : ∀ c, c ∈ remove ↔ c ∈ channelIDs r w.db ∧ c ∉ connections) :
    ∀ co ∈ d.connections, co.configID = r.mfThing → co.channelID ∉ taken := by
  intro co hco hid htaken
  obtain ⟨w1, hparted, -⟩ := hx.parted
  have hin := (hremove _).mp (hparted.sub _ htaken)
  rw [hx.db] at hrep
  rcases mem_replaced_thing h.valid hr hrep hne hco hid with hc | ⟨-, hc⟩
  · exact hin.2 hc
  · rw [hc] at hin
    exact hpq hin.1

/-- **The safe outcomes of the loops of `UpdateConnections`.** -/
theorem inv_reconnected (hremove : ∀ c, c ∈ remove ↔ c ∈ channelIDs r w.db ∧ c ∉ connections)
    (hlist : ∀ c ∈ connections, c ∈ add ∨ c ∈ channelIDs r w.db)
    (hadd : ∀ c ∈ add, c ∈ connections)
    (hsafe : remove = [] ∨ x = (w, .error .things) ∨ pqArray connections ∉ channelIDs r w.db ∧
      (x.2 = .ok () ∧ Stores net w.db r.owner r.mfThing connections channels ∨
        (∀ c ∈ channelIDs r w.db, c ∈ remove) ∧ AllTaken net.disconnect remove ∧
          Quiet w.db r.mfThing)) :
    let w' := thenWrite net
      (ConfigRepository.updateConnections r.owner r.mfThing channels connections) x
    Inv (settled w') w'.links := by
  by_cases hnil : remove = []
  · -- nothing is disconnected
    have hnone : taken = [] := by
      obtain ⟨w1, hparted, -⟩ := hx.parted
      rw [hnil] at hparted
      exact List.eq_nil_iff_forall_not_mem.mpr fun c hc => List.not_mem_nil (hparted.sub c hc)
    rcases thenWrite_connections net r.owner r.mfThing channels connections x with
      heq | ⟨d, hrep, hok, -, -, heq⟩
    · rw [heq]
      exact inv_untaken h hp hr hactive hx hnone
    · rw [heq]
      refine inv_stored h hp hr hactive hx hrep hok hlist fun co _ _ => ?_
      rw [hnone]
      exact List.not_mem_nil
  · rcases hsafe with hnil' | hstop | ⟨hpq, ⟨hok, hne, he, hstmt⟩ | ⟨hcs, htaken, hq⟩⟩
    · exact absurd hnil' hnil
    · rw [hstop]
      exact inv_same h hp
    · -- the list is stored
      rw [← hx.db] at hstmt
      obtain ⟨d, hrep, heq⟩ := thenWrite_stored hok he hstmt
      rw [heq]
      exact inv_stored h hp hr hactive hx hrep hok hlist
        (not_taken_of_stored h hr hx hrep hne hpq hremove)
    · -- every channel is disconnected
      have hsome : channelIDs r w.db ≠ [] := by
        obtain ⟨c, hc⟩ := List.exists_mem_of_ne_nil _ hnil
        exact List.ne_nil_of_mem ((hremove c).mp hc).1
      have hnew : ∀ c ∈ add, c ∉ channelIDs r w.db := fun c hc hin =>
        ((hremove c).mp (hcs c hin)).2 (hadd c hc)
      have hsame : ∀ d : DB, d.Valid → d.connections = w.db.connections →
          Inv (settled ⟨d, x.1.links, x.1.pending⟩) x.1.links := fun d =>
        inv_all_taken h hp hr hactive hx hcs hsome hnew htaken hq
      rcases thenWrite_connections net r.owner r.mfThing channels connections x with
        heq | ⟨d, hrep, hok, -, -, heq⟩
      · rw [heq]
        exact hsame x.1.db (by rw [hx.db]; exact h.valid) (by rw [hx.db])
      · rw [heq]
        by_cases hne : connections = []
        · refine hsame d (hrep.valid (by rw [hx.db]; exact h.valid)) ?_
          rw [hrep.nothing hne, hx.db]
        · exact inv_stored h hp hr hactive hx hrep hok hlist
            (not_taken_of_stored h hr hx hrep hne hpq hremove)

end UpdateActive

section UpdateConnections

variable {net : Net} {w : World} (h : Inv w.db w.links) (hp : w.pending = [])
include h hp

theorem inv_updateActive {r : ConfigRow} (hr : r ∈ w.db.configs) (hactive : r.state = .active)
    (key : String) {connections : List String} {channels : List Channel}
    (hsafe : SafeUpdate net w r.owner r.mfThing (channelIDs r w.db) connections channels .active) :
    let w' := thenWrite net
      (ConfigRepository.updateConnections r.owner r.mfThing channels connections)
      ((Service.reconnect key r.mfThing .active
        (Service.updateListLoop (channelIDs r w.db).dedup connections).1
        (net.order (Service.updateListLoop (channelIDs r w.db).dedup connections).2)).run
          (handler net) w)
    Inv (settled w') w'.links := by
  obtain ⟨taken, hx⟩ := reconnected_reconnect net w key r.mfThing
    (Service.updateListLoop (channelIDs r w.db).dedup connections).1
    (net.order (Service.updateListLoop (channelIDs r w.db).dedup connections).2)
  refine inv_reconnected h hp hr hactive hx ?_ ?_ ?_ ?_
  · intro c
    rw [(net.order_perm _).mem_iff, mem_updateList_remove, List.mem_dedup]
  · intro c hc
    exact (updateList_listed _ _ hc).imp id List.mem_dedup.mp
  · intro c hc
    exact mem_of_updateList_add _ _ hc
  · refine hsafe.imp id (Or.imp (fun hrefused => reconnect_refused hrefused) ?_)
    rintro ⟨hpq, ⟨hdis, hcon, hnodup, hstores⟩ | hall⟩
    · exact ⟨hpq, .inl ⟨reconnect_ok hdis hcon hnodup, hstores⟩⟩
    · exact ⟨hpq, .inr hall⟩

theorem inv_updateConnections {key id : String} {connections : List String}
    (hsafe : SafeCall net w (.updateConnections key id connections)) :
    let w' := step w (.call net (.updateConnections key id connections))
    Inv (settled w') w'.links := by
  rcases run_updateConnections net w key id connections with
    heq | ⟨owner, cfg, channels, hf, hnew, heq⟩
  · rw [heq]
    exact inv_same h hp
  · rw [heq]
    have hupdate := hsafe owner cfg channels hf hnew
    obtain ⟨r, hr, rfl, rfl, hstate, -, hchan⟩ := hf.row
    rw [hstate, hchan] at hupdate ⊢
    cases hs : r.state with
    | inactive =>
        rw [hs] at hupdate
        exact inv_updateInactive h hp hr hs hupdate
    | active =>
        rw [hs] at hupdate
        exact inv_updateActive h hp hr hs key hupdate

end UpdateConnections

end Mainflux.Bootstrap.Consistency
