/-
  Mainflux.Bootstrap.Exactness
  ────────────────────────────
  **WHAT `UpdateConnections` HAS DONE WHEN IT RETURNS NIL.**

  Three views of the channels of a config have to agree with the list of the request:
  the rows of the config, the channels that are kept at all, and the connections of the
  thing in Things.

    • `updateConnections_exact_iff` — they do, except when the list is empty and the
      config has channels, when the commit fails, or when a channel of the config is
      called like the text of the list: then the rows do not;
    • `empty_list_not_stored` — the empty list.
-/
import Mainflux.Bootstrap.Consistency
import Mainflux.Bootstrap.Tenancy

namespace Mainflux.Bootstrap.Consistency

open Mainflux.Lib

/-! ## §1. The statement. -/

/-- `updateConnReq.validate`. -/
def validateUpdateConn (key id : String) (_channels : List String) : Except Err Unit :=
  if key = "" then .error .unauthorizedAccess
  else if id = "" then .error .malformedEntity
  else .ok ()

/-- A call of `UpdateConnections`. -/
def updated (net : Net) (w : World) (key id : String) (connections : List String) :
    World × Except Err Unit :=
  (Service.updateConnections key id connections).run (handler net) w

/-- **The list of a request is the config's**, in the tables and in Things. -/
structure Exact (r : ConfigRow) (connections : List String) (w w' : World) : Prop where
  stored : ∀ c, c ∈ channelIDs r w'.db ↔ c ∈ connections
  gone : ∀ ch, ¬ Dangling w.db ch → Dangling w'.db ch → ch ∉ w'.db.channels
  linked : r.state = .active → ∀ c, c ∈ channelIDs r w.db ∨ c ∈ connections →
    ((c, r.mfThing) ∈ w'.links ↔ c ∈ connections)

/-- The list can be stored for a config with the channels `cs`. -/
structure Storable (net : Net) (cs connections : List String) : Prop where
  nonempty : connections = [] → cs = []
  committed : net.write = some .lost → ∀ c, c ∈ cs ↔ c ∈ connections
  text : pqArray connections ∈ cs → pqArray connections ∈ connections

/-! ## §2. A call that returns nil. -/

section Nil

variable {net : Net} {w : World} {key id : String} {connections : List String}

/-- `UpdateConnections` returns nil: it has found the config, both loops have gone
through, and so has the write. -/
theorem updated_ok (hok : (updated net w key id connections).2 = .ok ()) :
    ∃ owner cfg channels, Finds net w key id owner cfg ∧
      newChannels net w.db owner connections = .ok channels ∧
      let x := (Service.reconnect key id cfg.state
        (Service.updateListLoop (Service.toIDList cfg.mfChannels).dedup connections).1
        (net.order (Service.updateListLoop (Service.toIDList cfg.mfChannels).dedup
          connections).2)).run (handler net) w
      x.2 = .ok () ∧
        updated net w key id connections = repoCall net.write x.1
          (ConfigRepository.updateConnections owner id channels connections x.1.db) := by
  revert hok
  simp only [updated, Service.updateConnections, cmd, Prog.run_bind, run_identify]
  cases hid : net.identify key with
  | none => exact fun h => by cases h
  | some owner =>
      simp only [Prog.run_bind, Prog.run_call, Prog.run_ret, handler]
      cases hret : net.retrieve with
      | some e => exact fun h => by cases h
      | none =>
          simp only [repoRead]
          cases hfind : ConfigRepository.retrieveByID owner id w.db with
          | error e => exact fun h => by cases h
          | ok cfg =>
              simp only [Service.updateList, cmd, Prog.run_bind, Prog.run_call, Prog.run_ret,
                Prog.run_pure, handler]
              cases hlist : net.listExisting with
              | some e => exact fun h => by cases h
              | none =>
                  simp only [repoRead, Prog.run_bind, run_connectionChannels]
                  cases hfetch : fetched net (net.order (Service.missing connections
                      (Service.toIDList (ConfigRepository.listExisting owner connections
                        w.db)))) with
                  | error e => exact fun h => by cases h
                  | ok channels =>
                      intro hok
                      refine ⟨owner, cfg, channels, ⟨hid, hret, hfind⟩, ?_, ?_⟩
                      · simp only [newChannels, hlist, hfetch]
                      · simp only [Prog.run_bind] at hok ⊢
                        revert hok
                        generalize (Service.reconnect key id cfg.state _ _).run (handler net) w = x
                        obtain ⟨w1, e | u⟩ := x
                        · exact fun h => by cases h
                        · exact fun _ => ⟨rfl, rfl⟩

/-- A write that returns nil has taken effect, or its commit has failed. -/
theorem repoCall_ok {fault : Option RepoFault} {done : DB × Except Err Unit}
    (h : (repoCall fault w done).2 = .ok ()) :
    done.2 = .ok () ∧ (fault = none ∧ (repoCall fault w done).1 = { w with db := done.1 } ∨
      fault = some .lost ∧ (repoCall fault w done).1 = w) := by
  cases fault with
  | none => exact ⟨h, .inl ⟨rfl, rfl⟩⟩
  | some f =>
      cases f with
      | refused => cases h
      | unanswered => cases h
      | lost => exact ⟨h, .inr ⟨rfl, rfl⟩⟩

/-- A disconnecting loop that goes through over pairs that Things finds. -/
theorem partLoop_taken {t : String} {cs : List String}
    (hsdk : ∀ c, net.disconnect c ≠ some (.refused .notFound))
    (hok : (Prog.eachOn (partBody net key t) cs w).2 = .ok ()) :
    ∀ c ∈ cs, net.disconnect c = none := by
  -- over the channels, as long as the loop goes on
  induction cs generalizing w with
  | nil => exact fun c hc => (List.not_mem_nil hc).elim
  | cons c cs ih =>
      rcases hrun : partBody net key t c w with ⟨w1, res⟩
      cases res with
      | error e =>
          rw [Prog.eachOn_error hrun] at hok
          cases hok
      | ok u =>
          rw [Prog.eachOn_ok hrun] at hok
          refine List.forall_mem_cons.mpr ⟨?_, ih hok⟩
          have hbody := congrArg Prod.snd (partBody_eq net key t c w)
          rw [hrun] at hbody
          cases hf : net.disconnect c with
          | none => rfl
          | some f =>
              cases f with
              | unanswered =>
                  rw [hf] at hbody
                  cases hbody
              | refused e =>
                  rw [hf] at hbody
                  -- the one error that the loop ignores
                  cases e with
                  | notFound => exact absurd hf (hsdk c)
                  | _ => cases hbody

end Nil

/-! ## §3. The three views. -/

section Views

variable {net : Net} {w : World} {key : String} {r : ConfigRow} {connections : List String}

/-- The thing of an active config, after both loops. -/
theorem linked_reconnect (hsdk : ∀ c, net.disconnect c ≠ some (.refused .notFound))
    {t : String} {cs : List String} (hall : ∀ c ∈ cs, (c, t) ∈ w.links)
    (hok : ((Service.reconnect key t .active (Service.updateListLoop cs.dedup connections).1
      (net.order (Service.updateListLoop cs.dedup connections).2)).run (handler net) w).2 = .ok ())
    {c : String} (hc : c ∈ cs ∨ c ∈ connections) :
    (c, t) ∈ ((Service.reconnect key t .active (Service.updateListLoop cs.dedup connections).1
      (net.order (Service.updateListLoop cs.dedup connections).2)).run (handler net) w).1.links ↔
        c ∈ connections := by
  obtain ⟨taken, hx⟩ := reconnected_reconnect net w key t
    (Service.updateListLoop cs.dedup connections).1
    (net.order (Service.updateListLoop cs.dedup connections).2)
  have hremove : ∀ c, c ∈ net.order (Service.updateListLoop cs.dedup connections).2 ↔
      c ∈ cs ∧ c ∉ connections := fun c => by
    rw [(net.order_perm _).mem_iff, mem_updateList_remove, List.mem_dedup]
  obtain ⟨w1, hparted, hjoined, hgone⟩ := hx.parted
  by_cases hlisted : c ∈ connections
  · refine iff_of_true ?_ hlisted
    -- a listed channel is new, and connected, or old, and left alone
    rcases updateList_listed cs.dedup connections hlisted with hadd | hold
    · exact hx.linked hok c hadd
    · refine hx.kept (hall c (List.mem_dedup.mp hold)) fun htaken => ?_
      exact ((hremove c).mp (hparted.sub c htaken)).2 hlisted
  · refine iff_of_false (fun hin => ?_) hlisted
    have hold : c ∈ cs := hc.resolve_right hlisted
    -- every disconnection was made
    have hloop : (Prog.eachOn (partBody net key t)
        (net.order (Service.updateListLoop cs.dedup connections).2) w).2 = .ok () := by
      simp only [Service.reconnect, Prog.run_bind, Prog.run_each] at hok
      revert hok
      generalize Prog.eachOn (partBody net key t) _ w = x
      obtain ⟨w1, e | u⟩ := x
      · exact fun h => by cases h
      · exact fun _ => rfl
    have htaken := partLoop_taken hsdk hloop
    have hfree := hgone ⟨fun c hc => htaken c (List.dropLast_subset _ hc), fun c hc =>
      .inl (htaken c (List.mem_of_getLast? hc))⟩ c ((hremove c).mpr ⟨hold, hlisted⟩)
    rcases hjoined.made _ hin with hin | ⟨-, hadd⟩
    · exact hfree hin
    · exact hlisted (mem_of_updateList_add _ _ hadd)

/-- A channel that was used and is not any more has been cleaned up. -/
theorem gone_updateConnections {owner id : String} {channels : List Channel} {d d' : DB}
    (h : ConfigRepository.updateConnections owner id channels connections d = (d', .ok ()))
    {ch : ChannelRow} (hused : ¬ Dangling d ch) (hnow : Dangling d' ch) : ch ∉ d'.channels := by
  obtain ⟨co, hco, hch⟩ := not_not.mp hused
  rcases updateConnections_rows h with ⟨-, rfl⟩ | ⟨-, ⟨hkept, rfl⟩ | rfl⟩
  · exact absurd ⟨co, hco, hch⟩ hnow
  · exact absurd ⟨co, List.mem_append_left _ (mem_deleteWhere.mpr ⟨hco, hkept co hco⟩), hch⟩ hnow
  · intro hin
    refine (mem_deleteWhere.mp hin).2 fun hthere => hnow ?_
    rw [connections_cleanup]
    exact hthere

/-- The rows after a list has been stored. -/
theorem stored_replaced {d d' : DB} (hv : d.Valid) (hr : r ∈ d.configs)
    (hs : ConfigRepository.Replaced r.owner r.mfThing connections d d') (hne : connections ≠ [])
    {c : String} :
    c ∈ channelIDs r d' ↔ c ∈ connections ∨ c ∈ channelIDs r d ∧ c = pqArray connections := by
  have hr' : r ∈ d'.configs := hs.configs ▸ hr
  rw [mem_channelIDs (hs.valid hv) hr', mem_channelIDs hv hr]
  constructor
  · rintro ⟨co, hco, hid, rfl⟩
    rcases mem_replaced_thing hv hr hs hne hco hid with hc | ⟨hold, htext⟩
    · exact .inl hc
    · exact .inr ⟨⟨co, hold, hid, rfl⟩, htext⟩
  · rintro (hc | ⟨⟨co, hco, hid, rfl⟩, htext⟩)
    · refine ⟨⟨c, r.owner, r.mfThing, r.owner⟩, ?_, rfl, rfl⟩
      rw [hs.rows hne]
      exact List.mem_append_right _ (mem_connectionRows.mpr ⟨hc, rfl, rfl, rfl⟩)
    · refine ⟨co, ?_, hid, rfl⟩
      rw [hs.rows hne]
      exact List.mem_append_left _ (mem_deleteWhere.mpr ⟨hco, fun hrep => hrep.2.2.2 htext⟩)

/-- The rows, by what became of the write. -/
theorem stored_iff {d d' : DB} (hv : d.Valid) (hr : r ∈ d.configs) {channels : List Channel}
    (hdone : ConfigRepository.updateConnections r.owner r.mfThing channels connections d
      = (d', .ok ())) (hwrite : net.write = none) :
    (∀ c, c ∈ channelIDs r d' ↔ c ∈ connections) ↔
      Storable net (channelIDs r d) connections := by
  have hs : ConfigRepository.Replaced r.owner r.mfThing connections d d' := by
    rcases ConfigRepository.updateConnections_cases r.owner r.mfThing channels connections d with
      ⟨e, herr⟩ | ⟨d'', hok, hs⟩
    · rw [hdone] at herr
      cases herr
    · rw [hdone] at hok
      cases hok
      exact hs
  have hcommitted : net.write = some .lost → ∀ c, c ∈ channelIDs r d ↔ c ∈ connections := by
    rw [hwrite]
    exact fun h => by cases h
  by_cases hne : connections = []
  · -- the repository returns before its first statement
    have hr' : r ∈ d'.configs := hs.configs ▸ hr
    have hsame : ∀ c, c ∈ channelIDs r d' ↔ c ∈ channelIDs r d := fun c => by
      rw [mem_channelIDs (hs.valid hv) hr', mem_channelIDs hv hr, DB.HasConnection,
        hs.nothing hne, DB.HasConnection]
    constructor
    · intro h
      have hnil : channelIDs r d = [] := List.eq_nil_iff_forall_not_mem.mpr fun c hc => by
        have hin := (h c).mp ((hsame c).mpr hc)
        rw [hne] at hin
        exact List.not_mem_nil hin
      refine ⟨fun _ => hnil, hcommitted, fun hin => ?_⟩
      rw [hnil] at hin
      exact absurd hin List.not_mem_nil
    · intro h c
      rw [hsame, h.nonempty hne, hne]
  · -- the rows are the list, and the one that `NOT IN` compares as equal
    constructor
    · intro h
      refine ⟨fun hnil => absurd hnil hne, hcommitted, fun hin => ?_⟩
      exact (h _).mp ((stored_replaced hv hr hs hne).mpr (.inr ⟨hin, rfl⟩))
    · intro h c
      rw [stored_replaced hv hr hs hne]
      refine ⟨?_, .inl⟩
      rintro (hc | ⟨hold, rfl⟩)
      · exact hc
      · exact h.text hold

/-- A commit that fails: the tables are as they were, and so the list must be what they
have. -/
theorem exact_lost {w' : World} (hdb : w'.db = w.db) (hwrite : net.write = some .lost)
    (hlinked : r.state = .active → ∀ c, c ∈ channelIDs r w.db ∨ c ∈ connections →
      ((c, r.mfThing) ∈ w'.links ↔ c ∈ connections)) :
    Exact r connections w w' ↔ Storable net (channelIDs r w.db) connections := by
  constructor
  · intro h
    have hstored := h.stored
    rw [hdb] at hstored
    refine ⟨fun hnil => ?_, fun _ => hstored, fun hin => (hstored _).mp hin⟩
    refine List.eq_nil_iff_forall_not_mem.mpr fun c hc => ?_
    have hin := (hstored c).mp hc
    rw [hnil] at hin
    exact List.not_mem_nil hin
  · intro h
    refine ⟨?_, ?_, hlinked⟩
    · rw [hdb]
      exact h.committed hwrite
    · rw [hdb]
      exact fun ch hused hnow => absurd hnow hused

end Views

/-! ## §4. `UpdateConnections`. -/

/-- **When `UpdateConnections` returns nil, the list is the config's**, exactly when the
list is not empty (or the config had no channels), the commit has not failed (or nothing
was to be changed), and no other channel of the config is called like the text of the
list. -/
theorem updateConnections_exact_iff (net : Net) (w : World) (key : String) (r : ConfigRow)
    (connections : List String) (hv : w.db.Valid) (hr : r ∈ w.db.configs)
    (howner : net.identify key = some r.owner)
    (hall : r.state = .active → ∀ c ∈ channelIDs r w.db, (c, r.mfThing) ∈ w.links)
    (hsdk : ∀ c, net.disconnect c ≠ some (.refused .notFound))
    (hok : (updated net w key r.mfThing connections).2 = .ok ()) :
    Exact r connections w (updated net w key r.mfThing connections).1 ↔
      Storable net (channelIDs r w.db) connections := by
  obtain ⟨owner, cfg, channels, hf, -, hx, hrun⟩ := updated_ok hok
  obtain rfl : r.owner = owner := Option.some.inj (howner.symm.trans hf.1)
  obtain ⟨r', hr', hid, -, hstate, -, hchan⟩ := hf.row
  obtain rfl : r' = r := eq_of_key_eq hv.config_thing hr' hr hid
  rw [hstate, hchan] at hx hrun
  have hdb : ((Service.reconnect key r'.mfThing r'.state
      (Service.updateListLoop (channelIDs r' w.db).dedup connections).1
      (net.order (Service.updateListLoop (channelIDs r' w.db).dedup connections).2)).run
        (handler net) w).1.db = w.db := reconnect_db w key r'.mfThing r'.state _ _
  have hlinked : r'.state = .active → ∀ c, c ∈ channelIDs r' w.db ∨ c ∈ connections →
      ((c, r'.mfThing) ∈ ((Service.reconnect key r'.mfThing r'.state
        (Service.updateListLoop (channelIDs r' w.db).dedup connections).1
        (net.order (Service.updateListLoop (channelIDs r' w.db).dedup connections).2)).run
          (handler net) w).1.links ↔ c ∈ connections) := by
    intro hactive c hc
    rw [hactive] at hx ⊢
    exact linked_reconnect hsdk (hall hactive) hx hc
  revert hdb hlinked hrun
  generalize (Service.reconnect key r'.mfThing r'.state _ _).run (handler net) w = x
  intro hrun hdb hlinked
  rw [hrun] at hok ⊢
  rw [hdb] at hok ⊢
  obtain ⟨hdone, ⟨hwrite, hw⟩ | ⟨hwrite, hw⟩⟩ := repoCall_ok hok
  · -- the list is stored
    have hpair : ConfigRepository.updateConnections r'.owner r'.mfThing channels connections w.db
        = ((ConfigRepository.updateConnections r'.owner r'.mfThing channels connections w.db).1,
          .ok ()) := Prod.ext rfl hdone
    rw [hw, ← stored_iff hv hr' hpair hwrite]
    exact ⟨fun h => h.stored, fun h => ⟨h, fun ch => gone_updateConnections hpair, hlinked⟩⟩
  · rw [hw]
    exact exact_lost hdb hwrite hlinked

/-! ## §5. A sensor in the hall and the lab. -/

def activeRow : ConfigRow :=
  ⟨"sensor", "bob", none, none, none, none, "k5", "ext", "secret", none, .active⟩

/-- Bob's sensor is active, and connected to the hall and the lab. -/
def activeSensor : World where
  db := ⟨[activeRow], [⟨"hall", "bob", none, none⟩, ⟨"lab", "bob", none, none⟩],
    [⟨"hall", "bob", "sensor", "bob"⟩, ⟨"lab", "bob", "sensor", "bob"⟩]⟩
  links := [("hall", "sensor"), ("lab", "sensor")]
  pending := []

theorem valid_activeSensor : activeSensor.db.Valid where
  config_thing := by decide
  config_key := by decide
  config_external := by decide
  channel_id := by decide
  connection_pk := by decide
  channel_fk := by decide
  config_fk := by decide
  same_owner := by decide

theorem channelIDs_activeSensor : channelIDs activeRow activeSensor.db = ["hall", "lab"] := by
  decide +kernel

theorem linked_activeSensor :
    activeRow.state = .active → ∀ c ∈ channelIDs activeRow activeSensor.db,
      (c, activeRow.mfThing) ∈ activeSensor.links := by
  rw [channelIDs_activeSensor]
  decide +kernel

/-- From the hall and the lab to the lab and the roof. -/
theorem updateConnections_exact_iff_roof :
    Exact activeRow ["lab", "roof"] activeSensor
      (updated (answeringBut fun _ => none) activeSensor "bob" "sensor" ["lab", "roof"]).1 := by
  refine (updateConnections_exact_iff _ activeSensor "bob" activeRow _ valid_activeSensor
    (List.mem_singleton_self _) rfl linked_activeSensor (fun c h => by cases h)
    (by decide +kernel)).mpr ⟨fun h => (by cases h), fun h => (by cases h), ?_⟩
  rw [channelIDs_activeSensor]
  decide +kernel

/-- **The empty list is not stored**: the sensor is disconnected, and its config keeps
both channels. -/
theorem empty_list_not_stored :
    ¬ ∀ (net : Net) (w : World) (key : String) (r : ConfigRow) (connections : List String),
      validateUpdateConn key r.mfThing connections = .ok () → w.db.Valid → r ∈ w.db.configs →
      net.identify key = some r.owner →
      (r.state = .active → ∀ c ∈ channelIDs r w.db, (c, r.mfThing) ∈ w.links) →
      (∀ c, net.disconnect c ≠ some (.refused .notFound)) →
      (updated net w key r.mfThing connections).2 = .ok () →
        Exact r connections w (updated net w key r.mfThing connections).1 := by
  intro h
  have hexact := h (answeringBut fun _ => none) activeSensor "bob" activeRow [] (by decide)
    valid_activeSensor (List.mem_singleton_self _) rfl linked_activeSensor (fun c h => by cases h)
    (by decide +kernel)
  have hkept : channelIDs activeRow
      (updated (answeringBut fun _ => none) activeSensor "bob" activeRow.mfThing []).1.db
        = ["hall", "lab"] := by decide +kernel
  have hstored := hexact.stored "hall"
  rw [hkept] at hstored
  exact List.not_mem_nil (hstored.mp List.mem_cons_self)

end Mainflux.Bootstrap.Consistency
