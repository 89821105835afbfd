/-
  Mainflux.Bootstrap.Diff
  ───────────────────────
  **WHAT `updateList` MAKES OF THE LIST OF A REQUEST.**

  The map of the channels of a config loses an element when it is met in the list of the
  request, so that the second of two equal elements is taken for a new one.

    • `count_add` — how often an element is added: once less than it is listed when the
      config has it;
    • `updateList_lawful_iff` — the two lists are the difference of the channels of the
      config and of the request, and can be applied, exactly when nothing is listed twice;
    • `reconnect_ok_iff` — with a service Things that answers every call, that is when the
      calls of `UpdateConnections` go through.
-/
import Mainflux.Bootstrap.Consistency
import Mainflux.Lib.Diff

namespace Mainflux.Bootstrap.Consistency

open Mainflux.Lib

/-! ## §1. The law. -/

/-- **The diff law**: what is added is what is requested and not there, what is removed is
what is there and not requested, nothing comes twice; removing the ones and then adding the
others gives what is requested, and connects nothing that is connected. -/
structure Lawful (current connections add remove : List String) : Prop where
  diff : IsDiff current connections add remove
  applies : ∃ kept s, removeAll current remove = some kept ∧ insertAll kept add = some s ∧
    ∀ c, c ∈ s ↔ c ∈ connections

/-- The second half of the law follows. -/
theorem lawful_iff {current connections add remove : List String} :
    Lawful current connections add remove ↔ IsDiff current connections add remove :=
  ⟨Lawful.diff, fun h => ⟨h, h.applies⟩⟩

/-! ## §2. The loop. -/

section Loop

variable (disconnect connections : List String)

/-- **How often an element is added.** -/
theorem count_add (c : String) :
    (Service.updateListLoop disconnect connections).1.count c
      = connections.count c - if c ∈ disconnect then 1 else 0 := by
  induction connections generalizing disconnect with
  | nil =>
      rw [Service.updateListLoop, List.count_nil]
      omega
  | cons a connections ih =>
      rw [Service.updateListLoop]
      by_cases ha : a ∈ disconnect
      · rw [if_pos ha, ih]
        by_cases hc : a = c
        · -- the first of its kind uses the element up
          have hout : c ∉ disconnect.filter fun d => d ≠ a := by
            intro hin
            exact of_decide_eq_true (List.mem_filter.mp hin).2 hc.symm
          rw [if_neg hout, if_pos (hc ▸ ha), hc, List.count_cons_self]
          omega
        · have hsame : (c ∈ disconnect.filter fun d => d ≠ a) ↔ c ∈ disconnect := by
            rw [List.mem_filter, decide_eq_true_eq]
            exact and_iff_left fun heq => hc heq.symm
          rw [List.count_cons_of_ne hc]
          simp only [hsame]
      · rw [if_neg ha]
        by_cases hc : a = c
        · rw [hc, List.count_cons_self, List.count_cons_self, ih, if_neg (hc ▸ ha)]
          omega
        · rw [List.count_cons_of_ne hc, List.count_cons_of_ne hc, ih]

/-- What is removed is what is left of the map. -/
theorem remove_eq :
    (Service.updateListLoop disconnect connections).2
      = disconnect.filter fun c => c ∉ connections := by
  induction connections generalizing disconnect with
  | nil =>
      rw [Service.updateListLoop]
      exact (List.filter_eq_self.mpr fun c _ => decide_eq_true List.not_mem_nil).symm
  | cons a connections ih =>
      rw [Service.updateListLoop]
      split
      next ha =>
          rw [ih, List.filter_filter]
          refine List.filter_congr fun c _ => ?_
          rw [← Bool.decide_and, decide_eq_decide, List.mem_cons, not_or]
          exact and_comm
      next ha =>
          rw [ih]
          refine List.filter_congr fun c hc => ?_
          rw [decide_eq_decide, List.mem_cons, not_or]
          exact (and_iff_right fun (heq : c = a) => ha (heq ▸ hc)).symm

theorem count_added (current : List String) (c : String) :
    (Service.updateListLoop current.dedup connections).1.count c
      = connections.count c - if c ∈ current then 1 else 0 := by
  rw [count_add]
  simp only [List.mem_dedup]

/-- What is added is new, and each of it once, only when nothing is listed twice. -/
theorem nodup_of_added (current : List String)
    (hnodup : (Service.updateListLoop current.dedup connections).1.Nodup)
    (hnew : ∀ c ∈ (Service.updateListLoop current.dedup connections).1, c ∉ current) :
    connections.Nodup := by
  rw [List.nodup_iff_count_le_one]
  intro c
  have hc := count_added connections current c
  by_cases hcurrent : c ∈ current
  · -- it is there already, and would be added by its second occurrence
    have hout : c ∉ (Service.updateListLoop current.dedup connections).1 := fun hin =>
      hnew c hin hcurrent
    rw [List.count_eq_zero.mpr hout, if_pos hcurrent] at hc
    omega
  · have hle := List.nodup_iff_count_le_one.mp hnodup c
    rw [if_neg hcurrent] at hc
    omega

/-- **The loop computes the difference exactly when no element is listed twice.** -/
theorem isDiff_loop_iff (current : List String) :
    IsDiff current connections (Service.updateListLoop current.dedup connections).1
        (Service.updateListLoop current.dedup connections).2 ↔ connections.Nodup := by
  constructor
  · intro h
    exact nodup_of_added connections current h.add_nodup fun c hc => ((h.mem_add c).mp hc).2
  · intro hnodup
    have hle := List.nodup_iff_count_le_one.mp hnodup
    refine ⟨List.nodup_iff_count_le_one.mpr fun c => ?_, ?_, fun c => ?_, fun c => ?_⟩
    · rw [count_added]
      exact (Nat.sub_le _ _).trans (hle c)
    · rw [remove_eq]
      exact (List.nodup_dedup current).filter _
    · rw [← List.count_pos_iff, count_added]
      by_cases hcurrent : c ∈ current
      · have hc := hle c
        rw [if_pos hcurrent]
        exact iff_of_false (by omega) fun hboth => hboth.2 hcurrent
      · rw [if_neg hcurrent, Nat.sub_zero, List.count_pos_iff]
        exact (and_iff_left hcurrent).symm
    · rw [mem_updateList_remove, List.mem_dedup]

end Loop

/-! ## §3. The main result. -/

/-- What `updateList` returns: the map is walked in an order of its own. -/
theorem run_updateList (net : Net) (w : World) (cfg : Config) (connections : List String) :
    ((Service.updateList cfg connections).run (handler net) w).2
      = ((Service.updateListLoop (Service.toIDList cfg.mfChannels).dedup connections).1,
        net.order (Service.updateListLoop (Service.toIDList cfg.mfChannels).dedup
          connections).2) := rfl

/-- **The diff law holds of a list of requested connections exactly when nothing is listed
twice**, whatever the channels of the config are. -/
theorem updateList_lawful_iff (net : Net) (w : World) (cfg : Config)
    (connections : List String) :
    Lawful (Service.toIDList cfg.mfChannels) connections
        ((Service.updateList cfg connections).run (handler net) w).2.1
        ((Service.updateList cfg connections).run (handler net) w).2.2 ↔ connections.Nodup := by
  rw [run_updateList, lawful_iff, ← isDiff_loop_iff connections (Service.toIDList cfg.mfChannels)]
  have horder := net.order_perm (Service.updateListLoop (Service.toIDList cfg.mfChannels).dedup
    connections).2
  constructor
  · intro h
    exact h.perm.mpr ⟨List.Perm.refl _, horder.symm⟩
  · intro h
    exact h.perm.mpr ⟨List.Perm.refl _, horder⟩

/-- A channel that the config has, listed twice, is added again. -/
theorem listed_twice_added :
    ¬ ∀ (net : Net) (w : World) (cfg : Config) (connections : List String),
      (Service.toIDList cfg.mfChannels).Nodup →
        Lawful (Service.toIDList cfg.mfChannels) connections
          ((Service.updateList cfg connections).run (handler net) w).2.1
          ((Service.updateList cfg connections).run (handler net) w).2.2 := by
  intro h
  have hlaw := h (answeringBut fun _ => none) ⟨⟨[], [], []⟩, [], []⟩
    { mfThing := "sensor", mfChannels := [⟨"hall", "", none⟩] } ["hall", "hall"] (by decide)
  have hadded := (hlaw.diff.mem_add "hall").mp (by decide)
  exact hadded.2 (by decide)

/-! ## §4. The calls on Things. -/

section Calls

variable {net : Net} {t : String} {cs : List String} {w : World}
  {body : String → World → World × Except Err Unit}

/-- A connecting loop that goes through has connected nothing that was connected. -/
theorem free_of_loop_ok (hbody : Connects net t body)
    (hok : (Prog.eachOn body cs w).2 = .ok ()) : cs.Nodup ∧ ∀ c ∈ cs, (c, t) ∉ w.links := by
  induction cs generalizing w with
  | nil => exact ⟨List.nodup_nil, fun c hc => absurd hc List.not_mem_nil⟩
  | cons c cs ih =>
      rcases hrun : body c w with ⟨w1, r⟩
      have hb := hbody c w
      rw [hrun] at hb
      cases r with
      | error e =>
          rw [Prog.eachOn_error hrun] at hok
          cases hok
      | ok u =>
          rw [Prog.eachOn_ok hrun] at hok
          obtain ⟨hnodup, hfree⟩ := ih hok
          have hdone := hb.2.mp rfl
          have hw1 : w1 = (sdkCall (net.connect c) w (w.connect c t)).1 := hb.1
          -- the call was answered, so the pair is there now and was not before
          have hlinked : (c, t) ∈ w1.links := hw1 ▸ mem_links_of_connect_ok hdone
          have hnot : (c, t) ∉ w.links := by
            intro hin
            rw [World.connect, if_pos hin] at hdone
            revert hdone
            cases net.connect c with
            | none => exact fun h => by cases h
            | some f => cases f <;> exact fun h => by cases h
          have hjoined : Joined t [c] w w1 :=
            hw1 ▸ joined_connect (net.connect c) (List.mem_singleton_self c) w
          refine ⟨List.nodup_cons.mpr ⟨fun hc => hfree c hc hlinked, hnodup⟩, fun d hd => ?_⟩
          rcases List.mem_cons.mp hd with heq | hd
          · exact heq ▸ hnot
          · exact fun hin => hfree d hd (hjoined.kept _ hin)

/-- **The calls of `UpdateConnections` go through exactly when nothing is listed twice**: the
config is active, its thing is connected to its channels, and Things answers every call. -/
theorem reconnect_ok_iff (hconnect : ∀ c, net.connect c = none)
    (hdisconnect : ∀ c, net.disconnect c = none) (key : String) {cfg : Config}
    (hlinks : ∀ c, (c, t) ∈ w.links ↔ c ∈ Service.toIDList cfg.mfChannels)
    (connections : List String) :
    ((Service.reconnect key t .active
        ((Service.updateList cfg connections).run (handler net) w).2.1
        ((Service.updateList cfg connections).run (handler net) w).2.2).run (handler net) w).2
      = .ok () ↔ connections.Nodup := by
  rw [run_updateList]
  dsimp only
  generalize hcs : Service.toIDList cfg.mfChannels = current at *
  have hremove : ∀ c, c ∈ net.order (Service.updateListLoop current.dedup connections).2 ↔
      c ∈ current ∧ c ∉ connections := fun c => by
    rw [(net.order_perm _).mem_iff, mem_updateList_remove, List.mem_dedup]
  have hpart : (Prog.eachOn (partBody net key t)
      (net.order (Service.updateListLoop current.dedup connections).2) w).2 = .ok () :=
    partLoop_ok key t w fun c _ => .inl (hdisconnect c)
  obtain ⟨taken, hparted⟩ := parted_loop net key t
    (net.order (Service.updateListLoop current.dedup connections).2) w
  have hrun : ((Service.reconnect key t .active
        (Service.updateListLoop current.dedup connections).1
        (net.order (Service.updateListLoop current.dedup connections).2)).run (handler net) w).2
      = (Prog.eachOn (fun c w => (Service.connectListed key t c).run (handler net) w)
          (Service.updateListLoop current.dedup connections).1
          (Prog.eachOn (partBody net key t)
            (net.order (Service.updateListLoop current.dedup connections).2) w).1).2 := by
    simp only [Service.reconnect, Prog.run_bind, Prog.run_each]
    rw [hpart]
    simp only [Prog.run_each]
  rw [hrun]
  generalize (Prog.eachOn (partBody net key t) _ w).1 = w1 at hparted
  -- what is added was not disconnected before
  have hfree : (∀ c ∈ (Service.updateListLoop current.dedup connections).1, (c, t) ∉ w1.links) ↔
      ∀ c ∈ (Service.updateListLoop current.dedup connections).1, c ∉ current := by
    refine forall₂_congr fun c hc => not_congr ?_
    rw [hparted.links, hlinks]
    refine and_iff_left fun hin => ?_
    exact ((hremove c).mp (hparted.sub c hin.2)).2 (mem_of_updateList_add _ _ hc)
  constructor
  · intro hok
    obtain ⟨hnodup, hnew⟩ := free_of_loop_ok (connects_connectListed net key t) hok
    exact nodup_of_added connections current hnodup (hfree.mp hnew)
  · intro hnodup
    have hdiff := (isDiff_loop_iff connections current).mpr hnodup
    exact loop_ok (connects_connectListed net key t) (fun c _ => hconnect c) hdiff.add_nodup
      (hfree.mpr fun c hc => ((hdiff.mem_add c).mp hc).2)

end Calls

end Mainflux.Bootstrap.Consistency
