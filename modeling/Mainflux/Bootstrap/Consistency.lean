/-
  Mainflux.Bootstrap.Consistency
  ──────────────────────────────
  **BOOTSTRAP STATES AND THINGS CONNECTIONS, OVER WHOLE RUNS.**

  A safe step keeps the invariant (`step_inv`), so in every run of safe steps
  active means connected and inactive means not connected, at every moment, once
  the pending records are handled (`consistent_of_safe`).

  `second_call_refused` is a run of two calls that ends inconsistent: the second
  `ConnectThing` of an activation is refused, and the first one stands.
-/
import Mainflux.Bootstrap.Reconnect
import Mainflux.Lib.Run

namespace Mainflux.Bootstrap.Consistency

open Mainflux.Lib

/-! ## §1. Operations of Things, and whole runs. -/

section Runs

variable {w : World}

theorem inv_disconnect (h : Inv w.db w.links) (hp : w.pending = []) {c t : String}
    (hsafe : SafeOperation w (.disconnect c t)) :
    Inv (settled (w.operate (.disconnect c t))) (w.operate (.disconnect c t)).links := by
  by_cases hin : (c, t) ∈ w.links
  · have hafter : w.operate (.disconnect c t)
        = ⟨w.db, deleteWhere (fun p => p = (c, t)) w.links, [.disconnectThing c t]⟩ := by
      simp only [World.operate, World.disconnect, if_pos hin, hp, List.nil_append]
    rw [hafter]
    show Inv (ConfigRepository.disconnectThing c t w.db) _
    by_cases hrow : w.db.HasConnection c t
    · -- the record sets every config inactive: no other may be connected
      obtain ⟨honly, hq⟩ := hsafe hin hrow
      rw [disconnectThing_of_row hrow]
      refine inv_inactivated h.valid fun co hco hl => ?_
      obtain ⟨hl, hne⟩ := mem_deleteWhere.mp hl
      obtain ⟨s, hs, hof⟩ := h.valid.config_fk co hco
      by_cases hid : co.configID = t
      · exact hne (by rw [honly co hco hid, hid])
      · refine hq s hs (fun hthing => hid (hof.1.trans hthing)) ?_ co hco hof
        exact (h.linked_iff hs hco hof).mpr hl
    · rw [disconnectThing_of_no_row hrow]
      refine h.relink fun co hco => ?_
      rw [mem_deleteWhere]
      refine and_iff_left fun heq => hrow ⟨co, hco, ?_, ?_⟩
      · exact congrArg Prod.snd heq
      · exact congrArg Prod.fst heq
  · have hsame : w.operate (.disconnect c t) = w := by
      simp only [World.operate, World.disconnect, if_neg hin]
    rw [hsame]
    exact inv_same h hp

theorem inv_operate (h : Inv w.db w.links) (hp : w.pending = []) {op : Operation}
    (hsafe : SafeOperation w op) : Inv (settled (w.operate op)) (w.operate op).links := by
  cases op with
  | disconnect c t => exact inv_disconnect h hp hsafe
  | removeThing t owned =>
      have hsettled : settled (w.operate (.removeThing t owned))
          = ConfigRepository.removeThing t w.db := by
        simp only [settled, World.operate, hp]
        rfl
      rw [hsettled]
      refine h.removeThing fun p hne => ?_
      cases owned with
      | true => simp [World.operate, hne]
      | false => exact Iff.rfl
  | removeChannel c owned =>
      have hsettled : settled (w.operate (.removeChannel c owned))
          = ConfigRepository.removeChannel c w.db := by
        simp only [settled, World.operate, hp]
        rfl
      rw [hsettled]
      refine h.removeChannel fun p hne => ?_
      cases owned with
      | true => simp [World.operate, hne]
      | false => exact Iff.rfl
  | updateChannel channel =>
      have hsettled : settled (w.operate (.updateChannel channel))
          = ConfigRepository.updateChannel channel w.db := by
        simp only [settled, World.operate, hp]
        rfl
      rw [hsettled]
      exact h.shrink (h.valid.updateChannels _ fun r => ⟨rfl, rfl⟩)
        (fun r hr => ⟨r, hr, rfl, rfl, rfl⟩) (fun _ hco => hco) (fun _ _ => Iff.rfl)

/-- Handling a record brings the tables nearer to where they settle. -/
theorem settled_handle (w : World) : settled (step w .handle) = settled w := by
  obtain ⟨d, links, evs⟩ := w
  cases evs with
  | nil => rfl
  | cons ev evs => rfl

theorem links_handle (w : World) : (step w .handle).links = w.links := by
  obtain ⟨d, links, evs⟩ := w
  cases evs with
  | nil => rfl
  | cons ev evs => rfl

/-- **A safe step keeps the invariant**, seen once its records are handled. -/
theorem step_inv (w : World) (s : Step) (h : Inv (settled w) w.links) (hs : Safe w s) :
    Inv (settled (step w s)) (step w s).links := by
  cases s with
  | handle =>
      rw [settled_handle, links_handle]
      exact h
  | operate op =>
      rw [settled_of_nil hs.1] at h
      exact inv_operate h hs.1 hs.2
  | call net req =>
      obtain ⟨hp, hsafe⟩ := hs
      rw [settled_of_nil hp] at h
      cases req with
      | add key cfg => exact inv_add h hp hsafe
      | update key cfg => exact inv_update h hp key cfg
      | updateCert key thingID clientCert clientKey caCert =>
          exact inv_updateCert h hp key thingID clientCert clientKey caCert
      | updateConnections key id connections => exact inv_updateConnections h hp hsafe
      | changeState key id state => exact inv_changeState h hp hsafe
      | remove key id => exact inv_remove h hp key id

theorem inv_start (links : List (String × String)) :
    Inv (settled (start links)) (start links).links := by
  refine ⟨?_, ?_⟩
  · constructor
    · constructor <;> simp [settled, settle, start]
    · simp [settled, settle, start]
  · intro cfg hcfg
    cases hcfg

/-- **In every run of safe steps, at every moment of it**, once the pending
records are handled the thing of an active config is connected to every channel
of the config and that of an inactive one to none. -/
theorem consistent_of_safe (links : List (String × String)) (done todo : List Step)
    (h : Along step Safe (start links) (done ++ todo)) :
    Consistent (settled (run step (start links) done)) (run step (start links) done).links := by
  have hdone := ((along_append _ _ _).mp h).1
  exact (run_inv (I := fun w => Inv (settled w) w.links) step_inv (inv_start links) hdone).consistent

end Runs

/-! ## §2. A sensor with two channels. -/

/-- Every call is answered, but connections may fail. -/
def answeringBut (connect : String → Option SdkFault) : Net where
  identify := fun token => some token
  order := fun l => l
  order_perm := fun l => List.Perm.refl l
  createThing := .error .transport
  thing := fun id => .ok ⟨id, "k5"⟩
  channel := fun id => .ok ⟨id, "", none⟩
  connect := connect
  disconnect := fun _ => none
  deleteThing := none
  listExisting := none
  retrieve := none
  write := none
  cleanup := none

/-- Bob's sensor, to be connected to the hall and the lab. -/
def sensorHallLab : Config :=
  { mfThing := "sensor", mfChannels := [⟨"hall", "", none⟩, ⟨"lab", "", none⟩],
    externalID := "ext", externalKey := "secret" }

/-- Bob adds the config and activates it. -/
def addAndActivate (connect : String → Option SdkFault) : List Step :=
  [.call (answeringBut fun _ => none) (.add "bob" sensorHallLab),
    .call (answeringBut connect) (.changeState "bob" "sensor" .active)]

/-- With every call answered the two steps are safe, and the sensor ends up
active and connected. -/
theorem consistent_of_safe_sensor :
    Consistent (settled (run step (start []) (addAndActivate fun _ => none)))
        (run step (start []) (addAndActivate fun _ => none)).links ∧
      (run step (start []) (addAndActivate fun _ => none)).links
        = [("hall", "sensor"), ("lab", "sensor")] := by
  refine ⟨consistent_of_safe [] (addAndActivate fun _ => none) [] ?_, by decide +kernel⟩
  refine ⟨⟨rfl, ?_⟩, ⟨?_, ?_⟩, trivial⟩
  · exact fun id th _ _ c _ => List.not_mem_nil
  · decide +kernel
  · exact fun owner cfg _ _ => .inr (.inr ⟨fun c _ => rfl, .inl rfl⟩)

/-- **The connection to the second channel is refused**: the config stays
inactive, and the sensor stays connected to the hall. -/
theorem second_call_refused :
    ¬ ∀ (links : List (String × String)) (steps : List Step),
      Consistent (settled (run step (start links) steps)) (run step (start links) steps).links := by
  intro h
  have hrun := h [] (addAndActivate fun c =>
    if c = "lab" then some (.refused .failedConnection) else none)
  revert hrun
  decide +kernel

end Mainflux.Bootstrap.Consistency
