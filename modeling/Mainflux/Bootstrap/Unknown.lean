/-
  Mainflux.Bootstrap.Unknown
  ──────────────────────────
  **KNOWN AND UNKNOWN DEVICES.**

  A device that asks for a config and has none is put on the list of the unknown
  ones, with the key it sent; the list holds an external id once, so the first key
  stays.  `Save` takes the device off the list, by its id AND its key:

    • `known_iff` — after an `Add` the device is off the list for as long as its
      config is there, exactly when the list did not have it with another key and
      the transaction was committed;
    • `wrong_key_stays_unknown` — a device that once asked with a wrong key.
-/
import Mainflux.Bootstrap.Consistency
import Mainflux.Bootstrap.Registry

namespace Mainflux.Bootstrap

open Mainflux.Lib

open Consistency

/-! ## §1. The statement. -/

/-- There is a config for the device. -/
def Registry.Known (s : Registry) (externalID : String) : Prop :=
  ∃ r ∈ s.db.configs, r.externalID = externalID

/-- The device is on the list of unknown ones. -/
def Registry.Unknown (s : Registry) (externalID : String) : Prop :=
  ∃ u ∈ s.unknown, u.externalID = externalID

/-- The step removes the config of the device. -/
def Removes (externalID : String) (s : Registry) (st : RegistryStep) : Prop :=
  s.Known externalID ∧ ¬ (registryStep s st).Known externalID

/-- `Add` returns no error. -/
def Added (net : Net) (key : String) (cfg : Config) (s : Registry) : Prop :=
  ((serve (.add key cfg)).run (registryHandler net) s).2 = .ok ()

/-- **From `s` on the device is not unknown, until its config is removed.** -/
def OffTheList (externalID : String) (s : Registry) : Prop :=
  ∀ later : List RegistryStep, Along registryStep (fun s st => ¬ Removes externalID s st) s later →
    ¬ (run registryStep s later).Unknown externalID

/-! ## §2. One step. -/

section Step

variable {net : Net} {s : Registry}

/-- A call puts nobody on the list. -/
theorem unknown_of_call {α : Type} (p : Prog Sig α) (s : Registry) :
    ∀ u ∈ (p.run (registryHandler net) s).1.unknown, u ∈ s.unknown := by
  induction p generalizing s with
  | ret a => exact fun u hu => hu
  | call c k ih =>
      intro u hu
      have hmid : u ∈ (registryHandler net c s).1.unknown := ih _ _ u hu
      unfold registryHandler at hmid
      cases c with
      | configsSave cfg connections =>
          simp only [saveUnknownAfter] at hmid
          split at hmid
          · exact (mem_deleteWhere.mp hmid).1
          · exact hmid
      | _ => exact hmid

theorem retrieveByExternalID_notFound {externalID : String} :
    ConfigRepository.retrieveByExternalID externalID s.db = .error .notFound ↔
      ¬ s.Known externalID := by
  unfold ConfigRepository.retrieveByExternalID
  split
  next hnone =>
      refine iff_of_true rfl ?_
      rintro ⟨r, hr, hid⟩
      have hne := List.find?_eq_none.mp hnone r hr
      simp [hid] at hne
  next r hsome =>
      refine iff_of_false (fun h => by cases h) (not_not.mpr ⟨r, List.mem_of_find?_eq_some hsome, ?_⟩)
      have hid := List.find?_some hsome
      simpa using hid

/-- An attempt puts nobody on the list who has a config. -/
theorem unknown_of_bootstrap {attempt : Attempt} {externalKey externalID : String} {secure : Bool}
    {u : UnknownRow} (hu : u ∈ (bootstrap attempt externalKey externalID secure s).1.unknown) :
    u ∈ s.unknown ∨ u.externalID = externalID ∧ ¬ s.Known externalID := by
  unfold bootstrap at hu
  split at hu
  next hread =>
      split at hu
      next hnone =>
          have hnot : ¬ s.Known externalID := retrieveByExternalID_notFound.mp hnone
          simp only at hu
          split at hu
          · unfold ConfigRepository.saveUnknown at hu
            split at hu
            · exact .inl hu
            · rcases List.mem_append.mp hu with hold | hnew
              · exact .inl hold
              · exact .inr ⟨congrArg UnknownRow.externalID (List.mem_singleton.mp hnew), hnot⟩
          · exact .inl hu
      next => exact .inl hu
      next =>
          split at hu
          · exact .inl hu
          · split at hu
            · exact .inl hu
            · exact .inl hu
  next => exact .inl hu

/-- **A device that is known and not unknown stays so**, unless its config goes. -/
theorem known_step {externalID : String} {st : RegistryStep}
    (hs : s.Known externalID ∧ ¬ s.Unknown externalID) (hst : ¬ Removes externalID s st) :
    (registryStep s st).Known externalID ∧ ¬ (registryStep s st).Unknown externalID := by
  have hknown : (registryStep s st).Known externalID := by
    by_contra hgone
    exact hst ⟨hs.1, hgone⟩
  refine ⟨hknown, ?_⟩
  rintro ⟨u, hu, hid⟩
  cases st with
  | call net req => exact hs.2 ⟨u, unknown_of_call _ s u hu, hid⟩
  | bootstrap attempt externalKey id secure =>
      rcases unknown_of_bootstrap hu with hold | ⟨rfl, hnot⟩
      · exact hs.2 ⟨u, hold, hid⟩
      · exact hnot (hid ▸ hs.1)
  | event write cleanup ev => exact hs.2 ⟨u, hu, hid⟩

theorem offTheList_of_known {externalID : String} (hs : s.Known externalID ∧ ¬ s.Unknown externalID) :
    OffTheList externalID s := by
  intro later hlater
  have hinv : ∀ (s : Registry) (st : RegistryStep), (s.Known externalID ∧ ¬ s.Unknown externalID) →
      ¬ Removes externalID s st →
        (registryStep s st).Known externalID ∧ ¬ (registryStep s st).Unknown externalID :=
    fun s st => known_step
  exact (run_inv hinv hs hlater).2

end Step

/-! ## §3. `Add`. -/

section Add

variable {net : Net} {s : Registry} {key : String} {cfg : Config}

/-- **What an `Add` that returns no error has done**: everything, or nothing at all
because the commit failed. -/
theorem added_cases (h : Added net key cfg s) :
    ¬ s.Known cfg.externalID ∧
      ((net.write = none ∧ (registryStep s (.call net (.add key cfg))).Known cfg.externalID ∧
          (registryStep s (.call net (.add key cfg))).unknown
            = deleteWhere (fun u => u.externalID = cfg.externalID ∧ u.externalKey = cfg.externalKey)
                s.unknown) ∨
        (net.write = some .lost ∧ (registryStep s (.call net (.add key cfg))).db = s.db ∧
          (registryStep s (.call net (.add key cfg))).unknown = s.unknown)) := by
  rcases @add_cases net s key cfg with ⟨-, -, hfail⟩ | ⟨owner, th, channels, -, -, hdb, hunknown, hok⟩
  · exact absurd h hfail
  · have hsaved := hok h
    rcases ConfigRepository.save_cases (newConfig cfg owner th channels)
      (Service.toIDList cfg.mfChannels) s.db with ⟨e, hsave⟩ | ⟨d', hsave, -⟩
    · -- whatever becomes of the transaction, the error of `Save` comes back
      rw [hsave] at hsaved
      cases hw : net.write with
      | none => simp [hw, repoCall, Except.isOk, Except.toBool] at hsaved
      | some f => cases f <;> simp [hw, repoCall, Except.isOk, Except.toBool] at hsaved
    · obtain ⟨hfree, hrows⟩ := save_rows hsave
      refine ⟨fun ⟨r, hr, hid⟩ => hfree r hr hid, ?_⟩
      rw [hsave] at hsaved hdb
      simp only [saveUnknownAfter, hsave] at hunknown
      cases hw : net.write with
      | none =>
          rw [hw] at hdb hunknown
          refine .inl ⟨rfl, ⟨toDBConfig (newConfig cfg owner th channels), ?_, rfl⟩, hunknown⟩
          rw [show (registryStep s (.call net (.add key cfg))).db = d' from hdb, hrows]
          exact List.mem_append_right _ (List.mem_singleton.mpr rfl)
      | some f =>
          rw [hw] at hdb hunknown hsaved
          cases f with
          | refused => cases hsaved
          | unanswered => cases hsaved
          | lost => exact .inr ⟨rfl, hdb, hunknown⟩

/-- An attempt of a device that has no config puts it on the list. -/
theorem unknown_bootstrap {externalID : String} (h : ¬ s.Known externalID) :
    (registryStep s (.bootstrap ⟨fun k => .ok k, true, none⟩ "" externalID false)).Unknown
      externalID := by
  have hstep : (registryStep s (.bootstrap ⟨fun k => .ok k, true, none⟩ "" externalID false)).unknown
      = ConfigRepository.saveUnknown "" externalID s.unknown := by
    simp only [registryStep, bootstrap, if_true, retrieveByExternalID_notFound.mpr h]
    rfl
  rw [Registry.Unknown, hstep, ConfigRepository.saveUnknown]
  split
  next hold => exact hold
  next => exact ⟨_, List.mem_append_right _ (List.mem_singleton.mpr rfl), rfl⟩

/-- **When an `Add` takes the device off the list for good**: exactly when it does
not lose its commit, and the list did not have the device with another key. -/
theorem known_iff (links : List (String × String)) (before : List RegistryStep) (net : Net)
    (key : String) (cfg : Config)
    (h : Added net key cfg (run registryStep (emptyRegistry links) before)) :
    OffTheList cfg.externalID
        (run registryStep (emptyRegistry links) (before ++ [.call net (.add key cfg)])) ↔
      net.write ≠ some .lost ∧
        ∀ u ∈ (run registryStep (emptyRegistry links) before).unknown,
          u.externalID = cfg.externalID → u.externalKey = cfg.externalKey := by
  rw [run_append, run_cons, run_nil]
  generalize run registryStep (emptyRegistry links) before = s at h ⊢
  obtain ⟨hfree, ⟨hw, hknown, hunknown⟩ | ⟨hw, hdb, hunknown⟩⟩ := added_cases h
  · constructor
    · intro hoff
      refine ⟨by simp [hw], fun u hu hid => ?_⟩
      by_contra hkey
      refine hoff [] trivial ⟨u, ?_, hid⟩
      rw [run_nil, hunknown]
      exact mem_deleteWhere.mpr ⟨hu, fun hboth => hkey hboth.2⟩
    · rintro ⟨-, hkeys⟩
      refine offTheList_of_known ⟨hknown, ?_⟩
      rintro ⟨u, hu, hid⟩
      rw [hunknown] at hu
      obtain ⟨hold, hne⟩ := mem_deleteWhere.mp hu
      exact hne ⟨hid, hkeys u hold hid⟩
  · -- the config is not there: the next attempt is one of an unknown device
    refine iff_of_false ?_ fun hcond => hcond.1 hw
    intro hoff
    have hnot : ¬ (registryStep s (.call net (.add key cfg))).Known cfg.externalID := by
      rintro ⟨r, hr, hid⟩
      exact hfree ⟨r, hdb ▸ hr, hid⟩
    exact hoff [.bootstrap ⟨fun k => .ok k, true, none⟩ "" cfg.externalID false]
      ⟨fun hremoves => hnot hremoves.1, trivial⟩ (unknown_bootstrap hnot)

end Add

/-! ## §4. A device that asked before. -/

/-- The device asks, before there is a config for it. -/
def asked (externalKey : String) : List RegistryStep :=
  [.bootstrap ⟨fun k => .ok k, true, none⟩ externalKey "ext" false]

/-- The tables before the `Add`. -/
theorem run_asked (externalKey : String) :
    run registryStep (emptyRegistry []) (asked externalKey)
      = { emptyRegistry [] with unknown := [⟨"ext", externalKey⟩] } := by
  rfl

/-- Whatever the device has sent, Bob can add the config. -/
theorem added_asked (externalKey : String) :
    Added (answeringBut fun _ => none) "bob" sensorHallLab
      (run registryStep (emptyRegistry []) (asked externalKey)) := by
  have hempty : ((serve (.add "bob" sensorHallLab)).run (handler (answeringBut fun _ => none))
      (emptyRegistry []).world).2 = .ok () := by decide +kernel
  rw [Added, (registry_run _ _).2, run_asked]
  exact hempty

/-- The device has asked with its own key: it is off the list. -/
theorem known_iff_right_key :
    OffTheList "ext" (run registryStep (emptyRegistry [])
      (asked "secret" ++ [.call (answeringBut fun _ => none) (.add "bob" sensorHallLab)])) := by
  refine (known_iff [] (asked "secret") _ "bob" sensorHallLab (added_asked "secret")).mpr ⟨by decide, ?_⟩
  rw [run_asked]
  intro u hu _
  rw [List.mem_singleton.mp hu]
  rfl

/-- **The device has asked with a wrong key**: it has a config, and is still on the
list. -/
theorem wrong_key_stays_unknown :
    ¬ ∀ (links : List (String × String)) (before : List RegistryStep) (net : Net) (key : String)
      (cfg : Config), Added net key cfg (run registryStep (emptyRegistry links) before) →
        OffTheList cfg.externalID
          (run registryStep (emptyRegistry links) (before ++ [.call net (.add key cfg)])) := by
  intro h
  refine h [] (asked "wrong") _ "bob" sensorHallLab (added_asked "wrong") [] trivial ?_
  have hlist : (run registryStep (emptyRegistry []) (asked "wrong"
      ++ [.call (answeringBut fun _ => none) (.add "bob" sensorHallLab)])).unknown
      = [⟨"ext", "wrong"⟩] := by decide +kernel
  exact ⟨⟨"ext", "wrong"⟩, by rw [run_nil, hlist]; exact List.mem_singleton.mpr rfl, rfl⟩

end Mainflux.Bootstrap
