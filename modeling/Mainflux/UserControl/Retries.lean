/-
  Mainflux.UserControl.Retries
  ────────────────────────────
  **RUNNING `bootstrap` AGAIN AFTER IT HAS STOPPED.**

  Here Grafana is the whole of it: its answers come from its own state.  It refuses an
  organization, a datasource or a user that is there already, and overwrites a dashboard
  that is.  A run of `bootstrap` stops where a call raises, whether Grafana has done what
  it was asked to or not (`Stop`).

    • `attempt_eq` — a run depends on nothing but Grafana as it is after the switch to the
      organization (`entered`);
    • `entered_attempt` — a run that stops before there is a datasource changes nothing
      about that;
    • `provided_attempt` — any other run leaves the datasource behind, which no later one
      gets past (`attempt_of_provided`);
    • `rerun_iff` — which runs may be repeated.
-/
import Mathlib.Logic.Function.Basic
import Mainflux.UserControl.Tenants

namespace Mainflux.UserControl

open Mainflux.Lib

variable {J : Type}

/-! ## §1. Grafana. -/

/-- What belongs to an organization: datasources with id, name and database, notification
channels, dashboards with their ids, the home dashboard, members with their roles, and the
permissions of users for datasources. -/
structure Tenant (J : Type) where
  datasources : List (Nat × Text × Text) := []
  channels : List J := []
  dashboards : List (Nat × J) := []
  home : Option Nat := none
  members : List (Nat × Text) := []
  permissions : List (Nat × Nat) := []

/-- Organizations, what belongs to each, accounts, the ids to be given away next, and the
account of the requests: its id, its current organization, home dashboards and stars. -/
structure Grafana (J : Type) where
  orgs : List OrgInfo
  tenants : Nat → Tenant J
  users : List (Nat × Account)
  nextOrg : Nat
  nextUser : Nat
  nextDatasource : Nat
  nextDashboard : Nat
  admin : Nat
  current : Nat
  homes : List (Nat × Nat)
  stars : List Nat

def adminRole : Text := ['A', 'd', 'm', 'i', 'n']

/-- `auto_assign_org_id`. -/
def defaultOrg : Nat := 1

namespace Grafana

variable (g : Grafana J)

def HasOrg (id : Nat) : Prop := ∃ o ∈ g.orgs, o.id = id

instance (id : Nat) : Decidable (g.HasOrg id) := inferInstanceAs (Decidable (∃ o ∈ g.orgs, o.id = id))

def modify (id : Nat) (f : Tenant J → Tenant J) : Grafana J :=
  { g with tenants := Function.update g.tenants id (f (g.tenants id)) }

/-- Its creator is the administrator of a new organization. -/
def createOrganization (name : Text) : Grafana J :=
  if ∃ o ∈ g.orgs, o.name = name then g
  else
    { g with
      orgs := g.orgs ++ [⟨g.nextOrg, name⟩]
      tenants := Function.update g.tenants g.nextOrg { members := [(g.admin, adminRole)] }
      nextOrg := g.nextOrg + 1 }

def usingOrg (id : Nat) : Grafana J := if g.HasOrg id then { g with current := id } else g

/-- A user who is not in the organization yet joins it. -/
def join (id user : Nat) (role : Text) : Grafana J :=
  if g.HasOrg id ∧ user ∉ (g.tenants id).members.map Prod.fst then
    g.modify id fun t => { t with members := t.members ++ [(user, role)] }
  else g

/-- A new account joins the default organization. -/
def createUser (a : Account) : Grafana J :=
  if ∃ u ∈ g.users, u.2.login = a.login ∨ u.2.email = a.email then g
  else
    { g with users := g.users ++ [(g.nextUser, a)], nextUser := g.nextUser + 1 }.join defaultOrg
      g.nextUser viewer

/-- By login or e-mail address. -/
def userID (name : Text) : Option Nat :=
  (g.users.find? fun u => u.2.login = name ∨ u.2.email = name).map Prod.fst

def listUsers (members : List (Nat × Text)) : List OrgUser :=
  members.filterMap fun m => (g.users.lookup m.1).map fun a => ⟨m.1, a.login, a.email⟩

/-- A dashboard with the same key is overwritten and keeps its id. -/
def createDashboard (key : J → Text) (doc : J) : Grafana J × Nat :=
  match (g.tenants g.current).dashboards.find? fun d => key d.2 = key doc with
  | some d =>
      (g.modify g.current fun t =>
        { t with dashboards := t.dashboards.map fun d' => if d'.1 = d.1 then (d.1, doc) else d' }, d.1)
  | none =>
      ({ g with nextDashboard := g.nextDashboard + 1 }.modify g.current fun t =>
        { t with dashboards := t.dashboards ++ [(g.nextDashboard, doc)] }, g.nextDashboard)

end Grafana

/-- A refusal raises where the answer is read. -/
def OrgCall.refusal : (c : OrgCall J) → Option c.Val
  | .createNotificationChannels _ => some ()
  | .updatePreferencesOrg _ => some ()
  | .updatePreferencesUser _ => some ()
  | .addPermissionDatasource _ _ => some ()
  | .removeUser _ => some ()
  | _ => none

/-- A call in the current organization.  `bootstrap` does not look for dashboards. -/
def performIn (key : J → Text) (g : Grafana J) : (c : OrgCall J) → Grafana J × Option c.Val
  | .createDatasource name database =>
      -- refused with 409, and `response.json()["datasource"]` raises
      if ∃ d ∈ (g.tenants g.current).datasources, d.2.1 = name then (g, none)
      else
        ({ g with nextDatasource := g.nextDatasource + 1 }.modify g.current fun t =>
          { t with datasources := t.datasources ++ [(g.nextDatasource, name, database)] },
          some g.nextDatasource)
  | .createNotificationChannels doc =>
      -- refused as well, but nothing of the answer is read
      (if ∃ c ∈ (g.tenants g.current).channels, key c = key doc then g
        else g.modify g.current fun t => { t with channels := t.channels ++ [doc] }, some ())
  | .createDashboard doc => ((g.createDashboard key doc).1, some (g.createDashboard key doc).2)
  | .updatePreferencesOrg id => (g.modify g.current fun t => { t with home := some id }, some ())
  | .updatePreferencesUser id =>
      ({ g with homes := (g.current, id) :: g.homes.filter (·.1 ≠ g.current) }, some ())
  | .addPermissionDatasource dataSourceID user =>
      (g.modify g.current fun t => { t with permissions := t.permissions ++ [(dataSourceID, user)] },
        some ())
  | .getAllUsersOrg => (g, some (g.listUsers (g.tenants g.current).members))
  | .removeUser user =>
      (g.modify g.current fun t => { t with members := t.members.filter (·.1 ≠ user) }, some ())
  | c => (g, c.refusal)

/-- A call. -/
def perform (key : J → Text) (g : Grafana J) : (c : Cmd J) → Grafana J × Option c.Val
  | .listOrganization => (g, some g.orgs)
  | .createOrganization name => (g.createOrganization name, some ())
  | .usingOrg id => (g.usingOrg id, some ())
  | .createUser a => (g.createUser a, some ())
  | .assignUser id login role =>
      (match g.userID login with
        | some user => g.join id user role
        | none => g, some ())
  | .lookupUser login => (g, some (g.userID login))
  | .starDashboard id => (if id ∈ g.stars then g else { g with stars := g.stars ++ [id] }, some ())
  | .org c => if g.HasOrg g.current then performIn key g c else (g, c.refusal)

/-! ## §2. Runs. -/

/-- Where a run stops: the number of the call that raises, and whether Grafana has done it. -/
structure Stop where
  call : Nat
  taken : Bool

/-- Grafana, with the number of calls so far; no call but the one of the stop raises without
being refused. -/
def serve (key : J → Text) (stop : Option Stop) : Handler (sig J) (Grafana J × Nat) := fun c s =>
  match stop with
  | none => (((perform key s.1 c).1, s.2 + 1), (perform key s.1 c).2)
  | some stop =>
      if s.2 = stop.call then ((if stop.taken then (perform key s.1 c).1 else s.1, s.2 + 1), none)
      else (((perform key s.1 c).1, s.2 + 1), (perform key s.1 c).2)

section Runs

variable (key : J → Text) (docs : Documents J) (r : Registration)

/-- One run of `bootstrap`: what becomes of Grafana, and the status. -/
def attempt (stop : Option Stop) (g : Grafana J) : Grafana J × String :=
  let s := (bootstrap docs r).run (serve key stop) (g, 0)
  (s.1.1, s.2)

/-- After a run that stopped, another one does what a run that never failed would have done, and
returns `"success"`. -/
def Converges (stop : Stop) (g : Grafana J) : Prop :=
  (attempt key docs r none (attempt key docs r (some stop) g).1).2 = "success" ∧
    (attempt key docs r none (attempt key docs r (some stop) g).1).1 = (attempt key docs r none g).1

/-- What belongs to the organization that the lookups find; a new one has its creator. -/
def foundTenant (g : Grafana J) : Tenant J :=
  match g.orgs.find? fun o => o.Contains r.organization with
  | some o => g.tenants o.id
  | none => { members := [(g.admin, adminRole)] }

/-- The organization has neither such a datasource nor such a user. -/
def Fresh (g : Grafana J) : Prop :=
  r.channelID ∉ (foundTenant r g).datasources.map (·.2.1) ∧
    userIDIn (localPart r.email) (g.listUsers (foundTenant r g).members) = 0

/-- The number of the call that creates the datasource. -/
def datasourceCall (g : Grafana J) : Nat :=
  if organizationCheckIn r.organization g.orgs = 0 then 4 else 3

/-- The run stops before there is a datasource. -/
def Early (stop : Stop) (g : Grafana J) : Prop :=
  stop.call < datasourceCall r g ∨ stop.call = datasourceCall r g ∧ stop.taken = false

end Runs

/-! ## §3. The organization. -/

section Organization

variable {name : Text} {g : Grafana J}

/-- A switch to what the lookup finds. -/
def Grafana.switched (name : Text) (g : Grafana J) : Grafana J :=
  g.usingOrg (organizationIDIn name g.orgs)

/-- Grafana after the first block of `bootstrap`. -/
def Grafana.entered (name : Text) (g : Grafana J) : Grafana J :=
  if organizationCheckIn name g.orgs = 0 then (g.createOrganization name).switched name
  else g.switched name

theorem orgs_switched : (g.switched name).orgs = g.orgs := by
  unfold Grafana.switched Grafana.usingOrg
  split
  next => rfl
  next => rfl

/-- A second switch changes nothing. -/
theorem switched_switched : (g.switched name).switched name = g.switched name := by
  have horgs : (g.switched name).orgs = g.orgs := orgs_switched
  by_cases hid : g.HasOrg (organizationIDIn name g.orgs)
  · have hs : g.switched name = { g with current := organizationIDIn name g.orgs } := if_pos hid
    rw [hs]
    exact if_pos hid
  · have hs : g.switched name = g := if_neg hid
    rw [hs, hs]

/-- The check fails when no name contains the one that is looked for. -/
theorem find_of_check (h : organizationCheckIn name g.orgs = 0) :
    (g.orgs.find? fun o => o.Contains name) = none := by
  rw [organizationCheckIn_eq] at h
  cases hfind : g.orgs.find? fun o => o.Contains name with
  | none => rfl
  | some o =>
      rw [hfind] at h
      cases h

theorem find_of_check_ne (h : organizationCheckIn name g.orgs ≠ 0) :
    ∃ o, (g.orgs.find? fun o => o.Contains name) = some o := by
  rw [organizationCheckIn_eq] at h
  cases hfind : g.orgs.find? fun o => o.Contains name with
  | none =>
      rw [hfind] at h
      exact absurd rfl h
  | some o => exact ⟨o, rfl⟩

theorem createOrganization_eq (h : organizationCheckIn name g.orgs = 0) :
    g.createOrganization name =
      { g with
        orgs := g.orgs ++ [⟨g.nextOrg, name⟩]
        tenants := Function.update g.tenants g.nextOrg { members := [(g.admin, adminRole)] }
        nextOrg := g.nextOrg + 1 } := by
  have hno := no_name_of_none (find_of_check h)
  exact if_neg fun ⟨o, ho, hname⟩ => hno o ho hname

/-- The lookups find the new organization. -/
theorem find_created (h : organizationCheckIn name g.orgs = 0) :
    ((g.createOrganization name).orgs.find? fun o => o.Contains name) = some ⟨g.nextOrg, name⟩ := by
  have hself : OrgInfo.Contains name ⟨g.nextOrg, name⟩ := List.infix_refl name
  rw [createOrganization_eq h, List.find?_append, find_of_check h, Option.none_or,
    List.find?_cons_of_pos (by simpa using hself)]

theorem check_created (h : organizationCheckIn name g.orgs = 0) :
    organizationCheckIn name (g.createOrganization name).orgs ≠ 0 := by
  rw [organizationCheckIn_eq, find_created h]
  exact Nat.one_ne_zero

theorem entered_of_check (h : organizationCheckIn name g.orgs ≠ 0) :
    g.entered name = g.switched name := if_neg h

theorem entered_created (h : organizationCheckIn name g.orgs = 0) :
    (g.createOrganization name).entered name = g.entered name := by
  rw [entered_of_check (check_created h)]
  exact (if_pos h).symm

theorem entered_switched (h : organizationCheckIn name g.orgs ≠ 0) :
    (g.switched name).entered name = g.entered name := by
  have hswitched : organizationCheckIn name (g.switched name).orgs ≠ 0 := by
    rw [orgs_switched]
    exact h
  rw [entered_of_check hswitched, entered_of_check h, switched_switched]

/-- **The first block may be repeated.** -/
theorem entered_entered : (g.entered name).entered name = g.entered name := by
  by_cases h : organizationCheckIn name g.orgs = 0
  · have hentered : g.entered name = (g.createOrganization name).switched name := if_pos h
    rw [hentered, entered_switched (check_created h), entered_created h, hentered]
  · rw [entered_of_check h, entered_switched h, entered_of_check h]

/-- After it the organization is there, is the current one, and is what the lookups find. -/
theorem entered_spec (g : Grafana J) (r : Registration) :
    ∃ o, ((g.entered r.organization).orgs.find? fun o => o.Contains r.organization) = some o ∧
      (g.entered r.organization).current = o.id ∧
      (g.entered r.organization).tenants o.id = foundTenant r g ∧
      (g.entered r.organization).users = g.users := by
  have hswitch : ∀ (g : Grafana J) o, (g.orgs.find? fun o => o.Contains r.organization) = some o →
      g.switched r.organization = { g with current := o.id } := by
    intro g o ho
    have hid : organizationIDIn r.organization g.orgs = o.id := by
      rw [organizationIDIn_eq, ho]
      rfl
    rw [Grafana.switched, hid]
    exact if_pos ⟨o, List.mem_of_find?_eq_some ho, rfl⟩
  by_cases h : organizationCheckIn r.organization g.orgs = 0
  · have hentered : g.entered r.organization
        = (g.createOrganization r.organization).switched r.organization := if_pos h
    have hfound : foundTenant r g = { members := [(g.admin, adminRole)] } := by
      rw [foundTenant, find_of_check h]
    refine ⟨⟨g.nextOrg, r.organization⟩, ?_⟩
    rw [hentered, hswitch _ _ (find_created h), hfound]
    refine ⟨find_created h, rfl, ?_, ?_⟩
    · rw [createOrganization_eq h]
      exact Function.update_self g.nextOrg _ g.tenants
    · rw [createOrganization_eq h]
  · obtain ⟨o, ho⟩ := find_of_check_ne h
    have hfound : foundTenant r g = g.tenants o.id := by
      rw [foundTenant, ho]
    refine ⟨o, ?_⟩
    rw [entered_of_check h, hswitch g o ho, hfound]
    exact ⟨ho, rfl, rfl, rfl⟩

end Organization

/-! ## §4. The first calls of a run. -/

section First

variable {key : J → Text} {g : Grafana J} {α : Type}

theorem serve_next {stop : Option Stop} {n : Nat} (h : ∀ s ∈ stop, n ≠ s.call) (c : Cmd J) :
    serve key stop c (g, n) = (((perform key g c).1, n + 1), (perform key g c).2) := by
  cases stop with
  | none => rfl
  | some stop => exact if_neg (h stop rfl)

theorem serve_stop {stop : Stop} (c : Cmd J) :
    serve key (some stop) c (g, stop.call)
      = ((if stop.taken then (perform key g c).1 else g, stop.call + 1), none) := if_pos rfl

theorem ne_call {stop : Stop} {n : Nat} (h : n ≠ stop.call) : ∀ s ∈ some stop, n ≠ s.call := by
  intro s hs
  cases hs
  exact h

/-- A call that is answered. -/
theorem run_asked_next {stop : Option Stop} {n : Nat} (h : ∀ s ∈ stop, n ≠ s.call) {c : Cmd J}
    {v : c.Val} (hv : (perform key g c).2 = some v) (e : α) (k : c.Val → Prog (sig J) α) :
    (asked c e k).run (serve key stop) (g, n)
      = (k v).run (serve key stop) ((perform key g c).1, n + 1) := by
  show (Option.elim (serve key stop c (g, n)).2 (Prog.ret e) k).run (serve key stop)
    (serve key stop c (g, n)).1 = _
  rw [serve_next h, hv]
  rfl

/-- A call that is refused. -/
theorem run_asked_refused {stop : Option Stop} {n : Nat} (h : ∀ s ∈ stop, n ≠ s.call) {c : Cmd J}
    (hv : (perform key g c).2 = none) (e : α) (k : c.Val → Prog (sig J) α) :
    (asked c e k).run (serve key stop) (g, n) = (((perform key g c).1, n + 1), e) := by
  show (Option.elim (serve key stop c (g, n)).2 (Prog.ret e) k).run (serve key stop)
    (serve key stop c (g, n)).1 = _
  rw [serve_next h, hv]
  rfl

/-- The call of the stop. -/
theorem run_asked_stop {stop : Stop} (c : Cmd J) (e : α) (k : c.Val → Prog (sig J) α) :
    (asked c e k).run (serve key (some stop)) (g, stop.call)
      = ((if stop.taken then (perform key g c).1 else g, stop.call + 1), e) := by
  show (Option.elim (serve key (some stop) c (g, stop.call)).2 (Prog.ret e) k).run
    (serve key (some stop)) (serve key (some stop) c (g, stop.call)).1 = _
  rw [serve_stop]
  rfl

/-- Lookup and switch, then the rest of `bootstrap`. -/
theorem enteredOrganization_eq (docs : Documents J) (r : Registration) :
    enteredOrganization docs r
      = asked .listOrganization "Error when creating and switching to organization" fun orgs =>
          asked (.usingOrg (organizationIDIn r.organization orgs))
            "Error when creating and switching to organization" fun _ => inOrganization docs r := by
  refine congrArg (Prog.call (S := sig J) Cmd.listOrganization) (funext fun x => ?_)
  cases x with
  | none => rfl
  | some orgs =>
      refine congrArg (Prog.call (S := sig J) (Cmd.usingOrg _)) (funext fun x => ?_)
      cases x with
      | none => rfl
      | some u => rfl

/-- What follows begins with the datasource. -/
theorem inOrganization_eq (docs : Documents J) (r : Registration) :
    ∃ rest, inOrganization docs r
      = asked (.org (.createDatasource r.channelID r.channelID))
          "Error when creating datasource and dashboards" rest := by
  refine ⟨?_, ?_⟩
  rotate_left
  · refine congrArg (Prog.call (S := sig J) (Cmd.org _)) (funext fun x => ?_)
    cases x with
    | none => rfl
    | some v => rfl

end First

/-! ## §5. A run that stops early. -/

section Stops

variable (key : J → Text) (docs : Documents J) (r : Registration)

/-- What `bootstrap` does in the organization. -/
def finish (g : Grafana J) : Grafana J × String :=
  let s := (inOrganization docs r).run (serve key none) (g, 0)
  (s.1.1, s.2)

/-- Where no call is to raise, their number does not matter. -/
theorem run_counter {α : Type} (p : Prog (sig J) α) (g : Grafana J) (n m : Nat) :
    (p.run (serve key none) (g, n)).2 = (p.run (serve key none) (g, m)).2 ∧
      (p.run (serve key none) (g, n)).1.1 = (p.run (serve key none) (g, m)).1.1 := by
  let R : Grafana J × Nat → Grafana J × Nat → Prop := fun s t => s.1 = t.1
  have hstep : ∀ (c : Cmd J) s t, True → R s t → (serve key none c s).2 = (serve key none c t).2 ∧
      R (serve key none c s).1 (serve key none c t).1 := by
    rintro c ⟨g, n⟩ ⟨g', m⟩ - h
    obtain rfl : g = g' := h
    exact ⟨rfl, rfl⟩
  exact Prog.run_sim hstep (Prog.uses_of_forall (fun _ => trivial) p) (R := R) rfl

theorem finish_eq (g : Grafana J) (n : Nat) :
    (((inOrganization docs r).run (serve key none) (g, n)).1.1,
      ((inOrganization docs r).run (serve key none) (g, n)).2) = finish key docs r g := by
  obtain ⟨hstatus, hstate⟩ := run_counter key (inOrganization docs r) g n 0
  rw [hstatus, hstate]
  rfl

variable {key docs r} {g : Grafana J} {n : Nat}

/-- Lookup and switch, when they are not to stop. -/
theorem run_enteredOrganization {stop : Option Stop} (h0 : ∀ s ∈ stop, n ≠ s.call)
    (h1 : ∀ s ∈ stop, n + 1 ≠ s.call) :
    (enteredOrganization docs r).run (serve key stop) (g, n)
      = (inOrganization docs r).run (serve key stop) (g.switched r.organization, n + 2) := by
  have hlist : (perform key g .listOrganization).2 = some g.orgs := rfl
  have husing : (perform key g (.usingOrg (organizationIDIn r.organization g.orgs))).2 = some () := rfl
  rw [enteredOrganization_eq, run_asked_next h0 hlist]
  exact run_asked_next h1 husing _ _

/-- Check and creation, when they are not to stop. -/
theorem run_bootstrap {stop : Option Stop} (h0 : ∀ s ∈ stop, 0 ≠ s.call) :
    (bootstrap docs r).run (serve key stop) (g, 0)
      = if organizationCheckIn r.organization g.orgs = 0 then
          (asked (.createOrganization r.organization)
            "Error when creating and switching to organization" fun _ =>
              enteredOrganization docs r).run (serve key stop) (g, 1)
        else (enteredOrganization docs r).run (serve key stop) (g, 1) := by
  have hlist : (perform key g .listOrganization).2 = some g.orgs := rfl
  rw [bootstrap_eq, run_asked_next h0 hlist]
  split
  next => rfl
  next => rfl

/-- **A run depends on Grafana only as it is after the first block.** -/
theorem attempt_eq (g : Grafana J) :
    attempt key docs r none g = finish key docs r (g.entered r.organization) := by
  have hnone : ∀ n, ∀ s ∈ (none : Option Stop), n ≠ s.call := fun n s hs => by cases hs
  rw [attempt, run_bootstrap (hnone 0), Grafana.entered]
  split
  next =>
      have hcreate : (perform key g (.createOrganization r.organization)).2 = some () := rfl
      rw [run_asked_next (hnone 1) hcreate, run_enteredOrganization (hnone _) (hnone _)]
      exact finish_eq key docs r _ _
  next =>
      rw [run_enteredOrganization (hnone _) (hnone _)]
      exact finish_eq key docs r _ _

variable {stop : Stop}

/-- A stop at the lookup or at the switch, or at a datasource that is not created. -/
theorem entered_enteredOrganization (hcheck : organizationCheckIn r.organization g.orgs ≠ 0)
    (h : n ≤ stop.call ∧ (stop.call < n + 2 ∨ stop.call = n + 2 ∧ stop.taken = false)) :
    ((enteredOrganization docs r).run (serve key (some stop)) (g, n)).1.1.entered r.organization
      = g.entered r.organization := by
  have hcases : stop.call = n ∨ stop.call = n + 1 ∨ stop.call = n + 2 ∧ stop.taken = false := by
    obtain ⟨hle, hlt | hlast⟩ := h
    · have htwo : stop.call = n ∨ stop.call = n + 1 := by omega
      exact htwo.imp_right .inl
    · exact .inr (.inr hlast)
  obtain hcall | hcall | ⟨hcall, htaken⟩ := hcases
  · -- nothing has been done
    subst hcall
    rw [enteredOrganization_eq, run_asked_stop]
    split
    next => rfl
    next => rfl
  · -- the switch has been done or not, and will be done again
    have h0 : ∀ s ∈ some stop, n ≠ s.call := ne_call (by omega)
    have hlist : (perform key g .listOrganization).2 = some g.orgs := rfl
    rw [enteredOrganization_eq, run_asked_next h0 hlist, ← hcall, run_asked_stop]
    split
    next => exact entered_switched hcheck
    next => rfl
  · -- the switch has been done, and no datasource is there
    have h0 : ∀ s ∈ some stop, n ≠ s.call := ne_call (by omega)
    have h1 : ∀ s ∈ some stop, n + 1 ≠ s.call := ne_call (by omega)
    obtain ⟨rest, hrest⟩ := inOrganization_eq docs r
    rw [run_enteredOrganization h0 h1, hrest, ← hcall, run_asked_stop, htaken]
    exact entered_switched hcheck

/-- **What has been done before there is a datasource is not done again.** -/
theorem entered_attempt (h : Early r stop g) :
    (attempt key docs r (some stop) g).1.entered r.organization = g.entered r.organization := by
  unfold Early datasourceCall at h
  unfold attempt
  dsimp only
  by_cases h0 : stop.call = 0
  · rw [bootstrap_eq, ← h0, run_asked_stop]
    split
    next => rfl
    next => rfl
  · have hnext : ∀ s ∈ some stop, 0 ≠ s.call := ne_call (by omega)
    rw [run_bootstrap hnext]
    by_cases hcheck : organizationCheckIn r.organization g.orgs = 0
    · rw [if_pos hcheck] at h ⊢
      by_cases h1 : stop.call = 1
      · -- the organization is there or not; the next run looks first
        rw [← h1, run_asked_stop]
        split
        next => exact entered_created hcheck
        next => rfl
      · have hnext : ∀ s ∈ some stop, 1 ≠ s.call := ne_call (by omega)
        have hcreate : (perform key g (.createOrganization r.organization)).2 = some () := rfl
        rw [run_asked_next hnext hcreate, ← entered_created hcheck]
        exact entered_enteredOrganization (check_created hcheck) ⟨by omega, h⟩
    · rw [if_neg hcheck] at h ⊢
      exact entered_enteredOrganization hcheck ⟨by omega, h⟩

end Stops

/-! ## §6. A run that stops late. -/

section Late

variable {key : J → Text} {docs : Documents J} {r : Registration} {g g' : Grafana J}

/-- No organization and no datasource is lost. -/
def Grafana.Keeps (g g' : Grafana J) : Prop :=
  g'.orgs = g.orgs ∧ ∀ id, (g.tenants id).datasources ⊆ (g'.tenants id).datasources

theorem keeps_refl (g : Grafana J) : g.Keeps g := ⟨rfl, fun _ => List.Subset.refl _⟩

theorem keeps_modify {id : Nat} {f : Tenant J → Tenant J}
    (hf : (g.tenants id).datasources ⊆ (f (g.tenants id)).datasources) : g.Keeps (g.modify id f) := by
  refine ⟨rfl, fun id' => ?_⟩
  show _ ⊆ (Function.update g.tenants id (f (g.tenants id)) id').datasources
  by_cases hid : id' = id
  · rw [hid, Function.update_self]
    exact hf
  · rw [Function.update_of_ne hid]
    exact List.Subset.refl _

theorem keeps_join (id user : Nat) (role : Text) : g.Keeps (g.join id user role) := by
  unfold Grafana.join
  split
  next => exact keeps_modify (List.Subset.refl _)
  next => exact keeps_refl g

theorem keeps_createUser (a : Account) : g.Keeps (g.createUser a) := by
  unfold Grafana.createUser
  split
  next => exact keeps_refl g
  next =>
      exact keeps_join (g := { g with users := g.users ++ [(g.nextUser, a)], nextUser := g.nextUser + 1 })
        _ _ _

theorem keeps_createDashboard (key : J → Text) (doc : J) : g.Keeps (g.createDashboard key doc).1 := by
  unfold Grafana.createDashboard
  split
  next => exact keeps_modify (List.Subset.refl _)
  next =>
      exact keeps_modify (g := { g with nextDashboard := g.nextDashboard + 1 }) (List.Subset.refl _)

theorem keeps_performIn (key : J → Text) (g : Grafana J) (c : OrgCall J) :
    g.Keeps (performIn key g c).1 := by
  cases c with
  | createDatasource name database =>
      rw [performIn]
      split
      next => exact keeps_refl g
      next =>
          exact keeps_modify (g := { g with nextDatasource := g.nextDatasource + 1 })
            (List.subset_append_left _ _)
  | createNotificationChannels doc =>
      rw [performIn]
      split
      next => exact keeps_refl g
      next => exact keeps_modify (List.Subset.refl _)
  | createDashboard doc => exact keeps_createDashboard key doc
  | updatePreferencesOrg id => exact keeps_modify (List.Subset.refl _)
  | addPermissionDatasource dataSourceID user => exact keeps_modify (List.Subset.refl _)
  | removeUser user => exact keeps_modify (List.Subset.refl _)
  | _ => exact keeps_refl g

/-- Every call but the creation of an organization keeps all of them, and all datasources. -/
theorem keeps_perform (key : J → Text) (g : Grafana J) {c : Cmd J}
    (hc : ∀ name, c ≠ .createOrganization name) : g.Keeps (perform key g c).1 := by
  cases c with
  | createOrganization name => exact absurd rfl (hc name)
  | usingOrg id =>
      show g.Keeps (g.usingOrg id)
      unfold Grafana.usingOrg
      split
      next => exact keeps_refl g
      next => exact keeps_refl g
  | createUser a => exact keeps_createUser a
  | assignUser id login role =>
      rw [perform]
      split
      next => exact keeps_join id _ role
      next => exact keeps_refl g
  | starDashboard id =>
      rw [perform]
      split
      next => exact keeps_refl g
      next => exact keeps_refl g
  | org c =>
      rw [perform]
      split
      next => exact keeps_performIn key g c
      next => exact keeps_refl g
  | _ => exact keeps_refl g

theorem keeps_serve (stop : Option Stop) {c : Cmd J} (hc : ∀ name, c ≠ .createOrganization name)
    (s : Grafana J × Nat) : s.1.Keeps (serve key stop c s).1.1 := by
  unfold serve
  split
  next => exact keeps_perform key s.1 hc
  next stop =>
      split
      next =>
          show s.1.Keeps (if stop.taken then (perform key s.1 c).1 else s.1)
          split
          next => exact keeps_perform key s.1 hc
          next => exact keeps_refl s.1
      next => exact keeps_perform key s.1 hc

/-- The organization that the lookups find has the datasource. -/
def Provided (r : Registration) (g : Grafana J) : Prop :=
  ∃ o, (g.orgs.find? fun o => o.Contains r.organization) = some o ∧
    r.channelID ∈ (g.tenants o.id).datasources.map (·.2.1)

theorem Provided.keeps (h : Provided r g) (hkeeps : g.Keeps g') : Provided r g' := by
  obtain ⟨o, hfound, hmem⟩ := h
  refine ⟨o, ?_, List.map_subset _ (hkeeps.2 o.id) hmem⟩
  rw [hkeeps.1]
  exact hfound

/-- The state after the first block. -/
structure Inside (r : Registration) (o : OrgInfo) (g : Grafana J) : Prop where
  found : (g.orgs.find? fun o => o.Contains r.organization) = some o
  current : g.current = o.id

theorem Inside.hasOrg {o : OrgInfo} (h : Inside r o g) : g.HasOrg g.current :=
  ⟨o, List.mem_of_find?_eq_some h.found, h.current.symm⟩

/-- The datasource is there after its call, answered or refused. -/
theorem provided_createDatasource {o : OrgInfo} (h : Inside r o g) :
    Provided r (perform key g (.org (.createDatasource r.channelID r.channelID))).1 := by
  have hperform : perform key g (.org (.createDatasource r.channelID r.channelID))
      = performIn key g (.createDatasource r.channelID r.channelID) := if_pos h.hasOrg
  rw [hperform, performIn]
  split
  next hmem =>
      rw [h.current] at hmem
      exact ⟨o, h.found, List.mem_map.mpr hmem⟩
  next =>
      refine ⟨o, h.found, ?_⟩
      show _ ∈ (Function.update g.tenants g.current _ o.id).datasources.map _
      rw [h.current, Function.update_self, List.map_append]
      exact List.mem_append_right _ (List.mem_singleton.mpr rfl)

/-- A call that creates no organization keeps it, and the organizations are listed as they
were. -/
theorem provided_serve {stop : Stop} {infos : List OrgInfo} {target : Nat} {c : Cmd J}
    {s : Grafana J × Nat} (horgs : s.1.orgs = infos) (h : Provided r s.1)
    (hc : ∀ name, c ≠ .createOrganization name) :
    (home infos target).allowed c (serve key (some stop) c s).2 ∧
      (serve key (some stop) c s).1.1.orgs = infos ∧
      Provided r (serve key (some stop) c s).1.1 := by
  have hkeeps : s.1.Keeps (serve key (some stop) c s).1.1 := keeps_serve (some stop) hc s
  refine ⟨?_, hkeeps.1.trans horgs, h.keeps hkeeps⟩
  cases c with
  | listOrganization =>
      show (home infos target).allowed Cmd.listOrganization
        (serve key (some stop) Cmd.listOrganization s).2
      unfold serve
      by_cases hs : s.2 = stop.call
      · simp only [if_pos hs]
        trivial
      · simp only [if_neg hs]
        exact horgs
  | _ => trivial

/-- **What is done in the organization leaves the datasource behind.** -/
theorem provided_inOrganization {stop : Stop} {n : Nat} {o : OrgInfo} (h : Inside r o g)
    (hstop : n ≠ stop.call ∨ stop.taken = true) :
    Provided r ((inOrganization docs r).run (serve key (some stop)) (g, n)).1.1 := by
  have hprovided : Provided r
      (perform key g (.org (.createDatasource r.channelID r.channelID))).1 :=
    provided_createDatasource h
  have hid : organizationIDIn r.organization g.orgs = o.id := by
    rw [organizationIDIn_eq, h.found]
    rfl
  have hfollows := follows_inOrganization (J := J) docs hid
  obtain ⟨rest, hrest⟩ := inOrganization_eq docs r
  rw [hrest] at hfollows ⊢
  by_cases hcall : n = stop.call
  · have htaken : stop.taken = true := hstop.resolve_left fun hne => hne hcall
    rw [hcall, run_asked_stop, if_pos htaken]
    exact hprovided
  · have hnext : ∀ s ∈ some stop, n ≠ s.call := ne_call hcall
    cases hans : (perform key g (.org (.createDatasource r.channelID r.channelID))).2 with
    | none =>
        rw [run_asked_refused hnext hans]
        exact hprovided
    | some v =>
        rw [run_asked_next hnext hans]
        -- no call that follows creates an organization
        have hkeeps := keeps_perform key g
          (c := .org (.createDatasource r.channelID r.channelID)) nofun
        obtain ⟨b, hlast, -⟩ := Prog.Follows.run (H := serve key (some stop))
          (I := fun _ s => s.1.orgs = g.orgs ∧ Provided r s.1) (fun b c s hI hrule => by
            refine provided_serve hI.1 hI.2 fun name hname => ?_
            rw [hname] at hrule
            exact hrule) (hfollows.2 (some v) trivial)
          (s := ((perform key g (.org (.createDatasource r.channelID r.channelID))).1, n + 1))
          ⟨hkeeps.1, hprovided⟩
        exact hlast.2

theorem inside_entered (g : Grafana J) (r : Registration) :
    ∃ o, Inside r o (g.entered r.organization) := by
  obtain ⟨o, hfound, hcurrent, -, -⟩ := entered_spec g r
  exact ⟨o, hfound, hcurrent⟩

/-- **A run that stops late, or not at all, leaves the datasource behind.** -/
theorem provided_attempt {stop : Stop} (h : ¬ Early r stop g) :
    Provided r (attempt key docs r (some stop) g).1 := by
  unfold Early datasourceCall at h
  rw [not_or, not_and, Bool.not_eq_false] at h
  unfold attempt
  dsimp only
  obtain ⟨o, hinside⟩ := inside_entered g r
  have hnext : ∀ n, n < stop.call → ∀ s ∈ some stop, n ≠ s.call := fun n hn =>
    ne_call (Nat.ne_of_lt hn)
  -- with a new organization the datasource is call 4, else call 3
  by_cases hcheck : organizationCheckIn r.organization g.orgs = 0
  · have hentered : g.entered r.organization
        = (g.createOrganization r.organization).switched r.organization := if_pos hcheck
    rw [if_pos hcheck] at h
    have hcreate : (perform key g (.createOrganization r.organization)).2 = some () := rfl
    rw [run_bootstrap (hnext 0 (by omega)), if_pos hcheck, run_asked_next (hnext 1 (by omega)) hcreate,
      run_enteredOrganization (hnext 2 (by omega)) (hnext 3 (by omega))]
    rw [hentered] at hinside
    exact provided_inOrganization hinside (or_iff_not_imp_left.mpr fun hcall =>
      h.2 (not_not.mp hcall).symm)
  · have hentered := entered_of_check hcheck
    rw [if_neg hcheck] at h
    rw [run_bootstrap (hnext 0 (by omega)), if_neg hcheck,
      run_enteredOrganization (hnext 1 (by omega)) (hnext 2 (by omega))]
    rw [hentered] at hinside
    exact provided_inOrganization hinside (or_iff_not_imp_left.mpr fun hcall =>
      h.2 (not_not.mp hcall).symm)

/-- **No run gets past a datasource that is there.** -/
theorem attempt_of_provided (h : Provided r g) :
    (attempt key docs r none g).2 = "Error when creating datasource and dashboards" := by
  obtain ⟨o, hfound, hmem⟩ := h
  have hcheck : organizationCheckIn r.organization g.orgs ≠ 0 := by
    rw [organizationCheckIn_eq, hfound]
    exact Nat.one_ne_zero
  have hid : organizationIDIn r.organization g.orgs = o.id := by
    rw [organizationIDIn_eq, hfound]
    rfl
  have hhas : g.HasOrg o.id := ⟨o, List.mem_of_find?_eq_some hfound, rfl⟩
  have hentered : g.entered r.organization = { g with current := o.id } := by
    rw [entered_of_check hcheck, Grafana.switched, hid]
    exact if_pos hhas
  obtain ⟨rest, hrest⟩ := inOrganization_eq docs r
  have hans : (perform key { g with current := o.id }
      (.org (.createDatasource r.channelID r.channelID))).2 = none := by
    have hperform : perform key { g with current := o.id }
        (.org (.createDatasource r.channelID r.channelID))
        = performIn key { g with current := o.id } (.createDatasource r.channelID r.channelID) :=
      if_pos hhas
    rw [hperform, performIn, if_pos (List.mem_map.mp hmem)]
  rw [attempt_eq, hentered, finish, hrest, run_asked_refused (fun s hs => by cases hs) hans]

end Late

/-! ## §7. A run that does not stop. -/

section Whole

variable {key : J → Text} {α β : Type}

/-- From a state in `I`, the program is answered to its end, and ends in `Q`. -/
def Answers (key : J → Text) (I : Grafana J → Prop) (p : Py J α) (Q : α → Grafana J → Prop) : Prop :=
  ∀ g n, I g → ∃ a g' n', p.run.run (serve key none) (g, n) = ((g', n'), some a) ∧ Q a g'

theorem answers_ret {I : Grafana J → Prop} {Q : α → Grafana J → Prop} {a : α} (h : ∀ g, I g → Q a g) :
    Answers key I (pure a) Q := fun g n hg => ⟨a, g, n, rfl, h g hg⟩

theorem answers_ask {I : Grafana J → Prop} {c : Cmd J} {Q : c.Val → Grafana J → Prop}
    (h : ∀ g, I g → ∃ v, (perform key g c).2 = some v ∧ Q v (perform key g c).1) :
    Answers key I (ask c) Q := by
  intro g n hg
  obtain ⟨v, hv, hQ⟩ := h g hg
  refine ⟨v, (perform key g c).1, n + 1, ?_, hQ⟩
  show (((perform key g c).1, n + 1), (perform key g c).2) = _
  rw [hv]

theorem Answers.bind {I : Grafana J → Prop} {p : Py J α} {f : α → Py J β}
    {R : α → Grafana J → Prop} {Q : β → Grafana J → Prop} (hp : Answers key I p R)
    (hf : ∀ a, Answers key (R a) (f a) Q) : Answers key I (p >>= f) Q := by
  intro g n hg
  obtain ⟨a, g', n', hrun, hR⟩ := hp g n hg
  obtain ⟨b, g'', n'', hrun', hQ⟩ := hf a g' n' hR
  refine ⟨b, g'', n'', ?_, hQ⟩
  have hbind : (p >>= f).run.run (serve key none) (g, n)
      = (match (p.run.run (serve key none) (g, n)).2 with
          | some a => (f a).run
          | none => pure none).run (serve key none) (p.run.run (serve key none) (g, n)).1 :=
    Prog.run_bind p.run _ (g, n)
  rw [hbind, hrun]
  exact hrun'

/-- Inside the organization, with these users and these members of it. -/
structure At (r : Registration) (o : OrgInfo) (users : List (Nat × Account))
    (members : List (Nat × Text)) (g : Grafana J) : Prop where
  inside : Inside r o g
  users : g.users = users
  members : (g.tenants o.id).members = members

/-- The current organization exists. -/
def Seated (g : Grafana J) : Prop := g.HasOrg g.current

variable {docs : Documents J} {r : Registration} {o : OrgInfo} {users : List (Nat × Account)}
  {members : List (Nat × Text)} {g : Grafana J}

theorem performIn_of_seated (h : Seated g) (c : OrgCall J) :
    perform key g (.org c) = performIn key g c := if_pos h

theorem At.modify (h : At r o users members g) {id : Nat} {f : Tenant J → Tenant J}
    (hf : (f (g.tenants id)).members = (g.tenants id).members) :
    At r o users members (g.modify id f) := by
  refine ⟨⟨h.inside.found, h.inside.current⟩, h.users, ?_⟩
  show (Function.update g.tenants id (f (g.tenants id)) o.id).members = members
  by_cases hid : o.id = id
  · rw [hid, Function.update_self, hf, ← hid]
    exact h.members
  · rw [Function.update_of_ne hid]
    exact h.members

/-- A call that provisions: it is answered, and users and members are as they were. -/
theorem answers_org {c : OrgCall J} {I : Grafana J → Prop} (hI : ∀ g, I g → At r o users members g)
    (h : ∀ g, I g → (performIn key g c).2.isSome ∧ At r o users members (performIn key g c).1) :
    Answers key I (ask (.org c)) fun _ => At r o users members := by
  apply answers_ask
  intro g hg
  rw [performIn_of_seated (hI g hg).inside.hasOrg]
  obtain ⟨v, hv⟩ := Option.isSome_iff_exists.mp (h g hg).1
  exact ⟨v, hv, (h g hg).2⟩

theorem answers_createDashboards (docs : Documents J) :
    Answers key (At r o users members) (createDashboards docs) fun _ => At r o users members := by
  have hone : ∀ doc, Answers key (At r o users members) (ask (.org (.createDashboard doc)))
      fun _ => At r o users members := by
    intro doc
    refine answers_org (fun g hg => hg) fun g hg => ⟨rfl, ?_⟩
    show At r o users members (g.createDashboard key doc).1
    unfold Grafana.createDashboard
    split
    next =>
        dsimp only
        exact hg.modify (by rfl)
    next =>
        dsimp only
        exact At.modify (g := { g with nextDashboard := g.nextDashboard + 1 })
          ⟨⟨hg.inside.found, hg.inside.current⟩, hg.users, hg.members⟩ (by rfl)
  refine (hone docs.principal).bind fun pr => ?_
  refine (hone docs.agregat).bind fun ag => ?_
  refine (hone docs.estat).bind fun es => ?_
  refine (hone docs.alertes).bind fun al => ?_
  refine (hone docs.calibration).bind fun ca => ?_
  exact answers_ret fun g hg => hg

/-- Without such a datasource everything is provisioned. -/
theorem answers_provision :
    Answers key (fun g => At r o users members g ∧
        r.channelID ∉ (g.tenants o.id).datasources.map (·.2.1))
      (provision docs r.channelID) fun _ => At r o users members := by
  have hsource : Answers key (fun g => At r o users members g ∧
      r.channelID ∉ (g.tenants o.id).datasources.map (·.2.1))
      (ask (.org (.createDatasource r.channelID r.channelID))) fun _ => At r o users members := by
    refine answers_org (fun g hg => hg.1) fun g hg => ?_
    obtain ⟨hat, hnot⟩ := hg
    rw [← hat.inside.current] at hnot
    rw [performIn, if_neg fun hmem => hnot (List.mem_map.mpr hmem)]
    refine ⟨rfl, ?_⟩
    dsimp only
    exact At.modify (g := { g with nextDatasource := g.nextDatasource + 1 })
      ⟨⟨hat.inside.found, hat.inside.current⟩, hat.users, hat.members⟩ (by rfl)
  have hchannel : Answers key (At r o users members)
      (ask (.org (.createNotificationChannels docs.slack))) fun _ => At r o users members := by
    refine answers_org (fun g hg => hg) fun g hg => ?_
    rw [performIn]
    refine ⟨rfl, ?_⟩
    dsimp only
    split
    next => exact hg
    next => exact hg.modify (by rfl)
  refine hsource.bind fun dataSourceID => hchannel.bind fun _ => ?_
  refine (answers_createDashboards docs).bind fun v => ?_
  obtain ⟨home, dashIDs⟩ := v
  have hprefs : Answers key (At r o users members) (ask (.org (.updatePreferencesOrg home)))
      fun _ => At r o users members := by
    refine answers_org (fun g hg => hg) fun g hg => ⟨rfl, ?_⟩
    rw [performIn]
    dsimp only
    exact hg.modify (by rfl)
  exact hprefs.bind fun _ => answers_ret fun g hg => hg

/-- A switch is answered. -/
theorem answers_change {I : Grafana J → Prop} {Q : Unit → Grafana J → Prop} {name : Text}
    (h : ∀ g, I g → Q () (g.switched name)) :
    Answers key I (changeCurrentOrganizationTo name : Py J Unit) Q := by
  have hid : Answers key I (getOrganizationID name : Py J Nat)
      fun id g => I g ∧ id = organizationIDIn name g.orgs := by
    refine (answers_ask (Q := fun orgs g => I g ∧ orgs = g.orgs) fun g hg => ?_).bind fun orgs => ?_
    · exact ⟨g.orgs, rfl, hg, rfl⟩
    · apply answers_ret
      rintro g ⟨hg, rfl⟩
      exact ⟨hg, rfl⟩
  refine hid.bind fun id => answers_ask ?_
  rintro g ⟨hg, rfl⟩
  exact ⟨(), rfl, h g hg⟩

theorem At.switched (h : At r o users members g) : At r o users members (g.switched r.organization) := by
  have hid : organizationIDIn r.organization g.orgs = o.id := by
    rw [organizationIDIn_eq, h.inside.found]
    rfl
  rw [Grafana.switched, hid, Grafana.usingOrg]
  split
  next => exact ⟨⟨h.inside.found, rfl⟩, h.users, h.members⟩
  next => exact h

/-- The user is looked up among the members. -/
theorem answers_userCheck {g₀ : Grafana J} (login : Text) :
    Answers key (At r o g₀.users members) (userCheck r.organization login : Py J Nat)
      fun id g => id = userIDIn login (g₀.listUsers members) ∧ Seated g := by
  refine (answers_change (Q := fun _ => At r o g₀.users members) fun g hg => hg.switched).bind
    fun _ => ?_
  refine (answers_ask (Q := fun l g => l = g₀.listUsers members ∧ Seated g) fun g hg => ?_).bind
    fun l => ?_
  · rw [performIn_of_seated hg.inside.hasOrg]
    refine ⟨_, rfl, ?_, hg.inside.hasOrg⟩
    show g.listUsers (g.tenants g.current).members = _
    rw [hg.inside.current, hg.members, Grafana.listUsers, hg.users]
    rfl
  · apply answers_ret
    rintro g ⟨rfl, hseated⟩
    exact ⟨rfl, hseated⟩

/-- A call that leaves the organizations and the current one alone is answered. -/
theorem answers_seated {c : Cmd J} (h : ∀ g, Seated g → (perform key g c).2.isSome ∧
    (perform key g c).1.orgs = g.orgs ∧ (perform key g c).1.current = g.current) :
    Answers key Seated (ask c) fun _ => Seated := by
  apply answers_ask
  intro g hg
  obtain ⟨hsome, horgs, hcurrent⟩ := h g hg
  obtain ⟨v, hv⟩ := Option.isSome_iff_exists.mp hsome
  refine ⟨v, hv, ?_⟩
  unfold Seated Grafana.HasOrg
  rw [horgs, hcurrent]
  exact hg

/-- So is one that goes to the organization. -/
theorem answers_seated_org {c : OrgCall J} (h : ∀ g, (performIn key g c).2.isSome ∧
    (performIn key g c).1.orgs = g.orgs ∧ (performIn key g c).1.current = g.current) :
    Answers key Seated (ask (.org c)) fun _ => Seated := by
  apply answers_seated
  intro g hg
  rw [performIn_of_seated hg]
  exact h g

theorem join_frame (g : Grafana J) (id user : Nat) (role : Text) :
    (g.join id user role).orgs = g.orgs ∧ (g.join id user role).current = g.current := by
  unfold Grafana.join
  split
  next => exact ⟨rfl, rfl⟩
  next => exact ⟨rfl, rfl⟩

theorem createUser_frame (g : Grafana J) (a : Account) :
    (g.createUser a).orgs = g.orgs ∧ (g.createUser a).current = g.current := by
  unfold Grafana.createUser
  split
  next => exact ⟨rfl, rfl⟩
  next =>
      exact join_frame { g with users := g.users ++ [(g.nextUser, a)], nextUser := g.nextUser + 1 }
        _ _ _

theorem Seated.switched {name : Text} (h : Seated g) : Seated (g.switched name) := by
  unfold Grafana.switched Grafana.usingOrg
  split
  next hid => exact hid
  next => exact h

theorem answers_starDashboards (ids : List Nat) :
    Answers key (Seated (J := J)) (starDashboards ids) fun _ => Seated := by
  induction ids with
  | nil => exact answers_ret fun g hg => hg
  | cons id ids ih =>
      refine (answers_seated fun g _ => ?_).bind fun _ => ih
      rw [perform]
      refine ⟨rfl, ?_⟩
      dsimp only
      split
      next => exact ⟨rfl, rfl⟩
      next => exact ⟨rfl, rfl⟩

/-- The steps for a user who is not there yet. -/
theorem answers_newUser (r : Registration) (dataSourceID home : Nat) (dashIDs : List Nat) :
    Answers key (Seated (J := J)) (do
      ask (.createUser ⟨r.name, r.email, localPart r.email, r.password⟩)
      assignUserToOrganization r.organization (localPart r.email) viewer
      ask (.org (.updatePreferencesUser home))
      let users ← ask (.org .getAllUsersOrg)
      addPermission dataSourceID r.email users
      starDashboards dashIDs
      changeCurrentOrganizationTo mainOrg
      removeUserFromOrg (localPart r.email)
      return "success") fun status _ => status = "success" := by
  have hcreate : Answers key (Seated (J := J))
      (ask (.createUser ⟨r.name, r.email, localPart r.email, r.password⟩)) fun _ => Seated :=
    answers_seated fun g _ => ⟨rfl, createUser_frame g _⟩
  have hassign : Answers key (Seated (J := J))
      (assignUserToOrganization r.organization (localPart r.email) viewer) fun _ => Seated := by
    have hlist : Answers key (Seated (J := J)) (getOrganizationID r.organization) fun _ => Seated :=
      (answers_seated fun g _ => ⟨rfl, rfl, rfl⟩).bind fun orgs => answers_ret fun g hg => hg
    refine hlist.bind fun id => answers_seated fun g _ => ⟨rfl, ?_⟩
    rw [perform]
    dsimp only
    split
    next => exact join_frame g _ _ _
    next => exact ⟨rfl, rfl⟩
  have hprefs : Answers key (Seated (J := J)) (ask (.org (.updatePreferencesUser home)))
      fun _ => Seated :=
    answers_seated_org fun _ => ⟨rfl, rfl, rfl⟩
  have husers : Answers key (Seated (J := J)) (ask (.org .getAllUsersOrg)) fun _ => Seated :=
    answers_seated_org fun _ => ⟨rfl, rfl, rfl⟩
  have hperm : ∀ users, Answers key (Seated (J := J)) (addPermission dataSourceID r.email users)
      fun _ => Seated := by
    intro users
    unfold addPermission
    split
    next => exact answers_seated_org fun _ => ⟨rfl, rfl, rfl⟩
    next => exact answers_ret fun g hg => hg
  have hmain : Answers key (Seated (J := J)) (changeCurrentOrganizationTo mainOrg) fun _ => Seated :=
    answers_change fun g hg => Seated.switched hg
  have hremove : Answers key (Seated (J := J)) (removeUserFromOrg (localPart r.email))
      fun _ => Seated := by
    have hlookup : Answers key (Seated (J := J)) (getGlobalUserID (localPart r.email))
        fun _ => Seated :=
      (answers_seated fun g _ => ⟨rfl, rfl, rfl⟩).bind fun id => answers_ret fun g hg => hg
    refine hlookup.bind fun id => ?_
    split
    next => exact answers_seated_org fun _ => ⟨rfl, rfl, rfl⟩
    next => exact answers_ret fun g hg => hg
  exact hcreate.bind fun _ => hassign.bind fun _ => hprefs.bind fun _ => husers.bind fun users =>
    (hperm users).bind fun _ => (answers_starDashboards dashIDs).bind fun _ => hmain.bind fun _ =>
      hremove.bind fun _ => answers_ret fun _ _ => rfl

theorem answers_addUser {g₀ : Grafana J} (dataSourceID home : Nat) (dashIDs : List Nat) :
    Answers key (At r o g₀.users members) (addUser r dataSourceID home dashIDs : Py J String)
      fun status _ => status =
        if userIDIn (localPart r.email) (g₀.listUsers members) = 0 then "success"
        else "User seems to exist in grafana" := by
  refine Answers.bind (answers_userCheck (localPart r.email)) fun id => ?_
  by_cases hid : id = 0
  · rw [if_pos hid]
    have hnew : Answers key Seated _ fun status _ => status = "success" :=
      answers_newUser r dataSourceID home dashIDs
    rintro g n ⟨hlook, hseated⟩
    rw [← hlook, if_pos hid]
    exact hnew g n hseated
  · rw [if_neg hid]
    apply answers_ret
    rintro g ⟨hlook, -⟩
    rw [← hlook, if_neg hid]

/-- How a run ends that no call stops. -/
theorem finish_status {g₀ : Grafana J} (h : At r o g₀.users members g) :
    (finish key docs r g).2 =
      if r.channelID ∈ (g.tenants o.id).datasources.map (·.2.1) then
        "Error when creating datasource and dashboards"
      else if userIDIn (localPart r.email) (g₀.listUsers members) = 0 then "success"
      else "User seems to exist in grafana" := by
  split
  next hmem =>
      obtain ⟨rest, hrest⟩ := inOrganization_eq docs r
      have hans : (perform key g (.org (.createDatasource r.channelID r.channelID))).2 = none := by
        rw [performIn_of_seated h.inside.hasOrg, performIn, h.inside.current,
          if_pos (List.mem_map.mp hmem)]
      rw [finish, hrest, run_asked_refused (fun s hs => by cases hs) hans]
  next hnot =>
      obtain ⟨⟨dataSourceID, home, dashIDs⟩, g1, n1, hprov, hat⟩ :=
        (answers_provision : Answers key _ (provision docs r.channelID) _) g 0 ⟨h, hnot⟩
      obtain ⟨status, g2, n2, hadd, hstatus⟩ :=
        (answers_addUser dataSourceID home dashIDs : Answers key (At r o g₀.users members) _ _)
          g1 n1 hat
      have hrun : (inOrganization docs r).run (serve key none) (g, 0) = ((g2, n2), status) := by
        rw [inOrganization, Prog.run_bind, hprov]
        dsimp only
        rw [Prog.run_bind, hadd]
        rfl
      rw [finish, hrun]
      exact hstatus

end Whole

/-! ## §8. Which runs may be repeated. -/

variable (key : J → Text) (docs : Documents J) (r : Registration)

/-- **A run that never fails succeeds where the organization is fresh.** -/
theorem attempt_success (g : Grafana J) : (attempt key docs r none g).2 = "success" ↔ Fresh r g := by
  obtain ⟨o, hfound, hcurrent, htenant, husers⟩ := entered_spec g r
  have hat : At r o g.users (foundTenant r g).members (g.entered r.organization) :=
    ⟨⟨hfound, hcurrent⟩, husers, by rw [htenant]⟩
  rw [attempt_eq, finish_status hat, htenant, Fresh]
  split
  next hmem => exact iff_of_false (by decide) fun h => h.1 hmem
  next hnot =>
      split
      next hzero => exact iff_of_true rfl ⟨hnot, hzero⟩
      next hzero => exact iff_of_false (by decide) fun h => hzero h.2

/-- **A stopped run may be repeated exactly if it stopped before there was a datasource**, and a
run that never fails would succeed. -/
theorem rerun_iff (stop : Stop) (g : Grafana J) :
    Converges key docs r stop g ↔ Fresh r g ∧ Early r stop g := by
  by_cases hearly : Early r stop g
  · have hsame : attempt key docs r none (attempt key docs r (some stop) g).1
        = attempt key docs r none g := by
      rw [attempt_eq, entered_attempt hearly, ← attempt_eq]
    rw [Converges, hsame, attempt_success]
    exact ⟨fun h => ⟨h.1, hearly⟩, fun h => ⟨h.1, rfl⟩⟩
  · refine iff_of_false (fun h => ?_) fun h => hearly h.2
    have hstatus : (attempt key docs r none (attempt key docs r (some stop) g).1).2
        = "Error when creating datasource and dashboards" :=
      attempt_of_provided (provided_attempt hearly)
    rw [h.1] at hstatus
    exact absurd hstatus (by decide)

/-- Grafana with nothing but its main organization and the account of the requests. -/
def emptyGrafana : Grafana Text where
  orgs := [⟨1, mainOrg⟩]
  tenants := fun _ => { members := [(1, adminRole)] }
  users := [(1, ⟨['a', 'd', 'm', 'i', 'n'], ['a', 'd', 'm', 'i', 'n', '@', 'l'],
    ['a', 'd', 'm', 'i', 'n'], []⟩)]
  nextOrg := 2
  nextUser := 2
  nextDatasource := 1
  nextDashboard := 1
  admin := 1
  current := 1
  homes := []
  stars := []

/-- The documents, as their titles. -/
def titles : Documents Text := ⟨['p'], ['g'], ['e'], ['a'], ['c'], ['s']⟩

/-- When the call that creates the notification channel gets no answer, the retry fails at the
datasource. -/
theorem retry_stops_at_datasource :
    (attempt id titles (registration lab) none emptyGrafana).2 = "success" ∧
      (attempt id titles (registration lab) (some ⟨5, false⟩) emptyGrafana).2
        = "Error when creating datasource and dashboards" ∧
      ¬ Converges id titles (registration lab) ⟨5, false⟩ emptyGrafana := by
  refine ⟨by decide +kernel, by decide +kernel, fun h => ?_⟩
  exact absurd h.1 (by decide +kernel)

end Mainflux.UserControl
