/-
  Mainflux.UserControl.Grafana
  ────────────────────────────
  **THE REQUESTS OF user-control, AS THE CALLS THEY MAKE TO GRAFANA.**

  Grafana keeps its resources by organization.  Most of its API does not name one: a
  call of the admin account acts in the organization that the account was last
  switched to, and the account is shared by every request of every process.

  `bootstrap`, `updateDashboard` and `setAlarm` are programs over the calls; a call
  that gets no answer, or one without the fields that are read, raises.  The server
  keeps the organizations, in the order in which the API lists them, each with what
  was created or changed in it; what it answers otherwise is left open (`Reply`).
-/
import Mathlib.Data.List.Infix
import Mainflux.Lib.Prog
import Mainflux.Lib.Text

namespace Mainflux.UserControl

open Mainflux.Lib

/-! ## §1. The API. -/

/-- An organization as the API lists it. -/
structure OrgInfo where
  id : Nat
  name : Text
  deriving DecidableEq

/-- A user account to be created. -/
structure Account where
  name : Text
  email : Text
  login : Text
  password : Text
  deriving DecidableEq

/-- A user as `/api/org/users` lists it. -/
structure OrgUser where
  userID : Nat
  login : Text
  email : Text
  deriving DecidableEq

/-- A dashboard as `/api/search` lists it. -/
structure Found where
  title : Text
  uid : Text
  deriving DecidableEq

/-- The calls that act in the current organization.  `J` are the JSON documents. -/
inductive OrgCall (J : Type)
  | createDatasource (name database : Text)
  | createNotificationChannels (doc : J)
  | createDashboard (doc : J)
  | updateExistingDashboard (doc : J)
  | updatePreferencesOrg (dashID : Nat)
  | updatePreferencesUser (dashID : Nat)
  | addPermissionDatasource (dataSourceID userID : Nat)
  | getAllUsersOrg
  | search
  | dashboardByUID (uid : Text)
  | removeUser (userID : Nat)
  deriving DecidableEq

/-- What is read from the answer. -/
@[reducible] def OrgCall.Val {J : Type} : OrgCall J → Type
  | .createDatasource _ _ => Nat
  | .createDashboard _ => Nat
  | .updateExistingDashboard _ => Text × Text
  | .getAllUsersOrg => List OrgUser
  | .search => List Found
  | .dashboardByUID _ => J
  | _ => Unit

/-- The calls that create or change a datasource, a dashboard, a notification channel or
preferences. -/
def OrgCall.Writes {J : Type} : OrgCall J → Bool
  | .getAllUsersOrg => false
  | .search => false
  | .dashboardByUID _ => false
  | .removeUser _ => false
  | _ => true

/-- The calls. -/
inductive Cmd (J : Type)
  | listOrganization
  | createOrganization (name : Text)
  /-- `/api/user/using/<id>`. -/
  | usingOrg (orgID : Nat)
  | createUser (user : Account)
  | assignUser (orgID : Nat) (login role : Text)
  | lookupUser (login : Text)
  | starDashboard (dashID : Nat)
  | org (c : OrgCall J)

@[reducible] def Cmd.Val {J : Type} : Cmd J → Type
  | .listOrganization => List OrgInfo
  | .lookupUser _ => Option Nat
  | .org c => c.Val
  | _ => Unit

/-- An answer, or an exception. -/
def sig (J : Type) : Signature := ⟨Cmd J, fun c => Option c.Val⟩

/-- Python that calls Grafana. -/
abbrev Py (J : Type) := OptionT (Prog (sig J))

variable {J : Type}

def ask (c : Cmd J) : Py J c.Val := OptionT.mk (.call c .ret)

/-! ## §2. `grafana_interactions`. -/

/-- `str(name) in org['name']`. -/
def OrgInfo.Contains (name : Text) (o : OrgInfo) : Prop := name <:+: o.name

instance (name : Text) : DecidablePred (OrgInfo.Contains name) := fun o =>
  inferInstanceAs (Decidable (name <:+: o.name))

/-- The loop of `_organization_check`. -/
def organizationCheckIn (organization : Text) : List OrgInfo → Nat
  | [] => 0
  | o :: orgs => if o.Contains organization then 1 else organizationCheckIn organization orgs

/-- The loop of `_get_organization_id`. -/
def organizationIDIn (organization : Text) : List OrgInfo → Nat
  | [] => 0
  | o :: orgs => if o.Contains organization then o.id else organizationIDIn organization orgs

/-- `_organization_check`. -/
def organizationCheck (organization : Text) : Py J Nat := do
  let orgs ← ask .listOrganization
  return organizationCheckIn organization orgs

/-- `_get_organization_id`. -/
def getOrganizationID (organization : Text) : Py J Nat := do
  let orgs ← ask .listOrganization
  return organizationIDIn organization orgs

/-- `_change_current_organization_to`: what Grafana says to the switch is printed. -/
def changeCurrentOrganizationTo (organization : Text) : Py J Unit := do
  let id ← getOrganizationID organization
  ask (.usingOrg id)

/-- The loop of `_user_check`. -/
def userIDIn (login : Text) (users : List OrgUser) : Nat :=
  match users.find? fun u => u.login = login with
  | some u => u.userID
  | none => 0

/-- `_user_check`. -/
def userCheck (organization login : Text) : Py J Nat := do
  changeCurrentOrganizationTo organization
  let users ← ask (.org .getAllUsersOrg)
  return userIDIn login users

/-- `_assign_user_to_organization`. -/
def assignUserToOrganization (organization login role : Text) : Py J Unit := do
  let id ← getOrganizationID organization
  ask (.assignUser id login role)

/-- `_get_global_user_id`. -/
def getGlobalUserID (login : Text) : Py J Nat := do
  let id ← ask (.lookupUser login)
  return Option.getD id 0

/-- `_remove_user_from_org`. -/
def removeUserFromOrg (login : Text) : Py J Unit := do
  let id ← getGlobalUserID login
  if id ≠ 0 then ask (.org (.removeUser id)) else return ()

/-- `_get_dashboard_json`. -/
def getDashboardJson (title organization : Text) : Py J (Option J) := do
  changeCurrentOrganizationTo organization
  let found ← ask (.org .search)
  match found.find? fun d => d.title = title with
  | none => return none
  | some d => return some (← ask (.org (.dashboardByUID d.uid)))

/-! ## §3. The requests. -/

/-- The dashboards, with the URLs of `update_ajax_urls`, and the alert channel. -/
structure Documents (J : Type) where
  principal : J
  agregat : J
  estat : J
  alertes : J
  calibration : J
  slack : J

/-- `email.rpartition('@')[0]`. -/
def localPart (email : Text) : Text := ((email.reverse.dropWhile (· ≠ '@')).drop 1).reverse

/-- What `BootstrapGrafana` is called with. -/
structure Registration where
  name : Text
  organization : Text
  email : Text
  password : Text
  channelID : Text

/-- The first block of `bootstrap`. -/
def enterOrganization (organization : Text) : Py J Unit := do
  if (← organizationCheck organization) = 0 then
    ask (.createOrganization organization)
  changeCurrentOrganizationTo organization

/-- The five dashboards. -/
def createDashboards (docs : Documents J) : Py J (Nat × List Nat) := do
  let pr ← ask (.org (.createDashboard docs.principal))
  let ag ← ask (.org (.createDashboard docs.agregat))
  let es ← ask (.org (.createDashboard docs.estat))
  let al ← ask (.org (.createDashboard docs.alertes))
  let ca ← ask (.org (.createDashboard docs.calibration))
  return (pr, [pr, ag, es, al, ca])

/-- The second block of `bootstrap`. -/
def provision (docs : Documents J) (channelID : Text) : Py J (Nat × Nat × List Nat) := do
  let dataSourceID ← ask (.org (.createDatasource channelID channelID))
  ask (.org (.createNotificationChannels docs.slack))
  let (home, dashIDs) ← createDashboards docs
  ask (.org (.updatePreferencesOrg home))
  return (dataSourceID, home, dashIDs)

/-- `for dash_id in dash_ids: _star_dashboard(dash_id)`. -/
def starDashboards : List Nat → Py J Unit
  | [] => return ()
  | id :: ids => do
      ask (.starDashboard id)
      starDashboards ids

/-- `"Main Org."`. -/
def mainOrg : Text := ['M', 'a', 'i', 'n', ' ', 'O', 'r', 'g', '.']

def viewer : Text := ['V', 'i', 'e', 'w', 'e', 'r']

/-- The permission of the new user, if the organization lists it. -/
def addPermission (dataSourceID : Nat) (email : Text) (users : List OrgUser) : Py J Unit :=
  match users.find? fun u => u.email = email with
  | some u => ask (.org (.addPermissionDatasource dataSourceID u.userID))
  | none => return ()

/-- The third block of `bootstrap`. -/
def addUser (r : Registration) (dataSourceID home : Nat) (dashIDs : List Nat) : Py J String := do
  let login := localPart r.email
  if (← userCheck r.organization login) = 0 then
    ask (.createUser ⟨r.name, r.email, login, r.password⟩)
    assignUserToOrganization r.organization login viewer
    ask (.org (.updatePreferencesUser home))
    let users ← ask (.org .getAllUsersOrg)
    addPermission dataSourceID r.email users
    starDashboards dashIDs
    changeCurrentOrganizationTo mainOrg
    removeUserFromOrg login
    return "success"
  else return "User seems to exist in grafana"

/-- `bootstrap` after the first block. -/
def inOrganization (docs : Documents J) (r : Registration) : Prog (sig J) String := do
  match ← (provision docs r.channelID).run with
  | none => return "Error when creating datasource and dashboards"
  | some (dataSourceID, home, dashIDs) =>
      match ← (addUser r dataSourceID home dashIDs).run with
      | none => return "Error when creating and updating the new user"
      | some status => return status

/-- `bootstrap`. -/
def bootstrap (docs : Documents J) (r : Registration) : Prog (sig J) String := do
  match ← (enterOrganization r.organization).run with
  | none => return "Error when creating and switching to organization"
  | some () => inOrganization docs r

/-- `updateDashboard`. -/
def updateDashboard (docs : Documents J) (organization : Text) : Prog (sig J) String := do
  match ← OptionT.run (do
    changeCurrentOrganizationTo organization
    let (home, _) ← createDashboards docs
    ask (.org (.updatePreferencesOrg home))) with
  | none => return "Something went wrong, Try again later"
  | some () => return "success"

/-- The panel of a sensor. -/
def panOrder : String → Option Nat
  | "Temperature-S" => some 2
  | "AirCO2" => some 3
  | "WaterLevel" => some 4
  | "Oxygen" => some 5
  | "AtmosphericTemp" => some 6
  | "Conductivity2" => some 7
  | "Conductivity1" => some 8
  | "Turbidity" => some 9
  | "pH" => some 10
  | "Humidity" => some 11
  | "Temperature-D" => some 12
  | _ => none

/-- What `Set_Alarm` is called with; `edit` sets the thresholds of a panel, and fails
when the document has no such panel or a value is no number. -/
structure Alarm (J : Type) where
  sensor : String
  organization : Text
  dashboard : Text
  edit : Nat → J → Option J

/-- `"success"`. -/
def success : Text := ['s', 'u', 'c', 'c', 'e', 's', 's']

/-- `Set_Alarm`. -/
def setAlarm (a : Alarm J) : Prog (sig J) String :=
  match panOrder a.sensor with
  | none => return "Invalid sensor name"
  | some panel => do
      match ← OptionT.run (do
        let data ← getDashboardJson a.dashboard a.organization
        match data.bind (a.edit panel) with
        | none => failure
        | some data => ask (.org (.updateExistingDashboard data))) with
      | none => return "Something went wrong when querying the alarm"
      | some (status, _) =>
          return if status = success then "OK" else "Unable to set alarm"

/-! ## §4. Grafana. -/

/-- Something that was created or changed in an organization. -/
inductive Created (J : Type)
  | resource (c : OrgCall J)
  | member (login role : Text)
  deriving DecidableEq

/-- An organization, with what was created or changed in it, in order. -/
structure Org (J : Type) where
  id : Nat
  name : Text
  created : List (Created J)
  deriving DecidableEq

def Org.info (o : Org J) : OrgInfo := ⟨o.id, o.name⟩

/-- The organizations as the API lists them, the current one of the admin account, the
next id to be given away, and the number of calls so far.  (That Grafana itself puts a
new account into its default organization, from which `bootstrap` takes it out again, is
not part of this.) -/
structure Server (J : Type) where
  orgs : List (Org J)
  current : Nat
  nextID : Nat
  calls : Nat := 0

namespace Server

variable (g : Server J)

def infos : List OrgInfo := g.orgs.map Org.info

def createIn (id : Nat) (e : Created J) : Server J :=
  { g with
    orgs := g.orgs.map fun o => if o.id = id then { o with created := o.created ++ [e] } else o }

end Server

/-- What becomes of one call. -/
structure Reply (J : Type) where
  /-- Grafana does what it is asked to do. -/
  taken : Bool
  /-- There is an answer. -/
  answered : Bool
  /-- Where a new organization is listed. -/
  position : Nat
  /-- The account of a login. -/
  account : Option Nat
  /-- What is read from an answer; none when it is not there. -/
  val : (c : OrgCall J) → Option c.Val

/-- The effect of a call. -/
def effect (r : Reply J) (g : Server J) : Cmd J → Server J
  | .createOrganization name =>
      if ∃ o ∈ g.orgs, o.name = name then g
      else
        { g with
          orgs := g.orgs.insertIdx (min r.position g.orgs.length) ⟨g.nextID, name, []⟩
          nextID := g.nextID + 1 }
  | .usingOrg id => if ∃ o ∈ g.orgs, o.id = id then { g with current := id } else g
  | .assignUser id login role => g.createIn id (.member login role)
  | .org c => if c.Writes then g.createIn g.current (.resource c) else g
  | _ => g

/-- What the answer to a call holds. -/
def answer (r : Reply J) (g : Server J) : (c : Cmd J) → Option c.Val
  | .listOrganization => some g.infos
  | .lookupUser _ => some r.account
  | .org c => r.val c
  | .createOrganization _ => some ()
  | .usingOrg _ => some ()
  | .createUser _ => some ()
  | .assignUser _ _ _ => some ()
  | .starDashboard _ => some ()

/-- Grafana, with what becomes of each call. -/
def handler (net : Nat → Reply J) : Handler (sig J) (Server J) := fun c g =>
  let r := net g.calls
  ({ (if r.taken then effect r g c else g) with calls := g.calls + 1 },
    if r.answered then answer r g c else none)

/-- Grafana does what it says yes to. -/
def Works (net : Nat → Reply J) : Prop := ∀ k, (net k).answered = true → (net k).taken = true

end Mainflux.UserControl
