/-
  Mainflux.UserControl.Protocol
  ─────────────────────────────
  **WHAT A REQUEST DOES BETWEEN ITS SWITCHES.**

  A request for an organization is in order when each of its writes comes after a
  switch to that organization, and after no other switch.  Whether the last switch was
  to the own organization is the ghost state of a protocol (`home`); that `bootstrap`,
  `updateDashboard` and `setAlarm` follow it, provided the API lists the organization
  such that the lookup finds it, is a fact about their texts.
-/
import Mainflux.UserControl.Grafana

namespace Mainflux.UserControl

open Mainflux.Lib

open Prog (Follows)

variable {J : Type} {α β : Type}

/-! ## §1. The protocol. -/

/-- The protocol of requests for the organization `target`, as long as the API lists
`infos`.  The ghost state says that the own last switch was to `target`. -/
def home (infos : List OrgInfo) (target : Nat) : Prog.Protocol (sig J) Prop where
  rule b c :=
    match c with
    | .org c => c.Writes = true → b
    | .assignUser id _ _ => id = target
    | .createOrganization _ => False
    | _ => True
  move b c r :=
    match c, r with
    | .usingOrg id, some _ => id = target
    | .usingOrg _, none => False
    | _, _ => b
  allowed c r :=
    match c, r with
    | .listOrganization, some l => l = infos
    | _, _ => True

section Commands

variable {infos : List OrgInfo} {target : Nat} {b : Prop} {Q : Prop → Option β → Prop}

/-- What is in order from any organization is in order at home. -/
theorem follows_weaken {Q : Prop → α → Prop} (hQ : ∀ {b b' : Prop} {a}, (b → b') → Q b a → Q b' a)
    {p : Prog (sig J) α} {b b' : Prop} (hb : b → b') (h : p.Follows (home infos target) Q b) :
    p.Follows (home infos target) Q b' := by
  induction p generalizing b b' with
  | ret a => exact hQ hb h
  | call c k ih =>
      cases c with
      | org c => exact ⟨fun hw => hb (h.1 hw), fun r hr => ih r hb (h.2 r hr)⟩
      | usingOrg id =>
          refine ⟨trivial, fun r hr => ?_⟩
          cases r with
          | none => exact h.2 none hr
          | some u => exact h.2 (some u) hr
      | _ => exact ⟨h.1, fun r hr => ih r hb (h.2 r hr)⟩

/-- A command that is no switch. -/
theorem follows_plain {c : Cmd J} {f : c.Val → Py J β} (hrule : (home infos target).rule b c)
    (hmove : ∀ r, (home infos target).move b c r = b)
    (h : ∀ v, (f v).run.Follows (home infos target) Q b) (hnone : Q b none) :
    (ask c >>= f).run.Follows (home infos target) Q b := by
  refine Follows.optionBind ⟨hrule, fun r _ => ?_⟩
  rw [hmove]
  cases r with
  | none => exact hnone
  | some v => exact h v

theorem follows_org {c : OrgCall J} {f : c.Val → Py J β} (hw : c.Writes = true → b)
    (h : ∀ v, (f v).run.Follows (home infos target) Q b) (hnone : Q b none) :
    (ask (.org c) >>= f).run.Follows (home infos target) Q b :=
  follows_plain hw (fun _ => rfl) h hnone

end Commands

/-! ## §2. `grafana_interactions`. -/

section Interactions

variable {infos : List OrgInfo} {target : Nat} {b : Prop}

theorem follows_getOrganizationID {Q : Prop → Option Nat → Prop} {organization : Text}
    (h : Q b (some (organizationIDIn organization infos))) (hnone : Q b none) :
    (getOrganizationID organization : Py J Nat).run.Follows (home infos target) Q b := by
  refine Follows.optionBind ⟨trivial, fun r hr => ?_⟩
  cases r with
  | none => exact hnone
  | some l =>
      obtain rfl : l = infos := hr
      exact h

/-- A switch: at home afterwards, if the lookup finds the own organization. -/
theorem follows_change {Q : Prop → Option Unit → Prop} {organization : Text}
    (h : Q (organizationIDIn organization infos = target) (some ())) (hraised : ∀ b, Q b none) :
    (changeCurrentOrganizationTo organization : Py J Unit).run.Follows (home infos target) Q b := by
  refine Follows.optionBind (follows_getOrganizationID ⟨trivial, fun r _ => ?_⟩ (hraised _))
  cases r with
  | none => exact hraised _
  | some u => exact h

theorem follows_userCheck {Q : Prop → Option Nat → Prop} {organization login : Text}
    (h : ∀ id, Q (organizationIDIn organization infos = target) (some id)) (hraised : ∀ b, Q b none) :
    (userCheck organization login : Py J Nat).run.Follows (home infos target) Q b := by
  refine Follows.optionBind (follows_change ?_ hraised)
  exact follows_org (fun hw => by cases hw) (fun users => h _) (hraised _)

theorem follows_createDashboards {Q : Prop → Option (Nat × List Nat) → Prop} (hb : b)
    {docs : Documents J} (h : ∀ v, Q b (some v)) (hnone : Q b none) :
    (createDashboards docs).run.Follows (home infos target) Q b := by
  refine follows_org (fun _ => hb) (fun pr => ?_) hnone
  refine follows_org (fun _ => hb) (fun ag => ?_) hnone
  refine follows_org (fun _ => hb) (fun es => ?_) hnone
  refine follows_org (fun _ => hb) (fun al => ?_) hnone
  refine follows_org (fun _ => hb) (fun ca => ?_) hnone
  exact h _

theorem follows_addPermission {Q : Prop → Option Unit → Prop} (hb : b) {dataSourceID : Nat}
    {email : Text} {users : List OrgUser} (h : Q b (some ())) (hnone : Q b none) :
    (addPermission dataSourceID email users : Py J Unit).run.Follows (home infos target) Q b := by
  unfold addPermission
  split
  · refine ⟨fun _ => hb, fun r _ => ?_⟩
    cases r with
    | none => exact hnone
    | some u => exact h
  · exact h

theorem follows_starDashboards {Q : Prop → Option Unit → Prop} {dashIDs : List Nat}
    (h : Q b (some ())) (hnone : Q b none) :
    (starDashboards dashIDs : Py J Unit).run.Follows (home infos target) Q b := by
  induction dashIDs with
  | nil => exact h
  | cons id ids ih => exact follows_plain trivial (fun _ => rfl) (fun _ => ih) hnone

theorem follows_removeUser {Q : Prop → Option Unit → Prop} {login : Text} (h : Q b (some ()))
    (hnone : Q b none) :
    (removeUserFromOrg login : Py J Unit).run.Follows (home infos target) Q b := by
  refine Follows.optionBind (follows_plain trivial (fun _ => rfl) (fun account => ?_) hnone)
  show Follows _ _ (OptionT.run (if Option.getD account 0 ≠ 0 then _ else _)) b
  by_cases hid : Option.getD account 0 ≠ 0
  · rw [if_pos hid]
    refine ⟨(fun hw => by cases hw), fun r _ => ?_⟩
    cases r with
    | none => exact hnone
    | some u => exact h
  · rw [if_neg hid]
    exact h

/-- Nothing is written to read a dashboard. -/
theorem follows_getDashboardJson {Q : Prop → Option (Option J) → Prop} {title organization : Text}
    (h : ∀ data, Q (organizationIDIn organization infos = target) (some data))
    (hraised : ∀ b, Q b none) :
    (getDashboardJson title organization).run.Follows (home infos target) Q b := by
  refine Follows.optionBind (follows_change ?_ hraised)
  refine follows_org (fun hw => by cases hw) (fun found => ?_) (hraised _)
  cases hfound : found.find? fun d => d.title = title with
  | none =>
      simp only
      exact h _
  | some d =>
      simp only
      exact follows_org (fun hw => by cases hw) (fun data => h _) (hraised _)

end Interactions

/-! ## §3. The requests. -/

section Requests

variable {infos : List OrgInfo} {target : Nat}

/-- Nothing is asked of the end of a request. -/
abbrev Anyhow {α : Type} : Prop → α → Prop := fun _ _ => True

theorem follows_enterOrganization {organization : Text}
    (hcheck : organizationCheckIn organization infos ≠ 0)
    (hid : organizationIDIn organization infos = target) :
    (enterOrganization organization : Py J Unit).run.Follows (home infos target)
      (fun b r => r.isSome → b) False := by
  refine Follows.optionBind ⟨trivial, fun r hr => ?_⟩
  cases r with
  | none => exact fun h => by cases h
  | some l =>
      obtain rfl : l = infos := hr
      show Follows _ _ (OptionT.run (if organizationCheckIn organization l = 0 then _ else _)) _
      rw [if_neg hcheck]
      exact follows_change (fun _ => hid) fun _ h => by cases h

theorem follows_provision (docs : Documents J) (channelID : Text) :
    (provision docs channelID).run.Follows (home infos target) Anyhow True := by
  refine follows_org (fun _ => trivial) (fun ds => ?_) trivial
  refine follows_org (fun _ => trivial) (fun _ => ?_) trivial
  refine Follows.optionBind (follows_createDashboards trivial (fun v => ?_) trivial)
  exact follows_org (fun _ => trivial) (fun _ => trivial) trivial

theorem follows_addUser {r : Registration} (hid : organizationIDIn r.organization infos = target)
    (dataSourceID dashHome : Nat) (dashIDs : List Nat) (b : Prop) :
    (addUser r dataSourceID dashHome dashIDs : Py J String).run.Follows (home infos target)
      Anyhow b := by
  refine Follows.optionBind (follows_userCheck (fun id => ?_) fun _ => trivial)
  show Follows _ _ (OptionT.run (if id = 0 then _ else _)) _
  split
  · refine follows_plain trivial (fun _ => rfl) (fun _ => ?_) trivial
    refine Follows.optionBind (Follows.optionBind (follows_getOrganizationID ?_ trivial))
    refine ⟨hid, fun r _ => ?_⟩
    cases r with
    | none => trivial
    | some u =>
        refine follows_org (fun _ => hid) (fun _ => ?_) trivial
        refine follows_org (fun _ => hid) (fun users => ?_) trivial
        refine Follows.optionBind (follows_addPermission hid ?_ trivial)
        refine Follows.optionBind (follows_starDashboards ?_ trivial)
        -- after the switch to the main organization nothing is written
        refine Follows.optionBind (follows_change ?_ fun _ => trivial)
        exact Follows.optionBind (follows_removeUser trivial trivial)
  · trivial

theorem follows_inOrganization (docs : Documents J) {r : Registration}
    (hid : organizationIDIn r.organization infos = target) :
    (inOrganization docs r).Follows (home infos target) Anyhow True := by
  refine Follows.bind ((follows_provision docs r.channelID).mono fun b result _ => ?_)
  cases result with
  | none => trivial
  | some v =>
      obtain ⟨ds, dashHome, dashIDs⟩ := v
      refine Follows.bind ((follows_addUser hid ds dashHome dashIDs b).mono fun b' result _ => ?_)
      cases result with
      | none => trivial
      | some status => trivial

/-- **`bootstrap` for an organization that the lookups find.** -/
theorem follows_bootstrap (docs : Documents J) {r : Registration}
    (hcheck : organizationCheckIn r.organization infos ≠ 0)
    (hid : organizationIDIn r.organization infos = target) :
    (bootstrap docs r).Follows (home infos target) Anyhow False := by
  refine Follows.bind ((follows_enterOrganization hcheck hid).mono fun b result hb => ?_)
  cases result with
  | none => trivial
  | some u => exact follows_weaken (fun _ _ => trivial) (fun _ => hb rfl) (follows_inOrganization docs hid)

theorem follows_updateDashboard (docs : Documents J) {organization : Text}
    (hid : organizationIDIn organization infos = target) :
    (updateDashboard docs organization).Follows (home infos target) Anyhow False := by
  refine Follows.bind (Follows.optionBind (follows_change ?_ fun _ => trivial))
  refine Follows.optionBind (follows_createDashboards hid (fun v => ?_) trivial)
  refine ⟨fun _ => hid, fun r _ => ?_⟩
  cases r with
  | none => trivial
  | some u => trivial

theorem follows_setAlarm {a : Alarm J} (hid : organizationIDIn a.organization infos = target) :
    (setAlarm a).Follows (home infos target) Anyhow False := by
  unfold setAlarm
  split
  · trivial
  next panel _ =>
      refine Follows.bind (Follows.optionBind (follows_getDashboardJson (fun data => ?_) fun _ => trivial))
      simp only [Option.elim_some]
      generalize data.bind (a.edit panel) = edited
      cases edited with
      | none => trivial
      | some edited =>
          refine ⟨fun _ => hid, fun r _ => ?_⟩
          cases r with
          | none => trivial
          | some v => trivial

end Requests

end Mainflux.UserControl
