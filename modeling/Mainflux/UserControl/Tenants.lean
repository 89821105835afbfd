/-
  Mainflux.UserControl.Tenants
  ────────────────────────────
  **WHICH ORGANIZATION A REQUEST ENDS UP IN.**

  The lookups compare with `in`: an organization is taken for the requested one when
  its name CONTAINS the requested name, and the first in the list is taken.  When there
  is none the id is zero, the switch to which Grafana refuses, and the requests go on in
  whatever organization is current.

    • `tenant_iff` — when the lookups are right, when `bootstrap` and when
      `updateDashboard` keep to the requested organization;
    • `lab_taken_for_lab2` — a request for one organization that ends up in another.
-/
import Mathlib.Data.List.InsertIdx
import Mathlib.Data.List.Nodup
import Mainflux.UserControl.Protocol

namespace Mainflux.UserControl

open Mainflux.Lib

open Prog (Follows)

variable {J : Type}

/-! ## §1. The statement. -/

/-- The first organization whose name contains `name` is called otherwise. -/
def Shadowed (name : Text) (infos : List OrgInfo) : Prop :=
  ∃ o, infos.find? (fun o => o.Contains name) = some o ∧ o.name ≠ name

/-- The first organization whose name contains `name` is the one of that name. -/
def Listed (name : Text) (infos : List OrgInfo) : Prop :=
  ∃ o, infos.find? (fun o => o.Contains name) = some o ∧ o.name = name

/-- The lookups find the organization of that name, or report that there is none. -/
def Resolves (name : Text) (infos : List OrgInfo) : Prop :=
  (organizationCheckIn name infos = if ∃ o ∈ infos, o.name = name then 1 else 0) ∧
    ((∃ o ∈ infos, o.name = name ∧ organizationIDIn name infos = o.id) ∨
      (∀ o ∈ infos, o.name ≠ name) ∧ organizationIDIn name infos = 0)

/-- So does the switch: it leads to the organization of that name, or nowhere. -/
def Switches (name : Text) (g : Server J) : Prop :=
  ∀ net, Works net →
    ((changeCurrentOrganizationTo name).run.run (handler net) g).2 = some () →
      (∃ o ∈ g.orgs, o.name = name ∧
        ((changeCurrentOrganizationTo name).run.run (handler net) g).1.current = o.id) ∨
      (∀ o ∈ g.orgs, o.name ≠ name) ∧
        ((changeCurrentOrganizationTo name).run.run (handler net) g).1.current = g.current

/-- **Nothing is created or changed in organizations with another name**, and none such
is created. -/
def Isolated (name : Text) (g g' : Server J) : Prop :=
  ∀ o : Org J, o.name ≠ name → (o ∈ g'.orgs ↔ o ∈ g.orgs)

/-- What Grafana keeps to: ids are unique and start at one, and the admin account is in
some organization. -/
structure Server.Sane (g : Server J) : Prop where
  ids : (g.orgs.map Org.id).Nodup
  positive : ∀ o ∈ g.orgs, 0 < o.id ∧ o.id < g.nextID
  inside : ∃ o ∈ g.orgs, o.id = g.current

/-! ## §2. The lookups. -/

section Lookups

variable {name : Text} {infos : List OrgInfo}

theorem organizationCheckIn_eq :
    organizationCheckIn name infos
      = if (infos.find? fun o => o.Contains name).isSome then 1 else 0 := by
  induction infos with
  | nil => rfl
  | cons o infos ih =>
      unfold organizationCheckIn
      by_cases ho : o.Contains name
      · rw [if_pos ho, List.find?_cons_of_pos (by simpa using ho)]
        rfl
      · rw [if_neg ho, List.find?_cons_of_neg (by simpa using ho), ih]

theorem organizationIDIn_eq :
    organizationIDIn name infos
      = ((infos.find? fun o => o.Contains name).map OrgInfo.id).getD 0 := by
  induction infos with
  | nil => rfl
  | cons o infos ih =>
      unfold organizationIDIn
      by_cases ho : o.Contains name
      · rw [if_pos ho, List.find?_cons_of_pos (by simpa using ho)]
        rfl
      · rw [if_neg ho, List.find?_cons_of_neg (by simpa using ho), ih]

/-- Every name contains itself. -/
theorem no_name_of_none (h : infos.find? (fun o => o.Contains name) = none) :
    ∀ o ∈ infos, o.name ≠ name := by
  rintro o ho rfl
  have hnot := List.find?_eq_none.mp h o ho
  simp only [decide_eq_true_eq] at hnot
  exact hnot (List.infix_refl o.name)

/-- The three cases of a lookup. -/
theorem lookup_cases (name : Text) (infos : List OrgInfo) :
    (infos.find? fun o => o.Contains name) = none ∨ Listed name infos ∨ Shadowed name infos := by
  cases h : infos.find? fun o => o.Contains name with
  | none => exact .inl rfl
  | some o =>
      by_cases ho : o.name = name
      · exact .inr (.inl ⟨o, h, ho⟩)
      · exact .inr (.inr ⟨o, h, ho⟩)

theorem resolves_of_not_shadowed (h : ¬ Shadowed name infos) : Resolves name infos := by
  rcases lookup_cases name infos with hnone | ⟨o, hfound, hname⟩ | hshadowed
  · have hno := no_name_of_none hnone
    refine ⟨?_, .inr ⟨hno, ?_⟩⟩
    · have hnot : ¬ ∃ o ∈ infos, o.name = name := fun ⟨o, ho, heq⟩ => hno o ho heq
      rw [organizationCheckIn_eq, hnone, if_neg hnot]
      rfl
    · rw [organizationIDIn_eq, hnone]
      rfl
  · have ho := List.mem_of_find?_eq_some hfound
    refine ⟨?_, .inl ⟨o, ho, hname, ?_⟩⟩
    · have hsome : ∃ o ∈ infos, o.name = name := ⟨o, ho, hname⟩
      rw [organizationCheckIn_eq, hfound, if_pos hsome]
      rfl
    · rw [organizationIDIn_eq, hfound]
      rfl
  · exact absurd hshadowed h

end Lookups

/-! ## §3. One call. -/

section Calls

variable {name : Text} {g s : Server J} {net : Nat → Reply J}

theorem Isolated.refl (name : Text) (g : Server J) : Isolated name g g := fun _ _ => Iff.rfl

theorem Isolated.trans {g' g'' : Server J} (h : Isolated name g g') (h' : Isolated name g' g'') :
    Isolated name g g'' := fun o ho => (h' o ho).trans (h o ho)

@[simp] theorem infos_createIn (g : Server J) (id : Nat) (e : Created J) :
    (g.createIn id e).infos = g.infos := by
  simp only [Server.infos, Server.createIn, List.map_map]
  refine List.map_congr_left fun o _ => ?_
  simp only [Function.comp_apply]
  split <;> rfl

@[simp] theorem current_createIn (g : Server J) (id : Nat) (e : Created J) :
    (g.createIn id e).current = g.current := rfl

/-- A write in the organization of that name. -/
theorem isolated_createIn {id : Nat} (h : ∀ i ∈ g.infos, i.id = id → i.name = name) (e : Created J) :
    Isolated name g (g.createIn id e) := by
  have hid : ∀ o ∈ g.orgs, o.id = id → o.name = name :=
    fun o ho heq => h o.info (List.mem_map_of_mem ho) heq
  intro o hne
  simp only [Server.createIn, List.mem_map]
  constructor
  · rintro ⟨x, hx, rfl⟩
    split at hne
    next heq => exact absurd (hid x hx heq) hne
    next heq =>
        rw [if_neg heq]
        exact hx
  · intro ho
    exact ⟨o, ho, if_neg fun heq => hne (hid o ho heq)⟩

/-- A call that is not a creation leaves the list of organizations alone. -/
theorem infos_handler (net : Nat → Reply J) {c : Cmd J} (hc : ∀ name, c ≠ .createOrganization name) :
    (handler net c g).1.infos = g.infos := by
  have heffect : (effect (net g.calls) g c).infos = g.infos := by
    cases c with
    | createOrganization name => exact absurd rfl (hc name)
    | usingOrg id =>
        simp only [effect]
        split <;> rfl
    | assignUser id login role => exact infos_createIn g id _
    | org c =>
        simp only [effect]
        split
        · exact infos_createIn g _ _
        · rfl
    | _ => rfl
  unfold handler
  simp only
  split
  · exact heffect
  · rfl

/-- A call that is no switch leaves the current organization alone. -/
theorem current_handler (net : Nat → Reply J) {c : Cmd J} (hc : ∀ id, c ≠ .usingOrg id) :
    (handler net c g).1.current = g.current := by
  have heffect : (effect (net g.calls) g c).current = g.current := by
    cases c with
    | usingOrg id => exact absurd rfl (hc id)
    | createOrganization name =>
        simp only [effect]
        split <;> rfl
    | org c =>
        simp only [effect]
        split <;> rfl
    | _ => rfl
  unfold handler
  simp only
  split
  · exact heffect
  · rfl

/-- A switch to an organization that is there. -/
theorem current_usingOrg (hnet : Works net) {id : Nat} (hid : ∃ i ∈ g.infos, i.id = id)
    (h : (handler net (.usingOrg id) g).2 ≠ none) :
    (handler net (.usingOrg id) g).1.current = id := by
  have hans : (net g.calls).answered = true := by
    by_contra hno
    exact h (if_neg hno)
  have horg : ∃ o ∈ g.orgs, o.id = id := by
    obtain ⟨i, hi, rfl⟩ := hid
    obtain ⟨o, ho, rfl⟩ := List.mem_map.mp hi
    exact ⟨o, ho, rfl⟩
  simp only [handler, hnet _ hans, if_true, effect, if_pos horg]

/-- A call in the organization of that name, or one that writes nothing. -/
theorem isolated_handler (net : Nat → Reply J) {target : Nat} {b : Prop} {c : Cmd J}
    (htarget : ∀ i ∈ g.infos, i.id = target → i.name = name) (hcurrent : b → g.current = target)
    (hrule : (home g.infos target).rule b c) : Isolated name g (handler net c g).1 := by
  have heffect : Isolated name g (effect (net g.calls) g c) := by
    cases c with
    | createOrganization name => exact absurd hrule id
    | usingOrg id =>
        simp only [effect]
        split <;> exact Isolated.refl name g
    | assignUser id login role =>
        obtain rfl : id = target := hrule
        exact isolated_createIn htarget _
    | org c =>
        simp only [effect]
        split
        next hw =>
            rw [hcurrent (hrule hw)]
            exact isolated_createIn htarget _
        next => exact Isolated.refl name g
    | _ => exact Isolated.refl name g
  unfold handler
  simp only
  split
  · exact heffect
  · exact Isolated.refl name g

end Calls

/-! ## §4. A request alone. -/

section Alone

variable {name : Text} {g : Server J} {net : Nat → Reply J}

theorem allowed_handler (net : Nat → Reply J) (c : Cmd J) {target : Nat} :
    (home g.infos target).allowed c (handler net c g).2 := by
  cases c with
  | listOrganization =>
      have hlist : (handler net .listOrganization g).2
          = if (net g.calls).answered then some g.infos else none := rfl
      rw [hlist]
      cases (net g.calls).answered with
      | false => trivial
      | true => rfl
  | _ => trivial

/-- **A request that follows the protocol keeps to its organization.** -/
theorem isolated_of_follows (hnet : Works net) {target : Nat}
    (htarget : ∀ i ∈ g.infos, i.id = target → i.name = name) (hthere : ∃ i ∈ g.infos, i.id = target)
    {α : Type} {p : Prog (sig J) α} (h : p.Follows (home g.infos target) Anyhow False) :
    Isolated name g (p.run (handler net) g).1 := by
  let I : Prop → Server J → Prop := fun b s =>
    s.infos = g.infos ∧ (b → s.current = target) ∧ Isolated name g s
  have hstep : ∀ (b : Prop) (c : Cmd J) (s : Server J), I b s → (home g.infos target).rule b c →
      (home g.infos target).allowed c (handler net c s).2 ∧
        I ((home g.infos target).move b c (handler net c s).2) (handler net c s).1 := by
    rintro b c s ⟨hinfos, hcurrent, hiso⟩ hrule
    have hcreate : ∀ name, c ≠ .createOrganization name := by
      rintro name rfl
      exact hrule
    have hwrite : Isolated name s (handler net c s).1 := by
      refine isolated_handler net (hinfos ▸ htarget) hcurrent ?_
      rw [hinfos]
      exact hrule
    refine ⟨?_, (infos_handler net hcreate).trans hinfos, ?_, hiso.trans hwrite⟩
    · exact hinfos ▸ allowed_handler net c
    · cases c with
      | usingOrg id =>
          intro hmove
          cases hr : (handler net (.usingOrg id) s).2 with
          | none =>
              rw [hr] at hmove
              exact absurd hmove fun h => h
          | some u =>
              rw [hr] at hmove
              obtain rfl : id = target := hmove
              exact current_usingOrg hnet (hinfos ▸ hthere) (by rw [hr]; exact Option.some_ne_none u)
      | _ =>
          intro hb
          rw [current_handler net (by simp)]
          exact hcurrent hb
  obtain ⟨b, ⟨-, -, hiso⟩, -⟩ := Follows.run hstep h ⟨rfl, fun h => absurd h id, Isolated.refl name g⟩
  exact hiso

/-- What `Listed` gives the protocol. -/
theorem Listed.target (hg : g.Sane) (h : Listed name g.infos) :
    (∀ i ∈ g.infos, i.id = organizationIDIn name g.infos → i.name = name) ∧
      (∃ i ∈ g.infos, i.id = organizationIDIn name g.infos) ∧
      organizationCheckIn name g.infos ≠ 0 := by
  obtain ⟨o, hfound, hname⟩ := h
  have hid : organizationIDIn name g.infos = o.id := by
    rw [organizationIDIn_eq, hfound]
    rfl
  have ho := List.mem_of_find?_eq_some hfound
  refine ⟨fun i hi heq => ?_, ⟨o, ho, hid.symm⟩, ?_⟩
  · have hids : (g.infos.map OrgInfo.id).Nodup := by
      rw [Server.infos, List.map_map]
      exact hg.ids
    rw [List.inj_on_of_nodup_map hids hi ho (heq.trans hid)]
    exact hname
  · rw [organizationCheckIn_eq, hfound]
    exact Nat.one_ne_zero

end Alone

/-! ## §5. The first calls of a request. -/

section First

/-- A call, and what follows unless it raises. -/
def asked {α : Type} (c : Cmd J) (error : α) (k : c.Val → Prog (sig J) α) : Prog (sig J) α :=
  .call c fun r => r.elim (.ret error) k

/-- `bootstrap` once there is such an organization. -/
def enteredOrganization (docs : Documents J) (r : Registration) : Prog (sig J) String := do
  match ← (changeCurrentOrganizationTo r.organization).run with
  | none => return "Error when creating and switching to organization"
  | some () => inOrganization docs r

theorem bootstrap_eq (docs : Documents J) (r : Registration) :
    bootstrap docs r
      = asked .listOrganization "Error when creating and switching to organization" fun orgs =>
          if organizationCheckIn r.organization orgs = 0 then
            asked (.createOrganization r.organization)
              "Error when creating and switching to organization" fun _ => enteredOrganization docs r
          else enteredOrganization docs r := by
  refine congrArg (Prog.call (S := sig J) Cmd.listOrganization) (funext fun x => ?_)
  cases x with
  | none => rfl
  | some orgs =>
      show Prog.bind (OptionT.run (if organizationCheckIn r.organization orgs = 0 then _ else _)) _
        = if organizationCheckIn r.organization orgs = 0 then _ else _
      split
      · refine congrArg (Prog.call (S := sig J) (Cmd.createOrganization _)) (funext fun x => ?_)
        cases x with
        | none => rfl
        | some u => rfl
      · rfl

/-- A lookup, a switch and a write: how every request goes about it. -/
def Begins {α : Type} (name : Text) (c : OrgCall J) (p : Prog (sig J) α) : Prop :=
  ∃ e e' e'' rest, p = asked .listOrganization e fun orgs =>
    asked (.usingOrg (organizationIDIn name orgs)) e' fun _ => asked (.org c) e'' rest

theorem begins_enteredOrganization (docs : Documents J) (r : Registration) :
    Begins r.organization (.createDatasource r.channelID r.channelID)
      (enteredOrganization docs r) := by
  refine ⟨"Error when creating and switching to organization",
    "Error when creating and switching to organization",
    "Error when creating datasource and dashboards", ?_, ?_⟩
  rotate_left
  · refine congrArg (Prog.call (S := sig J) Cmd.listOrganization) (funext fun x => ?_)
    cases x with
    | none => rfl
    | some orgs =>
        refine congrArg (Prog.call (S := sig J) (Cmd.usingOrg _)) (funext fun x => ?_)
        cases x with
        | none => rfl
        | some u =>
            refine congrArg (Prog.call (S := sig J) (Cmd.org _)) (funext fun x => ?_)
            cases x with
            | none => rfl
            | some v => rfl

theorem begins_updateDashboard (docs : Documents J) (organization : Text) :
    Begins organization (.createDashboard docs.principal) (updateDashboard docs organization) := by
  refine ⟨"Something went wrong, Try again later", "Something went wrong, Try again later",
    "Something went wrong, Try again later", ?_, ?_⟩
  rotate_left
  · refine congrArg (Prog.call (S := sig J) Cmd.listOrganization) (funext fun x => ?_)
    cases x with
    | none => rfl
    | some orgs =>
        refine congrArg (Prog.call (S := sig J) (Cmd.usingOrg _)) (funext fun x => ?_)
        cases x with
        | none => rfl
        | some u =>
            refine congrArg (Prog.call (S := sig J) (Cmd.org _)) (funext fun x => ?_)
            cases x with
            | none => rfl
            | some v => rfl

variable {g : Server J} {net : Nat → Reply J} {α : Type}

theorem handler_fst (c : Cmd J) (htaken : (net g.calls).taken = true) :
    (handler net c g).1 = { effect (net g.calls) g c with calls := g.calls + 1 } := by
  show ({ (if (net g.calls).taken then effect (net g.calls) g c else g) with
    calls := g.calls + 1 } : Server J) = _
  rw [if_pos htaken]

theorem run_asked {c : Cmd J} {v : c.Val} (hans : (net g.calls).answered = true)
    (htaken : (net g.calls).taken = true) (hv : answer (net g.calls) g c = some v) (e : α)
    (k : c.Val → Prog (sig J) α) :
    (asked c e k).run (handler net) g
      = (k v).run (handler net) { effect (net g.calls) g c with calls := g.calls + 1 } := by
  have hanswer : (handler net c g).2 = some v := (if_pos hans).trans hv
  show (Option.elim (handler net c g).2 (Prog.ret e) k).run (handler net) (handler net c g).1 = _
  rw [hanswer, handler_fst c htaken]
  rfl

theorem run_asked_raised {c : Cmd J} (hans : (net g.calls).answered = false) (e : α)
    (k : c.Val → Prog (sig J) α) :
    (asked c e k).run (handler net) g = ((handler net c g).1, e) := by
  have hnone : (handler net c g).2 = none := if_neg (by rw [hans]; exact Bool.false_ne_true)
  show (Option.elim (handler net c g).2 (Prog.ret e) k).run (handler net) (handler net c g).1 = _
  rw [hnone]
  rfl

/-- Where a switch to the organization `name` leads. -/
def Server.landing (g : Server J) (name : Text) : Nat :=
  if ∃ o ∈ g.orgs, o.id = organizationIDIn name g.infos then organizationIDIn name g.infos
  else g.current

theorem effect_usingOrg (r : Reply J) (g : Server J) (name : Text) :
    effect r g (.usingOrg (organizationIDIn name g.infos)) = { g with current := g.landing name } := by
  simp only [effect, Server.landing]
  split <;> rfl

theorem run_change (hnet : Works net) (name : Text)
    (h : ((changeCurrentOrganizationTo name).run.run (handler net) g).2 = some ()) :
    ((changeCurrentOrganizationTo name).run.run (handler net) g).1.current = g.landing name := by
  have hchange : (changeCurrentOrganizationTo name : Py J Unit).run
      = asked .listOrganization none fun orgs =>
          asked (.usingOrg (organizationIDIn name orgs)) none fun _ => .ret (some ()) := by
    refine congrArg (Prog.call (S := sig J) Cmd.listOrganization) (funext fun x => ?_)
    cases x with
    | none => rfl
    | some orgs =>
        refine congrArg (Prog.call (S := sig J) (Cmd.usingOrg _)) (funext fun x => ?_)
        cases x with
        | none => rfl
        | some u => rfl
  rw [hchange] at h ⊢
  cases hlist : (net g.calls).answered with
  | false =>
      rw [run_asked_raised hlist] at h
      cases h
  | true =>
      rw [run_asked hlist (hnet _ hlist) rfl] at h ⊢
      cases husing : (net (g.calls + 1)).answered with
      | false =>
          rw [run_asked_raised husing] at h
          cases h
      | true =>
          rw [run_asked husing (hnet _ husing) rfl]
          exact congrArg Server.current (effect_usingOrg _ { g with calls := g.calls + 1 } name)

/-! ### A request that is misled. -/

/-- Every call is taken, and the first ones are answered. -/
def answeringFirst (n : Nat) : Nat → Reply J := fun k =>
  { taken := true, answered := decide (k < n), position := 0, account := none, val := fun _ => none }

theorem works_answeringFirst (n : Nat) : Works (answeringFirst n : Nat → Reply J) := fun _ _ => rfl

theorem not_isolated_createIn (hg : g.Sane) {x : Org J} (hx : x ∈ g.orgs) {name : Text}
    (hname : x.name ≠ name) (e : Created J) {g' : Server J}
    (h : g'.orgs = (g.createIn x.id e).orgs) : ¬ Isolated name g g' := by
  intro hiso
  have hmem := (hiso x hname).mpr hx
  rw [h] at hmem
  obtain ⟨o, ho, heq⟩ := List.mem_map.mp hmem
  by_cases hid : o.id = x.id
  · obtain rfl : o = x := List.inj_on_of_nodup_map hg.ids ho hx hid
    rw [if_pos rfl] at heq
    have hlength := congrArg (fun o => o.created.length) heq
    simp at hlength
  · rw [if_neg hid] at heq
    exact hid (congrArg Org.id heq)

/-- **A request that lands elsewhere writes there.** -/
theorem not_isolated_of_begins (hg : g.Sane) {name : Text} {c : OrgCall J} (hc : c.Writes = true)
    {p : Prog (sig J) α} (hp : Begins name c p) {x : Org J} (hx : x ∈ g.orgs) (hname : x.name ≠ name)
    (hland : g.landing name = x.id) :
    ¬ Isolated name g (p.run (handler (answeringFirst (g.calls + 2))) g).1 := by
  obtain ⟨e, e', e'', rest, rfl⟩ := hp
  refine not_isolated_createIn hg hx hname (.resource c) ?_
  have hfirst : (answeringFirst (g.calls + 2) g.calls : Reply J).answered = true := by
    simp [answeringFirst]
  have hsecond : (answeringFirst (g.calls + 2) (g.calls + 1) : Reply J).answered = true := by
    simp [answeringFirst]
  have hthird : (answeringFirst (g.calls + 2) (g.calls + 2) : Reply J).answered = false := by
    simp [answeringFirst]
  have hswitch : ({ effect (answeringFirst (g.calls + 2) (g.calls + 1)) { g with calls := g.calls + 1 }
      (.usingOrg (organizationIDIn name g.infos)) with calls := g.calls + 1 + 1 } : Server J)
      = { g with current := x.id, calls := g.calls + 2 } := by
    rw [← hland]
    exact congrArg (fun s : Server J => { s with calls := g.calls + 2 })
      (effect_usingOrg _ { g with calls := g.calls + 1 } name)
  rw [run_asked hfirst rfl rfl, run_asked hsecond rfl rfl]
  show ((asked (.org c) e'' rest).run (handler (answeringFirst (g.calls + 2)))
    { effect (answeringFirst (g.calls + 2) (g.calls + 1)) { g with calls := g.calls + 1 }
      (.usingOrg (organizationIDIn name g.infos)) with calls := g.calls + 1 + 1 }).1.orgs = _
  rw [hswitch, run_asked_raised hthird, handler_fst (.org c) rfl]
  show (if c.Writes = true then _ else _ : Server J).orgs = _
  rw [if_pos hc]
  rfl

end First

/-! ## §6. The requests. -/

section Requests

variable {g : Server J} {net : Nat → Reply J}

/-- A new organization is one more. -/
theorem mem_created {r : Reply J} {name : Text} (hnew : ∀ o ∈ g.orgs, o.name ≠ name) (o : Org J) :
    o ∈ (effect r g (.createOrganization name)).orgs ↔ o = ⟨g.nextID, name, []⟩ ∨ o ∈ g.orgs := by
  have hfree : ¬ ∃ o ∈ g.orgs, o.name = name := fun ⟨o, ho, heq⟩ => hnew o ho heq
  simp only [effect, if_neg hfree]
  exact List.mem_insertIdx (Nat.min_le_right _ _)

theorem sane_created {r : Reply J} {name : Text} (hg : g.Sane) (hnew : ∀ o ∈ g.orgs, o.name ≠ name) :
    (effect r g (.createOrganization name)).Sane := by
  have hfree : ¬ ∃ o ∈ g.orgs, o.name = name := fun ⟨o, ho, heq⟩ => hnew o ho heq
  refine ⟨?_, fun o ho => ?_, ?_⟩
  · simp only [effect, if_neg hfree]
    have hperm := (List.perm_insertIdx (⟨g.nextID, name, []⟩ : Org J) g.orgs
      (Nat.min_le_right r.position g.orgs.length)).map Org.id
    rw [hperm.nodup_iff, List.map_cons, List.nodup_cons]
    refine ⟨fun hold => ?_, hg.ids⟩
    obtain ⟨o, ho, hid⟩ := List.mem_map.mp hold
    exact absurd hid (Nat.ne_of_lt (hg.positive o ho).2)
  · have hnext : (effect r g (.createOrganization name)).nextID = g.nextID + 1 := by
      simp only [effect, if_neg hfree]
    rw [hnext]
    rcases (mem_created hnew o).mp ho with rfl | ho
    · obtain ⟨x, hx, -⟩ := hg.inside
      have hpos := hg.positive x hx
      exact ⟨by simp only; omega, Nat.lt_succ_self _⟩
    · have hpos := hg.positive o ho
      exact ⟨hpos.1, by omega⟩
  · obtain ⟨x, hx, hid⟩ := hg.inside
    refine ⟨x, (mem_created hnew x).mpr (.inr hx), hid.trans ?_⟩
    simp only [effect, if_neg hfree]

theorem isolated_created {r : Reply J} {name : Text} (hnew : ∀ o ∈ g.orgs, o.name ≠ name) :
    Isolated name g (effect r g (.createOrganization name)) := by
  intro o ho
  rw [mem_created hnew]
  refine or_iff_right ?_
  rintro rfl
  exact ho rfl

theorem listed_created {r : Reply J} {name : Text}
    (hnone : g.infos.find? (fun o => o.Contains name) = none) :
    Listed name (effect r g (.createOrganization name)).infos := by
  have hnew : ∀ o ∈ g.orgs, o.name ≠ name :=
    fun o ho => no_name_of_none hnone o.info (List.mem_map_of_mem ho)
  cases hfound : (effect r g (.createOrganization name)).infos.find? fun o => o.Contains name with
  | none =>
      refine absurd rfl (no_name_of_none hfound ⟨g.nextID, name⟩ ?_)
      exact List.mem_map.mpr ⟨⟨g.nextID, name, []⟩, (mem_created hnew _).mpr (.inl rfl), rfl⟩
  | some i =>
      refine ⟨i, hfound, ?_⟩
      obtain ⟨o, ho, rfl⟩ := List.mem_map.mp (List.mem_of_find?_eq_some hfound)
      rcases (mem_created hnew o).mp ho with rfl | ho
      · rfl
      · have hnot := List.find?_eq_none.mp hnone o.info (List.mem_map_of_mem ho)
        exact absurd (List.find?_some hfound) hnot

theorem Server.Sane.calls (hg : g.Sane) (n : Nat) : ({ g with calls := n } : Server J).Sane :=
  ⟨hg.ids, hg.positive, hg.inside⟩

/-- The first block of `bootstrap` leads home, if the lookup does. -/
theorem follows_enteredOrganization {infos : List OrgInfo} {target : Nat} (docs : Documents J)
    {r : Registration} (hid : organizationIDIn r.organization infos = target) :
    (enteredOrganization docs r).Follows (home infos target) Anyhow False := by
  refine Follows.bind (follows_change ?_ fun _ => trivial)
  exact follows_weaken (fun _ _ => trivial) (fun _ => hid) (follows_inOrganization docs hid)

theorem isolated_enteredOrganization (hnet : Works net) (hg : g.Sane) (docs : Documents J)
    (r : Registration) (h : Listed r.organization g.infos) :
    Isolated r.organization g ((enteredOrganization docs r).run (handler net) g).1 := by
  obtain ⟨htarget, hthere, -⟩ := h.target hg
  exact isolated_of_follows hnet htarget hthere (follows_enteredOrganization docs rfl)

/-- There is no such organization yet. -/
theorem isolated_bootstrap_new (hnet : Works net) (hg : g.Sane) (docs : Documents J)
    (r : Registration)
    (hnone : g.infos.find? (fun o => o.Contains r.organization) = none) :
    Isolated r.organization g ((bootstrap docs r).run (handler net) g).1 := by
  have hnew : ∀ o ∈ g.orgs, o.name ≠ r.organization :=
    fun o ho => no_name_of_none hnone o.info (List.mem_map_of_mem ho)
  have hcheck : organizationCheckIn r.organization g.infos = 0 := by
    rw [organizationCheckIn_eq, hnone]
    rfl
  rw [bootstrap_eq]
  cases hlist : (net g.calls).answered with
  | false =>
      rw [run_asked_raised hlist]
      have horgs : (handler net .listOrganization g).1.orgs = g.orgs := by
        show (if (net g.calls).taken = true then g else g).orgs = g.orgs
        rw [ite_self]
      intro o _
      rw [horgs]
  | true =>
      rw [run_asked hlist (hnet _ hlist) rfl]
      simp only [hcheck, if_true]
      -- `g1` is Grafana after the listing
      let g1 : Server J := { g with calls := g.calls + 1 }
      cases hcreate : (net (g.calls + 1)).answered with
      | false =>
          rw [run_asked_raised hcreate]
          show Isolated r.organization g
            (if (net (g.calls + 1)).taken = true
              then effect (net (g.calls + 1)) g1 (.createOrganization r.organization) else g1)
          split
          · exact isolated_created (g := g1) hnew
          · exact Isolated.refl _ g
      | true =>
          rw [run_asked hcreate (hnet _ hcreate) rfl]
          have hcreated : Isolated r.organization g
              (effect (net (g.calls + 1)) g1 (.createOrganization r.organization)) :=
            isolated_created (g := g1) hnew
          refine hcreated.trans (isolated_enteredOrganization hnet ?_ docs r ?_)
          · exact (sane_created (g := g1) (hg.calls _) hnew).calls _
          · exact listed_created (g := g1) hnone

theorem isolated_bootstrap (hnet : Works net) (hg : g.Sane) (docs : Documents J) (r : Registration)
    (h : ¬ Shadowed r.organization g.infos) :
    Isolated r.organization g ((bootstrap docs r).run (handler net) g).1 := by
  rcases lookup_cases r.organization g.infos with hnone | hlisted | hshadowed
  · exact isolated_bootstrap_new hnet hg docs r hnone
  · obtain ⟨htarget, hthere, hcheck⟩ := hlisted.target hg
    exact isolated_of_follows hnet htarget hthere (follows_bootstrap docs hcheck rfl)
  · exact absurd hshadowed h

/-- The lookup finds an organization. -/
theorem landing_of_found {name : Text} {i : OrgInfo}
    (hfound : g.infos.find? (fun o => o.Contains name) = some i) :
    ∃ o ∈ g.orgs, o.info = i ∧ organizationIDIn name g.infos = o.id ∧ g.landing name = o.id := by
  have hid : organizationIDIn name g.infos = i.id := by
    rw [organizationIDIn_eq, hfound]
    rfl
  obtain ⟨o, ho, rfl⟩ := List.mem_map.mp (List.mem_of_find?_eq_some hfound)
  refine ⟨o, ho, rfl, hid, ?_⟩
  unfold Server.landing
  rw [if_pos ⟨o, ho, hid.symm⟩, hid]
  rfl

/-- The lookup finds none: Grafana has no organization zero. -/
theorem landing_of_none {name : Text} (hg : g.Sane)
    (hnone : g.infos.find? (fun o => o.Contains name) = none) : g.landing name = g.current := by
  have hid : organizationIDIn name g.infos = 0 := by
    rw [organizationIDIn_eq, hnone]
    rfl
  refine if_neg ?_
  rintro ⟨o, ho, hzero⟩
  have hpos := (hg.positive o ho).1
  omega

theorem switches_of_not_shadowed {name : Text} (hg : g.Sane) (h : ¬ Shadowed name g.infos) :
    Switches name g := by
  intro net hnet hsome
  rw [run_change hnet name hsome]
  rcases lookup_cases name g.infos with hnone | ⟨i, hfound, hname⟩ | hshadowed
  · refine .inr ⟨fun o ho => ?_, landing_of_none hg hnone⟩
    exact no_name_of_none hnone o.info (List.mem_map_of_mem ho)
  · obtain ⟨o, ho, rfl, -, hland⟩ := landing_of_found hfound
    exact .inl ⟨o, ho, hname, hland⟩
  · exact absurd hshadowed h

theorem not_resolves_of_shadowed {name : Text} (hg : g.Sane) (h : Shadowed name g.infos) :
    ¬ Resolves name g.infos := by
  obtain ⟨i, hfound, hname⟩ := h
  obtain ⟨o, ho, rfl, hid, -⟩ := landing_of_found hfound
  rintro ⟨-, ⟨j, hj, hjname, hjid⟩ | ⟨-, hzero⟩⟩
  · obtain ⟨o', ho', rfl⟩ := List.mem_map.mp hj
    obtain rfl : o = o' := List.inj_on_of_nodup_map hg.ids ho ho' (hid.symm.trans hjid)
    exact hname hjname
  · have hpos := (hg.positive o ho).1
    omega

/-- **Which organization the requests end up in.**  The lookups, and `bootstrap`, are
right exactly when no organization whose name only contains the requested one is listed
first; `updateDashboard` exactly when moreover there is an organization of that name. -/
theorem tenant_iff (g : Server J) (hg : g.Sane) (docs : Documents J) (r : Registration) :
    ((Resolves r.organization g.infos ∧ Switches r.organization g) ↔
        ¬ Shadowed r.organization g.infos) ∧
      ((∀ net, Works net →
          Isolated r.organization g ((bootstrap docs r).run (handler net) g).1) ↔
        ¬ Shadowed r.organization g.infos) ∧
      ((∀ net, Works net →
          Isolated r.organization g ((updateDashboard docs r.organization).run (handler net) g).1) ↔
        Listed r.organization g.infos) := by
  refine ⟨⟨?_, ?_⟩, ⟨?_, ?_⟩, ⟨?_, ?_⟩⟩
  · exact fun hright hshadowed => not_resolves_of_shadowed hg hshadowed hright.1
  · exact fun h => ⟨resolves_of_not_shadowed h, switches_of_not_shadowed hg h⟩
  · rintro hiso ⟨i, hfound, hname⟩
    obtain ⟨o, ho, rfl, -, hland⟩ := landing_of_found hfound
    have hcheck : organizationCheckIn r.organization g.infos ≠ 0 := by
      rw [organizationCheckIn_eq, hfound]
      exact Nat.one_ne_zero
    have hfirst : (answeringFirst (g.calls + 3) g.calls : Reply J).answered = true := by
      simp [answeringFirst]
    have hboot := hiso (answeringFirst (g.calls + 3)) (works_answeringFirst _)
    rw [bootstrap_eq, run_asked hfirst rfl rfl] at hboot
    simp only [hcheck, if_false] at hboot
    exact not_isolated_of_begins (hg.calls (g.calls + 1)) rfl (begins_enteredOrganization docs r) ho
      hname hland hboot
  · exact fun h net hnet => isolated_bootstrap hnet hg docs r h
  · intro hiso
    have hupdate := hiso (answeringFirst (g.calls + 2)) (works_answeringFirst _)
    have hbegins := begins_updateDashboard docs r.organization
    rcases lookup_cases r.organization g.infos with hnone | hlisted | ⟨i, hfound, hname⟩
    · obtain ⟨o, ho, hid⟩ := hg.inside
      have hname : o.name ≠ r.organization := no_name_of_none hnone o.info (List.mem_map_of_mem ho)
      exact absurd hupdate (not_isolated_of_begins hg rfl hbegins ho hname
        ((landing_of_none hg hnone).trans hid.symm))
    · exact hlisted
    · obtain ⟨o, ho, rfl, -, hland⟩ := landing_of_found hfound
      exact absurd hupdate (not_isolated_of_begins hg rfl hbegins ho hname hland)
  · intro hlisted net hnet
    obtain ⟨htarget, hthere, -⟩ := hlisted.target hg
    exact isolated_of_follows hnet htarget hthere (follows_updateDashboard docs rfl)

end Requests

/-! ## §7. Two laboratories. -/

def lab : Text := ['l', 'a', 'b']

def lab2 : Text := ['l', 'a', 'b', '2']

/-- The main organization and two others, the younger one listed first. -/
def twoLabs : Server Unit where
  orgs := [⟨1, mainOrg, []⟩, ⟨3, lab2, []⟩, ⟨2, lab, []⟩]
  current := 1
  nextID := 4

theorem sane_twoLabs : twoLabs.Sane := by
  refine ⟨by decide, ?_, ⟨⟨1, mainOrg, []⟩, List.mem_cons_self, rfl⟩⟩
  intro o ho
  simp only [twoLabs, List.mem_cons, List.not_mem_nil, or_false] at ho
  rcases ho with rfl | rfl | rfl <;> decide

def documents : Documents Unit := ⟨(), (), (), (), (), ()⟩

/-- A registration for an organization. -/
def registration (organization : Text) : Registration :=
  ⟨['a', 'd', 'a'], organization, ['a', 'd', 'a', '@', 'u', 'o', 'c'], [], ['c']⟩

/-- The younger one is found, and a request for it keeps to it. -/
theorem tenant_iff_lab2 :
    ¬ Shadowed lab2 twoLabs.infos ∧
      Isolated lab2 twoLabs
        ((bootstrap documents (registration lab2)).run (handler (answeringFirst 9)) twoLabs).1 := by
  have hfound : ¬ Shadowed lab2 twoLabs.infos := by
    rintro ⟨o, hfound, hname⟩
    have hfirst : (twoLabs.infos.find? fun o => o.Contains lab2) = some ⟨3, lab2⟩ := by decide
    obtain rfl : (⟨3, lab2⟩ : OrgInfo) = o := Option.some.inj (hfirst.symm.trans hfound)
    exact hname rfl
  have hiff := tenant_iff twoLabs sane_twoLabs documents (registration lab2)
  exact ⟨hfound, hiff.2.1.mpr hfound (answeringFirst 9) (works_answeringFirst 9)⟩

/-- **The older one is taken for the younger**, whose name contains its own. -/
theorem lab_taken_for_lab2 :
    ¬ ∀ (g : Server Unit) (docs : Documents Unit) (r : Registration), g.Sane →
      (Resolves r.organization g.infos ∧ Switches r.organization g) ∧
        (∀ net, Works net →
          Isolated r.organization g ((bootstrap docs r).run (handler net) g).1) ∧
        (∀ net, Works net →
          Isolated r.organization g
            ((updateDashboard docs r.organization).run (handler net) g).1) := by
  intro h
  have hright := (h twoLabs documents (registration lab) sane_twoLabs).1.1
  have hfirst : (twoLabs.infos.find? fun o => o.Contains lab) = some ⟨3, lab2⟩ := by decide
  exact not_resolves_of_shadowed sane_twoLabs ⟨_, hfirst, by decide⟩ hright

end Mainflux.UserControl
