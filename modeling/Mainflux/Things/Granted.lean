/-
  Mainflux.Things.Granted
  ───────────────────────
  **THE CHANNEL IDS THAT PASS A CHECK.**

  `CanAccessByKey` grants from the tables or from the caches, and the caches hold what
  the tables have granted before, under the text it was asked for with.  The tables read
  that text as a UUID.  So whatever has happened to the connection since, and whatever
  calls are in flight, an id that is granted spells a UUID.

    • `follows_serve` — no call caches an id that the tables have not read;
    • `spelt_of_authorized` — every granted id spells a UUID.
-/
import Mainflux.Things.Revocation
import Mainflux.Things.Transparency

namespace Mainflux.Things

open Mainflux.Lib

open Prog (Follows)

/-! ## §1. What a call caches. -/

/-- The text is one that the server reads as a UUID. -/
def Spelt (c : String) : Prop := ∃ u, uuidIn c = some u

/-- A pair may be cached under an id that spells a UUID; a hit in the caches and a hit in
the tables are about such an id. -/
def vouching : Prog.Protocol Sig Unit where
  rule _ c := ∀ chanID t, c = Cmd.sAdd (cid chanID) t → Spelt chanID
  move _ _ _ := ()
  allowed
    | .sIsMember key _, r => ∀ chanID, key = cid chanID → r = .ok true → Spelt chanID
    | .channelsHasThing chanID _, r => r = .ok () → Spelt chanID
    | _, _ => True

/-- A granted id spells a UUID. -/
def Spells : Call → Reply → Prop
  | .canAccessByKey c _, .id (.ok _) => Spelt c
  | _, _ => True

def Cmd.AddsNone (c : Cmd) : Prop := ∀ key t, c ≠ .sAdd key t

theorem addsNone_of_plain {c : Cmd} (h : c.Plain) : c.AddsNone := by
  rintro key t rfl
  exact h

section Follow

variable {α : Type} {Q : Unit → α → Prop}

/-- What caches no pair follows the protocol. -/
theorem follows_of_addsNone {p : Prog Sig α} (h : p.Uses (S := Sig) Cmd.AddsNone)
    (hQ : ∀ a, Q () a) : p.Follows vouching Q () := by
  induction p with
  | ret a => exact hQ a
  | call c k ih => exact ⟨fun chanID t hc => absurd hc (h.1 _ _), fun r _ => ih r (h.2 r)⟩

theorem follows_hasThing (c key : String) :
    (Service.hasThing c key).Follows vouching (fun _ r => ∀ t, r = .ok t → Spelt c) () := by
  refine ⟨fun _ _ h => (nomatch h), fun r _ => ?_⟩
  cases r with
  | error e => exact fun t h => nomatch h
  | ok t =>
      refine ⟨fun _ _ h => (nomatch h), fun r hr => ?_⟩
      match r with
      | .ok true => exact fun _ _ => hr c rfl rfl
      | .ok false => exact fun t h => nomatch h
      | .error e => exact fun t h => nomatch h

theorem follows_channelsHasThingByKey (c key : String) :
    (channelsHasThingByKey c key).Follows vouching (fun _ r => ∀ t, r = .ok t → Spelt c) () := by
  refine ⟨fun _ _ h => (nomatch h), fun r _ => ?_⟩
  cases r with
  | error e => exact fun t h => nomatch h
  | ok t =>
      refine ⟨fun _ _ h => (nomatch h), fun r hr => ?_⟩
      cases r with
      | error e => exact fun t h => nomatch h
      | ok u => exact fun _ _ => hr rfl

/-- Caching a pair whose channel id spells a UUID. -/
theorem follows_connect {c t : String} {f : Except Redis.Error Unit → Prog Sig α} (hc : Spelt c)
    (hf : ∀ r, (f r).Follows vouching Q ()) :
    (ChannelCache.connect c t >>= f).Follows vouching Q () := by
  refine ⟨fun chanID t h => ?_, fun r _ => hf r⟩
  obtain ⟨hcid, -⟩ := Cmd.sAdd.inj h
  rwa [← cid_inj.mp hcid]

theorem follows_canAccessByKey (c key : String) :
    (Service.canAccessByKey c key).Follows vouching (fun _ r => ∀ t, r = .ok t → Spelt c) () := by
  refine Follows.bind ((follows_hasThing c key).mono fun _ r hr => ?_)
  cases r with
  | ok t => exact hr
  | error e =>
      refine Follows.bind ((follows_channelsHasThingByKey c key).mono fun _ r hr => ?_)
      cases r with
      | error e => exact fun t h => nomatch h
      | ok t =>
          have hc : Spelt c := hr t rfl
          have hsave : (ThingCache.save key t).Uses (S := Sig) Cmd.AddsNone := by
            refine ⟨fun _ _ h => (nomatch h), fun r => ?_⟩
            cases r with
            | error e => trivial
            | ok u => exact ⟨fun _ _ h => (nomatch h), fun _ => trivial⟩
          refine Follows.bind (follows_of_addsNone hsave fun _ => ?_)
          exact follows_connect hc fun _ _ _ => hc

theorem follows_canAccessByID (c t : String) :
    (Service.canAccessByID c t).Follows vouching (fun _ _ => True) () := by
  have hcheck : (ChannelCache.hasThing c t).Uses (S := Sig) Cmd.AddsNone := by
    refine ⟨fun _ _ h => (nomatch h), fun r => ?_⟩
    cases r <;> trivial
  refine Follows.bind (follows_of_addsNone hcheck fun b => ?_)
  cases b with
  | true => trivial
  | false =>
      refine ⟨fun _ _ h => (nomatch h), fun r hr => ?_⟩
      cases r with
      | error e => trivial
      | ok u => exact follows_connect (hr rfl) fun _ => trivial

end Follow

/-- Only the two checks cache pairs. -/
theorem addsNone_serve {call : Call} (hkey : ∀ c key, call ≠ .canAccessByKey c key)
    (hid : ∀ c t, call ≠ .canAccessByID c t) : (serve call).Uses (S := Sig) Cmd.AddsNone := by
  cases call with
  | canAccessByKey c key => exact absurd rfl (hkey c key)
  | canAccessByID c t => exact absurd rfl (hid c t)
  | createThings token ths =>
      refine ⟨fun _ _ h => (nomatch h), fun r => ?_⟩
      cases r with
      | none => trivial
      | some o =>
          have hassign := (uses_assignThings o ths).mono fun _ => addsNone_of_plain
          refine (hassign.bind fun r => ?_).bind fun _ => trivial
          cases r with
          | error e => trivial
          | ok l => exact ⟨fun _ _ h => (nomatch h), fun _ => trivial⟩
  | createChannels token chs =>
      refine ⟨fun _ _ h => (nomatch h), fun r => ?_⟩
      cases r with
      | none => trivial
      | some o =>
          have hassign := (uses_assignChannels o chs).mono fun _ => addsNone_of_plain
          refine (hassign.bind fun r => ?_).bind fun _ => trivial
          cases r with
          | error e => trivial
          | ok l => exact ⟨fun _ _ h => (nomatch h), fun _ => trivial⟩
  | removeThing token id =>
      refine ⟨fun _ _ h => (nomatch h), fun r => ?_⟩
      cases r with
      | none => trivial
      | some o =>
          -- the key of the thing is looked up before both entries are evicted
          refine ⟨fun _ _ h => (nomatch h), fun r => ?_⟩
          cases r with
          | error e => exact ⟨fun _ _ h => (nomatch h), fun _ => trivial⟩
          | ok key =>
              exact ⟨fun _ _ h => (nomatch h), fun _ => ⟨fun _ _ h => (nomatch h), fun _ => trivial⟩⟩
  | removeChannel token id =>
      refine ⟨fun _ _ h => (nomatch h), fun r => ?_⟩
      cases r with
      | none => trivial
      | some o =>
          exact ⟨fun _ _ h => (nomatch h), fun _ => ⟨fun _ _ h => (nomatch h), fun _ => trivial⟩⟩
  | disconnect token c t =>
      refine ⟨fun _ _ h => (nomatch h), fun r => ?_⟩
      cases r with
      | none => trivial
      | some o =>
          exact ⟨fun _ _ h => (nomatch h), fun _ => ⟨fun _ _ h => (nomatch h), fun _ => trivial⟩⟩
  | identify key =>
      -- what it caches is the id of a thing
      refine ⟨fun _ _ h => (nomatch h), fun r => ?_⟩
      cases r with
      | ok id => trivial
      | error e =>
          refine ⟨fun _ _ h => (nomatch h), fun r => ?_⟩
          cases r with
          | error e => trivial
          | ok id =>
              refine ⟨fun _ _ h => (nomatch h), fun r => ?_⟩
              cases r with
              | error e => trivial
              | ok u => exact ⟨fun _ _ h => (nomatch h), fun _ => trivial⟩
  | _ =>
      refine ⟨fun _ _ h => (nomatch h), fun r => ?_⟩
      cases r with
      | none => trivial
      | some o => exact ⟨fun _ _ h => (nomatch h), fun _ => trivial⟩

/-- **Every call follows the protocol.** -/
theorem follows_serve (call : Call) :
    (serve call).Follows vouching (fun _ r => Spells call r) () := by
  cases call with
  | canAccessByKey c key =>
      refine Follows.bind ((follows_canAccessByKey c key).mono fun _ r hr => ?_)
      cases r with
      | error e => trivial
      | ok t => exact hr t rfl
  | canAccessByID c t =>
      exact Follows.bind ((follows_canAccessByID c t).mono fun _ _ _ => trivial)
  | _ => exact follows_of_addsNone (addsNone_serve (by simp) (by simp)) fun _ => trivial

/-! ## §2. Calls in flight. -/

section Flights

variable {E : Env} {p : Flight}

/-- Every cached channel id spells a UUID, and every call follows the protocol. -/
structure Vouched (p : Flight) : Prop where
  cached : ∀ c t, cachedPair p.st.redis c t → Spelt c
  threads : ∀ (n : Nat) (call : Call) (q : Prog Sig Reply), p.threads[n]? = some (call, q) →
    q.Follows vouching (fun _ r => Spells call r) ()

/-- **One command** that the protocol allows. -/
theorem vouching_handle {w : World} (h : ∀ c t, cachedPair w.redis c t → Spelt c) {c : Cmd}
    (hrule : vouching.rule () c) :
    vouching.allowed c (handle E c w).2 ∧
      ∀ c' t', cachedPair (handle E c w).1.redis c' t' → Spelt c' := by
  cases c with
  | sIsMember key m =>
      -- a hit is about an id that was cached
      refine ⟨fun chanID hkey hhit => ?_, h⟩
      obtain rfl := hkey
      exact h chanID m (Redis.sIsMember_eq_true.mp hhit)
  | channelsHasThing chanID t =>
      -- and a row about one that the tables have read
      refine ⟨fun hok => ?_, h⟩
      obtain ⟨co, -, hc, -⟩ := hasThing_eq_ok.mp hok
      exact ⟨_, hc⟩
  | set key v => exact ⟨trivial, fun c' t' hpair => h c' t' ((Redis.member_set _ _ _ _ _).mp hpair).2⟩
  | del keys => exact ⟨trivial, fun c' t' hpair => h c' t' ((Redis.member_del _ _ _ _).mp hpair).2⟩
  | sRem key m => exact ⟨trivial, fun c' t' hpair => h c' t' (Redis.member_sRem.mp hpair).1⟩
  | sAdd key m =>
      refine ⟨trivial, fun c' t' hpair => ?_⟩
      rcases Redis.member_sAdd hpair with ⟨rfl, rfl⟩ | hold
      · exact hrule c' t' rfl
      · exact h c' t' hold
  | _ => exact ⟨trivial, h⟩

/-- **One event.** -/
theorem vouched_fly {a : Act Call} (h : Vouched p) : Vouched (fly E p a) := by
  obtain hsame | ⟨call, -, hspawn⟩ | ⟨n, call, c, k, -, hthread, hstep⟩ :=
    Pool.act_cases (handle E) serve p a
  · rw [fly, hsame]
    exact h
  · rw [fly, hspawn]
    refine ⟨h.cached, fun m call' q hm => ?_⟩
    rcases Pool.thread_append hm with hold | hnew
    · exact h.threads m call' q hold
    · obtain ⟨rfl, rfl⟩ := Prod.mk.inj hnew
      exact follows_serve call'
  · -- the thread has issued what it may, and goes on with an answer that it may count on
    obtain ⟨hrule, hrest⟩ := h.threads n call _ hthread
    obtain ⟨hallowed, hcached⟩ := vouching_handle (E := E) h.cached hrule
    rw [fly, hstep]
    refine ⟨hcached, fun m call' q hm => ?_⟩
    rcases Pool.thread_set hm with ⟨-, hnew⟩ | ⟨-, hold⟩
    · obtain ⟨rfl, rfl⟩ := Prod.mk.inj hnew
      exact hrest _ hallowed
    · exact h.threads m call' q hold

end Flights

/-- **The channel id has passed a check**: some call of `CanAccessByKey` has granted it,
with whatever else in flight, since the caches were empty. -/
def Authorized (chanID : String) : Prop :=
  ∃ (E : Env) (w : World) (acts : List (Act Call)) (n : Nat) (key t : String),
    w.redis = Redis.empty ∧
      (run (fly E) ⟨w, []⟩ acts).returned n = some (.canAccessByKey chanID key, .id (.ok t))

/-- **A granted channel id spells a UUID.** -/
theorem spelt_of_authorized {chanID : String} (h : Authorized chanID) : Spelt chanID := by
  obtain ⟨E, w, acts, n, key, t, hempty, hreturned⟩ := h
  have hinit : Vouched ⟨w, []⟩ := by
    refine ⟨fun c t hpair => ?_, fun n call q hn => by simp at hn⟩
    simp only [hempty] at hpair
    exact absurd hpair (cachedPair_empty c t)
  have hend : Vouched (run (fly E) ⟨w, []⟩ acts) :=
    run_inv (fun _ _ hp _ => vouched_fly hp) hinit (along_of_forall (fun _ _ => trivial) _ _)
  unfold Pool.returned at hreturned
  split at hreturned
  next call r hthread =>
      obtain ⟨rfl, rfl⟩ := Prod.mk.inj (Option.some.inj hreturned)
      exact hend.threads n _ _ hthread
  next => cases hreturned

/-- Alice's lamp opens her room: a check in six commands. -/
theorem authorized_room : Authorized room := by
  refine ⟨openEnv, linked, .spawn (.canAccessByKey room "k1") :: List.replicate 6 (.step 0), 0, "k1",
    lamp, rfl, ?_⟩
  decide

end Mainflux.Things
