/-
  Mainflux.Things.Revocation
  ──────────────────────────
  **REVOCATION UNDER CONCURRENCY.**

  Calls run interleaved, one cache or table command at a time (`Pool`).  A
  `Disconnect` or `RemoveChannel` first evicts from the channel cache and then
  deletes rows; an access check first reads rows and then fills the cache.
  Whether a revocation that has returned is final depends on how the two
  pairs of steps fall between each other:

    • `revocation_not_final` — a check that read the row before the deletion
      and fills the cache after it brings the access back for good;
    • `revocation_final` — when every fill finds the row still there and no
      revocation of the pair between its two steps, and every deletion leaves
      connected the cached pairs it has not evicted, no later check is granted
      the pair unless a `Connect` of it succeeded in between.

  The argument: `PairsBacked` is then an invariant of the interleaved system
  (`poolInv_act`), so without the row no answer a later check receives can be
  positive (`denied`), and a check grants only on a positive answer
  (`post_serve`).
-/
import Mainflux.Things.Access

namespace Mainflux.Things

open Mainflux.Lib

/-! ## §1. The interleaved service. -/

/-- Calls in flight over the shared tables and keyspace. -/
abbrev Flight := Pool Sig World Call Reply

/-- One event of the interleaved service. -/
def fly (E : Env) (p : Flight) (a : Act Call) : Flight := p.act (handle E) serve a

/-- The calls that grant, revoke and connect. -/
def Involved : Call → Prop
  | .canAccessByKey _ _ => True
  | .canAccessByID _ _ => True
  | .disconnect _ _ _ => True
  | .removeChannel _ _ => True
  | .connect _ _ _ => True
  | _ => False

/-! ### What is left of a call, step by step. -/

def deletingPair (o c t : String) : Prog Sig Reply :=
  .call (S := Sig) (.channelsDisconnect o c t) fun r => .ret (.done r)

def evictingPair (o c t : String) : Prog Sig Reply :=
  .call (S := Sig) (.sRem (cid c) t) fun _ => deletingPair o c t

def deletingChannel (o c : String) : Prog Sig Reply :=
  .call (S := Sig) (.channelsRemove o c) fun r => .ret (.done r)

def evictingChannel (o c : String) : Prog Sig Reply :=
  .call (S := Sig) (.del [cid c]) fun _ => deletingChannel o c

def inserting (o : String) (chIDs thIDs : List String) : Prog Sig Reply :=
  .call (S := Sig) (.channelsConnect o chIDs thIDs) fun r => .ret (.done r)

/-- After the answer of the authn service. -/
def authorized (f : String → Prog Sig Reply) : Option String → Prog Sig Reply
  | none => .ret (.done (.error .unauthorizedAccess))
  | some o => f o

theorem serve_disconnect (token c t : String) :
    serve (.disconnect token c t)
      = .call (S := Sig) (.authIdentify token) (authorized fun o => evictingPair o c t) := by
  refine congrArg (Prog.call (S := Sig) _) (funext fun r => ?_)
  cases r <;> rfl

theorem serve_removeChannel (token c : String) :
    serve (.removeChannel token c)
      = .call (S := Sig) (.authIdentify token) (authorized fun o => evictingChannel o c) := by
  refine congrArg (Prog.call (S := Sig) _) (funext fun r => ?_)
  cases r <;> rfl

theorem serve_connect (token : String) (chIDs thIDs : List String) :
    serve (.connect token chIDs thIDs)
      = .call (S := Sig) (.authIdentify token) (authorized fun o => inserting o chIDs thIDs) := by
  refine congrArg (Prog.call (S := Sig) _) (funext fun r => ?_)
  cases r <;> rfl

/-- The commands of an access check. -/
def Cmd.Access : Cmd → Prop
  | .get _ => True
  | .set _ _ => True
  | .sAdd _ _ => True
  | .sIsMember _ _ => True
  | .channelsThingID _ => True
  | .channelsHasThing _ _ => True
  | _ => False

theorem uses_cmd {P : Cmd → Prop} {c : Cmd} (h : P c) : (cmd c).Uses (S := Sig) P :=
  ⟨h, fun _ => trivial⟩

theorem uses_channelCache_hasThing (c t : String) :
    (ChannelCache.hasThing c t).Uses (S := Sig) Cmd.Access := by
  refine (uses_cmd trivial).bind fun r => ?_
  cases r <;> trivial

theorem uses_thingCache_save (key t : String) :
    (ThingCache.save key t).Uses (S := Sig) Cmd.Access := by
  refine (uses_cmd trivial).bind fun r => ?_
  cases r with
  | error e => trivial
  | ok u => exact uses_cmd trivial

theorem uses_channelsHasThingByKey (c key : String) :
    (channelsHasThingByKey c key).Uses (S := Sig) Cmd.Access := by
  refine (uses_cmd trivial).bind fun r => ?_
  cases r with
  | error e => trivial
  | ok t =>
      refine (uses_cmd trivial).bind fun r => ?_
      cases r <;> trivial

theorem uses_hasThing (c key : String) : (Service.hasThing c key).Uses (S := Sig) Cmd.Access := by
  refine (uses_cmd trivial).bind fun r => ?_
  cases r with
  | error e => trivial
  | ok t =>
      refine (uses_channelCache_hasThing c t).bind fun b => ?_
      cases b <;> trivial

theorem uses_canAccessByKey (c key : String) :
    (serve (.canAccessByKey c key)).Uses (S := Sig) Cmd.Access := by
  refine Prog.Uses.bind ((uses_hasThing c key).bind fun r => ?_) fun _ => trivial
  cases r with
  | ok t => trivial
  | error e =>
      refine (uses_channelsHasThingByKey c key).bind fun r => ?_
      cases r with
      | error e => trivial
      | ok t =>
          exact (uses_thingCache_save key t).bind fun _ =>
            (uses_cmd (c := .sAdd (cid c) t) trivial).bind fun _ => trivial

theorem uses_canAccessByID (c t : String) :
    (serve (.canAccessByID c t)).Uses (S := Sig) Cmd.Access := by
  refine Prog.Uses.bind ((uses_channelCache_hasThing c t).bind fun b => ?_) fun _ => trivial
  cases b with
  | true => trivial
  | false =>
      refine (uses_cmd (c := .channelsHasThing c t) trivial).bind fun r => ?_
      cases r with
      | error e => trivial
      | ok u => exact (uses_cmd (c := .sAdd (cid c) t) trivial).bind fun _ => trivial

/-! ## §2. A check grants only on a positive answer. -/

section Answers

variable {ch th : UUID}

/-- The texts denote the pair. -/
def Names (ch th : UUID) (c t : String) : Prop := uuidIn c = some ch ∧ uuidIn t = some th

instance (ch th : UUID) (c t : String) : Decidable (Names ch th c t) :=
  inferInstanceAs (Decidable (_ ∧ _))

/-- The reply grants the pair to the caller of an access check. -/
def Grants (ch th : UUID) : Call → Reply → Prop
  | .canAccessByKey c _, .id (.ok t) => Names ch th c t
  | .canAccessByID c t, .done (.ok ()) => Names ch th c t
  | _, _ => False

/-- An answer that neither the caches nor the tables can give when the pair is
in neither. -/
def Denied (ch th : UUID) : (c : Cmd) → c.Res → Prop
  | .sIsMember key m, r => ∀ c, key = cid c → Names ch th c m → r ≠ .ok true
  | .channelsHasThing c t, r => Names ch th c t → r ≠ .ok ()
  | _, _ => True

theorem post_channelCache_hasThing (c t : String) :
    (ChannelCache.hasThing c t).Post (S := Sig) (Denied ch th)
      (fun b => Names ch th c t → b = false) := by
  have hanswer : (cmd (.sIsMember (cid c) t)).Post (S := Sig) (Denied ch th)
      (fun r => Names ch th c t → r ≠ .ok true) := fun r hr => hr c rfl
  refine hanswer.bind fun r hr => ?_
  match r with
  | .ok true => exact fun hn => absurd rfl (hr hn)
  | .ok false => exact fun _ => rfl
  | .error e => exact fun _ => rfl

theorem post_channelsHasThing (c t : String) :
    (cmd (.channelsHasThing c t)).Post (S := Sig) (Denied ch th)
      (fun r => Names ch th c t → r ≠ .ok ()) :=
  fun _ hr => hr

theorem post_channelsHasThingByKey (c key : String) :
    (channelsHasThingByKey c key).Post (S := Sig) (Denied ch th)
      (fun r => ∀ t, r = .ok t → ¬ Names ch th c t) := by
  refine Prog.Post.bind (R := fun _ => True) (fun _ _ => trivial) fun r _ => ?_
  cases r with
  | error e => exact fun t h => nomatch h
  | ok t =>
      refine (post_channelsHasThing c t).bind fun r hr => ?_
      cases r with
      | error e => exact fun t h => nomatch h
      | ok u =>
          intro t' ht' hn
          cases ht'
          exact hr hn rfl

theorem post_hasThing (c key : String) :
    (Service.hasThing c key).Post (S := Sig) (Denied ch th)
      (fun r => ∀ t, r = .ok t → ¬ Names ch th c t) := by
  refine Prog.Post.bind (R := fun _ => True) (fun _ _ => trivial) fun r _ => ?_
  cases r with
  | error e => exact fun t h => nomatch h
  | ok t =>
      refine (post_channelCache_hasThing c t).bind fun b hb => ?_
      cases b with
      | false => exact fun t h => nomatch h
      | true =>
          intro t' ht' hn
          cases ht'
          cases hb hn

theorem post_canAccessByKey (c key : String) :
    (Service.canAccessByKey c key).Post (S := Sig) (Denied ch th)
      (fun r => ∀ t, r = .ok t → ¬ Names ch th c t) := by
  refine (post_hasThing c key).bind fun r hr => ?_
  cases r with
  | ok t => exact hr
  | error e =>
      refine (post_channelsHasThingByKey c key).bind fun r hr => ?_
      cases r with
      | error e => exact fun t h => nomatch h
      | ok t =>
          refine (Prog.post_of_forall (Q := fun _ => True) (fun _ => trivial) _).bind fun _ _ => ?_
          refine (Prog.post_of_forall (Q := fun _ => True) (fun _ => trivial) _).bind fun _ _ => ?_
          exact hr

theorem post_canAccessByID (c t : String) :
    (Service.canAccessByID c t).Post (S := Sig) (Denied ch th)
      (fun r => r = .ok () → ¬ Names ch th c t) := by
  refine (post_channelCache_hasThing c t).bind fun b hb => ?_
  cases b with
  | true => exact fun _ hn => nomatch hb hn
  | false =>
      refine (post_channelsHasThing c t).bind fun r hr => ?_
      cases r with
      | error e => exact fun h => nomatch h
      | ok u =>
          refine (Prog.post_of_forall (Q := fun _ => True) (fun _ => trivial) _).bind fun _ _ => ?_
          exact fun _ hn => hr hn rfl

/-- **A call whose answers are all negative for the pair does not grant it.** -/
theorem post_serve (call : Call) :
    (serve call).Post (S := Sig) (Denied ch th) (fun r => ¬ Grants ch th call r) := by
  cases call with
  | canAccessByKey c key =>
      refine (post_canAccessByKey c key).bind fun r hr => ?_
      cases r with
      | error e => exact fun h => h
      | ok t => exact hr t rfl
  | canAccessByID c t =>
      refine (post_canAccessByID c t).bind fun r hr => ?_
      cases r with
      | error e => exact fun h => h
      | ok u => exact hr rfl
  | _ => exact Prog.post_of_forall (fun _ h => h) _

end Answers

/-! ## §3. The shape of a call in flight. -/

/-- What can be left of a call.  The user of a revocation in flight is one its
token has identified. -/
inductive Shape (E : Env) : Call → Prog Sig Reply → Prop
  | start {call : Call} {token : String} (ht : call.token = some token) :
      Shape E call (serve call)
  | evictPair {token c t o : String} {n : Nat} (h : E.auth n token = some o) :
      Shape E (.disconnect token c t) (evictingPair o c t)
  | deletePair {token c t o : String} {n : Nat} (h : E.auth n token = some o) :
      Shape E (.disconnect token c t) (deletingPair o c t)
  | evictChannel {token c o : String} {n : Nat} (h : E.auth n token = some o) :
      Shape E (.removeChannel token c) (evictingChannel o c)
  | deleteChannel {token c o : String} {n : Nat} (h : E.auth n token = some o) :
      Shape E (.removeChannel token c) (deletingChannel o c)
  | insert {token o : String} {chIDs thIDs : List String} :
      Shape E (.connect token chIDs thIDs) (inserting o chIDs thIDs)
  | access {call : Call} {p : Prog Sig Reply} (ht : call.token = none)
      (hu : p.Uses (S := Sig) Cmd.Access) : Shape E call p
  | done {call : Call} {r : Reply} : Shape E call (.ret r)

/-- The next command deletes connection rows. -/
def Deletes (q : Prog Sig Reply) : Prop :=
  match q.next with
  | some (.channelsDisconnect _ _ _) => True
  | some (.channelsRemove _ _) => True
  | _ => False

section Shapes

variable {E : Env} {call : Call} {cmd : Cmd} {k : cmd.Res → Prog Sig Reply} {w : World}

theorem shape_serve (hinv : Involved call) : Shape E call (serve call) := by
  cases call with
  | canAccessByKey c key => exact .access rfl (uses_canAccessByKey c key)
  | canAccessByID c t => exact .access rfl (uses_canAccessByID c t)
  | disconnect => exact .start rfl
  | removeChannel => exact .start rfl
  | connect => exact .start rfl
  | _ => exact hinv.elim

/-- One command of a call in flight: what it does to the world, and what is
left.  This is all that the invariants below need to know of the programs. -/
inductive Stride (E : Env) (w : World) : Call → Cmd → World → Prog Sig Reply → Prop
  | auth {call : Call} {token : String} {q : Prog Sig Reply} (hq : Shape E call q)
      (hdel : ¬ Deletes q) (hdone : q ≠ .ret (.done (.ok ()))) :
      Stride E w call (.authIdentify token) { w with tick := w.tick + 1 } q
  | evictPair {token c t o : String} {n : Nat} (h : E.auth n token = some o) :
      Stride E w (.disconnect token c t) (.sRem (cid c) t)
        { w with redis := evictPair w.redis c t } (deletingPair o c t)
  | deletePair {token c t o : String} {n : Nat} (h : E.auth n token = some o) :
      Stride E w (.disconnect token c t) (.channelsDisconnect o c t)
        { w with db := (ChannelRepository.disconnect o c t w.db).1 }
        (.ret (.done (ChannelRepository.disconnect o c t w.db).2))
  | evictChannel {token c o : String} {n : Nat} (h : E.auth n token = some o) :
      Stride E w (.removeChannel token c) (.del [cid c])
        { w with redis := evictChannel w.redis c } (deletingChannel o c)
  | deleteChannel {token c o : String} {n : Nat} (h : E.auth n token = some o) :
      Stride E w (.removeChannel token c) (.channelsRemove o c)
        { w with db := (ChannelRepository.remove o c w.db).1 }
        (.ret (.done (ChannelRepository.remove o c w.db).2))
  | insert {token o : String} {chIDs thIDs : List String} :
      Stride E w (.connect token chIDs thIDs) (.channelsConnect o chIDs thIDs)
        { w with db := (ChannelRepository.connect o chIDs thIDs w.db).1 }
        (.ret (.done (ChannelRepository.connect o chIDs thIDs w.db).2))
  | access {call : Call} {c : Cmd} {q : Prog Sig Reply} (ht : call.token = none)
      (hc : c.Access) (hq : q.Uses (S := Sig) Cmd.Access) :
      Stride E w call c (handle E c w).1 q

theorem Shape.stride (hinv : Involved call) (h : Shape E call (.call (S := Sig) cmd k)) :
    Stride E w call cmd (handle E cmd w).1 (k (handle E cmd w).2) := by
  generalize hp : Prog.call (S := Sig) cmd k = p at h
  cases h with
  | start ht =>
      cases call with
      | disconnect token c t =>
          rw [serve_disconnect] at hp
          cases hp
          cases hauth : E.auth w.tick token with
          | none =>
              simp only [handle, handleMiss, hauth, authorized]
              exact .auth .done (fun h => h) (by simp)
          | some o =>
              simp only [handle, handleMiss, hauth, authorized]
              exact .auth (.evictPair hauth) (fun h => h) (fun h => by cases h)
      | removeChannel token c =>
          rw [serve_removeChannel] at hp
          cases hp
          cases hauth : E.auth w.tick token with
          | none =>
              simp only [handle, handleMiss, hauth, authorized]
              exact .auth .done (fun h => h) (by simp)
          | some o =>
              simp only [handle, handleMiss, hauth, authorized]
              exact .auth (.evictChannel hauth) (fun h => h) (fun h => by cases h)
      | connect token chIDs thIDs =>
          rw [serve_connect] at hp
          cases hp
          cases hauth : E.auth w.tick token with
          | none =>
              simp only [handle, handleMiss, hauth, authorized]
              exact .auth .done (fun h => h) (by simp)
          | some o =>
              simp only [handle, handleMiss, hauth, authorized]
              exact .auth .insert (fun h => h) (fun h => by cases h)
      | canAccessByKey => cases ht
      | canAccessByID => cases ht
      | _ => exact hinv.elim
  | evictPair h => cases hp; exact .evictPair h
  | deletePair h => cases hp; exact .deletePair h
  | evictChannel h => cases hp; exact .evictChannel h
  | deleteChannel h => cases hp; exact .deleteChannel h
  | insert => cases hp; exact .insert
  | access ht hu =>
      subst hp
      exact .access ht hu.1 (hu.2 _)
  | done => cases hp

theorem Stride.shape {w' : World} {q : Prog Sig Reply} (h : Stride E w call cmd w' q) :
    Shape E call q := by
  cases h with
  | auth hq _ _ => exact hq
  | evictPair h => exact .deletePair h
  | deletePair => exact .done
  | evictChannel h => exact .deleteChannel h
  | deleteChannel => exact .done
  | insert => exact .done
  | access ht _ hq => exact .access ht hq

end Shapes

/-! ## §4. The invariant of the interleaved service. -/

/-- The call has evicted the pair and not yet deleted its row. -/
def Revoking (c t : String) (q : Prog Sig Reply) : Prop :=
  match q.next with
  | some (.channelsDisconnect _ c' t') => c' = c ∧ t' = t
  | some (.channelsRemove _ c') => c' = c
  | _ => False

/-- The order of the steps that keeps revocations final.

* A fill finds the row still there, and no revocation of the pair between its
  eviction and its deletion.
* A deletion leaves connected the cached pairs it has not evicted: those under
  another spelling of the ids. -/
def Orderly (p : Flight) : Act Call → Prop
  | .spawn _ => True
  | .step n =>
      match p.next n with
      | some (.sAdd key t) => ∀ c, key = cid c →
          p.st.db.Connected c t ∧ ∀ x ∈ p.threads, ¬ Revoking c t x.2
      | some (.channelsDisconnect o chanID thingID) => ∀ c t, cachedPair p.st.redis c t →
          ¬ (c = chanID ∧ t = thingID) → p.st.db.ConnectedBut (HitByPair o chanID thingID) c t
      | some (.channelsRemove o chanID) => ∀ c t, cachedPair p.st.redis c t → c ≠ chanID →
          p.st.db.ConnectedBut (HitByChannel o chanID) c t
      | _ => True

/-- What holds between any two steps: the cached pairs are rows, and a call
about to delete has left no entry behind. -/
structure PoolInv (E : Env) (p : Flight) : Prop where
  shapes : ∀ x ∈ p.threads, Involved x.1 ∧ Shape E x.1 x.2
  backed : PairsBacked p.st
  evicted : ∀ x ∈ p.threads, ∀ c t, Revoking c t x.2 → ¬ cachedPair p.st.redis c t

section Invariant

variable {E : Env} {p : Flight}

theorem revoking_deletes {c t : String} {q : Prog Sig Reply} (h : Revoking c t q) : Deletes q := by
  unfold Revoking at h
  unfold Deletes
  split at h <;> simp_all

theorem not_deletes_of_uses {q : Prog Sig Reply} (h : q.Uses (S := Sig) Cmd.Access) :
    ¬ Deletes q := by
  cases q with
  | ret r => exact fun h => h
  | call c k =>
      intro hdel
      have hc : Cmd.Access c := h.1
      cases c <;> first | exact hc | exact hdel

/-- A command of an access check deletes no row, and caches at most the pair it
fills. -/
theorem access_handle {c : Cmd} (hc : c.Access) (w : World) :
    (handle E c w).1.db = w.db ∧
      ∀ c' t', cachedPair (handle E c w).1.redis c' t' →
        cachedPair w.redis c' t' ∨ c = .sAdd (cid c') t' := by
  cases c with
  | get => exact ⟨rfl, fun _ _ => .inl⟩
  | sIsMember => exact ⟨rfl, fun _ _ => .inl⟩
  | channelsThingID => exact ⟨rfl, fun _ _ => .inl⟩
  | channelsHasThing => exact ⟨rfl, fun _ _ => .inl⟩
  | set key v => exact ⟨rfl, fun c' t' h => .inl ((Redis.member_set _ _ _ _ _).mp h).2⟩
  | sAdd key m =>
      refine ⟨rfl, fun c' t' h => ?_⟩
      rcases Redis.member_sAdd h with ⟨rfl, rfl⟩ | h
      · exact .inr rfl
      · exact .inl h
  | _ => exact hc.elim

/-- The cached pairs after one orderly command are rows. -/
theorem stride_backed {n : Nat} {call : Call} {cmd : Cmd} {k : cmd.Res → Prog Sig Reply}
    {w' : World} {q : Prog Sig Reply} (h : PoolInv E p)
    (hn : p.threads[n]? = some (call, .call (S := Sig) cmd k))
    (ho : Orderly p (.step n)) (hs : Stride E p.st call cmd w' q) : PairsBacked w' := by
  have hmem : (call, Prog.call (S := Sig) cmd k) ∈ p.threads := List.mem_of_getElem? hn
  simp only [Orderly, Pool.next, hn, Prog.next] at ho
  cases hs with
  | auth => exact h.backed
  | evictPair =>
      intro c t hpair
      exact h.backed c t ((cachedPair_evictPair _ _ c t).mp hpair).1
  | evictChannel =>
      intro c t hpair
      exact h.backed c t ((cachedPair_evictChannel _ c t).mp hpair).2
  | @deletePair token chanID thingID o _ _ =>
      intro c t hpair
      refine connected_disconnect (ho c t hpair ?_)
      rintro ⟨rfl, rfl⟩
      exact h.evicted _ hmem c t ⟨rfl, rfl⟩ hpair
  | @deleteChannel token chanID o _ _ =>
      intro c t hpair
      refine connected_channelsRemove (ho c t hpair ?_)
      rintro rfl
      exact h.evicted _ hmem c t rfl hpair
  | insert => exact h.backed.mono (connect_frame _ _).1 rfl
  | access ht hc hq =>
      obtain ⟨hdb, hpairs⟩ := access_handle (E := E) hc p.st
      intro c t hpair
      rw [hdb]
      rcases hpairs c t hpair with hold | rfl
      · exact h.backed c t hold
      · exact (ho c rfl).1

/-- No call about to delete finds its pair cached after one orderly command. -/
theorem stride_evicted {n : Nat} {call : Call} {cmd : Cmd} {k : cmd.Res → Prog Sig Reply}
    {w' : World} {q : Prog Sig Reply} (h : PoolInv E p)
    (hn : p.threads[n]? = some (call, .call (S := Sig) cmd k))
    (ho : Orderly p (.step n)) (hs : Stride E p.st call cmd w' q) :
    (∀ x ∈ p.threads, ∀ c t, Revoking c t x.2 → ¬ cachedPair w'.redis c t) ∧
      ∀ c t, Revoking c t q → ¬ cachedPair w'.redis c t := by
  simp only [Orderly, Pool.next, hn, Prog.next] at ho
  cases hs with
  | auth hq hdel _ => exact ⟨h.evicted, fun c t hr => absurd (revoking_deletes hr) hdel⟩
  | evictPair =>
      refine ⟨fun x hx c t hr hpair => ?_, fun c t hr hpair => ?_⟩
      · exact h.evicted x hx c t hr ((cachedPair_evictPair _ _ c t).mp hpair).1
      · obtain ⟨rfl, rfl⟩ := hr
        exact ((cachedPair_evictPair _ _ _ _).mp hpair).2 ⟨rfl, rfl⟩
  | evictChannel =>
      refine ⟨fun x hx c t hr hpair => ?_, fun c t hr hpair => ?_⟩
      · exact h.evicted x hx c t hr ((cachedPair_evictChannel _ c t).mp hpair).2
      · cases hr
        exact ((cachedPair_evictChannel _ _ _).mp hpair).1 rfl
  | deletePair => exact ⟨h.evicted, fun c t hr => hr.elim⟩
  | deleteChannel => exact ⟨h.evicted, fun c t hr => hr.elim⟩
  | insert => exact ⟨h.evicted, fun c t hr => hr.elim⟩
  | access ht hc hq =>
      obtain ⟨hdb, hpairs⟩ := access_handle (E := E) hc p.st
      refine ⟨fun x hx c t hr hpair => ?_, fun c t hr => ?_⟩
      · rcases hpairs c t hpair with hold | rfl
        · exact h.evicted x hx c t hr hold
        · exact (ho c rfl).2 x hx hr
      · exact absurd (revoking_deletes hr) (not_deletes_of_uses hq)

/-- **One orderly event keeps the invariant.** -/
theorem poolInv_act {a : Act Call} (h : PoolInv E p) (hcall : ∀ call, a = .spawn call → Involved call)
    (ho : Orderly p a) : PoolInv E (fly E p a) := by
  rcases Pool.act_cases (handle E) serve p a with hnop | ⟨call, rfl, heq⟩ |
    ⟨n, call, cmd, k, rfl, hn, heq⟩
  · rw [fly, hnop]
    exact h
  · rw [fly, heq]
    have hinv := hcall call rfl
    constructor
    · intro x hx
      rcases List.mem_append.mp hx with hx | hx
      · exact h.shapes x hx
      · rw [List.mem_singleton.mp hx]
        exact ⟨hinv, shape_serve hinv⟩
    · exact h.backed
    · intro x hx c t hr
      rcases List.mem_append.mp hx with hx | hx
      · exact h.evicted x hx c t hr
      · rw [List.mem_singleton.mp hx] at hr
        have hdel := revoking_deletes hr
        cases call with
        | canAccessByKey c key => exact absurd hdel (not_deletes_of_uses (uses_canAccessByKey c key))
        | canAccessByID c t => exact absurd hdel (not_deletes_of_uses (uses_canAccessByID c t))
        | disconnect => exact hdel.elim
        | removeChannel => exact hdel.elim
        | connect => exact hdel.elim
        | _ => exact hinv.elim
  · rw [fly, heq]
    obtain ⟨hinv, hshape⟩ := h.shapes _ (List.mem_of_getElem? hn)
    have hs := hshape.stride (w := p.st) hinv
    obtain ⟨hothers, hself⟩ := stride_evicted h hn ho hs
    constructor
    · intro x hx
      rcases List.mem_or_eq_of_mem_set hx with hx | rfl
      · exact h.shapes x hx
      · exact ⟨hinv, hs.shape⟩
    · exact stride_backed h hn ho hs
    · intro x hx c t hr
      rcases List.mem_or_eq_of_mem_set hx with hx | rfl
      · exact hothers x hx c t hr
      · exact hself c t hr

end Invariant

/-! ## §5. Without the row nothing grants. -/

section Revoked

variable {E : Env} {p : Flight} {ch th : UUID}

/-- No connection row joins the pair, under any owners. -/
def Unlinked (ch th : UUID) (d : DB) : Prop :=
  ∀ co ∈ d.connections, ¬ (co.channelID = ch ∧ co.thingID = th)

theorem Unlinked.not_connected {d : DB} (h : Unlinked ch th d) {c t : String}
    (hn : Names ch th c t) : ¬ d.Connected c t := by
  rintro ⟨co, hco, hc, ht⟩
  rw [hn.1, Option.some.injEq] at hc
  rw [hn.2, Option.some.injEq] at ht
  exact h co hco ⟨hc.symm, ht.symm⟩

/-- Every answer is negative for a pair that has no row. -/
theorem denied {w : World} (hbacked : PairsBacked w) (hun : Unlinked ch th w.db) (c : Cmd) :
    Denied ch th c (handle E c w).2 := by
  cases c with
  | sIsMember key m =>
      rintro c rfl hn hans
      exact hun.not_connected hn (hbacked c m (Redis.sIsMember_eq_true.mp hans))
  | channelsHasThing c t =>
      intro hn hans
      exact hun.not_connected hn (hasThing_eq_ok.mp hans)
  | _ => trivial

/-- A row that `Connect` adds is one of the product it was asked for, and the
call succeeds. -/
theorem connect_rows {o : String} {chIDs thIDs : List String} {d : DB} {co : ConnectionRow}
    (h : co ∈ (ChannelRepository.connect o chIDs thIDs d).1.connections) :
    co ∈ d.connections ∨
      ((ChannelRepository.connect o chIDs thIDs d).2 = .ok () ∧
        (∃ c ∈ chIDs, uuidIn c = some co.channelID) ∧ ∃ t ∈ thIDs, uuidIn t = some co.thingID) := by
  unfold ChannelRepository.connect at h ⊢
  split at h
  next d' hd =>
      have hrows : ∀ co ∈ d'.connections, co ∈ d.connections ∨
          ((∃ c ∈ chIDs, uuidIn c = some co.channelID) ∧
            ∃ t ∈ thIDs, uuidIn t = some co.thingID) := by
        refine transaction_rel
          (R := fun a b => ∀ co ∈ b.connections, co ∈ a.connections ∨
            ((∃ c ∈ chIDs, uuidIn c = some co.channelID) ∧
              ∃ t ∈ thIDs, uuidIn t = some co.thingID))
          (fun _ _ h => .inl h) ?_ (fun q hq a b hab => ?_) hd
        · intro a b c hab hbc co hco
          rcases hbc co hco with hb | hx
          · exact hab co hb
          · exact .inr hx
        · obtain ⟨c, hc, hq⟩ := List.mem_flatMap.mp hq
          obtain ⟨t, ht, rfl⟩ := List.mem_map.mp hq
          obtain ⟨u, v, hu, hv, -, -, -, rfl⟩ := insertConnection_ok hab
          intro co hco
          rcases List.mem_append.mp hco with hco | hco
          · exact .inl hco
          · rw [List.mem_singleton.mp hco]
            exact .inr ⟨⟨c, hc, hu⟩, t, ht, hv⟩
      rcases hrows co h with hold | hnew
      · exact .inl hold
      · exact .inr ⟨rfl, hnew⟩
  next => exact .inl h
  next => exact .inl h
  next => exact .inl h

/-- The event is the successful end of a `Connect` that names the pair. -/
def connectSucceeds (E : Env) (ch th : UUID) (p : Flight) : Act Call → Bool
  | .spawn _ => false
  | .step n =>
      match p.returned n, (fly E p (.step n)).returned n with
      | none, some (.connect _ chIDs thIDs, .done (.ok ())) =>
          chIDs.any (fun c => uuidIn c = some ch) && thIDs.any (fun t => uuidIn t = some th)
      | _, _ => false

theorem disconnect_rows {o c t : String} {d : DB} {co : ConnectionRow}
    (h : co ∈ (ChannelRepository.disconnect o c t d).1.connections) : co ∈ d.connections := by
  unfold ChannelRepository.disconnect at h
  split at h
  next => exact h
  next d' n hd =>
      obtain ⟨u, v, -, -, -, rfl⟩ := deleteConnection_ok hd
      exact (mem_deleteWhere.mp h).1

theorem channelsRemove_rows {o c : String} {d : DB} {co : ConnectionRow}
    (h : co ∈ (ChannelRepository.remove o c d).1.connections) : co ∈ d.connections := by
  unfold ChannelRepository.remove at h
  split at h
  next d' hd =>
      obtain ⟨u, -, rfl⟩ := deleteChannel_ok hd
      exact (mem_deleteWhere.mp h).1
  next => exact h

/-- Only a successful `Connect` of the pair brings its row back. -/
theorem unlinked_act {a : Act Call} (h : PoolInv E p) (hun : Unlinked ch th p.st.db)
    (hno : ¬ connectSucceeds E ch th p a = true) : Unlinked ch th (fly E p a).st.db := by
  rcases Pool.act_cases (handle E) serve p a with hnop | ⟨call, rfl, heq⟩ |
    ⟨n, call, cmd, k, rfl, hn, heq⟩
  · rw [fly, hnop]
    exact hun
  · rw [fly, heq]
    exact hun
  · obtain ⟨hinv, hshape⟩ := h.shapes _ (List.mem_of_getElem? hn)
    have hs := hshape.stride (w := p.st) hinv
    have hret : p.returned n = none := by simp [Pool.returned, hn]
    have hlt : n < p.threads.length := (List.getElem?_eq_some_iff.mp hn).1
    rw [connectSucceeds, hret] at hno
    rw [fly, heq] at hno ⊢
    simp only [Pool.returned, List.getElem?_set_self hlt] at hno
    generalize (handle E cmd p.st).1 = w', k (handle E cmd p.st).2 = q at hs hno
    cases hs with
    | auth => exact hun
    | evictPair => exact hun
    | evictChannel => exact hun
    | deletePair => exact fun co hco => hun co (disconnect_rows hco)
    | deleteChannel => exact fun co hco => hun co (channelsRemove_rows hco)
    | access ht hc hq =>
        rw [(access_handle hc p.st).1]
        exact hun
    | insert =>
        intro co hco hpair
        rcases connect_rows hco with hold | ⟨hok, ⟨c, hc, huc⟩, t, ht, hut⟩
        · exact hun co hold hpair
        · refine hno ?_
          rw [hok]
          simp only [Bool.and_eq_true, List.any_eq_true, decide_eq_true_eq]
          exact ⟨⟨c, hc, by rw [huc, hpair.1]⟩, t, ht, by rw [hut, hpair.2]⟩

/-- The calls from the `n`th on can only receive negative answers for the pair
and will not grant it. -/
def LateDenied (ch th : UUID) (n : Nat) (p : Flight) : Prop :=
  ∀ j x, n ≤ j → p.threads[j]? = some x →
    x.2.Post (S := Sig) (Denied ch th) (fun r => ¬ Grants ch th x.1 r)

theorem lateDenied_act {a : Act Call} {n : Nat} (h : PoolInv E p) (hun : Unlinked ch th p.st.db)
    (hlate : LateDenied ch th n p) : LateDenied ch th n (fly E p a) := by
  intro j x hj hx
  rcases Pool.act_cases (handle E) serve p a with hnop | ⟨call, rfl, heq⟩ |
    ⟨m, call, cmd, k, rfl, hm, heq⟩
  · rw [fly, hnop] at hx
    exact hlate j x hj hx
  · rw [fly, heq] at hx
    by_cases hlt : j < p.threads.length
    · exact hlate j x hj (by rwa [List.getElem?_append_left hlt] at hx)
    · rw [List.getElem?_append_right (by omega)] at hx
      rw [List.mem_singleton.mp (List.mem_of_getElem? hx)]
      exact post_serve call
  · rw [fly, heq] at hx
    have hlt : m < p.threads.length := (List.getElem?_eq_some_iff.mp hm).1
    by_cases hmj : m = j
    · subst hmj
      rw [List.getElem?_set_self hlt] at hx
      cases hx
      exact (hlate m _ hj hm).next (denied h.backed hun cmd)
    · rw [List.getElem?_set_ne hmj] at hx
      exact hlate j x hj hx

/-! ## §6. Revocation is final. -/

/-- The call takes the pair away. -/
def Revokes (ch th : UUID) : Call → Prop
  | .disconnect _ c t => Names ch th c t
  | .removeChannel _ c => uuidIn c = some ch
  | _ => False

/-- The rows of the pair belong to the user the call is made for. -/
def TrueOwner (E : Env) (ch th : UUID) (d : DB) (rev : Call) : Prop :=
  ∀ token n o, rev.token = some token → E.auth n token = some o →
    ∀ co ∈ d.connections, co.channelID = ch → co.thingID = th →
      co.channelOwner = o ∧ co.thingOwner = o

theorem unlinked_disconnect {o c t : String} {d : DB} (hn : Names ch th c t)
    (howner : ∀ co ∈ d.connections, co.channelID = ch → co.thingID = th →
      co.channelOwner = o ∧ co.thingOwner = o) :
    Unlinked ch th (ChannelRepository.disconnect o c t d).1 := by
  simp only [ChannelRepository.disconnect, deleteConnection, hn.1, hn.2]
  intro co hco hpair
  obtain ⟨hco, hkeep⟩ := mem_deleteWhere.mp hco
  obtain ⟨hco1, hco2⟩ := howner co hco hpair.1 hpair.2
  obtain ⟨c1, o1, t1, o2⟩ := co
  simp only at hpair hco1 hco2
  rw [hpair.1, hpair.2, hco1, hco2] at hkeep
  exact hkeep rfl

theorem unlinked_channelsRemove {o c : String} {d : DB} (hn : uuidIn c = some ch)
    (howner : ∀ co ∈ d.connections, co.channelID = ch → co.thingID = th →
      co.channelOwner = o ∧ co.thingOwner = o) :
    Unlinked ch th (ChannelRepository.remove o c d).1 := by
  simp only [ChannelRepository.remove, deleteChannel, hn]
  intro co hco hpair
  obtain ⟨hco, hkeep⟩ := mem_deleteWhere.mp hco
  exact hkeep ⟨hpair.1, (howner co hco hpair.1 hpair.2).1⟩

/-- A revocation by the true owner that returns nil has just deleted the rows
of the pair. -/
theorem unlinked_of_revoked {m : Nat} {rev : Call} (h : PoolInv E p)
    (hopen : p.returned m = none)
    (hret : (fly E p (.step m)).returned m = some (rev, .done (.ok ())))
    (hrev : Revokes ch th rev) (howner : TrueOwner E ch th p.st.db rev) :
    Unlinked ch th (fly E p (.step m)).st.db := by
  rcases Pool.act_cases (handle E) serve p (.step m) with hnop | ⟨call, ha, -⟩ |
    ⟨n, call, cmd, k, ha, hn, heq⟩
  · rw [fly, hnop, hopen] at hret
    cases hret
  · cases ha
  · cases ha
    obtain ⟨hinv, hshape⟩ := h.shapes _ (List.mem_of_getElem? hn)
    have hs := hshape.stride (w := p.st) hinv
    have hlt : m < p.threads.length := (List.getElem?_eq_some_iff.mp hn).1
    rw [fly, heq] at hret ⊢
    simp only [Pool.returned, List.getElem?_set_self hlt] at hret
    simp only at hs ⊢
    generalize (handle E cmd p.st).1 = w', k (handle E cmd p.st).2 = q at hs hret
    cases hs with
    | auth _ _ hdone =>
        cases q with
        | call c k' => cases hret
        | ret r => cases hret; exact absurd rfl hdone
    | evictPair => cases hret
    | evictChannel => cases hret
    | deletePair hauth =>
        have hcall := congrArg Prod.fst (Option.some.inj hret)
        subst hcall
        exact unlinked_disconnect hrev (howner _ _ _ rfl hauth)
    | deleteChannel hauth =>
        have hcall := congrArg Prod.fst (Option.some.inj hret)
        subst hcall
        exact unlinked_channelsRemove hrev (howner _ _ _ rfl hauth)
    | insert =>
        have hcall := congrArg Prod.fst (Option.some.inj hret)
        subst hcall
        exact hrev.elim
    | access ht _ _ =>
        cases q with
        | call c k' => cases hret
        | ret r =>
            cases hret
            cases rev <;> first | exact hrev.elim | cases ht

/-- **Revocation is final along every orderly schedule.**  Once a `Disconnect`
or `RemoveChannel` of the pair by its true owner has returned nil, an access
check that starts afterwards is granted the pair only if a `Connect` of it
succeeded in between. -/
theorem revocation_final (E : Env) (w : World) (hbacked : PairsBacked w)
    (before later : List (Act Call)) (m j : Nat) (rev call : Call) (reply : Reply) (ch th : UUID)
    (hcalls : ∀ call, Act.spawn call ∈ before ++ .step m :: later → Involved call)
    (horderly : Along (fly E) Orderly ⟨w, []⟩ (before ++ .step m :: later))
    (hopen : (run (fly E) ⟨w, []⟩ before).returned m = none)
    (hret : (run (fly E) ⟨w, []⟩ (before ++ [.step m])).returned m
      = some (rev, .done (.ok ())))
    (hrev : Revokes ch th rev)
    (howner : TrueOwner E ch th (run (fly E) ⟨w, []⟩ before).st.db rev)
    (hlate : (run (fly E) ⟨w, []⟩ (before ++ [.step m])).threads.length ≤ j)
    (hj : (run (fly E) ⟨w, []⟩ (before ++ .step m :: later)).returned j = some (call, reply))
    (hgrant : Grants ch th call reply) :
    Occurs (fly E) (fun p a => connectSucceeds E ch th p a = true)
      (run (fly E) ⟨w, []⟩ (before ++ [.step m])) later := by
  by_contra hnever
  have hspawn : Along (fly E) (fun _ a => ∀ call, a = .spawn call → Involved call) ⟨w, []⟩
      (before ++ .step m :: later) :=
    along_of_mem fun a ha _ call hcall => hcalls call (hcall ▸ ha)
  have hinit : PoolInv E ⟨w, []⟩ := ⟨by simp, hbacked, by simp⟩
  obtain ⟨hbefore, hstep, hafter⟩ := (along_append _ _ _).mp (horderly.and hspawn)
  -- up to the revocation
  have hp0 : PoolInv E (run (fly E) ⟨w, []⟩ before) :=
    run_inv (fun p a hp hc => poolInv_act hp hc.2 hc.1) hinit hbefore
  rw [run_append, run_cons, run_nil] at hret hlate hnever
  rw [run_append, run_cons] at hj
  generalize run (fly E) ⟨w, []⟩ before = p0 at *
  have hun := unlinked_of_revoked hp0 hopen hret hrev howner
  have hp1 := poolInv_act hp0 hstep.2 hstep.1
  generalize fly E p0 (.step m) = p1 at *
  -- after it: without a `Connect` the row stays away, so late calls get negative answers
  have hend := run_inv
    (I := fun p => PoolInv E p ∧ Unlinked ch th p.st.db ∧ LateDenied ch th p1.threads.length p)
    (fun p a hp hc => ⟨poolInv_act hp.1 hc.1.2 hc.1.1, unlinked_act hp.1 hp.2.1 hc.2,
      lateDenied_act hp.1 hp.2.1 hp.2.2⟩)
    ⟨hp1, hun, fun i x hi hx => by
      rw [List.getElem?_eq_none hi] at hx
      cases hx⟩
    (hafter.and (along_not_of_not_occurs hnever))
  unfold Pool.returned at hj
  split at hj
  next i r hthread =>
      cases hj
      exact hend.2.2 j _ hlate hthread hgrant
  next => cases hj

/-! ### Two schedules. -/

/-- Alice's lamp, connected to her room; nothing is cached. -/
def linked : World :=
  ⟨⟨[⟨UUID.fill 1, "alice", "lamp", "k1", []⟩], [⟨UUID.fill 3, "alice", "", none⟩],
    [⟨UUID.fill 3, "alice", UUID.fill 1, "alice"⟩]⟩, Redis.empty, 0⟩

theorem trueOwner_alice : TrueOwner openEnv (UUID.fill 3) (UUID.fill 1) linked.db
    (.disconnect "alice" room lamp) := by
  intro token n o ht hauth co hco _ _
  cases ht
  cases hauth
  rw [List.mem_singleton.mp hco]
  exact ⟨rfl, rfl⟩

/-- A disconnect up to its deletion, then a reconnect and a check. -/
def disconnecting : List (Act Call) :=
  [.spawn (.disconnect "alice" room lamp), .step 0, .step 0]

def reconnecting : List (Act Call) :=
  [.spawn (.connect "alice" [room] [lamp]), .step 1, .step 1,
    .spawn (.canAccessByID room lamp), .step 2, .step 2, .step 2]

theorem orderly_reconnecting :
    Along (fly openEnv) Orderly ⟨linked, []⟩ (disconnecting ++ .step 0 :: reconnecting) := by
  refine ⟨trivial, trivial, trivial, ?_, trivial, trivial, trivial, trivial, trivial, trivial, ?_,
    trivial⟩
  · intro c t hpair
    exact absurd hpair (cachedPair_empty c t)
  · intro c hc
    rw [← cid_inj.mp hc]
    refine ⟨by decide +kernel, ?_⟩
    intro x hx hr
    rcases List.mem_cons.mp hx with rfl | hx
    · exact hr
    rcases List.mem_cons.mp hx with rfl | hx
    · exact hr
    rw [List.mem_singleton.mp hx] at hr
    exact hr

/-- The lamp is let in again, and a `Connect` has come in between. -/
theorem revocation_final_reconnecting :
    (run (fly openEnv) ⟨linked, []⟩ (disconnecting ++ .step 0 :: reconnecting)).returned 2
      = some (.canAccessByID room lamp, .done (.ok ())) ∧
    Occurs (fly openEnv)
      (fun p a => connectSucceeds openEnv (UUID.fill 3) (UUID.fill 1) p a = true)
      (run (fly openEnv) ⟨linked, []⟩ (disconnecting ++ [.step 0])) reconnecting := by
  have hgrant : (run (fly openEnv) ⟨linked, []⟩
      (disconnecting ++ .step 0 :: reconnecting)).returned 2
        = some (.canAccessByID room lamp, .done (.ok ())) := by decide +kernel
  refine ⟨hgrant, revocation_final openEnv linked ?_ disconnecting reconnecting 0 2
    (.disconnect "alice" room lamp) (.canAccessByID room lamp) (.done (.ok ())) _ _ ?_
    orderly_reconnecting (by decide +kernel) (by decide +kernel) ?_ ?_ (by decide +kernel) hgrant ?_⟩
  · intro c t hpair
    exact absurd hpair (cachedPair_empty c t)
  · intro call hcall
    simp only [disconnecting, reconnecting, List.cons_append, List.nil_append, List.mem_cons,
      Act.spawn.injEq, reduceCtorEq, List.not_mem_nil, or_false, false_or] at hcall
    rcases hcall with rfl | rfl | rfl <;> trivial
  · exact ⟨by decide +kernel, by decide +kernel⟩
  · exact trueOwner_alice
  · exact ⟨by decide +kernel, by decide +kernel⟩

/-- A check reads the row; the disconnect runs from start to its deletion. -/
def overtaken : List (Act Call) :=
  [.spawn (.canAccessByID room lamp), .step 0, .step 0,
    .spawn (.disconnect "alice" room lamp), .step 1, .step 1]

/-- The check fills the cache, and a new one is made. -/
def refilled : List (Act Call) := [.step 0, .spawn (.canAccessByID room lamp), .step 2]

/-- **A revocation can be undone by a check that overtakes nothing but the
deletion**: the fill comes after the eviction and the deletion, no `Connect`
is made, and from then on the pair is granted. -/
theorem revocation_not_final :
    ¬ ∀ (E : Env) (w : World), w.redis = Redis.empty →
      ∀ (before later : List (Act Call)) (m j : Nat) (rev call : Call) (reply : Reply)
        (ch th : UUID),
        (∀ call, Act.spawn call ∈ before ++ .step m :: later → Involved call) →
        (run (fly E) ⟨w, []⟩ before).returned m = none →
        (run (fly E) ⟨w, []⟩ (before ++ [.step m])).returned m = some (rev, .done (.ok ())) →
        Revokes ch th rev → TrueOwner E ch th (run (fly E) ⟨w, []⟩ before).st.db rev →
        (run (fly E) ⟨w, []⟩ (before ++ [.step m])).threads.length ≤ j →
        (run (fly E) ⟨w, []⟩ (before ++ .step m :: later)).returned j = some (call, reply) →
        Grants ch th call reply →
        Occurs (fly E) (fun p a => connectSucceeds E ch th p a = true)
          (run (fly E) ⟨w, []⟩ (before ++ [.step m])) later := by
  intro h
  have hoccurs := h openEnv linked rfl overtaken refilled 1 2 (.disconnect "alice" room lamp)
    (.canAccessByID room lamp) (.done (.ok ())) (UUID.fill 3) (UUID.fill 1)
    (by
      intro call hcall
      simp only [overtaken, refilled, List.cons_append, List.nil_append, List.mem_cons,
        Act.spawn.injEq, reduceCtorEq, List.not_mem_nil, or_false, false_or] at hcall
      rcases hcall with rfl | rfl | rfl <;> trivial)
    (by decide +kernel) (by decide +kernel) ⟨by decide +kernel, by decide +kernel⟩
    trueOwner_alice (by decide +kernel) (by decide +kernel)
    ⟨by decide +kernel, by decide +kernel⟩
  revert hoccurs
  decide +kernel

end Revoked

end Mainflux.Things
