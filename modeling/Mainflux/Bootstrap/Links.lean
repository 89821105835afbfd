/-
  Mainflux.Bootstrap.Links
  ────────────────────────
  **THE SERVICE AGAINST A BARE SET OF CONNECTIONS WHOSE CALLS MAY FAIL.**

  Things is here a set of (channel, thing) connections and the stream of what
  it announces.  `Net` is what the services around answer during one call of
  the API; any SDK or repository call may fail, before or after it took effect.

  The service talks to Things in two kinds of loop.  §2 says what each does to
  the world, wherever it stops: `Joined` for the connecting ones, `Parted` for
  the disconnecting ones, and what it takes for a loop to go through.
-/
import Mainflux.Bootstrap.Consumer
import Mainflux.Bootstrap.Service

namespace Mainflux.Bootstrap.Consistency

open Mainflux.Lib

/-! ## §1. The world and what may fail. -/

/-- The tables, the connections of Things as (channel, thing) pairs, and the
records of Things that the consumer has not handled yet. -/
structure World where
  db : DB
  links : List (String × String)
  pending : List Decoded

/-- How a call of the SDK fails: with an error and no effect, or with its
answer lost after it took effect. -/
inductive SdkFault
  | refused (e : SdkErr)
  | unanswered
  deriving DecidableEq

/-- How a call of the repository fails.  `lost` is a commit that fails: `Save`
and `UpdateConnections` log it and return nil. -/
inductive RepoFault
  | refused
  | unanswered
  | lost
  deriving DecidableEq

/-- What the services around answer during one call of the API: the user of a
token, the order of iteration of the maps, the things and channels that Things
returns, and what becomes of each other call. -/
structure Net where
  identify : String → Option String
  order : List String → List String
  order_perm : ∀ l, (order l).Perm l
  createThing : Except SdkErr String
  thing : String → Except SdkErr SdkThing
  channel : String → Except SdkErr Channel
  connect : String → Option SdkFault
  disconnect : String → Option SdkFault
  deleteThing : Option SdkFault
  listExisting : Option Err
  retrieve : Option Err
  write : Option RepoFault
  cleanup : Option RepoFault

/-- Connect: a pair that is connected already is an error. -/
def World.connect (c t : String) (w : World) : World × Except SdkErr Unit :=
  if (c, t) ∈ w.links then (w, .error .failedConnection)
  else ({ w with links := w.links ++ [(c, t)] }, .ok ())

/-- Disconnect: a pair that is not connected is an error, and no record. -/
def World.disconnect (c t : String) (w : World) : World × Except SdkErr Unit :=
  if (c, t) ∈ w.links then
    ({ w with
      links := deleteWhere (fun p => p = (c, t)) w.links
      pending := w.pending ++ [.disconnectThing c t] }, .ok ())
  else (w, .error .notFound)

/-- The removal of a thing, with all its connections. -/
def World.deleteThing (t : String) (w : World) : World :=
  { w with
    links := deleteWhere (fun p => p.2 = t) w.links
    pending := w.pending ++ [.removeThing t] }

/-- A call of the SDK, with what becomes of it. -/
def sdkCall (fault : Option SdkFault) (w : World) (done : World × Except SdkErr Unit) :
    World × Except SdkErr Unit :=
  match fault with
  | none => done
  | some (.refused e) => (w, .error e)
  | some .unanswered => (done.1, .error .transport)

/-- A writing call of the repository, with what becomes of it. -/
def repoCall {α : Type} (fault : Option RepoFault) (w : World) (done : DB × Except Err α) :
    World × Except Err α :=
  match fault with
  | none => ({ w with db := done.1 }, done.2)
  | some .refused => (w, .error .unavailable)
  | some .unanswered => ({ w with db := done.1 }, .error .unavailable)
  | some .lost => (w, done.2)

/-- A reading call of the repository. -/
def repoRead {α : Type} (fault : Option Err) (w : World) (r : Except Err α) :
    World × Except Err α :=
  match fault with
  | none => (w, r)
  | some e => (w, .error e)

/-- What the commands of the service do. -/
def handler (net : Net) : Handler Sig World
  | .authIdentify token, w => (w, net.identify token)
  | .mapRange keys, w => (w, net.order keys)
  | .sdkCreateThing _, w => (w, net.createThing)
  | .sdkThing id _, w => (w, net.thing id)
  | .sdkDeleteThing id _, w => sdkCall net.deleteThing w (w.deleteThing id, .ok ())
  | .sdkChannel id _, w => (w, net.channel id)
  | .sdkConnectThing thingID chanID _, w =>
      sdkCall (net.connect chanID) w (w.connect chanID thingID)
  | .sdkDisconnectThing thingID chanID _, w =>
      sdkCall (net.disconnect chanID) w (w.disconnect chanID thingID)
  | .configsListExisting key ids, w =>
      repoRead net.listExisting w (.ok (ConfigRepository.listExisting key ids w.db))
  | .configsRetrieveByID key id, w =>
      repoRead net.retrieve w (ConfigRepository.retrieveByID key id w.db)
  | .configsSave cfg connections, w =>
      repoCall net.write w (ConfigRepository.save cfg connections w.db)
  | .configsUpdate cfg, w => repoCall net.write w (ConfigRepository.update cfg w.db)
  | .configsUpdateCert owner thingID clientCert clientKey caCert, w =>
      repoCall net.write w
        (ConfigRepository.updateCert owner thingID clientCert clientKey caCert w.db)
  | .configsUpdateConnections key id channels connections, w =>
      repoCall net.write w (ConfigRepository.updateConnections key id channels connections w.db)
  | .configsChangeState key id state, w =>
      repoCall net.write w (ConfigRepository.changeState key id state w.db)
  | .configsRemove key id, w =>
      repoCall net.write w (ConfigRepository.remove key id w.db, .ok ())
  | .configsCleanup, w => repoCall net.cleanup w (Bootstrap.cleanup w.db, .ok ())

/-! ## §2. The loops. -/

/-- The first call of a loop is refused, with an error that ends the loop. -/
def FirstRefused (fault : String → Option SdkFault) (cs : List String) : Prop :=
  ∃ c e, cs.head? = some c ∧ fault c = some (.refused e) ∧ e ≠ .notFound

/-- Every call of a loop takes effect: only the last may go unanswered. -/
def AllTaken (fault : String → Option SdkFault) (cs : List String) : Prop :=
  (∀ c ∈ cs.dropLast, fault c = none) ∧
    ∀ c, cs.getLast? = some c → fault c = none ∨ fault c = some .unanswered

/-- The body of a loop that connects thing `t`, whatever it makes of the
errors. -/
def Connects (net : Net) (t : String) (body : String → World → World × Except Err Unit) : Prop :=
  ∀ c w, (body c w).1 = (sdkCall (net.connect c) w (w.connect c t)).1 ∧
    ((body c w).2 = .ok () ↔ (sdkCall (net.connect c) w (w.connect c t)).2 = .ok ())

/-- What a connecting loop can do. -/
structure Joined (t : String) (cs : List String) (w w' : World) : Prop where
  db : w'.db = w.db
  pending : w'.pending = w.pending
  kept : ∀ p ∈ w.links, p ∈ w'.links
  made : ∀ p ∈ w'.links, p ∈ w.links ∨ p.2 = t ∧ p.1 ∈ cs

section Connecting

variable {net : Net} {t : String} {cs : List String} {w w' : World}
  {body : String → World → World × Except Err Unit}

theorem connects_connectThing (net : Net) (key t : String) :
    Connects net t fun c w => (Service.connectThing key t c).run (handler net) w := by
  intro c w
  simp only [Service.connectThing, cmd, Prog.run_bind, Prog.run_call, Prog.run_ret, handler]
  cases (sdkCall (net.connect c) w (w.connect c t)).2 with
  | ok u => exact ⟨rfl, by simp⟩
  | error e => exact ⟨rfl, by simp⟩

theorem connects_connectListed (net : Net) (key t : String) :
    Connects net t fun c w => (Service.connectListed key t c).run (handler net) w := by
  intro c w
  simp only [Service.connectListed, cmd, Prog.run_bind, Prog.run_call, Prog.run_ret, handler]
  cases (sdkCall (net.connect c) w (w.connect c t)).2 with
  | ok u => exact ⟨rfl, by simp⟩
  | error e => cases e <;> exact ⟨rfl, by simp⟩

theorem Joined.refl (w : World) : Joined t cs w w :=
  ⟨rfl, rfl, fun _ h => h, fun _ h => .inl h⟩

theorem Joined.trans {w'' : World} (h : Joined t cs w w') (h' : Joined t cs w' w'') :
    Joined t cs w w'' := by
  refine ⟨h'.db.trans h.db, h'.pending.trans h.pending, fun p hp => h'.kept p (h.kept p hp), ?_⟩
  intro p hp
  rcases h'.made p hp with hp | hp
  · exact h.made p hp
  · exact .inr hp

/-- One connecting call. -/
theorem joined_connect (fault : Option SdkFault) {c : String} (hc : c ∈ cs) (w : World) :
    Joined t cs w (sdkCall fault w (w.connect c t)).1 := by
  have hmade : Joined t cs w (w.connect c t).1 := by
    unfold World.connect
    split
    · exact Joined.refl w
    · refine ⟨rfl, rfl, fun p hp => List.mem_append_left _ hp, fun p hp => ?_⟩
      rcases List.mem_append.mp hp with hp | hp
      · exact .inl hp
      · rw [List.mem_singleton.mp hp]
        exact .inr ⟨rfl, hc⟩
  cases fault with
  | none => exact hmade
  | some f =>
      cases f with
      | refused e => exact Joined.refl w
      | unanswered => exact hmade

theorem mem_links_of_connect_ok {fault : Option SdkFault} {c : String}
    (h : (sdkCall fault w (w.connect c t)).2 = .ok ()) :
    (c, t) ∈ (sdkCall fault w (w.connect c t)).1.links := by
  cases fault with
  | none =>
      simp only [sdkCall, World.connect] at h ⊢
      split at h
      · cases h
      · next hno => simp [hno]
  | some f => cases f <;> cases h

variable (hbody : Connects net t body)
include hbody

theorem joined_loop (cs : List String) (w : World) :
    Joined t cs w (Prog.eachOn body cs w).1 := by
  refine Prog.eachOn_inv (I := Joined t cs w) (fun c hc v hv => hv.trans ?_) (Joined.refl w)
  rw [(hbody c v).1]
  exact joined_connect _ hc v

/-- A connecting loop that goes through has connected every channel. -/
theorem linked_of_loop_ok (hok : (Prog.eachOn body cs w).2 = .ok ()) :
    ∀ c ∈ cs, (c, t) ∈ (Prog.eachOn body cs w).1.links := by
  induction cs generalizing w with
  | nil => exact fun c hc => (List.not_mem_nil hc).elim
  | cons c cs ih =>
      rcases hrun : body c w with ⟨w1, r⟩
      have hb := hbody c w
      rw [hrun] at hb
      cases r with
      | error e =>
          rw [Prog.eachOn_error hrun] at hok
          cases hok
      | ok u =>
          rw [Prog.eachOn_ok hrun] at hok ⊢
          intro c' hc'
          rcases List.mem_cons.mp hc' with rfl | hc'
          · refine (joined_loop hbody _ _).kept _ ?_
            have hw1 : w1 = (sdkCall (net.connect c') w (w.connect c' t)).1 := hb.1
            rw [hw1]
            exact mem_links_of_connect_ok (hb.2.mp rfl)
          · exact ih hok c' hc'

/-- A connecting loop over channels that are not connected, none of them twice,
goes through when no call fails. -/
theorem loop_ok (hcalls : ∀ c ∈ cs, net.connect c = none) (hnodup : cs.Nodup)
    (hfree : ∀ c ∈ cs, (c, t) ∉ w.links) : (Prog.eachOn body cs w).2 = .ok () := by
  induction cs generalizing w with
  | nil => rfl
  | cons c cs ih =>
      have hb := hbody c w
      have hdone : sdkCall (net.connect c) w (w.connect c t)
          = ({ w with links := w.links ++ [(c, t)] }, .ok ()) := by
        simp only [hcalls c List.mem_cons_self, sdkCall, World.connect,
          hfree c List.mem_cons_self, if_false]
      rw [hdone] at hb
      have hrun : body c w = ({ w with links := w.links ++ [(c, t)] }, .ok ()) :=
        Prod.ext hb.1 (hb.2.mpr rfl)
      rw [Prog.eachOn_ok hrun]
      refine ih (fun c' hc' => hcalls c' (List.mem_cons_of_mem _ hc')) hnodup.of_cons ?_
      intro c' hc' hin
      rcases List.mem_append.mp hin with hin | hin
      · exact hfree c' (List.mem_cons_of_mem _ hc') hin
      · rw [List.mem_singleton, Prod.mk.injEq] at hin
        rw [hin.1] at hc'
        exact (List.nodup_cons.mp hnodup).1 hc'

/-- A refused first call ends the loop and changes nothing. -/
theorem loop_refused {c : String} {e : SdkErr} (hc : cs.head? = some c)
    (hf : net.connect c = some (.refused e)) :
    ∃ e', Prog.eachOn body cs w = (w, .error e') := by
  obtain ⟨cs', rfl⟩ : ∃ cs', cs = c :: cs' := by
    cases cs with
    | nil => cases hc
    | cons a l => exact ⟨l, by rw [Option.some.inj hc]⟩
  have hb := hbody c w
  rw [hf] at hb
  rcases hrun : body c w with ⟨w1, r⟩
  rw [hrun] at hb
  cases r with
  | ok u => exact absurd (hb.2.mp rfl) (by simp [sdkCall])
  | error e' =>
      have hw1 : w1 = w := hb.1
      rw [Prog.eachOn_error hrun, hw1]
      exact ⟨e', rfl⟩

end Connecting

/-- What a disconnecting loop can do: it has parted the thing from the channels
`taken`, and Things has announced each of them. -/
structure Parted (t : String) (cs taken : List String) (w w' : World) : Prop where
  db : w'.db = w.db
  sub : ∀ c ∈ taken, c ∈ cs
  pending : w'.pending = w.pending ++ taken.map (Decoded.disconnectThing · t)
  links : ∀ p, p ∈ w'.links ↔ p ∈ w.links ∧ ¬ (p.2 = t ∧ p.1 ∈ taken)

section Disconnecting

variable {net : Net} {key t : String} {cs : List String} {w w' : World}

theorem Parted.refl (w : World) : Parted t cs [] w w :=
  ⟨rfl, fun _ h => (List.not_mem_nil h).elim, by simp, by simp⟩

theorem Parted.trans {w'' : World} {a b : List String} (h : Parted t cs a w w')
    (h' : Parted t cs b w' w'') : Parted t cs (a ++ b) w w'' := by
  refine ⟨h'.db.trans h.db, fun c hc => ?_, ?_, fun p => ?_⟩
  · rcases List.mem_append.mp hc with hc | hc
    · exact h.sub c hc
    · exact h'.sub c hc
  · rw [h'.pending, h.pending, List.map_append, List.append_assoc]
  · rw [h'.links, h.links, List.mem_append]
    tauto

/-- The body of the disconnecting loops. -/
abbrev partBody (net : Net) (key t c : String) (w : World) : World × Except Err Unit :=
  (Service.disconnectThing key t c).run (handler net) w

theorem partBody_eq (net : Net) (key t c : String) (w : World) :
    partBody net key t c w
      = ((sdkCall (net.disconnect c) w (w.disconnect c t)).1,
          match (sdkCall (net.disconnect c) w (w.disconnect c t)).2 with
          | .ok () => .ok ()
          | .error .notFound => .ok ()
          | .error _ => .error .things) := by
  simp only [partBody, Service.disconnectThing, cmd, Prog.run_bind, Prog.run_call, Prog.run_ret,
    handler]
  cases (sdkCall (net.disconnect c) w (w.disconnect c t)).2 with
  | ok u => rfl
  | error e => cases e <;> rfl

/-- One disconnecting call. -/
theorem parted_disconnect (fault : Option SdkFault) {c : String} (hc : c ∈ cs) (w : World) :
    ∃ taken, Parted t cs taken w (sdkCall fault w (w.disconnect c t)).1 := by
  have hdone : ∃ taken, Parted t cs taken w (w.disconnect c t).1 := by
    unfold World.disconnect
    split
    · refine ⟨[c], rfl, ?_, rfl, ?_⟩
      · intro c' hc'
        rw [List.mem_singleton.mp hc']
        exact hc
      · rintro ⟨a, b⟩
        simp only [mem_deleteWhere, Prod.mk.injEq, List.mem_singleton]
        tauto
    · exact ⟨[], Parted.refl w⟩
  cases fault with
  | none => exact hdone
  | some f =>
      cases f with
      | refused e => exact ⟨[], Parted.refl w⟩
      | unanswered => exact hdone

theorem parted_loop (net : Net) (key t : String) (cs : List String) (w : World) :
    ∃ taken, Parted t cs taken w (Prog.eachOn (partBody net key t) cs w).1 := by
  refine Prog.eachOn_inv (I := fun v => ∃ taken, Parted t cs taken w v) (fun c hc v hv => ?_)
    ⟨[], Parted.refl w⟩
  obtain ⟨a, ha⟩ := hv
  rw [partBody_eq]
  obtain ⟨b, hb⟩ := parted_disconnect (net.disconnect c) hc v
  exact ⟨a ++ b, ha.trans hb⟩

/-- A call that takes effect leaves the pair disconnected. -/
theorem not_linked_disconnect {fault : Option SdkFault} {c : String}
    (hf : fault = none ∨ fault = some .unanswered) (w : World) :
    (c, t) ∉ (sdkCall fault w (w.disconnect c t)).1.links := by
  have hdone : (c, t) ∉ (w.disconnect c t).1.links := by
    unfold World.disconnect
    split
    · simp
    · next h => exact h
  rcases hf with rfl | rfl
  · exact hdone
  · exact hdone

/-- A call that does not fail passes, also over a pair that is not
connected. -/
theorem partBody_passes (key t : String) {c : String}
    (hf : net.disconnect c = none ∨ net.disconnect c = some (.refused .notFound)) (w : World) :
    (partBody net key t c w).2 = .ok () := by
  rw [partBody_eq]
  rcases hf with hf | hf
  · rw [hf]
    by_cases hin : (c, t) ∈ w.links
    · simp only [sdkCall, World.disconnect, if_pos hin]
    · simp only [sdkCall, World.disconnect, if_neg hin]
  · rw [hf]
    rfl

/-- A disconnecting loop goes through when no call fails. -/
theorem partLoop_ok (key t : String) (w : World)
    (hf : ∀ c ∈ cs, net.disconnect c = none ∨ net.disconnect c = some (.refused .notFound)) :
    (Prog.eachOn (partBody net key t) cs w).2 = .ok () := by
  induction cs generalizing w with
  | nil => rfl
  | cons c cs ih =>
      have hpass := partBody_passes key t (hf c List.mem_cons_self) w
      rcases hrun : partBody net key t c w with ⟨w1, r⟩
      rw [hrun] at hpass
      cases hpass
      rw [Prog.eachOn_ok hrun]
      exact ih w1 fun c' hc' => hf c' (List.mem_cons_of_mem _ hc')

/-- A disconnecting loop all of whose calls take effect leaves no channel
connected. -/
theorem partLoop_all (key t : String) (w : World) (hall : AllTaken net.disconnect cs) :
    ∀ c ∈ cs, (c, t) ∉ (Prog.eachOn (partBody net key t) cs w).1.links := by
  induction cs generalizing w with
  | nil => exact fun c hc => (List.not_mem_nil hc).elim
  | cons c cs ih =>
      have hbody := partBody_eq net key t c w
      rcases hrun : partBody net key t c w with ⟨w1, r⟩
      rw [hrun] at hbody
      have hw1 : w1 = (sdkCall (net.disconnect c) w (w.disconnect c t)).1 :=
        congrArg Prod.fst hbody
      cases cs with
      | nil =>
          -- the last call, whatever its answer
          have hlast : (Prog.eachOn (partBody net key t) [c] w).1 = w1 := by
            cases r with
            | error e => rw [Prog.eachOn_error hrun]
            | ok u => rw [Prog.eachOn_ok hrun]; rfl
          intro c' hc'
          rw [List.mem_singleton.mp hc', hlast, hw1]
          exact not_linked_disconnect (hall.2 c rfl) w
      | cons c2 cs =>
          have hnone : net.disconnect c = none := hall.1 c List.mem_cons_self
          have hpass := partBody_passes key t (.inl hnone) w
          rw [hrun] at hpass
          cases hpass
          rw [Prog.eachOn_ok hrun]
          intro c' hc'
          rcases List.mem_cons.mp hc' with rfl | hc'
          · obtain ⟨taken, hparted⟩ := parted_loop net key t (c2 :: cs) w1
            intro hin
            have hin1 := ((hparted.links _).mp hin).1
            rw [hw1] at hin1
            exact not_linked_disconnect (.inl hnone) w hin1
          · refine ih w1 ⟨fun d hd => hall.1 d (List.mem_cons_of_mem _ hd), fun d hd => ?_⟩ c' hc'
            exact hall.2 d (by rw [List.getLast?_cons_cons]; exact hd)

/-- A refused first call ends the loop and changes nothing. -/
theorem partLoop_refused (h : FirstRefused net.disconnect cs) :
    Prog.eachOn (partBody net key t) cs w = (w, .error .things) := by
  obtain ⟨c, e, hc, hf, hne⟩ := h
  obtain ⟨cs', rfl⟩ : ∃ cs', cs = c :: cs' := by
    cases cs with
    | nil => cases hc
    | cons a l => exact ⟨l, by rw [Option.some.inj hc]⟩
  refine Prog.eachOn_error ?_ cs'
  rw [partBody_eq, hf]
  cases e <;> first | rfl | exact absurd rfl hne

end Disconnecting

end Mainflux.Bootstrap.Consistency
