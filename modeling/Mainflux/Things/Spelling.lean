/-
  Mainflux.Things.Spelling
  ────────────────────────
  **REVOCATION AND THE SPELLING OF IDS.**

  The tables compare ids as UUIDs, whatever text they came in; the channel
  cache compares the texts.  Calls are made one after another here, with ids
  in ANY form that `uuidIn` reads.

    • `spelled_revocation_final` — as long as a `Disconnect` or
      `RemoveChannel` leaves connected the cached pairs it has not evicted
      (`IDSafe`: those under another spelling), a revocation by the owner is
      final until a `Connect` of the pair succeeds;
    • `spelled_revocation_not_final` — a check under one spelling fills the
      cache, the owner disconnects under another, and the first spelling goes
      on opening the channel.
-/
import Mainflux.Things.Revocation

namespace Mainflux.Things

open Mainflux.Lib

section Spelled

variable {E : Env} {w : World} {ch th : UUID}

/-! ## §1. One call. -/

/-- The call is a `Connect` that names the pair, in whatever spelling, and
succeeds. -/
def Reconnects (E : Env) (ch th : UUID) (w : World) : Call → Prop
  | .connect token chIDs thIDs =>
      (step E w (.connect token chIDs thIDs)).2 = .done (.ok ()) ∧
        (∃ c ∈ chIDs, uuidIn c = some ch) ∧ ∃ t ∈ thIDs, uuidIn t = some th
  | _ => False

/-- Only a successful `Connect` of the pair brings its row back. -/
theorem unlinked_step {call : Call} (hinv : Involved call) (hun : Unlinked ch th w.db)
    (hno : ¬ Reconnects E ch th w call) : Unlinked ch th (step E w call).1.db := by
  have htick : Unlinked ch th ({ w with tick := w.tick + 1 } : World).db := hun
  cases call with
  | connect token chIDs thIDs =>
      refine step_token_cases (P := fun w' => Unlinked ch th w'.db) rfl htick fun o hauth => ?_
      have heq := step_connect hauth chIDs thIDs
      rw [heq]
      intro co hco hpair
      rcases connect_rows hco with hold | ⟨hok, ⟨c, hc, huc⟩, t, ht, hut⟩
      · exact hun co hold hpair
      · -- a new row of the pair is a `Connect` of it
        refine hno ⟨?_, ⟨c, hc, by rw [huc, hpair.1]⟩, t, ht, by rw [hut, hpair.2]⟩
        rw [heq, hok]
  | disconnect token c t =>
      refine step_token_cases (P := fun w' => Unlinked ch th w'.db) rfl htick fun o hauth => ?_
      rw [step_disconnect hauth]
      exact fun co hco => hun co (disconnect_rows hco)
  | removeChannel token c =>
      refine step_token_cases (P := fun w' => Unlinked ch th w'.db) rfl htick fun o hauth => ?_
      rw [step_removeChannel hauth]
      exact fun co hco => hun co (channelsRemove_rows hco)
  | canAccessByKey c key =>
      rw [step_access_db rfl]
      exact hun
  | canAccessByID c t =>
      rw [step_access_db rfl]
      exact hun
  | _ => exact hinv.elim

/-- A check grants the pair neither from the caches nor from the tables when it
has no row and the caches are backed. -/
theorem not_grants_of_unlinked {call : Call} (hbacked : PairsBacked w)
    (hun : Unlinked ch th w.db) : ¬ Grants ch th call (step E w call).2 := by
  intro hgrant
  cases call with
  | canAccessByID c t =>
      obtain ⟨hhit, heq⟩ | ⟨hc, heq⟩ | heq := step_canAccessByID_cases E w c t
      · rw [heq] at hgrant
        exact hun.not_connected hgrant (hbacked c t hhit)
      · rw [heq] at hgrant
        exact hun.not_connected hgrant hc
      · rw [heq] at hgrant
        exact hgrant
  | canAccessByKey c key =>
      obtain ⟨t, -, hpair, heq⟩ | ⟨t, hfound, heq⟩ | heq := step_canAccessByKey_cases E w c key
      · rw [heq] at hgrant
        exact hun.not_connected hgrant (hbacked c t hpair)
      · rw [heq] at hgrant
        exact hun.not_connected hgrant (grantByKey_eq_some hfound).2
      · rw [heq] at hgrant
        exact hgrant
  | _ => exact hgrant

/-- The rows of the pair belong to the user whose token the call carries. -/
def MadeByOwner (E : Env) (ch th : UUID) (w : World) (rev : Call) : Prop :=
  ∃ token o, rev.token = some token ∧ E.auth w.tick token = some o ∧
    ∀ co ∈ w.db.connections, co.channelID = ch → co.thingID = th →
      co.channelOwner = o ∧ co.thingOwner = o

/-- A revocation by the owner deletes the rows of the pair, however spelled. -/
theorem unlinked_revoked {rev : Call} (hrev : Revokes ch th rev)
    (howner : MadeByOwner E ch th w rev) : Unlinked ch th (step E w rev).1.db := by
  obtain ⟨token, o, ht, hauth, hrows⟩ := howner
  cases rev with
  | disconnect _ c t =>
      cases ht
      rw [step_disconnect hauth]
      exact unlinked_disconnect hrev hrows
  | removeChannel _ c =>
      cases ht
      rw [step_removeChannel hauth]
      exact unlinked_channelsRemove hrev hrows
  | _ => exact hrev.elim

/-! ## §2. Runs. -/

/-- **Revocation does not depend on the spelling along every run whose
deletions are safe.**  After a `Disconnect` or `RemoveChannel` of the pair by
its owner, a check of the pair in any spelling is granted only if a `Connect`
of the pair succeeded in between. -/
theorem spelled_revocation_final (E : Env) (w : World) (hbacked : PairsBacked w)
    (before later : List Call) (rev call : Call) (ch th : UUID)
    (hcalls : ∀ c ∈ before ++ rev :: later, Involved c)
    (hsafe : Along (fun w call => (step E w call).1) (IDSafe E) w (before ++ rev :: later))
    (hrev : Revokes ch th rev) (howner : MadeByOwner E ch th (after E w before) rev)
    (hgrant : Grants ch th call (step E (after E w (before ++ rev :: later)) call).2) :
    Occurs (fun w call => (step E w call).1) (Reconnects E ch th)
      (after E w (before ++ [rev])) later := by
  by_contra hnever
  obtain ⟨hbefore, hstep, hlater⟩ := (along_append _ _ _).mp hsafe
  have hw0 : PairsBacked (after E w before) :=
    run_inv (fun _ _ hw hc => pairsBacked_step hw hc) hbacked hbefore
  have hw1 := pairsBacked_step hw0 hstep
  have hun := unlinked_revoked hrev howner
  have hinv : Along (fun w call => (step E w call).1) (fun _ c => Involved c)
      (step E (after E w before) rev).1 later :=
    along_of_mem fun c hc _ => hcalls c (List.mem_append_right _ (List.mem_cons_of_mem _ hc))
  rw [after, run_append, run_cons, run_nil] at hnever
  rw [after, run_append, run_cons] at hgrant
  -- after the revocation: backed caches, and no row of the pair
  have hend := run_inv (I := fun w => PairsBacked w ∧ Unlinked ch th w.db)
    (fun w c hw hc => ⟨pairsBacked_step hw.1 hc.1.1, unlinked_step hc.1.2 hw.2 hc.2⟩)
    ⟨hw1, hun⟩ ((hlater.and hinv).and (along_not_of_not_occurs hnever))
  exact not_grants_of_unlinked hend.1 hend.2 hgrant

/-! ### Two runs. -/

/-- Alice's attic, and how a client in capitals writes its id. -/
def attic : String := uuidOut (UUID.fill 10)

def atticUpper : String := "AAAAAAAA-AAAA-AAAA-AAAA-AAAAAAAAAAAA"

/-- The lamp is connected to the attic; nothing is cached. -/
def lampInAttic : World :=
  ⟨⟨[⟨UUID.fill 1, "alice", "lamp", "k1", []⟩], [⟨UUID.fill 10, "alice", "", none⟩],
    [⟨UUID.fill 10, "alice", UUID.fill 1, "alice"⟩]⟩, Redis.empty, 0⟩

/-- The lamp is let in again under the other spelling, and a `Connect` has come
in between. -/
theorem spelled_revocation_final_attic :
    Occurs (fun w call => (step openEnv w call).1) (Reconnects openEnv (UUID.fill 10) (UUID.fill 1))
      (after openEnv lampInAttic ([] ++ [.disconnect "alice" attic lamp]))
      [.connect "alice" [attic] [lamp]] := by
  have hcalls : ∀ c ∈ [] ++ Call.disconnect "alice" attic lamp :: [.connect "alice" [attic] [lamp]],
      Involved c := by
    intro c hc
    rcases List.mem_cons.mp hc with rfl | hc
    · trivial
    · rw [List.mem_singleton.mp hc]
      trivial
  refine spelled_revocation_final openEnv lampInAttic ?_ [] [.connect "alice" [attic] [lamp]]
    (.disconnect "alice" attic lamp) (.canAccessByID atticUpper lamp) _ _ hcalls ?_
    ⟨by decide +kernel, by decide +kernel⟩ ⟨"alice", "alice", rfl, rfl, by decide +kernel⟩ ?_
  · intro c t hpair
    exact absurd hpair (cachedPair_empty c t)
  · refine ⟨?_, trivial, trivial⟩
    intro o _ c t hpair
    exact absurd hpair (cachedPair_empty c t)
  · have hgrant : (step openEnv (after openEnv lampInAttic
        ([] ++ Call.disconnect "alice" attic lamp :: [.connect "alice" [attic] [lamp]]))
          (.canAccessByID atticUpper lamp)).2 = .done (.ok ()) := by decide +kernel
    rw [hgrant]
    exact ⟨by decide +kernel, by decide +kernel⟩

/-- **A revocation misses the pairs cached under another spelling**: the lamp is
checked in capitals, disconnected in lower case, and let in in capitals. -/
theorem spelled_revocation_not_final :
    ¬ ∀ (E : Env) (w : World), w.redis = Redis.empty →
      ∀ (before later : List Call) (rev call : Call) (ch th : UUID),
        (∀ c ∈ before ++ rev :: later, Involved c) → Revokes ch th rev →
        MadeByOwner E ch th (after E w before) rev →
        (step E (after E w before) rev).2 = .done (.ok ()) →
        Grants ch th call (step E (after E w (before ++ rev :: later)) call).2 →
        Occurs (fun w call => (step E w call).1) (Reconnects E ch th)
          (after E w (before ++ [rev])) later := by
  intro h
  refine h openEnv lampInAttic rfl [.canAccessByID atticUpper lamp] []
    (.disconnect "alice" attic lamp) (.canAccessByID atticUpper lamp) (UUID.fill 10) (UUID.fill 1)
    ?_ ⟨by decide +kernel, by decide +kernel⟩ ⟨"alice", "alice", rfl, rfl, by decide +kernel⟩
    (by decide +kernel) ?_
  · intro c hc
    rcases List.mem_cons.mp hc with rfl | hc
    · trivial
    · rw [List.mem_singleton.mp hc]
      trivial
  · have hgrant : (step openEnv (after openEnv lampInAttic ([.canAccessByID atticUpper lamp] ++
        [.disconnect "alice" attic lamp])) (.canAccessByID atticUpper lamp)).2
          = .done (.ok ()) := by decide +kernel
    rw [hgrant]
    exact ⟨by decide +kernel, by decide +kernel⟩

end Spelled

end Mainflux.Things
