/-
  Mainflux.Users.Reset
  ────────────────────
  **THE PASSWORD-RESET FLOW NEVER STARTS.**

  `GenerateResetToken` passes the e-mail address to the authn service as the
  issuer of a recovery key, as `Login` does for a user key.  But a recovery key
  is issued to whoever the issuer's TOKEN logs in, and an address is no token:
  the request fails for every registered address, in every reachable state
  (`reset_never_works`).
-/
import Mainflux.Users.Service

namespace Mainflux.Users

open Mainflux.Lib

/-! ## §1. The flow. -/

/-- The flow for the address `e`, started at time `t`: a recovery token is
mailed; until its duration has passed it resets the password to any `p`; and
from then on `Login` accepts `p` and nothing else. -/
def ResetWorks (E : Env) (w : World) (t : Nat) (e host : String) : Prop :=
  (generateResetToken E t e host w).2 = .ok () ∧
  ∃ token, (generateResetToken E t e host w).1.mails = w.mails ++ [⟨[e], host, token⟩] ∧
    ∀ now p, t ≤ now → (now : Int) < t + Authn.resetDuration →
      (resetPassword E now token p (generateResetToken E t e host w).1).2 = .ok () ∧
      ∀ q later, now ≤ later →
        ((∃ tok, (login E later { email := e, password := q }
            (resetPassword E now token p (generateResetToken E t e host w).1).1).2 = .ok tok) ↔
          q = p)

/-! ## §2. Why it fails. -/

variable {E : Env} {w : World} {t : Nat} {e host : String}

/-- The authn service issues no recovery key for an address. -/
theorem grpcIssue_recovery {A : Authn.Env} {a : Authn.World} (hat : '@' ∈ e.toList) :
    Authn.grpcIssue A t e Authn.KeyType.recoveryKey a
      = (a, .error (.unauthenticated .unauthorizedAccess)) := by
  have hne : e ≠ "" := by
    rintro rfl
    exact absurd hat (by decide)
  have hvalid : Authn.validateIssue e Authn.KeyType.recoveryKey = .ok () := by
    rw [Authn.validateIssue, if_neg hne]
    rfl
  have hlogin : Authn.login A t e = .error .unauthorizedAccess := by
    rw [Authn.login, Authn.parse_of_not_authentic (Authn.not_authentic_of_at hat)]
  have hissue : Authn.issue A t e { type := Authn.KeyType.recoveryKey, issuedAt := t } a
      = (a, .error .unauthorizedAccess) := by
    have hnz : (t : Int) ≠ Authn.zeroTime := by
      unfold Authn.zeroTime
      omega
    have hapi : Authn.KeyType.recoveryKey ≠ Authn.KeyType.apiKey := by decide
    rw [Authn.issue, if_neg hnz, if_neg hapi, if_pos rfl, Authn.resetKey, hlogin]
  rw [Authn.grpcIssue, hvalid]
  simp only [hissue]
  rfl

/-- A registered row is found. -/
theorem retrieveByID_ok {users : List User} (h : ∃ r ∈ users, r.email = e) :
    ∃ u, retrieveByID e users = .ok u ∧ u.email = e := by
  unfold retrieveByID
  split
  next hnone =>
      obtain ⟨r, hr, hre⟩ := h
      exact absurd (decide_eq_true hre) (List.find?_eq_none.mp hnone r hr)
  next r hr => exact ⟨_, rfl, rfl⟩

theorem generateResetToken_address (hreg : ∃ r ∈ w.users, r.email = e) (hat : '@' ∈ e.toList) :
    generateResetToken E t e host w
      = (w, .error [.generatingResetToken, .userNotFound,
          .grpc (.unauthenticated .unauthorizedAccess)]) := by
  obtain ⟨u, hu, hue⟩ := retrieveByID_ok hreg
  have hne : u.email ≠ "" := by
    rw [hue]
    rintro rfl
    exact absurd hat (by decide)
  simp only [generateResetToken, hu, if_neg hne, issue, grpcIssue_recovery hat]

theorem not_resetWorks (hreg : ∃ r ∈ w.users, r.email = e) (hat : '@' ∈ e.toList) :
    ¬ ResetWorks E w t e host := by
  rintro ⟨hok, -⟩
  rw [generateResetToken_address hreg hat] at hok
  cases hok

/-! ## §3. The main result. -/

/-- **The reset flow never works**: in every reachable state, for every
registered address, the request is answered with an error and changes nothing. -/
theorem reset_never_works (E : Env) (reqs : List Request) {e : String}
    (hreg : ∃ r ∈ (run (next E) .init reqs).users, r.email = e) (t : Nat) (host : String) :
    ¬ ResetWorks E (run (next E) .init reqs) t e host ∧
      generateResetToken E t e host (run (next E) .init reqs)
        = (run (next E) .init reqs, .error [.generatingResetToken, .userNotFound,
            .grpc (.unauthenticated .unauthorizedAccess)]) := by
  have hat : '@' ∈ e.toList := by
    obtain ⟨r, hr, rfl⟩ := hreg
    exact at_mem_of_isEmail (validEmails_run E reqs r hr)
  exact ⟨not_resetWorks hreg hat, generateResetToken_address hreg hat⟩

/-- A hasher that pads, and a mail server that delivers. -/
def demo : Env where
  authn := Authn.demo Authn.demoCodec
  hash _ pwd := some (blankPad pwd)
  compare plain hashed := blankPad plain = hashed
  send _ _ _ := true

/-- Alice registers. -/
def aliceRegisters : Request :=
  ⟨Authn.clock, .registration { email := "alice@example.com", password := "12345678" }⟩

theorem alice_registered :
    ∃ r ∈ (run (next demo) .init [aliceRegisters]).users, r.email = "alice@example.com" := by
  decide +kernel

/-- Alice asks for a new password and gets an error. -/
theorem reset_never_works_alice :
    ¬ ResetWorks demo (run (next demo) .init [aliceRegisters]) Authn.clock "alice@example.com"
        "https://example.com" :=
  (reset_never_works demo [aliceRegisters] alice_registered Authn.clock "https://example.com").1

/-- Alice has registered, the hasher is right and the mail server delivers: the
flow fails at its first step. -/
theorem reset_fails_alice :
    ¬ ResetWorks demo (run (next demo) .init [aliceRegisters]) Authn.clock "alice@example.com"
        "https://example.com" :=
  not_resetWorks alice_registered (by decide +kernel)

end Mainflux.Users
