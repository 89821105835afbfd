/-
  Mainflux.Lib.Prog
  ─────────────────
  **COMMAND PROGRAMS, RUN ALONE OR INTERLEAVED.**

  A signature lists the atomic commands a program may issue and the type of
  each answer.  `Prog S α` is a program over it: it returns a value or issues
  one command and goes on with the answer.  A `Handler` says what a command
  does to a state; ONE program text then has two readings:

    • `Prog.run` — the commands of the program, one after another, alone;
    • `Pool` — any number of programs in flight, each atomic command of any
      of them being one step of the system (`Pool.act`).

  `Prog.Uses` bounds the commands a program can issue; two handlers that agree
  on them give the same run (`Prog.run_sim`).  `Prog.Follows` lets the commands a
  program may issue depend on what it has done before.  `Prog.Post` is the answer logic
  of a program: every value it can return satisfies `Q`, provided the answers
  it gets are allowed by `A`; a step of the pool keeps it (`Prog.Post.next`),
  which is how facts about program texts become facts about threads.
-/
import Mathlib.Data.List.Basic
import Mainflux.Lib.Run

namespace Mainflux.Lib

/-! ## §1. Programs over a command signature. -/

/-- The atomic commands of a component and the answers they give. -/
structure Signature where
  Cmd : Type
  Res : Cmd → Type

/-- A program: return a value, or issue one command and continue with its
answer. -/
inductive Prog (S : Signature) (α : Type) : Type
  | ret (a : α)
  | call (c : S.Cmd) (k : S.Res c → Prog S α)

/-- What each command does to a state, and the answer it gives. -/
abbrev Handler (S : Signature) (σ : Type) := (c : S.Cmd) → σ → σ × S.Res c

namespace Prog

variable {S : Signature} {σ α β : Type}

protected def bind : Prog S α → (α → Prog S β) → Prog S β
  | .ret a, f => f a
  | .call c k, f => .call c (fun r => (k r).bind f)

instance : Monad (Prog S) where
  pure := .ret
  bind := Prog.bind

/-- The value of a program that has returned. -/
def result : Prog S α → Option α
  | .ret a => some a
  | .call _ _ => none

/-- The command a program issues next. -/
def next : Prog S α → Option S.Cmd
  | .ret _ => none
  | .call c _ => some c

/-! ## §2. Running a program alone. -/

/-- Run a program to its end, alone. -/
def run (H : Handler S σ) : Prog S α → σ → σ × α
  | .ret a, s => (s, a)
  | .call c k, s => (k (H c s).2).run H (H c s).1

variable {H : Handler S σ}

@[simp] theorem run_pure (a : α) (s : σ) : (pure a : Prog S α).run H s = (s, a) := rfl

@[simp] theorem run_ret (a : α) (s : σ) : (ret a : Prog S α).run H s = (s, a) := rfl

@[simp] theorem run_call (c : S.Cmd) (k : S.Res c → Prog S α) (s : σ) :
    (call c k).run H s = (k (H c s).2).run H (H c s).1 := rfl

@[simp] theorem run_bind (p : Prog S α) (f : α → Prog S β) (s : σ) :
    (p >>= f).run H s = (f (p.run H s).2).run H (p.run H s).1 := by
  change (p.bind f).run H s = _
  induction p generalizing s with
  | ret a => rfl
  | call c k ih => exact ih (H c s).2 (H c s).1

@[simp] theorem pure_bind' (a : α) (f : α → Prog S β) : (pure a >>= f) = f a := rfl

@[simp] theorem call_bind (c : S.Cmd) (k : S.Res c → Prog S α) (f : α → Prog S β) :
    (call c k >>= f) = call c (fun r => k r >>= f) := rfl

/-- A loop that stops at the first error its body returns. -/
def each {ε : Type} (body : α → Prog S (Except ε Unit)) : List α → Prog S (Except ε Unit)
  | [] => return .ok ()
  | a :: l => do
      match ← body a with
      | .error e => return .error e
      | .ok () => each body l

/-- The same loop over what the body does to a state. -/
def eachOn {ε : Type} (f : α → σ → σ × Except ε Unit) : List α → σ → σ × Except ε Unit
  | [], s => (s, .ok ())
  | a :: l, s =>
      match f a s with
      | (s', .error e) => (s', .error e)
      | (s', .ok ()) => eachOn f l s'

theorem run_each {ε : Type} (body : α → Prog S (Except ε Unit)) (l : List α) (s : σ) :
    (each body l).run H s = eachOn (fun a s => (body a).run H s) l s := by
  induction l generalizing s with
  | nil => rfl
  | cons a l ih =>
      rw [each, run_bind, eachOn]
      rcases h : (body a).run H s with ⟨s', r⟩
      cases r with
      | error e => rfl
      | ok u => exact ih s'

section EachOn

variable {ε : Type} {f : α → σ → σ × Except ε Unit}

theorem eachOn_error {a : α} {s s' : σ} {e : ε} (h : f a s = (s', .error e)) (l : List α) :
    eachOn f (a :: l) s = (s', .error e) := by
  simp only [eachOn, h]

theorem eachOn_ok {a : α} {s s' : σ} (h : f a s = (s', .ok ())) (l : List α) :
    eachOn f (a :: l) s = eachOn f l s' := by
  simp only [eachOn, h]

/-- What every body keeps, the loop keeps, wherever it stops. -/
theorem eachOn_inv {I : σ → Prop} {l : List α} (hbody : ∀ a ∈ l, ∀ s, I s → I (f a s).1) {s : σ}
    (h : I s) : I (eachOn f l s).1 := by
  induction l generalizing s with
  | nil => exact h
  | cons a l ih =>
      have hhead := hbody a List.mem_cons_self s h
      rw [eachOn]
      rcases hf : f a s with ⟨s', r⟩
      rw [hf] at hhead
      cases r with
      | error e => exact hhead
      | ok u => exact ih (fun b hb => hbody b (List.mem_cons_of_mem _ hb)) hhead

end EachOn

/-- What each command does, where some commands may never come back. -/
abbrev PartialHandler (S : Signature) (σ : Type) := (c : S.Cmd) → σ → Option (σ × S.Res c)

/-- Run a program whose commands may not come back. -/
def run? (H : PartialHandler S σ) : Prog S α → σ → Option (σ × α)
  | .ret a, s => some (s, a)
  | .call c k, s =>
      match H c s with
      | some (s', r) => (k r).run? H s'
      | none => none

theorem run?_bind {H : PartialHandler S σ} (p : Prog S α) (f : α → Prog S β) (s : σ) :
    (p >>= f).run? H s = (p.run? H s).bind fun x => (f x.2).run? H x.1 := by
  change (p.bind f).run? H s = _
  induction p generalizing s with
  | ret a => rfl
  | call c k ih =>
      simp only [Prog.bind, run?]
      cases H c s with
      | none => rfl
      | some x => exact ih x.2 x.1

/-! ## §3. The answer logic. -/

/-- Every value the program can return satisfies `Q`, provided each answer it
receives is allowed by `A`. -/
def Post (A : (c : S.Cmd) → S.Res c → Prop) (Q : α → Prop) : Prog S α → Prop
  | .ret a => Q a
  | .call c k => ∀ r, A c r → (k r).Post A Q

/-- With some answers, the program returns `a`. -/
def Returns : Prog S α → α → Prop
  | .ret b, a => b = a
  | .call _ k, a => ∃ r, (k r).Returns a

/-- Every command the program can issue satisfies `P`. -/
def Uses (P : S.Cmd → Prop) : Prog S α → Prop
  | .ret _ => True
  | .call c k => P c ∧ ∀ r, (k r).Uses P

@[simp] theorem uses_pure {P : S.Cmd → Prop} (a : α) : (pure a : Prog S α).Uses P := trivial

@[simp] theorem uses_call {P : S.Cmd → Prop} (c : S.Cmd) (k : S.Res c → Prog S α) :
    (call c k).Uses P ↔ P c ∧ ∀ r, (k r).Uses P := Iff.rfl

theorem uses_of_forall {P : S.Cmd → Prop} (h : ∀ c, P c) (p : Prog S α) : p.Uses P := by
  induction p with
  | ret a => trivial
  | call c k ih => exact ⟨h c, ih⟩

theorem Uses.mono {P P' : S.Cmd → Prop} (hP : ∀ c, P c → P' c) {p : Prog S α} (h : p.Uses P) :
    p.Uses P' := by
  induction p with
  | ret a => trivial
  | call c k ih => exact ⟨hP c h.1, fun r => ih r (h.2 r)⟩

theorem Uses.bind {P : S.Cmd → Prop} {p : Prog S α} {f : α → Prog S β} (hp : p.Uses P)
    (hf : ∀ a, (f a).Uses P) : (p >>= f).Uses P := by
  change (p.bind f).Uses P
  induction p with
  | ret a => exact hf a
  | call c k ih => exact ⟨hp.1, fun r => ih r (hp.2 r)⟩

/-- **Two handlers that answer alike on related states** give related runs of
every program that only issues such commands. -/
theorem run_sim {τ : Type} {H : Handler S σ} {G : Handler S τ} {R : σ → τ → Prop}
    {P : S.Cmd → Prop}
    (hstep : ∀ c s t, P c → R s t → (H c s).2 = (G c t).2 ∧ R (H c s).1 (G c t).1)
    {p : Prog S α} (hp : p.Uses P) {s : σ} {t : τ} (h : R s t) :
    (p.run H s).2 = (p.run G t).2 ∧ R (p.run H s).1 (p.run G t).1 := by
  induction p generalizing s t with
  | ret a => exact ⟨rfl, h⟩
  | call c k ih =>
      obtain ⟨hans, hrel⟩ := hstep c s t hp.1 h
      simp only [run_call, ← hans]
      exact ih _ (hp.2 _) hrel

theorem post_of_forall {A : (c : S.Cmd) → S.Res c → Prop} {Q : α → Prop} (h : ∀ a, Q a)
    (p : Prog S α) : p.Post A Q := by
  induction p with
  | ret a => exact h a
  | call c k ih => exact fun r _ => ih r

theorem Post.bind {A : (c : S.Cmd) → S.Res c → Prop} {R : α → Prop} {Q : β → Prop}
    {p : Prog S α} {f : α → Prog S β} (hp : p.Post A R) (hf : ∀ a, R a → (f a).Post A Q) :
    (p >>= f).Post A Q := by
  change (p.bind f).Post A Q
  induction p with
  | ret a => exact hf a hp
  | call c k ih => exact fun r hr => ih r (hp r hr)

theorem Post.next {A : (c : S.Cmd) → S.Res c → Prop} {Q : α → Prop} {c : S.Cmd}
    {k : S.Res c → Prog S α} (h : (call c k).Post A Q) {r : S.Res c} (hr : A c r) :
    (k r).Post A Q := h r hr

/-! ### What can be returned. -/

/-- Whatever a run ends in is returned with the answers of that run. -/
theorem returns_run (H : Handler S σ) (p : Prog S α) (s : σ) : p.Returns (p.run H s).2 := by
  induction p generalizing s with
  | ret a => exact rfl
  | call c k ih => exact ⟨(H c s).2, ih _ _⟩

/-- What holds of every value, whatever the answers are, holds of the ones returned. -/
theorem Post.returns {Q : α → Prop} {p : Prog S α} (h : p.Post (fun _ _ => True) Q) {a : α}
    (ha : p.Returns a) : Q a := by
  induction p with
  | ret b =>
      obtain rfl : b = a := ha
      exact h
  | call c k ih =>
      obtain ⟨r, hr⟩ := ha
      exact ih r (h r trivial) hr

/-- Every error that the program can return satisfies `P`. -/
def Fails {ε : Type} (P : ε → Prop) (p : Prog S (Except ε α)) : Prop :=
  p.Post (fun _ _ => True) fun r => ∀ e, r = .error e → P e

section Fails

variable {ε δ : Type} {P : ε → Prop} {Q : δ → Prop}

theorem fails_error {e : ε} (h : P e) : (pure (.error e) : Prog S (Except ε α)).Fails P := by
  intro e' heq
  cases heq
  exact h

theorem fails_ok (a : α) : (pure (.ok a) : Prog S (Except ε α)).Fails P := by
  intro e heq
  cases heq

/-- One after the other: the second is told what the first has returned. -/
theorem Fails.bind {p : Prog S (Except ε α)} {f : Except ε α → Prog S (Except δ β)}
    (hp : p.Fails P) (herror : ∀ e, P e → (f (.error e)).Fails Q)
    (hok : ∀ a, (f (.ok a)).Fails Q) : (p >>= f).Fails Q := by
  refine Post.bind hp fun r hr => ?_
  cases r with
  | error e => exact herror e (hr e rfl)
  | ok a => exact hok a

theorem Fails.mono {R : ε → Prop} (hPR : ∀ e, P e → R e) {p : Prog S (Except ε α)}
    (h : p.Fails P) : p.Fails R := by
  change p.Post _ _
  induction p with
  | ret a => exact fun e he => hPR e (h e he)
  | call c k ih => exact fun r hr => ih r (h r hr)

end Fails

/-! ### Protocols. -/

/-- What a program must keep to: with a ghost state `γ` that moves with every command,
the commands it may issue, and the answers it may count on. -/
structure Protocol (S : Signature) (γ : Type) where
  rule : γ → S.Cmd → Prop
  move : γ → (c : S.Cmd) → S.Res c → γ
  allowed : (c : S.Cmd) → S.Res c → Prop

section Follows

variable {γ : Type} {P : Protocol S γ}

/-- The program follows the protocol from a ghost state on, and ends in `Q`. -/
def Follows (P : Protocol S γ) (Q : γ → α → Prop) : Prog S α → γ → Prop
  | .ret a, g => Q g a
  | .call c k, g => P.rule g c ∧ ∀ r, P.allowed c r → (k r).Follows P Q (P.move g c r)

theorem Follows.bind {Q : γ → β → Prop} {p : Prog S α} {f : α → Prog S β} {g : γ}
    (h : p.Follows P (fun g a => (f a).Follows P Q g) g) : (p >>= f).Follows P Q g := by
  change (p.bind f).Follows P Q g
  induction p generalizing g with
  | ret a => exact h
  | call c k ih => exact ⟨h.1, fun r hr => ih r (h.2 r hr)⟩

theorem Follows.mono {Q R : γ → α → Prop} (hQ : ∀ g a, Q g a → R g a) {p : Prog S α} {g : γ}
    (h : p.Follows P Q g) : p.Follows P R g := by
  induction p generalizing g with
  | ret a => exact hQ g a h
  | call c k ih => exact ⟨h.1, fun r hr => ih r (h.2 r hr)⟩

/-- One after the other, as long as nothing is raised. -/
theorem Follows.optionBind {x : OptionT (Prog S) α} {f : α → OptionT (Prog S) β}
    {Q : γ → Option β → Prop} {g : γ}
    (h : x.run.Follows P (fun g r => r.elim (Q g none) fun a => (f a).run.Follows P Q g) g) :
    (x >>= f).run.Follows P Q g := by
  refine Follows.bind (h.mono fun g r hr => ?_)
  cases r with
  | none => exact hr
  | some a => exact hr

/-- **A program that follows the protocol, run alone**: what a command that is allowed
keeps holds at the end. -/
theorem Follows.run {H : Handler S σ} {I : γ → σ → Prop}
    (hstep : ∀ g c s, I g s → P.rule g c →
      P.allowed c (H c s).2 ∧ I (P.move g c (H c s).2) (H c s).1)
    {Q : γ → α → Prop} {p : Prog S α} {g : γ} (h : p.Follows P Q g) {s : σ} (hI : I g s) :
    ∃ g', I g' (p.run H s).1 ∧ Q g' (p.run H s).2 := by
  induction p generalizing g s with
  | ret a => exact ⟨g, hI, h⟩
  | call c k ih =>
      obtain ⟨hans, hnext⟩ := hstep g c s hI h.1
      exact ih _ (h.2 _ hans) hnext

end Follows

end Prog

/-! ## §4. Programs in flight. -/

/-- The shared state and the calls in flight: each thread is the request it
serves and what is left of its program. -/
structure Pool (S : Signature) (σ ι α : Type) where
  st : σ
  threads : List (ι × Prog S α)

/-- One event of the system: a request arrives, or thread `n` issues its next
command. -/
inductive Act (ι : Type)
  | spawn (i : ι)
  | step (n : Nat)
  deriving DecidableEq

namespace Pool

variable {S : Signature} {σ ι α : Type}

/-- One event.  Stepping a thread that has returned, or that does not exist,
does nothing. -/
def act (H : Handler S σ) (prog : ι → Prog S α) (p : Pool S σ ι α) : Act ι → Pool S σ ι α
  | .spawn i => { p with threads := p.threads ++ [(i, prog i)] }
  | .step n =>
      match p.threads[n]? with
      | some (i, .call c k) =>
          { st := (H c p.st).1, threads := p.threads.set n (i, k (H c p.st).2) }
      | _ => p

/-- The request and the returned value of thread `n`, once it has returned. -/
def returned (p : Pool S σ ι α) (n : Nat) : Option (ι × α) :=
  match p.threads[n]? with
  | some (i, .ret a) => some (i, a)
  | _ => none

/-- The command thread `n` issues next. -/
def next (p : Pool S σ ι α) (n : Nat) : Option S.Cmd :=
  match p.threads[n]? with
  | some (_, q) => q.next
  | none => none

variable {H : Handler S σ} {prog : ι → Prog S α} {p : Pool S σ ι α}

/-- A thread after an arrival is an old one, or the new one. -/
theorem thread_append {threads : List (ι × Prog S α)} {t x : ι × Prog S α} {m : Nat}
    (h : (threads ++ [t])[m]? = some x) : threads[m]? = some x ∨ x = t := by
  by_cases hm : m < threads.length
  · rw [List.getElem?_append_left hm] at h
    exact .inl h
  · rw [List.getElem?_append_right (Nat.le_of_not_lt hm)] at h
    exact .inr (List.mem_singleton.mp (List.mem_of_getElem? h))

/-- A thread after a step of thread `n` is that one, or is what it was. -/
theorem thread_set {threads : List (ι × Prog S α)} {t x : ι × Prog S α} {n m : Nat}
    (h : (threads.set n t)[m]? = some x) : m = n ∧ x = t ∨ m ≠ n ∧ threads[m]? = some x := by
  by_cases hm : m = n
  · subst hm
    refine .inl ⟨rfl, ?_⟩
    rw [List.getElem?_set_self'] at h
    cases hold : threads[m]? with
    | none =>
        rw [hold] at h
        cases h
    | some y =>
        rw [hold] at h
        exact (Option.some.inj h).symm
  · rw [List.getElem?_set_ne (fun heq => hm heq.symm)] at h
    exact .inr ⟨hm, h⟩

/-- What one event can do to a pool: nothing, a new thread, or one command of
one thread. -/
theorem act_cases (H : Handler S σ) (prog : ι → Prog S α) (p : Pool S σ ι α) (a : Act ι) :
    p.act H prog a = p ∨
    (∃ i, a = .spawn i ∧
      p.act H prog a = { p with threads := p.threads ++ [(i, prog i)] }) ∨
    (∃ n i c k, a = .step n ∧ p.threads[n]? = some (i, .call c k) ∧
      p.act H prog a
        = { st := (H c p.st).1, threads := p.threads.set n (i, k (H c p.st).2) }) := by
  cases a with
  | spawn i => exact .inr (.inl ⟨i, rfl, rfl⟩)
  | step n =>
      cases hn : p.threads[n]? with
      | none => left; simp [act, hn]
      | some t =>
          obtain ⟨i, q⟩ := t
          cases q with
          | ret a => left; simp [act, hn]
          | call c k => exact .inr (.inr ⟨n, i, c, k, rfl, hn, by simp [act, hn]⟩)

end Pool

end Mainflux.Lib
