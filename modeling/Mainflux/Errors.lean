/-
  Mainflux.Errors
  ───────────────
  **ERRORS THAT WRAP ERRORS.**

  An error of the package is a message and, unless it is atomic, the error it wraps.
  `Contains` goes down the layers of one error and compares the message of each with the
  whole text of the other, which for a wrapped error is the text of all its layers.

    • `contains_iff` — what is contained is what some layer says;
    • `chain_laws` — how `Contains` and `Wrap` go together;
    • `nested_not_contained` — a wrapped error that is lost by wrapping it;
    • `encodeError_wrap` — the status of a response is that of the layers that mean one;
    • `encodeError_ours` — which failures are reported as such.
-/
import Mathlib.Data.List.Find

namespace Mainflux.Errors

/-! ## §1. The package. -/

/-- `customError`. -/
inductive Error
  | atom (msg : String)
  | layer (msg : String) (err : Error)
  deriving DecidableEq

/-- A Go `error`: one of the package, or another one, of which only the text is known. -/
inductive GoError
  | ours (e : Error)
  | other (text : String)
  deriving DecidableEq

namespace Error

/-- `Msg`. -/
def msg : Error → String
  | .atom msg => msg
  | .layer msg _ => msg

/-- `Err`. -/
def err : Error → Option Error
  | .atom _ => none
  | .layer _ err => some err

/-- `Error`: the text of all layers. -/
def error : Error → String
  | .atom msg => msg
  | .layer msg err => msg ++ ": " ++ err.error

/-- The messages, outermost first. -/
def layers : Error → List String
  | .atom msg => [msg]
  | .layer msg err => msg :: err.layers

/-- It wraps nothing. -/
def Atomic (e : Error) : Prop := e.err = none

/-- The recursion of `Contains`, where neither error is nil. -/
def contains (text : String) : Error → Bool
  | .atom msg => decide (msg = text)
  | .layer msg err => if msg = text then true else err.contains text

end Error

/-- `Error` of any error. -/
def GoError.error : GoError → String
  | .ours e => e.error
  | .other text => text

/-- `Contains`; `none` is nil. -/
def contains (ce : Option Error) (e : Option GoError) : Bool :=
  match ce, e with
  -- the guard for nil answers true, also where `e` is not nil
  | none, _ => true
  | some _, none => false
  | some ce, some e => ce.contains e.error

/-- `cast` of an error that is not nil. -/
def cast : GoError → Error
  | .ours e => e
  | .other text => .atom text

/-- `Wrap`: what the wrapper itself wraps is dropped. -/
def wrap (wrapper : Option Error) (err : Option GoError) : Option Error :=
  match wrapper, err with
  | some w, some e => some (.layer w.msg (cast e))
  | _, _ => none

/-- `New`. -/
def new (text : String) : Error := .atom text

/-- The errors that `New` and any nesting of `Wrap` make. -/
inductive Built : Error → Prop
  | new (text : String) : Built (new text)
  | wrap {w e c : Error} (hw : Built w) (he : Built e)
      (hc : wrap (some w) (some (.ours e)) = some c) : Built c

/-- Those are all. -/
theorem built (e : Error) : Built e := by
  induction e with
  | atom msg => exact .new msg
  | layer msg err ih => exact .wrap (.new msg) ih rfl

/-! ## §2. What is contained. -/

section Contained

variable {c e w : Error} {text : String}

theorem Error.contains_iff_mem : c.contains text = true ↔ text ∈ c.layers := by
  induction c with
  | atom msg =>
      rw [Error.contains, Error.layers, List.mem_singleton, decide_eq_true_eq]
      exact eq_comm
  | layer msg err ih =>
      rw [Error.contains, Error.layers, List.mem_cons]
      split
      next hmsg => exact ⟨fun _ => .inl hmsg.symm, fun _ => rfl⟩
      next hmsg =>
          rw [ih]
          exact ⟨.inr, fun h => h.resolve_left fun heq => hmsg heq.symm⟩

/-- **What is contained is what some layer says.** -/
theorem contains_iff (c : Error) (e : GoError) :
    contains (some c) (some e) = true ↔ e.error ∈ c.layers := Error.contains_iff_mem

/-- The text of an atomic error is its message. -/
theorem Error.Atomic.error_eq (h : e.Atomic) : e.error = e.msg := by
  cases e with
  | atom msg => rfl
  | layer msg err => cases h

theorem length_error_layer (msg : String) (err : Error) :
    (Error.layer msg err).error.length = msg.length + 2 + err.error.length := by
  rw [Error.error, String.length_append, String.length_append]
  rfl

/-- No layer says as much as all of them together, unless there is one only. -/
theorem length_layer_le {m : String} (h : m ∈ e.layers) : m.length ≤ e.error.length := by
  induction e with
  | atom msg =>
      rw [List.mem_singleton.mp h]
      exact Nat.le_refl _
  | layer msg err ih =>
      have hlen := length_error_layer msg err
      rcases List.mem_cons.mp h with heq | hin
      · rw [heq]
        omega
      · have := ih hin
        omega

theorem error_mem_layers_iff : e.error ∈ e.layers ↔ e.Atomic := by
  cases e with
  | atom msg => exact ⟨fun _ => rfl, fun _ => List.mem_singleton_self _⟩
  | layer msg err =>
      have hlen := length_error_layer msg err
      refine ⟨fun h => ?_, fun h => by cases h⟩
      -- the text of all layers is longer than any one of them, by the separator at least
      rcases List.mem_cons.mp h with heq | hin
      · have := congrArg String.length heq
        omega
      · have := length_layer_le hin
        omega

theorem msg_mem_layers (e : Error) : e.msg ∈ e.layers := by
  cases e with
  | atom msg => exact List.mem_cons_self
  | layer msg err => exact List.mem_cons_self

theorem error_eq_msg_iff : w.error = w.msg ↔ w.Atomic := by
  refine ⟨fun h => error_mem_layers_iff.mp ?_, fun h => h.error_eq⟩
  rw [h]
  exact msg_mem_layers w

end Contained

/-! ## §3. Wrapping. -/

section Wrapping

variable {w e : Error}

theorem contains_wrap_iff (w : Error) (e b : GoError) :
    contains (wrap (some w) (some e)) (some b) = true ↔
      b.error = w.msg ∨ b.error ∈ (cast e).layers := by
  rw [wrap, contains_iff, Error.layers, List.mem_cons]

/-- Whatever is nil, wrapping an error loses nothing that it contains. -/
theorem contains_wrap {w a : Option Error} {b : Option GoError} (h : contains a b = true) :
    contains (wrap w (a.map .ours)) b = true := by
  cases w with
  | none => rfl
  | some w =>
      cases a with
      | none => rfl
      | some a =>
          cases b with
          | none => cases h
          | some b => exact (contains_wrap_iff w (.ours a) b).mpr (.inr ((contains_iff a b).mp h))

/-- **How `Contains` and `Wrap` go together.** A wrapped error is found again when it is
atomic, and the wrapper when that is; wrapping loses nothing that was found before; and
what is found in an error is what one of its layers says. -/
theorem chain_laws :
    (∀ w e : Error, contains (wrap (some w) (some (.ours e))) (some (.ours e)) = true ↔
      e.Atomic ∨ w.msg = e.error) ∧
    (∀ w e : Error, contains (wrap (some w) (some (.ours e))) (some (.ours w)) = true ↔
      w.Atomic ∨ w.error ∈ e.layers) ∧
    (∀ (w a : Option Error) (b : Option GoError), contains a b = true →
      contains (wrap w (a.map .ours)) b = true) ∧
    ∀ (c : Error) (e : GoError), contains (some c) (some e) = true ↔ e.error ∈ c.layers := by
  refine ⟨fun w e => ?_, fun w e => ?_, fun w a b h => contains_wrap h, contains_iff⟩
  -- in both the text is looked for in the wrapper's own message and in the layers of `e`
  · rw [contains_wrap_iff, or_comm]
    exact or_congr error_mem_layers_iff eq_comm
  · rw [contains_wrap_iff]
    exact or_congr_left error_eq_msg_iff

/-- An error of two layers is not found in what wraps it. -/
theorem nested_not_contained :
    ¬ ∀ w e : Error, contains (wrap (some w) (some (.ours e))) (some (.ours e)) = true ∧
      contains (wrap (some w) (some (.ours e))) (some (.ours w)) = true := by
  intro h
  have hlost := (h (new "Save user to DB failed")
    (.layer "email already taken" (new "duplicate key"))).1
  exact absurd hlost (by decide)

end Wrapping

/-! ## §4. The status of a response. -/

/-- The cases of `encodeError` of the users service, in order, with the text of each
error and the status that is written. -/
def statuses : List (String × Nat) :=
  [("malformed entity specification", 400), ("missing or invalid credentials provided", 403),
    ("email already taken", 409), ("unsupported content type", 415),
    ("failed to decode request body", 400), ("unexpected EOF", 400), ("EOF", 400),
    ("non-existent user", 400)]

/-- `encodeError`: the status, which is 200 when no case writes one, and the message in
the body. -/
def encodeError : GoError → Nat × Option String
  -- an error of another package is not looked into
  | .other _ => (500, none)
  | .ours e =>
      (match statuses.find? fun s => contains (some e) (some (.other s.1)) with
        | some s => s.2
        | none => 200,
        if e.msg = "" then none else some e.msg)

/-- The texts of the cases. -/
def caseTexts : List String := statuses.map Prod.fst

/-- Some layer says what one of the cases is looking for. -/
def Error.Meant (e : Error) : Prop := ∃ text ∈ caseTexts, text ∈ e.layers

instance (e : Error) : Decidable e.Meant :=
  inferInstanceAs (Decidable (∃ text ∈ caseTexts, text ∈ e.layers))

theorem Error.meant_layer {m : String} {e : Error} :
    (Error.layer m e).Meant ↔ m ∈ caseTexts ∨ e.Meant := by
  unfold Error.Meant
  constructor
  · intro ⟨text, htext, hin⟩
    rcases List.mem_cons.mp hin with heq | hin
    · exact .inl (heq ▸ htext)
    · exact .inr ⟨text, htext, hin⟩
  · intro h
    rcases h with h | ⟨text, htext, hin⟩
    · exact ⟨m, h, List.mem_cons_self⟩
    · exact ⟨text, htext, List.mem_cons_of_mem m hin⟩

/-- **A failure is reported as one when some layer says what a case is looking for**; an
error of another package always is. -/
theorem encodeError_ours (e : Error) : 400 ≤ (encodeError (.ours e)).1 ↔ e.Meant := by
  unfold encodeError
  dsimp only
  split
  next s hs =>
      have hstatus : ∀ s ∈ statuses, 400 ≤ s.2 := by decide
      have hmem := List.mem_of_find?_eq_some hs
      have hfound : contains (some e) (some (.other s.1)) = true :=
        List.find?_some (p := fun s : String × Nat => contains (some e) (some (.other s.1))) hs
      exact iff_of_true (hstatus s hmem)
        ⟨s.1, List.mem_map_of_mem hmem, (contains_iff e (.other s.1)).mp hfound⟩
  next hnone =>
      -- no case writes a status, and the first byte of the body sends 200
      refine iff_of_false (by decide) fun ⟨text, htext, hin⟩ => ?_
      obtain ⟨s, hs, heq⟩ := List.mem_map.mp htext
      refine List.find?_eq_none.mp hnone s hs ((contains_iff e (.other s.1)).mpr ?_)
      rw [← heq] at hin
      exact hin

/-- Wrapping in a message that is none of the cases keeps the status. -/
theorem encodeError_wrap {w e c : Error} (hc : wrap (some w) (some (.ours e)) = some c)
    (h : ∀ s ∈ statuses, s.1 ≠ w.msg) :
    (encodeError (.ours c)).1 = (encodeError (.ours e)).1 := by
  obtain rfl : Error.layer w.msg e = c := Option.some.inj hc
  have hfind : statuses.find? (fun s => contains (some (.layer w.msg e)) (some (.other s.1)))
      = statuses.find? fun s => contains (some e) (some (.other s.1)) := by
    -- case by case, the new layer matches none
    refine List.find?_congr fun s hs => ?_
    rw [Bool.eq_iff_iff, contains_iff, contains_iff, Error.layers, List.mem_cons]
    exact or_iff_right (h s hs)
  simp only [encodeError, hfind]

end Mainflux.Errors
