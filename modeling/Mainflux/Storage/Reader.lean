/-
  Mainflux.Storage.Reader
  ───────────────────────
  **READS OF THE INFLUXDB READER, AT THE SAME TIME.**

  `ReadAll` keeps the channel of its request in a variable of the package, and takes the
  database of both its queries from there.  The conditions of the queries name the channel
  itself.

    • `run_readAll` — alone, a call is `readAll` of `Storage.Influx`;
    • `reads_as_alone` — every call returns what it returns alone, as long as nobody
      assigns another channel while a call has still to read the variable;
    • `north_reads_south` — two calls, and one schedule.
-/
import Mainflux.Lib.Prog
import Mainflux.Storage.Readback

namespace Mainflux.Storage.Reader

open Mainflux.Lib

open Mainflux.Messaging

variable {Num : Type}

/-! ## §1. The calls. -/

/-- The arguments of `ReadAll`; of a map the filters in the order of its iteration. -/
structure Request where
  chanID : Text
  offset : Nat
  limit : Nat
  query : List (Filter × Text)

/-- What a call does: to the variable `q_channel`, and to InfluxDB. -/
inductive Cmd
  | assign (channel : Text)
  | load
  | select (database : Text) (i : Request)
  | count (database : Text) (i : Request)

def sig (Num : Type) : Signature where
  Cmd := Cmd
  Res
    | .assign _ => Unit
    | .load => Text
    | .select _ _ => Option (List (Series × Fields Num))
    | .count _ _ => Option Nat

def ask (c : Cmd) : Prog (sig Num) ((sig Num).Res c) := .call c .ret

/-- `count`. -/
def count (i : Request) : Prog (sig Num) (Option Nat) := do
  -- the variable is read again: it need not be what the first query was sent to
  let qChannel ← ask .load
  ask (.count qChannel i)

/-- `ReadAll`, from the response to its first query on. -/
def readRest (rt : Runtime Num) (i : Request) :
    Option (List (Series × Fields Num)) → Prog (sig Num) (Option (Page Num))
  | none => return none
  -- without a series in the response nothing is counted
  | some [] => return some {}
  | some (row :: rows) => do
      match ← count i with
      | none => return none
      | some total =>
          return some
            { total := total
              offset := i.offset
              limit := i.limit
              messages := (row :: rows).map (parseMessage rt) }

/-- `ReadAll`; `none` for an error. -/
def readAll (rt : Runtime Num) (i : Request) : Prog (sig Num) (Option (Page Num)) := do
  ask (.assign i.chanID)
  let qChannel ← ask .load
  readRest rt i (← ask (.select qChannel i))

/-! ## §2. The database. -/

/-- A database that does not change: its answers; `none` for an error. -/
structure Store (Num : Type) where
  select : Text → Request → Option (List (Series × Fields Num))
  count : Text → Request → Option Nat

/-- The state is the value of `q_channel`. -/
def handler (store : Store Num) : Handler (sig Num) Text
  | .assign channel, _ => (channel, ())
  | .load, qChannel => (qChannel, qChannel)
  | .select database i, qChannel => (qChannel, store.select database i)
  | .count database i, qChannel => (qChannel, store.count database i)

/-- The rows of a database for the condition of a request. -/
def selectIn (s : Influx Num) (database : Text) (i : Request) : List (Series × Fields Num) :=
  -- the database is that of the query, the channel that of the condition
  (s.rows.entries.map fun e => (e.1, e.2)).filter fun row =>
    row.1.database = database && row.1.measurement = messagesWord &&
      row.1.tags.channel = i.chanID && i.query.all fun q => q.1.holds q.2 row

/-- InfluxDB. -/
def influx (s : Influx Num) : Store Num where
  select database i :=
    if s.databases.contains database then some (page i.offset i.limit (selectIn s database i))
    else none
  count database i :=
    if s.databases.contains database then
      some ((selectIn s database i).countP (·.2.protocol.isSome))
    else none

/-- What a call returns when it runs alone. -/
def alone (rt : Runtime Num) (store : Store Num) (i : Request) : Option (Page Num) :=
  ((readAll rt i).run (handler store) []).2

/-- **Alone, a call is the reader of `Storage.Influx`.** -/
theorem run_readAll (rt : Runtime Num) (s : Influx Num) (i : Request) (qChannel : Text) :
    ((readAll rt i).run (handler (influx s)) qChannel).2
      = Storage.readAll rt s i.chanID i.offset i.limit i.query := by
  have hselect : selectIn s i.chanID i = s.select i.chanID i.query := rfl
  have hrun : (readAll rt i).run (handler (influx s)) qChannel
      = (readRest rt i ((influx s).select i.chanID i)).run (handler (influx s)) i.chanID := rfl
  unfold Storage.readAll
  rw [hrun, ← hselect]
  by_cases hdb : i.chanID ∈ s.databases
  · have hthere : s.databases.contains i.chanID = true := List.contains_iff_mem.mpr hdb
    have hrows : (influx s).select i.chanID i
        = some (page i.offset i.limit (selectIn s i.chanID i)) := if_pos hthere
    have hcount : (influx s).count i.chanID i
        = some ((selectIn s i.chanID i).countP (·.2.protocol.isSome)) := if_pos hthere
    rw [if_neg (not_not_intro hdb), hrows]
    cases page i.offset i.limit (selectIn s i.chanID i) with
    | nil => rfl
    | cons row rows =>
        have hcountRun : (count i).run (handler (influx s)) i.chanID
            = (i.chanID, (influx s).count i.chanID i) := rfl
        rw [readRest, Prog.run_bind, hcountRun, hcount]
        rfl
  · have hrows : (influx s).select i.chanID i = none :=
      if_neg fun hthere => hdb (List.contains_iff_mem.mp hthere)
    rw [if_pos hdb, hrows]
    rfl

/-! ## §3. Calls under way. -/

/-- The variable, and the calls under way. -/
abbrev Calls (Num : Type) := Pool (sig Num) Text Request (Option (Page Num))

def step (rt : Runtime Num) (store : Store Num) (p : Calls Num) (a : Act Request) : Calls Num :=
  p.act (handler store) (readAll rt) a

/-- **Every call that has returned has returned what it returns alone.** -/
def Independent (rt : Runtime Num) (store : Store Num) (p : Calls Num) : Prop :=
  ∀ n i r, p.returned n = some (i, r) → r = alone rt store i

/-- The program does not read the variable any more, unless it assigns it before. -/
def Settled : Prog (sig Num) (Option (Page Num)) → Prop
  | .ret _ => True
  | .call (.assign _) _ => True
  | .call .load _ => False
  | .call (.select _ _) k => ∀ r, Settled (k r)
  | .call (.count _ _) k => ∀ r, Settled (k r)

/-- A channel is assigned only when no call for another one has still to read it. -/
def Exclusive (p : Calls Num) (a : Act Request) : Prop :=
  ∀ n i q channel, a = .step n → p.threads[n]? = some (i, q) → q.next = some (.assign channel) →
    ∀ m j q', m ≠ n → p.threads[m]? = some (j, q') → j.chanID ≠ channel → Settled q'

/-! ## §4. One step. -/

/-- The program assigns no channel but its own. -/
def AssignsOwn (i : Request) (q : Prog (sig Num) (Option (Page Num))) : Prop :=
  q.Uses fun c => ∀ channel, c = Cmd.assign channel → channel = i.chanID

theorem assignsOwn_readAll (rt : Runtime Num) (i : Request) : AssignsOwn i (readAll rt i) := by
  refine ⟨fun channel h => (Cmd.assign.inj h).symm, fun _ => ?_⟩
  -- the page query, and for a page with rows the count
  refine ⟨fun channel h => (by cases h), fun qChannel => ?_⟩
  refine ⟨fun channel h => (by cases h), fun rows => ?_⟩
  match rows with
  | none => trivial
  | some [] => trivial
  | some (row :: rows) =>
      refine ⟨fun channel h => (by cases h), fun qChannel => ?_⟩
      refine ⟨fun channel h => (by cases h), fun total => ?_⟩
      cases total with
      | none => trivial
      | some total => trivial

/-- What a settled program returns does not depend on the variable. -/
theorem run_settled (store : Store Num) {q : Prog (sig Num) (Option (Page Num))} (h : Settled q)
    (v w : Text) : (q.run (handler store) v).2 = (q.run (handler store) w).2 := by
  induction q generalizing v w with
  | ret r => rfl
  | call c k ih =>
      cases c with
      -- what was in the variable is overwritten
      | assign channel => rfl
      | load => exact absurd h (fun h => h)
      | select database i => exact ih _ (h _) v w
      | count database i => exact ih _ (h _) v w

/-- A call that goes on to return what it returns alone, from the value `v` of the
variable. -/
structure OnCourse (rt : Runtime Num) (store : Store Num) (v : Text)
    (t : Request × Prog (sig Num) (Option (Page Num))) : Prop where
  own : AssignsOwn t.1 t.2
  channel : Settled t.2 ∨ v = t.1.chanID
  result : (t.2.run (handler store) v).2 = alone rt store t.1

section Step

variable {rt : Runtime Num} {store : Store Num} {v : Text}

theorem onCourse_readAll (rt : Runtime Num) (store : Store Num) (v : Text) (i : Request) :
    OnCourse rt store v (i, readAll rt i) where
  own := assignsOwn_readAll rt i
  channel := .inl trivial
  result := run_settled store (q := readAll rt i) trivial v []

/-- The call that takes the step. -/
theorem OnCourse.called {i : Request} {c : Cmd}
    {k : (sig Num).Res c → Prog (sig Num) (Option (Page Num))}
    (h : OnCourse rt store v (i, .call c k)) :
    OnCourse rt store (handler store c v).1 (i, k (handler store c v).2) where
  own := h.own.2 _
  channel := by
    cases c with
    | assign channel => exact .inr (h.own.1 channel rfl)
    | load =>
        -- it is about to read, so it is not settled
        have hv : v = i.chanID := h.channel.resolve_left fun hsettled => hsettled
        exact .inr hv
    | select database i => exact h.channel.imp_left fun hsettled => hsettled _
    | count database i => exact h.channel.imp_left fun hsettled => hsettled _
  result := h.result

/-- Another call assigns its channel. -/
theorem OnCourse.assigned {t : Request × Prog (sig Num) (Option (Page Num))}
    (h : OnCourse rt store v t) {channel : Text} (hex : t.1.chanID ≠ channel → Settled t.2) :
    OnCourse rt store channel t := by
  have hcases : Settled t.2 ∨ v = t.1.chanID ∧ channel = t.1.chanID := by
    by_cases hchannel : t.1.chanID = channel
    · exact h.channel.imp_right fun hv => ⟨hv, hchannel.symm⟩
    · exact .inl (hex hchannel)
  rcases hcases with hsettled | ⟨rfl, rfl⟩
  · exact ⟨h.own, .inl hsettled, (run_settled store hsettled channel v).trans h.result⟩
  · exact h

/-- **A step leaves every call on its course.** -/
theorem onCourse_step {p : Calls Num} {a : Act Request}
    (h : ∀ (n : Nat) t, p.threads[n]? = some t → OnCourse rt store p.st t) (hex : Exclusive p a) :
    ∀ (n : Nat) t, (step rt store p a).threads[n]? = some t → OnCourse rt store (step rt store p a).st t := by
  rcases Pool.act_cases (handler store) (readAll rt) p a with hsame | ⟨i, rfl, hnew⟩ |
    ⟨n, i, c, k, rfl, hn, hcall⟩
  · rw [step, hsame]
    exact h
  · rw [step, hnew]
    intro m t ht
    rcases Pool.thread_append ht with hold | rfl
    · exact h m t hold
    · exact onCourse_readAll rt store p.st i
  · rw [step, hcall]
    intro m t ht
    rcases Pool.thread_set ht with ⟨-, rfl⟩ | ⟨hne, hold⟩
    · exact (h n _ hn).called
    · -- of the steps of another call only an assignment is felt
      cases c with
      | assign channel =>
          exact (h m t hold).assigned (hex n i _ channel rfl hn rfl m t.1 t.2 hne hold)
      | load => exact h m t hold
      | select database i => exact h m t hold
      | count database i => exact h m t hold

end Step

/-! ## §5. Runs. -/

/-- **Every call returns what it returns alone**, in every run in which a channel is
assigned only when no call for another one has still to read the variable. -/
theorem reads_as_alone (rt : Runtime Num) (store : Store Num) (qChannel : Text)
    (acts : List (Act Request)) (h : Along (step rt store) Exclusive ⟨qChannel, []⟩ acts) :
    Independent rt store (run (step rt store) ⟨qChannel, []⟩ acts) := by
  -- every call is on its course after every step, also those that have returned
  have hcourse := run_inv (fun p a hp ha => onCourse_step (p := p) hp ha)
    (fun n t ht => by cases ht) h
  intro n i r hreturned
  unfold Pool.returned at hreturned
  split at hreturned
  next i' r' hn =>
      cases hreturned
      exact (hcourse n _ hn).result
  next => cases hreturned

/-- Calls for one channel do not disturb each other. -/
theorem along_exclusive_same (rt : Runtime Num) (store : Store Num) (channel qChannel : Text)
    {acts : List (Act Request)} (h : ∀ i, .spawn i ∈ acts → i.chanID = channel) :
    Along (step rt store) Exclusive ⟨qChannel, []⟩ acts := by
  have hspawns : Along (step rt store) (fun _ a => ∀ i, a = .spawn i → i.chanID = channel)
      ⟨qChannel, []⟩ acts := along_of_mem fun a ha _ i hi => h i (hi ▸ ha)
  refine Along.of_inv (I := fun p : Calls Num => ∀ (n : Nat) t, p.threads[n]? = some t →
    t.1.chanID = channel ∧ AssignsOwn t.1 t.2) (fun p a hp ha => ?_) (fun p a hp _ => ?_)
    (fun n t ht => by cases ht) hspawns
  · rcases Pool.act_cases (handler store) (readAll rt) p a with hsame | ⟨i, rfl, hnew⟩ |
      ⟨n, i, c, k, rfl, hn, hcall⟩
    · rw [step, hsame]
      exact hp
    · rw [step, hnew]
      intro m t ht
      rcases Pool.thread_append ht with hold | rfl
      · exact hp m t hold
      · exact ⟨ha i rfl, assignsOwn_readAll rt i⟩
    · rw [step, hcall]
      intro m t ht
      rcases Pool.thread_set ht with ⟨-, rfl⟩ | ⟨-, hold⟩
      · exact ⟨(hp n _ hn).1, (hp n _ hn).2.2 _⟩
      · exact hp m t hold
  · -- what is assigned is the one channel of all
    intro n i q channel' _ hn hnext m j q' _ hm hne
    obtain ⟨hi, hown⟩ := hp n (i, q) hn
    cases q with
    | ret r => cases hnext
    | call c k =>
        obtain rfl : c = .assign channel' := Option.some.inj hnext
        exact absurd ((hp m (j, q') hm).1.trans (hi.symm.trans (hown.1 channel' rfl).symm)) hne

/-! ## §6. North and south. -/

def north : Text := ['n']

def south : Text := ['s']

/-- A row of a channel. -/
def row (channel : Text) : Series × Fields Int :=
  ({ database := channel
     measurement := messagesWord
     tags := ⟨channel, [], ['t'], [], ['a'], []⟩
     time := 1000000000 },
    { protocol := some ['m', 'q', 't', 't'], updateTime := some ['0'], value := some 5 })

/-- Each of two channels has one message. -/
def bothStored : Influx Int where
  databases := [north, south]
  rows := Series.putAll Fields.merge ∅ [row north, row south]

def reading (channel : Text) : Request := ⟨channel, 0, 10, []⟩

/-- The whole of one call. -/
def readAlone (n : Nat) : List (Act Request) := List.replicate 5 (.step n)

theorem page_one (channel : Text) : page 0 10 [row channel] = [row channel] := by
  simp [page]

/-- Alone, a call for the north returns its message. -/
theorem alone_north :
    alone wholeNumbers (influx bothStored) (reading north)
      = some ⟨1, 0, 10, [parseMessage wholeNumbers (row north)]⟩ := by
  have hselect : bothStored.select north [] = [row north] := by rfl
  rw [alone, run_readAll]
  show Storage.readAll wholeNumbers bothStored north 0 10 [] = _
  rw [Storage.readAll, if_neg (by decide), hselect, page_one]
  rfl

/-- Two calls for the north, the second of them between the queries of the first. -/
def twice : List (Act Request) :=
  [.spawn (reading north), .spawn (reading north), .step 0, .step 1, .step 0, .step 1, .step 0]
    ++ [.step 0, .step 0]

/-- The first of them returns what it returns alone. -/
theorem reads_as_alone_twice :
    Independent wholeNumbers (influx bothStored)
        (run (step wholeNumbers (influx bothStored)) ⟨[], []⟩ twice) ∧
      (run (step wholeNumbers (influx bothStored)) ⟨[], []⟩ twice).returned 0
        = some (reading north, some ⟨1, 0, 10, [parseMessage wholeNumbers (row north)]⟩) := by
  refine ⟨reads_as_alone _ _ _ _ (along_exclusive_same _ _ north [] ?_), ?_⟩
  · intro i hi
    have hspawned : i = reading north := by
      simpa [twice] using hi
    rw [hspawned]
    rfl
  · have hrows : (influx bothStored).select north (reading north) = some [row north] := by
      have hselect : selectIn bothStored north (reading north) = [row north] := rfl
      have hthere : bothStored.databases.contains north = true := by decide
      simp only [influx, hselect, hthere, if_true]
      exact congrArg some (page_one north)
    have hthread : (run (step wholeNumbers (influx bothStored)) ⟨[], []⟩
        [.spawn (reading north), .spawn (reading north), .step 0, .step 1, .step 0, .step 1,
          .step 0])
        = ⟨north, [(reading north, readRest wholeNumbers (reading north) (some [row north])),
            (reading north,
              .call (.select north (reading north)) (readRest wholeNumbers (reading north)))]⟩ := by
      rw [← hrows]
      rfl
    rw [twice, run_append, hthread]
    rfl

/-- Both calls assign their channels; then the one for the north reads. -/
def bothAssign : List (Act Request) :=
  [.spawn (reading north), .spawn (reading south), .step 0, .step 1, .step 0, .step 0]

/-- **A call for the north asks the database of the south**, and finds nothing there. -/
theorem north_reads_south :
    ¬ ∀ (s : Influx Int) (qChannel : Text) (acts : List (Act Request)),
      Independent wholeNumbers (influx s)
        (run (step wholeNumbers (influx s)) ⟨qChannel, []⟩ acts) := by
  intro h
  have hnothing : (influx bothStored).select south (reading north) = some [] := by
    have hselect : selectIn bothStored south (reading north) = [] := rfl
    have hthere : bothStored.databases.contains south = true := by decide
    simp only [influx, hselect, hthere, if_true]
    simp [page]
  have hreturned : (run (step wholeNumbers (influx bothStored)) ⟨[], []⟩ bothAssign).returned 0
      = some (reading north, some {}) := by
    have hthread : (run (step wholeNumbers (influx bothStored)) ⟨[], []⟩ bothAssign).threads[0]?
        = some (reading north,
            readRest wholeNumbers (reading north)
              ((influx bothStored).select south (reading north))) := rfl
    rw [Pool.returned, hthread, hnothing]
    rfl
  have hpage := h bothStored [] bothAssign 0 _ _ hreturned
  rw [alone_north] at hpage
  cases hpage

end Mainflux.Storage.Reader
