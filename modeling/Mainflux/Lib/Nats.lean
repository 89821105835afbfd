/-
  Mainflux.Lib.Nats
  ─────────────────
  **A CONNECTION TO A BROKER: control lines and payloads.**

  A client of NATS writes operations one behind the other: a control line, whose fields
  are separated by blanks, and behind that of a publication its payload.  Nothing in a
  control line is escaped, so what the broker reads is what the client meant only as long
  as no field has a blank in it.

    • `readOps_append` — what was read before does not depend on what comes behind;
    • `readOps_written_iff` — exactly when a stream of operations is read as it was meant.
-/
import Mathlib.Data.List.TakeWhile
import Mainflux.Lib.FlatJson
import Mainflux.Lib.Text

namespace Mainflux.Lib.Nats

open FlatJson (writeNat readNat toBytes ofBytes)

/-! ## §1. Operations. -/

inductive Op
  | pub (subject : Text) (reply : Option Text) (data : List UInt8)
  | sub (subject : Text) (queue : Option Text) (sid : Text)
  | unsub (sid : Text) (max : Option Text)
  | ping
  | pong
  deriving DecidableEq

def isBlank (c : Char) : Bool := c == ' ' || c == '\t' || c == '\r' || c == '\n'

def crlf : Text := ['\r', '\n']

/-- What a field of a control line is: not empty and without blanks. -/
def Word (s : Text) : Prop := s ≠ [] ∧ ∀ c ∈ s, isBlank c = false

theorem word_of_all {s : Text} (h : (!s.isEmpty && s.all fun c => !isBlank c) = true) : Word s := by
  obtain ⟨hne, hall⟩ := Bool.and_eq_true_iff.mp h
  refine ⟨?_, fun c hc => Bool.not_eq_true' _ |>.mp (List.all_eq_true.mp hall c hc)⟩
  rintro rfl
  cases hne

/-! ## §2. The client. -/

/-- `publish`, without a reply subject. -/
def publish (subject : Text) (data : List UInt8) : Text :=
  ['P', 'U', 'B', ' '] ++ subject ++ ' ' :: writeNat data.length ++ crlf ++ ofBytes data ++ crlf

/-- `subProto`; without a queue group it has two blanks in a row. -/
def subscribe (subject queue : Text) (sid : Nat) : Text :=
  ['S', 'U', 'B', ' '] ++ subject ++ ' ' :: queue ++ ' ' :: writeNat sid ++ crlf

/-- `unsubProto`, without a limit. -/
def unsubscribe (sid : Nat) : Text :=
  ['U', 'N', 'S', 'U', 'B', ' '] ++ writeNat sid ++ ' ' :: crlf

/-! ## §3. The broker. -/

/-- The first line, and what is behind it. -/
def controlLine (s : Text) : Option (Text × Text) :=
  match s.dropWhile (· ≠ '\n') with
  | [] => none
  | _ :: rest => some (s.takeWhile (· ≠ '\n'), rest)

/-- The pieces between blanks. -/
def words (s : Text) : List Text := (s.splitOnP isBlank).filter (· ≠ [])

inductive Verb
  | pub
  | sub
  | unsub
  | ping
  | pong
  deriving DecidableEq

def Verb.name : Verb → Text
  | .pub => ['P', 'U', 'B']
  | .sub => ['S', 'U', 'B']
  | .unsub => ['U', 'N', 'S', 'U', 'B']
  | .ping => ['P', 'I', 'N', 'G']
  | .pong => ['P', 'O', 'N', 'G']

/-- What a control line starts with, in any case. -/
def verb (line : Text) : Option Verb :=
  [.pub, .sub, .unsub, .ping, .pong].find? fun v =>
    (line.takeWhile fun c => !isBlank c).map Char.toUpper = v.name

/-- What it names behind that. -/
def fields (line : Text) : List Text := words (line.dropWhile fun c => !isBlank c)

inductive Reading
  | op (o : Op) (rest : Text)
  /-- More bytes are needed. -/
  | incomplete
  /-- The connection is closed. -/
  | violation
  deriving DecidableEq

/-- The payload of a publication, with the line end behind it. -/
def payload (subject : Text) (reply : Option Text) (size rest : Text) : Reading :=
  if size.all Char.isDigit then
    if rest.length < readNat size + 2 then .incomplete
    else if (rest.drop (readNat size)).take 2 = crlf then
      .op (.pub subject reply (toBytes (rest.take (readNat size)))) (rest.drop (readNat size + 2))
    else .violation
  else .violation

/-- A control line with what is behind it. -/
def perform : Verb → List Text → Text → Reading
  | .pub, [subject, size], rest => payload subject none size rest
  | .pub, [subject, reply, size], rest => payload subject (some reply) size rest
  | .sub, [subject, sid], rest => .op (.sub subject none sid) rest
  | .sub, [subject, queue, sid], rest => .op (.sub subject (some queue) sid) rest
  | .unsub, [sid], rest => .op (.unsub sid none) rest
  | .unsub, [sid, max], rest => .op (.unsub sid (some max)) rest
  | .ping, [], rest => .op .ping rest
  | .pong, [], rest => .op .pong rest
  | _, _, _ => .violation

/-- The first operation of a stream. -/
def readOp (s : Text) : Reading :=
  match controlLine s with
  | none => .incomplete
  | some (line, rest) =>
      match verb line with
      | none => .violation
      | some v => perform v (fields line) rest

/-- The operations of a stream, and the bytes that are left for later; `none` when the
connection is closed. -/
def readFrom : Nat → Text → List Op × Option Text
  | 0, s => ([], some s)
  | fuel + 1, s =>
      match readOp s with
      | .incomplete => ([], some s)
      | .violation => ([], none)
      | .op o rest => (o :: (readFrom fuel rest).1, (readFrom fuel rest).2)

-- an operation takes at least one byte
def readOps (s : Text) : List Op × Option Text := readFrom s.length s

/-! ## §4. What a control line is made of. -/

theorem words_nil : words [] = [] := rfl

theorem words_blank {c : Char} (h : isBlank c = true) (s : Text) : words (c :: s) = words s := by
  rw [words, List.splitOnP_cons_eq_if_modifyHead, if_pos h, List.filter_cons_of_neg (by simp)]
  rfl

theorem words_append {w : Text} (hw : Word w) {c : Char} (h : isBlank c = true) (s : Text) :
    words (w ++ c :: s) = w :: words s := by
  rw [words, List.splitOnP_append_cons_of_forall_mem hw.2 c h,
    List.filter_cons_of_pos (by simpa using hw.1)]
  rfl

theorem mem_splitOnP {p : Char → Bool} {s l : Text} (h : l ∈ s.splitOnP p) :
    ∀ c ∈ l, p c = false := by
  induction s generalizing l with
  | nil =>
      rw [List.splitOnP_nil, List.mem_singleton] at h
      rw [h]
      exact fun c hc => nomatch hc
  | cons d s ih =>
      rw [List.splitOnP_cons_eq_if_modifyHead] at h
      cases hs : s.splitOnP p with
      | nil => exact absurd hs (List.splitOnP_ne_nil p s)
      | cons l' ls =>
          rw [hs] at h ih
          split at h
          · rcases List.mem_cons.mp h with rfl | h
            · exact fun c hc => nomatch hc
            · exact ih h
          next hd =>
              rw [List.modifyHead_cons] at h
              rcases List.mem_cons.mp h with rfl | h
              · intro c hc
                rcases List.mem_cons.mp hc with rfl | hc
                · exact Bool.eq_false_iff.mpr hd
                · exact ih List.mem_cons_self c hc
              · exact ih (List.mem_cons_of_mem _ h)

theorem word_of_mem_words {s w : Text} (h : w ∈ words s) : Word w := by
  obtain ⟨hmem, hne⟩ := List.mem_filter.mp h
  exact ⟨of_decide_eq_true hne, mem_splitOnP hmem⟩

theorem controlLine_append {line : Text} (h : '\n' ∉ line) (rest : Text) :
    controlLine (line ++ '\n' :: rest) = some (line, rest) := by
  have hline := Text.decide_ne_of_not_mem h
  rw [controlLine, List.dropWhile_append_of_pos hline, List.takeWhile_append_of_pos hline]
  simp

/-- More bytes do not change the first line. -/
theorem controlLine_extend {s line rest : Text} (h : controlLine s = some (line, rest)) (t : Text) :
    controlLine (s ++ t) = some (line, rest ++ t) ∧ rest.length < s.length := by
  unfold controlLine at h
  split at h
  next => cases h
  next c r hdrop =>
      obtain ⟨rfl, rfl⟩ := Prod.mk.inj (Option.some.inj h)
      have hc : c = '\n' := by
        have hne : s.dropWhile (· ≠ '\n') ≠ [] := by
          rw [hdrop]
          exact List.cons_ne_nil c r
        have hhead := List.head_dropWhile_not (· ≠ '\n') hne
        simp only [hdrop, List.head_cons] at hhead
        simpa using hhead
      have hs : s = s.takeWhile (· ≠ '\n') ++ '\n' :: r := by
        subst hc
        rw [← hdrop, List.takeWhile_append_dropWhile]
      have hno : '\n' ∉ s.takeWhile (· ≠ '\n') := fun hin => by
        simpa using List.mem_takeWhile_imp hin
      refine ⟨?_, ?_⟩
      · conv_lhs => rw [hs, List.append_assoc, List.cons_append]
        exact controlLine_append hno _
      · have hlen := congrArg List.length hs
        rw [List.length_append, List.length_cons] at hlen
        omega

theorem word_writeNat (n : Nat) : Word (writeNat n) := by
  refine ⟨FlatJson.writeNat_ne_nil n, fun c hc => ?_⟩
  have hdigit := FlatJson.isDigit_of_mem_writeNat hc
  rw [Bool.eq_false_iff]
  intro hblank
  simp only [isBlank, Bool.or_eq_true, beq_iff_eq] at hblank
  rcases hblank with ((rfl | rfl) | rfl) | rfl <;> cases hdigit

theorem readNat_writeNat (n : Nat) : readNat (writeNat n) = n :=
  FlatJson.readNat_digits (n + 1) n (Nat.lt_succ_self n)

theorem toNat_charOfNat : ∀ n < 256, (Char.ofNat n).toNat = n := by decide +kernel

theorem toBytes_ofBytes (bs : List UInt8) : toBytes (ofBytes bs) = bs := by
  rw [toBytes, ofBytes, List.map_map]
  refine List.map_id'' (fun b => ?_) bs
  rw [Function.comp_apply, toNat_charOfNat b.toNat b.toNat_lt]
  exact UInt8.ofNat_toNat

/-! ## §5. One operation. -/

theorem Word.newline {w : Text} (h : Word w) : '\n' ∉ w := fun hin =>
  absurd (h.2 _ hin) (by decide)

/-- A control line is carried out with what is behind it. -/
theorem readOp_line (v : Verb) {body : Text} (hbody : '\n' ∉ body) (rest : Text) :
    readOp ((v.name ++ ' ' :: body) ++ '\n' :: rest) = perform v (words body) rest := by
  have hname : ∀ c ∈ v.name, (!isBlank c) = true := List.all_eq_true.mp (by cases v <;> rfl)
  have htake : ((v.name ++ ' ' :: body).takeWhile fun c => !isBlank c) = v.name := by
    rw [List.takeWhile_append_of_pos hname]
    exact List.append_nil _
  have hverb : verb (v.name ++ ' ' :: body) = some v := by
    rw [verb, htake]
    cases v <;> decide
  have hfields : fields (v.name ++ ' ' :: body) = words body := by
    rw [fields, List.dropWhile_append_of_pos hname]
    exact words_blank rfl body
  have hline : '\n' ∉ v.name ++ ' ' :: body := by
    intro hin
    rcases List.mem_append.mp hin with hin | hin
    · exact absurd (hname _ hin) (by decide)
    · rcases List.mem_cons.mp hin with hin | hin
      · exact absurd hin (by decide)
      · exact hbody hin
  simp only [readOp, controlLine_append hline, hverb, hfields]

theorem payload_publish (subject : Text) (data : List UInt8) (rest : Text) :
    payload subject none (writeNat data.length) (ofBytes data ++ (crlf ++ rest))
      = .op (.pub subject none data) rest := by
  have hdigits : (writeNat data.length).all Char.isDigit = true :=
    List.all_eq_true.mpr fun c hc => FlatJson.isDigit_of_mem_writeNat hc
  have hlen : (ofBytes data).length = data.length := List.length_map _
  have hroom : ¬ (ofBytes data ++ (crlf ++ rest)).length < data.length + 2 := by
    rw [List.length_append, List.length_append, hlen]
    have hcrlf : crlf.length = 2 := rfl
    omega
  have hdrop : (ofBytes data ++ (crlf ++ rest)).drop data.length = crlf ++ rest := by
    rw [← hlen, List.drop_left]
  have hcrlf : (crlf ++ rest).take 2 = crlf := List.take_left' rfl
  rw [payload, if_pos hdigits, readNat_writeNat, if_neg hroom, hdrop, if_pos hcrlf,
    ← List.drop_drop, hdrop, ← hlen, List.take_left, toBytes_ofBytes]
  rfl

section One

variable {subject : Text} {s rest : Text} {o : Op}

/-- **A publication is read as it was meant.** -/
theorem readOp_publish (h : Word subject) (data : List UInt8) (rest : Text) :
    readOp (publish subject data ++ rest) = .op (.pub subject none data) rest := by
  have hshape : publish subject data ++ rest
      = (Verb.pub.name ++ ' ' :: (subject ++ ' ' :: (writeNat data.length ++ ['\r'])))
        ++ '\n' :: (ofBytes data ++ (crlf ++ rest)) := by
    simp [publish, crlf, Verb.name]
  have hbody : '\n' ∉ subject ++ ' ' :: (writeNat data.length ++ ['\r']) := by
    simp [h.newline, (word_writeNat data.length).newline]
  rw [hshape, readOp_line .pub hbody, words_append h rfl, words_append (word_writeNat _) rfl,
    words_nil]
  exact payload_publish subject data rest

/-- The queue group that is meant; the empty text means none. -/
def group (queue : Text) : Option Text := if queue = [] then none else some queue

/-- **And so is a subscription.** -/
theorem readOp_subscribe (h : Word subject) {queue : Text} (hq : queue = [] ∨ Word queue) (sid : Nat)
    (rest : Text) :
    readOp (subscribe subject queue sid ++ rest) = .op (.sub subject (group queue) (writeNat sid)) rest := by
  have hshape : subscribe subject queue sid ++ rest
      = (Verb.sub.name ++ ' ' :: (subject ++ ' ' :: (queue ++ ' ' :: (writeNat sid ++ ['\r']))))
        ++ '\n' :: rest := by
    simp [subscribe, crlf, Verb.name]
  rw [hshape]
  rcases hq with rfl | hq
  · have hbody : '\n' ∉ subject ++ ' ' :: ([] ++ ' ' :: (writeNat sid ++ ['\r'])) := by
      simp [h.newline, (word_writeNat sid).newline]
    rw [readOp_line .sub hbody, words_append h rfl, List.nil_append, words_blank rfl,
      words_append (word_writeNat _) rfl, words_nil, group, if_pos rfl]
    rfl
  · have hbody : '\n' ∉ subject ++ ' ' :: (queue ++ ' ' :: (writeNat sid ++ ['\r'])) := by
      simp [h.newline, hq.newline, (word_writeNat sid).newline]
    rw [readOp_line .sub hbody, words_append h rfl, words_append hq rfl,
      words_append (word_writeNat _) rfl, words_nil, group, if_neg hq.1]
    rfl

theorem readOp_unsubscribe (sid : Nat) (rest : Text) :
    readOp (unsubscribe sid ++ rest) = .op (.unsub (writeNat sid) none) rest := by
  have hshape : unsubscribe sid ++ rest
      = (Verb.unsub.name ++ ' ' :: (writeNat sid ++ ' ' :: ['\r'])) ++ '\n' :: rest := by
    simp [unsubscribe, crlf, Verb.name]
  have hbody : '\n' ∉ writeNat sid ++ ' ' :: ['\r'] := by
    simp [(word_writeNat sid).newline]
  rw [hshape, readOp_line .unsub hbody, words_append (word_writeNat _) rfl, words_blank rfl, words_nil]
  rfl

/-- The fields of an operation. -/
def Op.fields : Op → List Text
  | .pub subject reply _ => subject :: reply.toList
  | .sub subject queue sid => subject :: queue.toList ++ [sid]
  | .unsub sid max => sid :: max.toList
  | .ping => []
  | .pong => []

/-- The same verdict, with more bytes behind. -/
def Reading.extend (t : Text) : Reading → Reading
  | .op o rest => .op o (rest ++ t)
  | .incomplete => .incomplete
  | .violation => .violation

/-- Once there is a payload, more bytes do not change it. -/
theorem payload_extend {reply : Option Text} {size : Text}
    (h : payload subject reply size s ≠ .incomplete) (t : Text) :
    payload subject reply size (s ++ t) = (payload subject reply size s).extend t := by
  unfold payload at h ⊢
  by_cases hdigits : size.all Char.isDigit
  · rw [if_pos hdigits] at h ⊢
    by_cases hroom : s.length < readNat size + 2
    · exact absurd (if_pos hroom) h
    · have hroom' : ¬ (s ++ t).length < readNat size + 2 := by
        rw [List.length_append]
        omega
      rw [if_pos hdigits, if_neg hroom, if_neg hroom', List.drop_append_of_le_length (by omega),
        List.take_append_of_le_length (by rw [List.length_drop]; omega),
        List.take_append_of_le_length (by omega), List.drop_append_of_le_length (by omega)]
      by_cases hcrlf : (s.drop (readNat size)).take 2 = crlf
      · rw [if_pos hcrlf, if_pos hcrlf]
        rfl
      · rw [if_neg hcrlf, if_neg hcrlf]
        rfl
  · rw [if_neg hdigits, if_neg hdigits]
    rfl

theorem payload_eq_op {reply : Option Text} {size : Text}
    (h : payload subject reply size s = .op o rest) :
    (∃ data, o = .pub subject reply data) ∧ rest.length ≤ s.length := by
  unfold payload at h
  split at h
  · split at h
    · cases h
    · split at h
      · obtain ⟨rfl, rfl⟩ := Reading.op.inj h
        exact ⟨⟨_, rfl⟩, by rw [List.length_drop]; omega⟩
      · cases h
  · cases h

/-- What a control line comes to, whatever is behind it: a publication with a payload, an operation
of its own, or none. -/
theorem perform_cases (v : Verb) (args : List Text) :
    (∃ subject reply size, (∀ s, perform v args s = payload subject reply size s) ∧
      ∀ w ∈ subject :: reply.toList, w ∈ args) ∨
    (∃ o, (∀ s, perform v args s = .op o s) ∧ ∀ w ∈ o.fields, w ∈ args) ∨
    ∀ s, perform v args s = .violation := by
  match v, args with
  | .pub, [] => exact .inr (.inr fun _ => rfl)
  | .pub, [_] => exact .inr (.inr fun _ => rfl)
  | .pub, [subject, size] => exact .inl ⟨subject, none, size, fun _ => rfl, by simp⟩
  | .pub, [subject, reply, size] => exact .inl ⟨subject, some reply, size, fun _ => rfl, by simp⟩
  | .pub, _ :: _ :: _ :: _ :: _ => exact .inr (.inr fun _ => rfl)
  | .sub, [] => exact .inr (.inr fun _ => rfl)
  | .sub, [_] => exact .inr (.inr fun _ => rfl)
  | .sub, [subject, sid] => exact .inr (.inl ⟨.sub subject none sid, fun _ => rfl, by simp [Op.fields]⟩)
  | .sub, [subject, queue, sid] =>
      exact .inr (.inl ⟨.sub subject (some queue) sid, fun _ => rfl, by simp [Op.fields]⟩)
  | .sub, _ :: _ :: _ :: _ :: _ => exact .inr (.inr fun _ => rfl)
  | .unsub, [] => exact .inr (.inr fun _ => rfl)
  | .unsub, [sid] => exact .inr (.inl ⟨.unsub sid none, fun _ => rfl, by simp [Op.fields]⟩)
  | .unsub, [sid, max] => exact .inr (.inl ⟨.unsub sid (some max), fun _ => rfl, by simp [Op.fields]⟩)
  | .unsub, _ :: _ :: _ :: _ => exact .inr (.inr fun _ => rfl)
  | .ping, [] => exact .inr (.inl ⟨.ping, fun _ => rfl, by simp [Op.fields]⟩)
  | .ping, _ :: _ => exact .inr (.inr fun _ => rfl)
  | .pong, [] => exact .inr (.inl ⟨.pong, fun _ => rfl, by simp [Op.fields]⟩)
  | .pong, _ :: _ => exact .inr (.inr fun _ => rfl)

theorem perform_extend {v : Verb} {args : List Text} (h : perform v args s ≠ .incomplete) (t : Text) :
    perform v args (s ++ t) = (perform v args s).extend t := by
  obtain ⟨subject, reply, size, heq, -⟩ | ⟨o, heq, -⟩ | heq := perform_cases v args
  · rw [heq] at h ⊢
    rw [heq, payload_extend h]
  · rw [heq, heq]
    rfl
  · rw [heq, heq]
    rfl

theorem perform_eq_op {v : Verb} {args : List Text} (h : perform v args s = .op o rest) :
    (∀ w ∈ o.fields, w ∈ args) ∧ rest.length ≤ s.length := by
  obtain ⟨subject, reply, size, heq, hargs⟩ | ⟨o', heq, hargs⟩ | heq := perform_cases v args
  · rw [heq] at h
    obtain ⟨⟨data, rfl⟩, hlen⟩ := payload_eq_op h
    exact ⟨hargs, hlen⟩
  · rw [heq] at h
    obtain ⟨rfl, rfl⟩ := Reading.op.inj h
    exact ⟨hargs, Nat.le_refl _⟩
  · rw [heq] at h
    cases h

/-- What the first operation of a stream is: the rest of its control line decides. -/
theorem readOp_cases (s : Text) :
    readOp s = .incomplete ∨ (∃ line rest, controlLine s = some (line, rest) ∧ verb line = none) ∨
      ∃ line rest v, controlLine s = some (line, rest) ∧ verb line = some v := by
  rw [readOp]
  cases controlLine s with
  | none => exact .inl rfl
  | some parts =>
      cases hverb : verb parts.1 with
      | none => exact .inr (.inl ⟨parts.1, parts.2, rfl, hverb⟩)
      | some v => exact .inr (.inr ⟨parts.1, parts.2, v, rfl, hverb⟩)

theorem readOp_of_verb {line : Text} {v : Verb} (hline : controlLine s = some (line, rest))
    (hverb : verb line = some v) : readOp s = perform v (fields line) rest := by
  simp only [readOp, hline, hverb]

theorem readOp_of_no_verb {line : Text} (hline : controlLine s = some (line, rest))
    (hverb : verb line = none) : readOp s = .violation := by
  simp only [readOp, hline, hverb]

/-- **The first operation**: its fields are words, and it takes at least a byte. -/
theorem readOp_eq_op (h : readOp s = .op o rest) :
    (∀ w ∈ o.fields, Word w) ∧ rest.length < s.length := by
  obtain hnone | ⟨line, behind, hline, hverb⟩ | ⟨line, behind, v, hline, hverb⟩ := readOp_cases s
  · rw [hnone] at h
    cases h
  · rw [readOp_of_no_verb hline hverb] at h
    cases h
  · rw [readOp_of_verb hline hverb] at h
    obtain ⟨hfields, hrest⟩ := perform_eq_op h
    exact ⟨fun w hw => word_of_mem_words (hfields w hw),
      Nat.lt_of_le_of_lt hrest (controlLine_extend hline []).2⟩

/-- **More bytes behind it** do not change it. -/
theorem readOp_extend (h : readOp s ≠ .incomplete) (t : Text) :
    readOp (s ++ t) = (readOp s).extend t := by
  obtain hnone | ⟨line, behind, hline, hverb⟩ | ⟨line, behind, v, hline, hverb⟩ := readOp_cases s
  · exact absurd hnone h
  · rw [readOp_of_no_verb hline hverb, readOp_of_no_verb (controlLine_extend hline t).1 hverb]
    rfl
  · rw [readOp_of_verb hline hverb] at h ⊢
    rw [readOp_of_verb (controlLine_extend hline t).1 hverb, perform_extend h]

end One

/-! ## §6. A stream of operations. -/

section Streams

variable {s t rest : Text} {o : Op}

/-- More fuel than bytes changes nothing. -/
theorem readFrom_fuel {n m : Nat} (hn : s.length ≤ n) (hm : s.length ≤ m) :
    readFrom n s = readFrom m s := by
  induction n generalizing m s with
  | zero =>
      obtain rfl := List.length_eq_zero_iff.mp (Nat.le_zero.mp hn)
      cases m <;> rfl
  | succ n ih =>
      cases m with
      | zero =>
          obtain rfl := List.length_eq_zero_iff.mp (Nat.le_zero.mp hm)
          rfl
      | succ m =>
          rw [readFrom, readFrom]
          cases hread : readOp s with
          | incomplete => rfl
          | violation => rfl
          | op o rest =>
              have hlt := (readOp_eq_op hread).2
              have hrest : readFrom n rest = readFrom m rest := ih (by omega) (by omega)
              simp only [hrest]

theorem readOps_op (h : readOp s = .op o rest) :
    readOps s = (o :: (readOps rest).1, (readOps rest).2) := by
  have hlt := (readOp_eq_op h).2
  obtain ⟨n, hn⟩ : ∃ n, s.length = n + 1 := ⟨s.length - 1, by omega⟩
  have hrest : readFrom n rest = readOps rest := readFrom_fuel (by omega) (Nat.le_refl _)
  rw [readOps, hn, readFrom, h]
  simp only [hrest]

theorem readOps_incomplete (h : readOp s = .incomplete) : readOps s = ([], some s) := by
  cases s with
  | nil => rfl
  | cons c s => rw [readOps, List.length_cons, readFrom, h]

theorem readOps_violation (h : readOp s = .violation) : readOps s = ([], none) := by
  cases s with
  | nil => cases h
  | cons c s => rw [readOps, List.length_cons, readFrom, h]

/-- **Reading in pieces**: what was read stays read, and the bytes that were left are read
again with what comes behind them. -/
theorem readOps_append (s t : Text) :
    readOps (s ++ t) = match (readOps s).2 with
      | none => readOps s
      | some left => ((readOps s).1 ++ (readOps (left ++ t)).1, (readOps (left ++ t)).2) := by
  induction hn : s.length using Nat.strong_induction_on generalizing s with
  | _ n ih =>
    cases hread : readOp s with
    | incomplete => rw [readOps_incomplete hread]; rfl
    | violation =>
        have hmore : readOp (s ++ t) = .violation := by
          rw [readOp_extend (by simp [hread]), hread]
          rfl
        rw [readOps_violation hread, readOps_violation hmore]
    | op o rest =>
        have hlt := (readOp_eq_op hread).2
        have hmore : readOp (s ++ t) = .op o (rest ++ t) := by
          rw [readOp_extend (by simp [hread]), hread]
          rfl
        rw [readOps_op hmore, readOps_op hread, ih rest.length (by omega) rest rfl]
        cases hleft : (readOps rest).2 <;> simp only [hleft, List.cons_append]

/-- Every field of what is read is a word. -/
theorem word_of_mem_readOps (h : o ∈ (readOps s).1) : ∀ w ∈ o.fields, Word w := by
  induction hn : s.length using Nat.strong_induction_on generalizing s with
  | _ n ih =>
    cases hread : readOp s with
    | incomplete => rw [readOps_incomplete hread] at h; cases h
    | violation => rw [readOps_violation hread] at h; cases h
    | op o' rest =>
        obtain ⟨hfields, hlt⟩ := readOp_eq_op hread
        rw [readOps_op hread] at h
        rcases List.mem_cons.mp h with rfl | h
        · exact hfields
        · exact ih rest.length (by omega) h rfl

end Streams

/-- What a client asks of its connection. -/
inductive Request
  | publish (subject : Text) (data : List UInt8)
  | subscribe (subject queue : Text) (sid : Nat)
  | unsubscribe (sid : Nat)
  deriving DecidableEq

namespace Request

/-- What is written. -/
def bytes : Request → Text
  | .publish subject data => Nats.publish subject data
  | .subscribe subject queue sid => Nats.subscribe subject queue sid
  | .unsubscribe sid => Nats.unsubscribe sid

/-- What is meant. -/
def op : Request → Op
  | .publish subject data => .pub subject none data
  | .subscribe subject queue sid => .sub subject (group queue) (writeNat sid)
  | .unsubscribe sid => .unsub (writeNat sid) none

/-- The subject is a word, and so is the queue group, where there is one. -/
def Clean : Request → Prop
  | .publish subject _ => Word subject
  | .subscribe subject queue _ => Word subject ∧ (queue = [] ∨ Word queue)
  | .unsubscribe _ => True

theorem readOp_bytes {r : Request} (h : r.Clean) (rest : Text) :
    readOp (r.bytes ++ rest) = .op r.op rest := by
  cases r with
  | publish subject data => exact readOp_publish h data rest
  | subscribe subject queue sid => exact readOp_subscribe h.1 h.2 sid rest
  | unsubscribe sid => exact readOp_unsubscribe sid rest

theorem clean_of_fields {r : Request} (h : ∀ w ∈ r.op.fields, Word w) : r.Clean := by
  cases r with
  | publish subject data => exact h subject List.mem_cons_self
  | subscribe subject queue sid =>
      refine ⟨h subject List.mem_cons_self, ?_⟩
      by_cases hq : queue = []
      · exact .inl hq
      · refine .inr (h queue ?_)
        simp [op, Op.fields, group, hq]
  | unsubscribe sid => trivial

end Request

/-- **Exactly when a stream is read as it was meant**: every field is one word. -/
theorem readOps_written_iff {rs : List Request} :
    readOps (rs.flatMap Request.bytes) = (rs.map Request.op, some []) ↔ ∀ r ∈ rs, r.Clean := by
  constructor
  · intro h r hr
    refine Request.clean_of_fields (word_of_mem_readOps (s := rs.flatMap Request.bytes) ?_)
    rw [h]
    exact List.mem_map_of_mem hr
  · intro h
    induction rs with
    | nil => rfl
    | cons r rs ih =>
        rw [List.flatMap_cons, readOps_op (Request.readOp_bytes (h r List.mem_cons_self) _),
          ih fun r' hr' => h r' (List.mem_cons_of_mem _ hr')]
        rfl

end Mainflux.Lib.Nats
