/-
  Mainflux.Gateway.Authorization
  ──────────────────────────────
  **THE GATEWAY'S SCRIPT: what it lets a client with a certificate send.**

  Behind mutual TLS the gateway holds every client to the common name of its certificate:
  over HTTP and WebSocket the key must be that name, and over MQTT the password of the first
  packet.  For that the script cuts the password out of the packet itself.

    • `outcome_connect` — what becomes of a CONNECT whose lengths the script reads as they
      are: a length of the packet with a byte of no bits in it is never let through;
    • `outcome_smuggled` — lengths that it reads wrongly let through any password: the one
      the script compares stands in the client id, the one the broker reads does not.
-/
import Mainflux.Lib.Mqtt
import Mainflux.Lib.Text

namespace Mainflux.Gateway

open Mainflux.Lib

open Mqtt (Field Connect)

/-! ## §1. What the script uses of its language. -/

/-- A string of bytes, a byte written as the character of that number. -/
def text (bytes : List UInt8) : Text := bytes.map fun b => Char.ofNat b.toNat

/-- `data.codePointAt(i)`; `none` is `undefined`, which is neither above nor below any number. -/
def codePointAt (data : List UInt8) (i : Nat) : Option Nat := data[i]?.map UInt8.toNat

/-- `n.toString(16)`. -/
def toString16 (n : Nat) : Text := Nat.toDigits 16 n

/-- A text as the operand of `<`; a text that is no number is below none. -/
def toNumber (s : Text) : Option Nat := if s.all Char.isDigit then some (Nat.ofDigitChars 10 s 0) else none

def hexValue (c : Char) : Option Nat :=
  if c.isDigit then some (c.toNat - 48)
  else if 'a' ≤ c ∧ c ≤ 'f' then some (c.toNat - 87)
  else if 'A' ≤ c ∧ c ≤ 'F' then some (c.toNat - 55)
  else none

/-- `parseInt(s, 16)` of a text that begins with a digit: up to the first character that is none. -/
def parseInt16 : Text → Nat → Nat
  | [], n => n
  | c :: s, n =>
      match hexValue c with
      | some d => parseInt16 s (16 * n + d)
      | none => n

/-- `data.substring(i, j)` for `i ≤ j`. -/
def substring (data : List UInt8) (i j : Nat) : List UInt8 := (data.take j).drop i

/-! ## §2. The script. -/

def calcLen (msb lsb : Text) : Nat :=
  let lsb := if (toNumber lsb).any (· < 2) then '0' :: lsb else lsb
  parseInt16 (msb ++ lsb) 0

/-- `parseCert`; `none` is `undefined`, the value of a pair without a `=`. -/
def parseCert (cert key : Text) : Option Text :=
  if cert = [] then some []
  else
    match (cert.splitOn ',').find? fun pair => ((pair.splitOn '=').headD []).map Char.toUpper = key with
    | some pair => (pair.splitOn '=')[1]?
    | none => some []

/-- The loop over `remaining_len`, which counts `len_size`. -/
def lenSize (data : List UInt8) : List Nat → Nat → Nat
  | [], n => n
  | i :: positions, n =>
      if (codePointAt data i).any (128 < ·) then lenSize data positions (n + 1) else n

/-- The loop over the fields: `shift` and `len` after as many rounds.  A length that lies behind the
end of the data is an error of the script. -/
def skipFields (data : List UInt8) : Nat → Nat → Nat → Option (Nat × Nat)
  | 0, shift, len => some (shift, len)
  | rounds + 1, shift, _ => do
      let msb ← codePointAt data shift
      let lsb ← codePointAt data (shift + 1)
      let len := calcLen (toString16 msb) (toString16 lsb)
      -- the field itself is stepped over in all rounds but the last
      skipFields data rounds (if rounds ≠ 0 then shift + 2 + len else shift + 2) len

/-- `parsePackage`; `none` when the script fails. -/
def parsePackage (data : List UInt8) : Option Text :=
  let flags_pos := 1 + lenSize data [1, 2, 3, 4] 1 + 2 + 4 + 1
  let flags := codePointAt data flags_pos
  if flags.any (· < 192) then some []
  else
    let shift_flags := if flags.any (196 ≤ ·) then 5 else 3
    (skipFields data shift_flags (flags_pos + 1 + 2) 0).map fun (shift, len) =>
      text (substring data shift (shift + len))

/-- The variables of a connection that the script reads. -/
structure Variables where
  ssl_client_s_dn : Option Text
  ssl_client_verify : Option Text
  deriving DecidableEq

inductive Outcome
  | allow
  | deny
  /-- The script fails, and the connection with it. -/
  | error
  deriving DecidableEq

/-- A connection; there is no outcome as long as the script listens. -/
structure Session where
  /-- `none` is `undefined`. -/
  clientKey : Option Text := some []
  outcome : Option Outcome := none
  deriving DecidableEq

def CN : Text := ['C', 'N']

def success : Text := ['S', 'U', 'C', 'C', 'E', 'S', 'S']

/-- `authenticate` before any data has come. -/
def authenticate (s : Variables) : Session :=
  if s.ssl_client_s_dn.getD [] = [] ∨ s.ssl_client_verify ≠ some success then
    { outcome := some .deny }
  else {}

/-- The comparison at the end of the handler. -/
def compare : Option Text → Option Text → Outcome
  | some pass, some clientKey => if clientKey = [] ∨ pass ≠ clientKey then .deny else .allow
  | _, _ => .error

/-- The handler of `upload`, which is taken off together with an outcome. -/
def upload (dn : Text) (s : Session) (data : List UInt8) : Session :=
  if s.outcome ≠ none then s
  else
    match data.head? with
    | none => s
    | some packet_type_flags_byte =>
        if packet_type_flags_byte < 16 ∨ 32 ≤ packet_type_flags_byte then { s with outcome := some .allow }
        else
          let clientKey := if s.clientKey = some [] then parseCert dn CN else s.clientKey
          { clientKey := clientKey, outcome := some (compare (parsePackage data) clientKey) }

/-- A whole connection. -/
def session (s : Variables) (uploads : List (List UInt8)) : Session :=
  uploads.foldl (upload (s.ssl_client_s_dn.getD [])) (authenticate s)

/-! ## §3. Lengths as the script reads them. -/

/-- The length that the script makes of two bytes. -/
def lenOf (hi lo : UInt8) : Nat := calcLen (toString16 hi.toNat) (toString16 lo.toNat)

theorem parseInt16_append {s t : Text} (h : ∀ c ∈ s, hexValue c ≠ none) (n : Nat) :
    parseInt16 (s ++ t) n = parseInt16 t (parseInt16 s n) := by
  induction s generalizing n with
  | nil => rfl
  | cons c s ih =>
      obtain ⟨d, hd⟩ := Option.ne_none_iff_exists'.mp (h c List.mem_cons_self)
      rw [List.cons_append, parseInt16, parseInt16, hd]
      exact ih (fun c hc => h c (List.mem_cons_of_mem _ hc)) _

theorem parseInt16_eq {s : Text} (h : ∀ c ∈ s, hexValue c ≠ none) (n : Nat) :
    parseInt16 s n = n * 16 ^ s.length + parseInt16 s 0 := by
  induction s generalizing n with
  | nil => simp [parseInt16]
  | cons c s ih =>
      obtain ⟨d, hd⟩ := Option.ne_none_iff_exists'.mp (h c List.mem_cons_self)
      have hs := fun c hc => h c (List.mem_cons_of_mem _ hc)
      rw [parseInt16, parseInt16, hd]
      simp only
      rw [ih hs (16 * n + d), ih hs (16 * 0 + d), List.length_cons, Nat.pow_succ']
      generalize 16 ^ s.length = p
      rw [Nat.mul_zero, Nat.zero_add, Nat.add_mul, Nat.add_assoc, ← Nat.mul_assoc, Nat.mul_comm n 16]

/-- The digits of a byte, of which there is one below 16; below 2 the script sets a zero in front. -/
theorem digits_byte {n : Nat} (h : n < 256) :
    (∀ c ∈ toString16 n, hexValue c ≠ none) ∧ parseInt16 (toString16 n) 0 = n ∧
      (toString16 n).length = (if n < 16 then 1 else 2) ∧
      ((toNumber (toString16 n)).any (· < 2) = decide (n < 2)) := by
  have hall : ∀ n < 256, ((toString16 n).all fun c => decide (hexValue c ≠ none)) = true ∧
      parseInt16 (toString16 n) 0 = n ∧ (toString16 n).length = (if n < 16 then 1 else 2) ∧
      ((toNumber (toString16 n)).any (· < 2) = decide (n < 2)) := by
    decide +kernel
  obtain ⟨hhex, hrest⟩ := hall n h
  exact ⟨Text.forall_mem_of_all hhex, hrest⟩

/-- **A length is read wrongly** where its lower byte has one digit and the script sets no zero. -/
theorem lenOf_eq (hi lo : UInt8) :
    lenOf hi lo = if 2 ≤ lo.toNat ∧ lo.toNat < 16 then 16 * hi.toNat + lo.toNat
      else 256 * hi.toNat + lo.toNat := by
  obtain ⟨hhex, hhi, -, -⟩ := digits_byte hi.toNat_lt
  obtain ⟨lhex, hlo, hlen, htwo⟩ := digits_byte lo.toNat_lt
  rw [lenOf, calcLen, htwo]
  by_cases hpad : lo.toNat < 2
  · have hzero : ∀ c ∈ '0' :: toString16 lo.toNat, hexValue c ≠ none := by
      intro c hc
      rcases List.mem_cons.mp hc with rfl | hc
      · decide
      · exact lhex c hc
    have hval : parseInt16 ('0' :: toString16 lo.toNat) 0 = lo.toNat := hlo
    rw [if_pos (decide_eq_true hpad), parseInt16_append hhex, parseInt16_eq hzero, hhi, hval,
      List.length_cons, hlen, if_pos (by omega), if_neg (by omega), Nat.mul_comm]
    rfl
  · rw [if_neg (by rw [decide_eq_true_eq]; exact hpad), parseInt16_append hhex, parseInt16_eq lhex, hhi,
      hlo, hlen, Nat.mul_comm]
    by_cases hone : lo.toNat < 16
    · rw [if_pos hone, if_pos (by omega)]
      rfl
    · rw [if_neg hone, if_neg (by omega)]
      rfl

/-- A length that the script reads as it is. -/
def Plain (n : Nat) : Prop := n < 256 ∨ n % 256 < 2 ∨ 16 ≤ n % 256

instance (n : Nat) : Decidable (Plain n) := inferInstanceAs (Decidable (_ ∨ _))

theorem lenOf_plain {n : Nat} (hn : n < 65536) (h : Plain n) :
    lenOf (UInt8.ofNat (n / 256)) (UInt8.ofNat (n % 256)) = n := by
  rw [lenOf_eq, Wire.toNat_ofNat_of_lt (by omega), Wire.toNat_ofNat_of_lt (by omega)]
  rcases h with h | h | h <;> split <;> omega

/-! ## §4. Walking over a packet. -/

theorem codePointAt_append_right (a b : List UInt8) (i : Nat) :
    codePointAt (a ++ b) (a.length + i) = codePointAt b i := by
  rw [codePointAt, List.getElem?_append_right (Nat.le_add_right _ _), Nat.add_sub_cancel_left]
  rfl

/-- The bytes above 128 at the beginning, `n` at most. -/
def leading : Nat → List UInt8 → Nat
  | 0, _ => 0
  | _ + 1, [] => 0
  | n + 1, b :: bs => if 128 < b.toNat then leading n bs + 1 else 0

theorem lenSize_eq (pre bs : List UInt8) (n k : Nat) :
    lenSize (pre ++ bs) (List.range' pre.length k) n = n + leading k bs := by
  induction k generalizing pre bs n with
  | zero => rfl
  | succ k ih =>
      have hhead : codePointAt (pre ++ bs) pre.length = codePointAt bs 0 := codePointAt_append_right pre bs 0
      rw [List.range'_succ, lenSize, hhead]
      cases bs with
      | nil => rfl
      | cons b bs =>
          rw [leading]
          by_cases hb : 128 < b.toNat
          · have hany : (codePointAt (b :: bs) 0).any (128 < ·) = true := decide_eq_true hb
            have hrest := ih (pre ++ [b]) bs (n + 1)
            rw [List.append_assoc, List.length_append, List.length_singleton] at hrest
            rw [if_pos hany, if_pos hb, Nat.add_comm (leading k bs), ← Nat.add_assoc]
            exact hrest
          · have hany : ¬ (codePointAt (b :: bs) 0).any (128 < ·) = true := by
              intro h
              exact hb (of_decide_eq_true h)
            rw [if_neg hany, if_neg hb]
            rfl

/-- **The groups of a number**, counted up to the first that is empty but for its top bit. -/
theorem leading_encode (v n : Nat) (rest : List UInt8) (h : (Wire.encode v).length ≤ n + 1) :
    leading n (Wire.encode v ++ rest) + 1 ≤ (Wire.encode v).length ∧
      (leading n (Wire.encode v ++ rest) + 1 = (Wire.encode v).length ↔ 128 ∉ Wire.encode v) := by
  induction v using Nat.strongRecOn generalizing n with
  | ind v ih =>
      by_cases hv : v < 128
      · have hbyte : (UInt8.ofNat v).toNat = v := Wire.toNat_ofNat_of_lt (by omega)
        have hne : 128 ∉ [UInt8.ofNat v] := by
          intro hmem
          have hmod := congrArg UInt8.toNat (List.mem_singleton.mp hmem)
          rw [hbyte] at hmod
          exact absurd hmod (Nat.ne_of_gt hv)
        have hzero : leading n ([UInt8.ofNat v] ++ rest) = 0 := by
          cases n with
          | zero => rfl
          | succ n => exact if_neg (by rw [hbyte]; omega)
        rw [Wire.encode_of_lt hv, hzero]
        exact ⟨Nat.le_refl _, fun _ => hne, fun _ => rfl⟩
      · have hbyte : (UInt8.ofNat (v % 128 + 128)).toNat = v % 128 + 128 :=
          Wire.toNat_ofNat_of_lt (by omega)
        have hpos := List.length_pos_of_ne_nil (Wire.encode_ne_nil (v / 128))
        rw [Wire.encode_of_ge (by omega), List.length_cons] at h ⊢
        cases n with
        | zero => omega
        | succ n =>
            obtain ⟨hle, hiff⟩ := ih (v / 128) (by omega) n (by omega)
            by_cases hzero : v % 128 = 0
            · have hmem : 128 ∈ UInt8.ofNat (v % 128 + 128) :: Wire.encode (v / 128) := by
                rw [hzero]
                exact List.mem_cons_self
              have hstop : leading (n + 1) (UInt8.ofNat (v % 128 + 128) :: Wire.encode (v / 128) ++ rest) = 0 :=
                if_neg (by rw [hbyte]; omega)
              rw [hstop]
              exact ⟨by omega, fun heq => absurd heq (by omega), fun hno => absurd hmem hno⟩
            · have hgo : leading (n + 1) (UInt8.ofNat (v % 128 + 128) :: Wire.encode (v / 128) ++ rest)
                  = leading n (Wire.encode (v / 128) ++ rest) + 1 := if_pos (by rw [hbyte]; omega)
              have hne : (128 : UInt8) ≠ UInt8.ofNat (v % 128 + 128) := by
                intro heq
                have hmod := congrArg UInt8.toNat heq
                rw [hbyte] at hmod
                change 128 = v % 128 + 128 at hmod
                omega
              rw [hgo, List.mem_cons, not_or, ← hiff]
              exact ⟨by omega, fun heq => ⟨hne, by omega⟩, fun hboth => by rw [hboth.2]⟩

/-- One round at two bytes. -/
theorem skipFields_succ (pre tail : List UInt8) (hi lo : UInt8) (rounds len : Nat) :
    skipFields (pre ++ hi :: lo :: tail) (rounds + 1) pre.length len
      = skipFields (pre ++ hi :: lo :: tail) rounds
          (if rounds ≠ 0 then pre.length + 2 + lenOf hi lo else pre.length + 2) (lenOf hi lo) := by
  have hhi : codePointAt (pre ++ hi :: lo :: tail) pre.length = some hi.toNat :=
    codePointAt_append_right pre _ 0
  have hlo : codePointAt (pre ++ hi :: lo :: tail) (pre.length + 1) = some lo.toNat :=
    codePointAt_append_right pre _ 1
  rw [skipFields, hhi, Option.bind_eq_bind, Option.bind_some, hlo, Option.bind_some]
  rfl

/-- **Fields are stepped over** where their lengths are read as they are, and the last one is found. -/
theorem skipFields_plain (fs : List Field) (f : Field) (rest pre : List UInt8) (len : Nat)
    (h : ∀ g ∈ fs ++ [f], Plain g.val.length) :
    skipFields (pre ++ (fs.flatMap Field.encode ++ (Field.encode f ++ rest))) (fs.length + 1) pre.length len
      = some (pre.length + (fs.flatMap Field.encode).length + 2, f.val.length) := by
  induction fs generalizing pre len with
  | nil =>
      have hlen := lenOf_plain f.property (h f List.mem_cons_self)
      have hround := skipFields_succ pre (f.val ++ rest) (UInt8.ofNat (f.val.length / 256))
        (UInt8.ofNat (f.val.length % 256)) 0 len
      rw [hlen] at hround
      exact hround
  | cons g fs ih =>
      have hlen := lenOf_plain g.property (h g List.mem_cons_self)
      have hround := skipFields_succ pre (g.val ++ (fs.flatMap Field.encode ++ (Field.encode f ++ rest)))
        (UInt8.ofNat (g.val.length / 256)) (UInt8.ofNat (g.val.length % 256)) (fs.length + 1) len
      have hrest := ih (pre ++ Field.encode g) g.val.length
        (fun g' hg' => h g' (List.mem_cons_of_mem _ hg'))
      rw [hlen, if_pos (Nat.succ_ne_zero _)] at hround
      rw [List.append_assoc, List.length_append, Mqtt.length_encode, Nat.add_comm _ 2,
        ← Nat.add_assoc] at hrest
      rw [List.flatMap_cons, List.append_assoc, List.length_append, Mqtt.length_encode]
      refine (hround.trans hrest).trans (congrArg some (Prod.ext ?_ rfl))
      simp only
      omega

theorem substring_append (a b rest : List UInt8) :
    substring (a ++ (b ++ rest)) a.length (a.length + b.length) = b := by
  rw [substring, List.drop_take, Nat.add_sub_cancel_left, List.drop_left, List.take_left]

/-! ## §5. The password of a packet. -/

/-- The fields up to the password. -/
def before (c : Connect) (username : Field) : List Field :=
  c.clientId :: (c.will.elim [] (fun w => [w.topic, w.message]) ++ [username])

/-- The script reads the lengths of all fields as they are. -/
def PlainFields (c : Connect) : Prop :=
  Plain c.clientId.val.length ∧
    (∀ w, c.will = some w → Plain w.topic.val.length ∧ Plain w.message.val.length) ∧
    ∀ l, c.login = some l → Plain l.username.val.length ∧
      ∀ p, l.password = some p → Plain p.val.length

/-- No group of the packet's length but the last is all zero. -/
def Unbroken (c : Connect) : Prop := 128 ∉ Wire.encode c.body.length

instance (c : Connect) : Decidable (Unbroken c) := inferInstanceAs (Decidable (¬ _))

theorem payload_eq {c : Connect} {username password : Field} (h : c.login = some ⟨username, some password⟩) :
    c.payload = (before c username).flatMap Field.encode ++ Field.encode password := by
  rw [Connect.payload, h, before]
  cases c.will with
  | none => simp [Mqtt.Login.encode]
  | some w => simp [Mqtt.Login.encode, Mqtt.Will.encode]

/-- Where the script looks for the flags, counted from the protocol's name. -/
theorem lenSize_connect (c : Connect) (rest : List UInt8) :
    ∃ i, 1 + lenSize (c.encode ++ rest) [1, 2, 3, 4] 1 + 2 + 4 + 1
        = (0x10 :: Wire.encode c.body.length).length + i ∧ i ≤ 7 ∧ (i = 7 ↔ Unbroken c) := by
  have hfour : (Wire.encode c.body.length).length ≤ 3 := by
    have hmono := Wire.length_encode_mono (Nat.le_of_lt (Mqtt.length_body_lt c))
    have hthree : (Wire.encode (2 ^ 19)).length = 3 := by
      rw [Wire.length_encode]
      decide
    omega
  obtain ⟨hle, hiff⟩ := leading_encode c.body.length 4 (c.body ++ rest) (by omega)
  have hloop := lenSize_eq [0x10] (Wire.encode c.body.length ++ (c.body ++ rest)) 1 4
  have hsize : lenSize (c.encode ++ rest) [1, 2, 3, 4] 1
      = 1 + leading 4 (Wire.encode c.body.length ++ (c.body ++ rest)) := by
    rw [← hloop, Connect.encode, List.cons_append, List.append_assoc]
    rfl
  refine ⟨8 + leading 4 (Wire.encode c.body.length ++ (c.body ++ rest))
    - (Wire.encode c.body.length).length, ?_, by omega, ?_⟩
  · rw [hsize, List.length_cons]
    omega
  · rw [Unbroken, ← hiff]
    omega

/-- In front of the flags there is no byte that could be taken for both of them. -/
theorem codePointAt_protocol {i : Nat} (h : i < 7) (t : List UInt8) :
    (codePointAt (Mqtt.protocol ++ t) i).any (· < 192) = true := by
  have hall : ∀ i < 7, (codePointAt Mqtt.protocol i).any (· < 192) = true := by decide
  rw [codePointAt, List.getElem?_append_left h]
  exact hall i h

/-- Both flags, and the number of fields. -/
theorem flags_login (c : Connect) :
    (c.password = none → c.flags < 192) ∧
      (c.password ≠ none → 192 ≤ c.flags ∧ (196 ≤ c.flags ↔ c.will ≠ none)) := by
  obtain ⟨hlt, -, -, hwill, hqos, hretain, hpassword, hlogin⟩ := Mqtt.flags_parts c
  constructor
  · intro hnone
    rw [hnone, Option.isSome_none, Bool.toNat_false] at hpassword
    have hle := Bool.toNat_le c.login.isSome
    omega
  · intro hsome
    obtain ⟨p, hp⟩ := Option.ne_none_iff_exists'.mp hsome
    obtain ⟨l, hl, -⟩ := Option.bind_eq_some_iff.mp hp
    rw [hp, Option.isSome_some, Bool.toNat_true] at hpassword
    rw [hl, Option.isSome_some, Bool.toNat_true] at hlogin
    cases hw : c.will with
    | none =>
        rw [hw] at hwill hqos hretain
        simp only [Option.isSome_none, Bool.toNat_false, Option.elim_none] at hwill hqos hretain
        exact ⟨by omega, fun h => absurd h (by omega), fun h => absurd rfl h⟩
    | some w =>
        rw [hw, Option.isSome_some, Bool.toNat_true] at hwill
        exact ⟨by omega, fun _ => Option.some_ne_none w, fun _ => by omega⟩

theorem plain_before {c : Connect} {username password : Field}
    (hl : c.login = some ⟨username, some password⟩) (h : PlainFields c) :
    ∀ g ∈ before c username ++ [password], Plain g.val.length := by
  obtain ⟨hid, hwill, hlogin⟩ := h
  obtain ⟨husername, hpassword⟩ := hlogin _ hl
  intro g hg
  rw [before, List.cons_append, List.append_assoc, List.mem_cons, List.mem_append] at hg
  rcases hg with rfl | hg | hg
  · exact hid
  · cases hw : c.will with
    | none =>
        rw [hw] at hg
        exact absurd hg List.not_mem_nil
    | some w =>
        obtain ⟨htopic, hmessage⟩ := hwill w hw
        rw [hw] at hg
        rcases List.mem_cons.mp hg with rfl | hg
        · exact htopic
        · rw [List.mem_singleton.mp hg]
          exact hmessage
  · rcases List.mem_cons.mp hg with rfl | hg
    · exact husername
    · rw [List.mem_singleton.mp hg]
      exact hpassword _ rfl

theorem length_before (c : Connect) (username : Field) :
    (before c username).length + 1 = if c.will ≠ none then 5 else 3 := by
  rw [before]
  cases c.will <;> rfl

/-- The bytes up to the first field. -/
def front (c : Connect) : List UInt8 :=
  0x10 :: (Wire.encode c.body.length ++ (Mqtt.protocol ++ UInt8.ofNat c.flags :: Mqtt.short c.keepAlive.val))

theorem encode_front (c : Connect) (rest : List UInt8) :
    c.encode ++ rest = front c ++ (c.payload ++ rest) := by
  simp [Connect.encode, Connect.body, front]

/-- Where the flags are read, and the fields begin. -/
theorem parsePackage_unbroken {c : Connect} (h : Unbroken c) (rest : List UInt8) :
    parsePackage (c.encode ++ rest)
      = if c.flags < 192 then some []
        else (skipFields (c.encode ++ rest) (if 196 ≤ c.flags then 5 else 3) (front c).length 0).map
          fun (shift, len) => text (substring (c.encode ++ rest) shift (shift + len)) := by
  obtain ⟨i, hpos, -, hiff⟩ := lenSize_connect c rest
  have hflags : codePointAt (c.encode ++ rest) ((0x10 :: Wire.encode c.body.length).length + i)
      = some c.flags := by
    have hat := codePointAt_append_right (0x10 :: Wire.encode c.body.length) (c.body ++ rest) 7
    have hbyte : codePointAt (c.body ++ rest) 7 = some (UInt8.ofNat c.flags).toNat := rfl
    rw [hbyte, Wire.toNat_ofNat_of_lt (Mqtt.flags_parts c).1] at hat
    rw [hiff.mpr h, ← hat, Connect.encode, List.cons_append, List.append_assoc]
    rfl
  have hfront : (0x10 :: Wire.encode c.body.length).length + i + 1 + 2 = (front c).length := by
    rw [hiff.mpr h]
    simp only [front, Mqtt.protocol, Mqtt.short, List.length_cons, List.length_append, List.length_nil]
  simp only [parsePackage, hpos, hflags, hfront, Option.any_some, decide_eq_true_eq]

theorem parsePackage_broken {c : Connect} (h : ¬ Unbroken c) (rest : List UInt8) :
    parsePackage (c.encode ++ rest) = some [] := by
  obtain ⟨i, hpos, hle, hiff⟩ := lenSize_connect c rest
  have hlt : i < 7 := Nat.lt_of_le_of_ne hle (mt hiff.mp h)
  have hat := codePointAt_append_right (0x10 :: Wire.encode c.body.length) (c.body ++ rest) i
  have hany := codePointAt_protocol hlt (UInt8.ofNat c.flags :: (Mqtt.short c.keepAlive.val ++ c.payload) ++ rest)
  have hdata : c.encode ++ rest = 0x10 :: Wire.encode c.body.length ++ (c.body ++ rest) := by
    rw [Connect.encode, List.cons_append, List.append_assoc]
    rfl
  rw [parsePackage, hpos, hdata, hat, Connect.body, List.append_assoc]
  exact if_pos hany

/-- **The script's reading of a packet.** -/
theorem parsePackage_connect {c : Connect} (h : PlainFields c) (rest : List UInt8) :
    parsePackage (c.encode ++ rest)
      = some (if Unbroken c then (c.password.map fun p => text p.val).getD [] else []) := by
  by_cases hu : Unbroken c
  · obtain ⟨hnone, hsome⟩ := flags_login c
    rw [parsePackage_unbroken hu, if_pos hu]
    cases hp : c.password with
    | none => rw [if_pos (hnone hp), Option.map_none, Option.getD_none]
    | some p =>
        obtain ⟨hboth, hwill⟩ := hsome (by rw [hp]; exact Option.some_ne_none p)
        obtain ⟨⟨username, password⟩, hl, rfl⟩ := Option.bind_eq_some_iff.mp hp
        have hskip := skipFields_plain (before c username) p rest (front c) 0 (plain_before hl h)
        have hfound := substring_append
          (front c ++ ((before c username).flatMap Field.encode ++ Mqtt.short p.val.length)) p.val rest
        have hdata : front c ++ ((before c username).flatMap Field.encode ++ Mqtt.short p.val.length)
            ++ (p.val ++ rest) = c.encode ++ rest := by
          rw [encode_front, payload_eq hl, Field.encode]
          simp only [List.append_assoc]
        rw [hdata, List.length_append, List.length_append, Mqtt.length_short, ← Nat.add_assoc] at hfound
        rw [length_before, ← List.append_assoc (List.flatMap _ _), ← payload_eq hl, ← encode_front] at hskip
        rw [if_neg (by omega)]
        simp only [hwill, hskip, Option.map_some, hfound, Option.getD_some]
  · rw [parsePackage_broken hu, if_neg hu]

/-! ## §6. Connections. -/

/-- The certificate was checked, and `cn` is its common name. -/
def Verified (s : Variables) (cn : Text) : Prop :=
  s.ssl_client_verify = some success ∧ s.ssl_client_s_dn.getD [] ≠ [] ∧
    parseCert (s.ssl_client_s_dn.getD []) CN = some cn

instance (s : Variables) (cn : Text) : Decidable (Verified s cn) := inferInstanceAs (Decidable (_ ∧ _))

theorem upload_of_outcome {dn : Text} {s : Session} (h : s.outcome ≠ none) (data : List UInt8) :
    upload dn s data = s := if_pos h

theorem uploads_of_outcome {dn : Text} {s : Session} (h : s.outcome ≠ none) (later : List (List UInt8)) :
    later.foldl (upload dn) s = s := by
  induction later with
  | nil => rfl
  | cons data later ih => rw [List.foldl_cons, upload_of_outcome h, ih]

theorem upload_nil (dn : Text) (s : Session) : upload dn s [] = s := by
  unfold upload
  split <;> rfl

theorem uploads_nil (dn : Text) (s : Session) (n : Nat) :
    (List.replicate n []).foldl (upload dn) s = s := by
  induction n with
  | zero => rfl
  | succ n ih => rw [List.replicate_succ, List.foldl_cons, upload_nil, ih]

/-- **The first data decides.** -/
theorem session_first (s : Variables) (n : Nat) (b : UInt8) (data : List UInt8)
    (later : List (List UInt8)) :
    session s (List.replicate n [] ++ (b :: data) :: later)
      = upload (s.ssl_client_s_dn.getD []) (authenticate s) (b :: data) := by
  rw [session, List.foldl_append, uploads_nil, List.foldl_cons]
  refine uploads_of_outcome ?_ later
  by_cases h : (authenticate s).outcome = none
  · rw [upload, if_neg (not_not_intro h)]
    simp only [List.head?_cons]
    split <;> exact Option.some_ne_none _
  · rw [upload_of_outcome h]
    exact h

/-- What the first data leads to where the certificate was checked. -/
theorem outcome_first {s : Variables} {cn : Text} (hv : Verified s cn) (n : Nat) (b : UInt8)
    (data : List UInt8) (later : List (List UInt8)) :
    (session s (List.replicate n [] ++ (b :: data) :: later)).outcome
      = if b < 16 ∨ 32 ≤ b then some .allow else some (compare (parsePackage (b :: data)) (some cn)) := by
  obtain ⟨hverify, hdn, hcn⟩ := hv
  have hopen : authenticate s = {} := if_neg (by rw [hverify]; exact not_or.mpr ⟨hdn, not_not_intro rfl⟩)
  rw [session_first, hopen, upload, if_neg (not_not_intro rfl)]
  simp only [List.head?_cons, if_true, hcn]
  split <;> rfl

/-- **A packet whose lengths the script reads as they are** is let through if its password is the common
name of the certificate, and its length has no group of zeros but the last. -/
theorem outcome_connect {s : Variables} {cn : Text} (hv : Verified s cn) (hcn : cn ≠ []) {c : Connect}
    (hc : PlainFields c) (n : Nat) (rest : List UInt8) (later : List (List UInt8)) :
    (session s (List.replicate n [] ++ (c.encode ++ rest) :: later)).outcome
      = some (if Unbroken c ∧ c.password.map (fun p => text p.val) = some cn then .allow else .deny) := by
  have hpass := parsePackage_connect hc rest
  rw [Connect.encode, List.cons_append] at hpass ⊢
  rw [outcome_first hv, if_neg (by decide), hpass, compare]
  by_cases hu : Unbroken c
  · rw [if_pos hu]
    cases hp : c.password with
    | none =>
        rw [Option.map_none, Option.getD_none, if_pos (.inr (Ne.symm hcn)), if_neg]
        exact fun h => absurd h.2 (Option.some_ne_none cn).symm
    | some p =>
        rw [Option.map_some, Option.getD_some]
        by_cases heq : text p.val = cn
        · rw [if_neg (not_or.mpr ⟨hcn, not_not_intro heq⟩), if_pos ⟨hu, congrArg some heq⟩]
        · rw [if_pos (.inr heq), if_neg (fun h => heq (Option.some.inj h.2))]
  · rw [if_neg hu, if_pos (.inr (Ne.symm hcn)), if_neg (fun h => hu h.1)]

theorem parsePackage_infix {data : List UInt8} {pass : Text} (h : parsePackage data = some pass)
    (hpass : pass ≠ []) : ∃ a k t, data = a ++ (k ++ t) ∧ text k = pass := by
  rw [parsePackage] at h
  split at h
  · exact absurd (Option.some.inj h).symm hpass
  · obtain ⟨⟨shift, len⟩, -, rfl⟩ := Option.map_eq_some_iff.mp h
    refine ⟨(data.take (shift + len)).take shift, _, data.drop (shift + len), ?_, rfl⟩
    rw [substring, ← List.append_assoc, List.take_append_drop, List.take_append_drop]

theorem exists_first (uploads : List (List UInt8)) :
    (∃ n, uploads = List.replicate n []) ∨
      ∃ n b data later, uploads = List.replicate n [] ++ (b :: data) :: later := by
  induction uploads with
  | nil => exact .inl ⟨0, rfl⟩
  | cons data uploads ih =>
      cases data with
      | cons b data => exact .inr ⟨0, b, data, uploads, rfl⟩
      | nil =>
          rcases ih with ⟨n, rfl⟩ | ⟨n, b, data, later, rfl⟩
          · exact .inl ⟨n + 1, rfl⟩
          · exact .inr ⟨n + 1, b, data, later, rfl⟩

theorem authenticate_not_allow (s : Variables) : (authenticate s).outcome ≠ some .allow := by
  unfold authenticate
  split
  · exact fun h => by cases h
  · exact fun h => by cases h

/-- **What is let through**: data after a certificate was checked, and a CONNECT only with the common name
somewhere in its bytes. -/
theorem outcome_allow {s : Variables} {uploads : List (List UInt8)}
    (h : (session s uploads).outcome = some .allow) :
    s.ssl_client_verify = some success ∧ ∃ n b data later,
      uploads = List.replicate n [] ++ (b :: data) :: later ∧
        (16 ≤ b → b < 32 → ∃ k a t, b :: data = a ++ (k ++ t) ∧ k ≠ [] ∧ Verified s (text k)) := by
  rcases exists_first uploads with ⟨n, rfl⟩ | ⟨n, b, data, later, rfl⟩
  · rw [session, uploads_nil] at h
    exact absurd h (authenticate_not_allow s)
  · rw [session_first, upload] at h
    by_cases hdenied : s.ssl_client_s_dn.getD [] = [] ∨ s.ssl_client_verify ≠ some success
    · rw [authenticate, if_pos hdenied, if_pos (Option.some_ne_none _)] at h
      exact absurd h (by decide)
    · obtain ⟨hdn, hverify⟩ := not_or.mp hdenied
      rw [authenticate, if_neg hdenied, if_neg (not_not_intro rfl)] at h
      simp only [List.head?_cons, if_true] at h
      refine ⟨not_not.mp hverify, n, b, data, later, rfl, fun h16 h32 => ?_⟩
      have hconnect : ¬ (b < 16 ∨ 32 ≤ b) := not_or.mpr ⟨UInt8.not_lt.mpr h16, UInt8.not_le.mpr h32⟩
      rw [if_neg hconnect] at h
      -- both texts are there, and the same
      cases hpass : parsePackage (b :: data) with
      | none =>
          rw [hpass] at h
          exact absurd h (by simp [compare])
      | some pass =>
          cases hcn : parseCert (s.ssl_client_s_dn.getD []) CN with
          | none =>
              rw [hpass, hcn] at h
              exact absurd h (by simp [compare])
          | some cn =>
              rw [hpass, hcn] at h
              simp only [compare] at h
              split at h
              · exact absurd h (by decide)
              · rename_i hsame
                obtain ⟨hne, heq⟩ := not_or.mp hsame
                obtain ⟨a, k, t, hdata, hk⟩ := parsePackage_infix hpass (not_not.mp heq ▸ hne)
                refine ⟨k, a, t, hdata, ?_, not_not.mp hverify, hdn, ?_⟩
                · rintro rfl
                  exact hne (not_not.mp heq ▸ hk).symm
                · rw [hcn, hk, not_not.mp heq]

/-- A certificate of a lamp, whose key has eighteen characters. -/
def lamp : Variables where
  ssl_client_s_dn := some ['O', '=', 'm', ',', 'C', 'N', '=', 'l', 'a', 'm', 'p', 'l', 'a', 'm', 'p', 'l', 'a',
    'm', 'p', 'l', 'a', 'm', 'p', 'l', 'a']
  ssl_client_verify := some success

/-- Its key in bytes. -/
def lampKey : List UInt8 :=
  [108, 97, 109, 112, 108, 97, 109, 112, 108, 97, 109, 112, 108, 97, 109, 112, 108, 97]

theorem verified_lamp : Verified lamp (text lampKey) := by decide +kernel

/-- What a lamp opens its connection with. -/
def lampConnect : Connect where
  clientId := ⟨[97], by decide⟩
  will := none
  login := some ⟨⟨[98], by decide⟩, some ⟨lampKey, by decide⟩⟩
  cleanSession := true
  keepAlive := ⟨60, by decide⟩

theorem plain_lampConnect : PlainFields lampConnect := by
  refine ⟨by decide, fun w h => absurd h.symm (Option.some_ne_none w), fun l h => ?_⟩
  obtain rfl := Option.some.inj h
  refine ⟨by decide, fun p h => ?_⟩
  obtain rfl := Option.some.inj h
  decide

/-- The lamp is let through, after nothing has come twice. -/
theorem outcome_connect_lamp :
    (session lamp (List.replicate 2 [] ++ (lampConnect.encode ++ [0xE0, 0]) :: [])).outcome
      = some (if Unbroken lampConnect ∧ lampConnect.password.map (fun p => text p.val) = some (text lampKey)
          then .allow else .deny) :=
  outcome_connect verified_lamp (by decide) plain_lampConnect 2 [0xE0, 0] []

theorem outcome_allow_lamp : lamp.ssl_client_verify = some success ∧ ∃ n b data later,
    [lampConnect.encode] = List.replicate n [] ++ (b :: data) :: later ∧
      (16 ≤ b → b < 32 → ∃ k a t, b :: data = a ++ (k ++ t) ∧ k ≠ [] ∧ Verified lamp (text k)) :=
  outcome_allow (by decide +kernel)

/-! ## §7. Passwords that the script does not see. -/

/-- A client id of `256 * m + l` bytes, of which the script skips `16 * m + l`: behind them stand the
lengths of a user name and of the text `k`, and `k`. -/
def smuggler (m l : Nat) (k : List UInt8) : List UInt8 :=
  List.replicate (16 * m + l) 32 ++ (1 :: 2 :: (List.replicate 18 32 ++
    (UInt8.ofNat (k.length / 16) :: UInt8.ofNat (k.length % 16) :: (k ++
      List.replicate (256 * m + l - (16 * m + l + 22 + k.length)) 32))))

theorem length_smuggler {m l : Nat} {k : List UInt8} (hm : 2 ≤ m) (hk : k.length < 256) :
    (smuggler m l k).length = 256 * m + l := by
  simp only [smuggler, List.length_append, List.length_cons, List.length_replicate]
  omega

theorem mem_smuggler {m l : Nat} {k : List UInt8} (hlen : 16 ≤ k.length) (hk : k.length < 256)
    (hdigit : 2 ≤ k.length % 16) {b : UInt8} (h : b ∈ smuggler m l k) : b ∈ k ∨ 1 ≤ b ∧ b ≤ 32 := by
  have hhi : (UInt8.ofNat (k.length / 16)).toNat = k.length / 16 := Wire.toNat_ofNat_of_lt (by omega)
  have hlo : (UInt8.ofNat (k.length % 16)).toNat = k.length % 16 := Wire.toNat_ofNat_of_lt (by omega)
  simp only [smuggler, List.mem_append, List.mem_cons, List.mem_replicate] at h
  rcases h with h | rfl | rfl | h | rfl | rfl | h | h
  · rw [h.2]
    exact .inr (by decide)
  · exact .inr (by decide)
  · exact .inr (by decide)
  · rw [h.2]
    exact .inr (by decide)
  · refine .inr ⟨UInt8.le_iff_toNat_le.mpr ?_, UInt8.le_iff_toNat_le.mpr ?_⟩
    · rw [hhi]
      exact (Nat.le_div_iff_mul_le (by decide)).mpr hlen
    · rw [hhi]
      exact Nat.le_trans (Nat.div_le_div_right (Nat.le_of_lt hk)) (by decide)
  · refine .inr ⟨UInt8.le_iff_toNat_le.mpr ?_, UInt8.le_iff_toNat_le.mpr ?_⟩
    · rw [hlo]
      exact Nat.le_of_lt hdigit
    · rw [hlo]
      exact Nat.le_trans (Nat.le_of_lt (Nat.mod_lt _ (by decide))) (by decide)
  · exact .inl h
  · rw [h.2]
    exact .inr (by decide)

/-- The two bytes behind the client id's length, as the script takes them. -/
theorem lenOf_smuggler {m l : Nat} (hm : m < 256) (hl : 2 ≤ l) (hl' : l < 16) :
    lenOf (UInt8.ofNat m) (UInt8.ofNat l) = 16 * m + l := by
  rw [lenOf_eq, Wire.toNat_ofNat_of_lt hm, Wire.toNat_ofNat_of_lt (by omega), if_pos ⟨hl, hl'⟩]

/-- **Three rounds later** the script stands in front of `k`. -/
theorem skipFields_smuggler {m l : Nat} (hm : m < 256) (hl : 2 ≤ l) (hl' : l < 16) {k : List UInt8}
    (hk : k.length < 256) (hdigit : 2 ≤ k.length % 16) (pre tail : List UInt8) :
    ∃ a b, pre ++ (UInt8.ofNat m :: UInt8.ofNat l :: (smuggler m l k ++ tail)) = a ++ (k ++ b) ∧
      skipFields (pre ++ (UInt8.ofNat m :: UInt8.ofNat l :: (smuggler m l k ++ tail))) 3 pre.length 0
        = some (a.length, k.length) := by
  -- what is left at each of the three places
  obtain ⟨t₃, ht₃⟩ : ∃ t, k ++ (List.replicate (256 * m + l - (16 * m + l + 22 + k.length)) 32 ++ tail) = t :=
    ⟨_, rfl⟩
  obtain ⟨t₂, ht₂⟩ : ∃ t, List.replicate 18 32 ++
      (UInt8.ofNat (k.length / 16) :: UInt8.ofNat (k.length % 16) :: t₃) = t := ⟨_, rfl⟩
  have hdata : smuggler m l k ++ tail = List.replicate (16 * m + l) 32 ++ (1 :: 2 :: t₂) := by
    rw [smuggler, ← ht₂, ← ht₃]
    simp only [List.append_assoc, List.cons_append]
  let pre₂ := pre ++ (UInt8.ofNat m :: UInt8.ofNat l :: List.replicate (16 * m + l) 32)
  let pre₃ := pre₂ ++ (1 :: 2 :: List.replicate 18 32)
  have hpre₂ : pre ++ (UInt8.ofNat m :: UInt8.ofNat l :: (smuggler m l k ++ tail)) = pre₂ ++ (1 :: 2 :: t₂) := by
    rw [hdata]
    simp only [pre₂, List.append_assoc, List.cons_append]
  have hpre₃ : pre₂ ++ (1 :: 2 :: t₂)
      = pre₃ ++ (UInt8.ofNat (k.length / 16) :: UInt8.ofNat (k.length % 16) :: t₃) := by
    rw [← ht₂]
    simp only [pre₃, List.append_assoc, List.cons_append]
  have hlen₂ : pre.length + 2 + (16 * m + l) = pre₂.length := by
    simp only [pre₂, List.length_append, List.length_cons, List.length_replicate]
    omega
  have hlen₃ : pre₂.length + 2 + 18 = pre₃.length := by
    simp only [pre₃, List.length_append, List.length_cons, List.length_replicate]
  have hlast : lenOf (UInt8.ofNat (k.length / 16)) (UInt8.ofNat (k.length % 16)) = k.length := by
    rw [lenOf_smuggler (by omega) hdigit (Nat.mod_lt _ (by decide)), Nat.div_add_mod]
  have hend : (pre₃ ++ [UInt8.ofNat (k.length / 16), UInt8.ofNat (k.length % 16)]).length
      = pre₃.length + 2 := List.length_append
  have htwo : lenOf 1 2 = 18 := lenOf_smuggler (m := 1) (l := 2) (by decide) (by decide) (by decide)
  refine ⟨pre₃ ++ [UInt8.ofNat (k.length / 16), UInt8.ofNat (k.length % 16)],
    List.replicate (256 * m + l - (16 * m + l + 22 + k.length)) 32 ++ tail, ?_, ?_⟩
  · rw [hpre₂, hpre₃, ← ht₃]
    simp only [List.append_assoc, List.cons_append, List.nil_append]
  · calc skipFields (pre ++ (UInt8.ofNat m :: UInt8.ofNat l :: (smuggler m l k ++ tail))) 3 pre.length 0
        = skipFields (pre₂ ++ (1 :: 2 :: t₂)) 2 pre₂.length (16 * m + l) := by
          rw [skipFields_succ, lenOf_smuggler hm hl hl', if_pos (by decide), hlen₂, hpre₂]
      _ = skipFields (pre₃ ++ (UInt8.ofNat (k.length / 16) :: UInt8.ofNat (k.length % 16) :: t₃)) 1
            pre₃.length 18 := by
          rw [skipFields_succ, htwo, if_pos (by decide), hlen₃, hpre₃]
      _ = some ((pre₃ ++ [UInt8.ofNat (k.length / 16), UInt8.ofNat (k.length % 16)]).length, k.length) := by
          rw [skipFields_succ, hlast, if_neg (by decide), hend]
          rfl

/-- No group of zeros but the last. -/
theorem not_mem_encode {n : Nat} (h : n % 128 ≠ 0) (h' : n / 128 % 128 ≠ 0) (hlt : n < 2 ^ 19) :
    128 ∉ Wire.encode n := by
  have hbyte : ∀ v, v < 256 → v ≠ 128 → (128 : UInt8) ≠ UInt8.ofNat v := by
    intro v hv hne heq
    have hnat := congrArg UInt8.toNat heq
    rw [Wire.toNat_ofNat_of_lt hv] at hnat
    exact hne hnat.symm
  have hlast : ∀ v, v < 128 → 128 ∉ Wire.encode v := by
    intro v hv
    rw [Wire.encode_of_lt hv, List.mem_singleton]
    exact hbyte v (by omega) (by omega)
  have hgroup : ∀ v, v % 128 ≠ 0 → 128 ∉ Wire.encode (v / 128) → 128 ∉ Wire.encode v := by
    intro v hv hrest
    by_cases hsmall : v < 128
    · exact hlast v hsmall
    · rw [Wire.encode_of_ge (by omega), List.mem_cons, not_or]
      exact ⟨hbyte _ (by omega) (by omega), hrest⟩
  exact hgroup n h (hgroup (n / 128) h' (hlast _ (by omega)))

/-- The script takes `k` for the password. -/
theorem parsePackage_smuggler (c : Connect) (h : Unbroken c) {m l : Nat} (hm : m < 256) (hl : 2 ≤ l)
    (hl' : l < 16) {k : List UInt8} (hk : k.length < 256) (hdigit : 2 ≤ k.length % 16)
    (hid : c.clientId.val = smuggler m l k) (hid' : c.clientId.val.length = 256 * m + l)
    (hwill : c.will = none) (hpassword : c.password ≠ none) (rest : List UInt8) :
    parsePackage (c.encode ++ rest) = some (text k) := by
  obtain ⟨hboth, hfive⟩ := (flags_login c).2 hpassword
  have hpayload : c.payload ++ rest = UInt8.ofNat m :: UInt8.ofNat l ::
      (smuggler m l k ++ (c.will.elim [] Mqtt.Will.encode ++ c.login.elim [] Mqtt.Login.encode ++ rest)) := by
    have hdiv : (256 * m + l) / 256 = m := by omega
    have hmod : (256 * m + l) % 256 = l := by omega
    rw [Connect.payload, Field.encode, hid', Mqtt.short, hdiv, hmod, hid]
    simp only [List.append_assoc, List.cons_append, List.nil_append]
  obtain ⟨a, b, hab, hskip⟩ := skipFields_smuggler hm hl hl' hk hdigit (front c)
    (c.will.elim [] Mqtt.Will.encode ++ c.login.elim [] Mqtt.Login.encode ++ rest)
  rw [parsePackage_unbroken h, if_neg (by omega), if_neg (by rw [hfive, hwill]; exact not_not_intro rfl),
    encode_front, hpayload, hskip, Option.map_some, hab]
  exact congrArg (fun pass => some (text pass)) (substring_append a k b)

/-- There is a client id with which a packet's length has no group of zeros but the last. -/
theorem exists_lengths (n : Nat) : ∃ m l, 2 ≤ m ∧ m < 4 ∧ 2 ≤ l ∧ l < 16 ∧
    (256 * m + l + n) % 128 ≠ 0 ∧ (256 * m + l + n) / 128 % 128 ≠ 0 := by
  by_cases hlow : (256 * 2 + 2 + n) % 128 = 0
  · by_cases hhigh : (256 * 2 + 3 + n) / 128 % 128 = 0
    · exact ⟨3, 3, by omega, by omega, by omega, by omega, by omega, by omega⟩
    · exact ⟨2, 3, by omega, by omega, by omega, by omega, by omega, hhigh⟩
  · by_cases hhigh : (256 * 2 + 2 + n) / 128 % 128 = 0
    · exact ⟨3, 2, by omega, by omega, by omega, by omega, by omega, by omega⟩
    · exact ⟨2, 2, by omega, by omega, by omega, by omega, hlow, hhigh⟩

/-- **Any password is let through**, for a certificate whose common name is as long as a key of the
things service, say. -/
theorem outcome_smuggled {s : Variables} {k : List UInt8} (hv : Verified s (text k))
    (hlen : 16 ≤ k.length) (hk : k.length < 256) (hdigit : 2 ≤ k.length % 16) (username password : Field)
    (cleanSession : Bool) (keepAlive : Fin 65536) (n : Nat) (rest : List UInt8) (later : List (List UInt8)) :
    ∃ c : Connect, c.login = some ⟨username, some password⟩ ∧ c.will = none ∧
      c.cleanSession = cleanSession ∧ c.keepAlive = keepAlive ∧
      (∀ b ∈ c.clientId.val, b ∈ k ∨ 1 ≤ b ∧ b ≤ 32) ∧
      Connect.read (c.encode ++ rest) = some (c, rest) ∧
      (session s (List.replicate n [] ++ (c.encode ++ rest) :: later)).outcome = some .allow := by
  let login : Mqtt.Login := ⟨username, some password⟩
  obtain ⟨m, l, hm, hm', hl, hl', hlow, hhigh⟩ := exists_lengths (12 + login.encode.length)
  have hid : (smuggler m l k).length = 256 * m + l := length_smuggler hm hk
  let c : Connect := ⟨⟨smuggler m l k, by omega⟩, none, some login, cleanSession, keepAlive⟩
  have hbody : c.body.length = 256 * m + l + (12 + login.encode.length) := by
    simp only [c, Connect.body, Connect.payload, Mqtt.protocol, List.length_append, List.length_cons,
      List.length_nil, Mqtt.length_encode, Mqtt.length_short, hid, Option.elim_none, Option.elim_some]
    omega
  have hunbroken : Unbroken c := by
    have hlt := Mqtt.length_body_lt c
    rw [hbody] at hlt
    rw [Unbroken, hbody]
    exact not_mem_encode hlow hhigh hlt
  have hpass := parsePackage_smuggler c hunbroken (by omega) hl hl' hk hdigit rfl hid rfl
    (Option.some_ne_none password) rest
  have hne : text k ≠ [] := fun h => by
    rw [List.map_eq_nil_iff.mp h] at hlen
    exact absurd hlen (by decide)
  refine ⟨c, rfl, rfl, rfl, rfl, fun b hb => mem_smuggler hlen hk hdigit hb,
    Connect.read_encode c rest, ?_⟩
  rw [Connect.encode, List.cons_append] at hpass ⊢
  rw [outcome_first hv, if_neg (by decide), hpass, compare, if_neg (not_or.mpr ⟨hne, not_not_intro rfl⟩)]

/-- The lamp's certificate, and another thing's key. -/
theorem outcome_smuggled_lamp :
    ∃ c : Connect, c.login = some ⟨⟨[98], by decide⟩, some ⟨[100, 111, 111, 114], by decide⟩⟩ ∧ c.will = none ∧
      c.cleanSession = true ∧ c.keepAlive = ⟨60, by decide⟩ ∧ (∀ b ∈ c.clientId.val, b ∈ lampKey ∨ 1 ≤ b ∧ b ≤ 32) ∧
      Connect.read (c.encode ++ []) = some (c, []) ∧
      (session lamp (List.replicate 0 [] ++ (c.encode ++ []) :: [])).outcome = some .allow :=
  outcome_smuggled verified_lamp (by decide) (by decide) (by decide) ⟨[98], by decide⟩
    ⟨[100, 111, 111, 114], by decide⟩ true ⟨60, by decide⟩ 0 [] []

end Mainflux.Gateway
