/-
  Mainflux.Lib.Mqtt
  ─────────────────
  **THE FIRST PACKET OF MQTT 3.1.1.**

  A client opens a connection with CONNECT: a type byte, the length of the rest in the
  seven-bit groups of a varint, the protocol's name and level, a byte of flags, the keep
  alive, and the fields the flags announce, each behind its length in two bytes.

    • `Connect` — a packet by its meaning; what the flags may not say cannot be written;
    • `Connect.encode`, `Connect.read` — its bytes, and what a broker reads from bytes;
    • `Connect.read_encode` — a broker reads the packet that was written, whatever follows.
-/
import Mainflux.Lib.Varint

namespace Mainflux.Lib.Mqtt

/-! ## §1. Packets. -/

/-- Bytes whose length fits in two. -/
abbrev Field := { bytes : List UInt8 // bytes.length < 65536 }

structure Will where
  topic : Field
  message : Field
  qos : Fin 3
  retain : Bool
  deriving DecidableEq

/-- There is no password without a user name. -/
structure Login where
  username : Field
  password : Option Field
  deriving DecidableEq

structure Connect where
  clientId : Field
  will : Option Will
  login : Option Login
  cleanSession : Bool
  keepAlive : Fin 65536
  deriving DecidableEq

def Connect.password (c : Connect) : Option Field := c.login.bind Login.password

/-! ## §2. Writing. -/

/-- A number in two bytes, the higher one first. -/
def short (n : Nat) : List UInt8 := [UInt8.ofNat (n / 256), UInt8.ofNat (n % 256)]

def Field.encode (f : Field) : List UInt8 := short f.val.length ++ f.val

def Will.flags (w : Will) : Nat := 4 + 8 * w.qos.val + 32 * w.retain.toNat

def Login.flags (l : Login) : Nat := 128 + 64 * l.password.isSome.toNat

def Connect.flags (c : Connect) : Nat :=
  2 * c.cleanSession.toNat + (c.will.elim 0 Will.flags) + (c.login.elim 0 Login.flags)

def Will.encode (w : Will) : List UInt8 := Field.encode w.topic ++ Field.encode w.message

def Login.encode (l : Login) : List UInt8 :=
  Field.encode l.username ++ l.password.elim [] Field.encode

/-- The protocol's name behind its length, and its level. -/
def protocol : List UInt8 := [0, 4, 77, 81, 84, 84, 4]

def Connect.payload (c : Connect) : List UInt8 :=
  Field.encode c.clientId ++ (c.will.elim [] Will.encode ++ c.login.elim [] Login.encode)

def Connect.body (c : Connect) : List UInt8 :=
  protocol ++ (UInt8.ofNat c.flags :: (short c.keepAlive.val ++ c.payload))

def Connect.encode (c : Connect) : List UInt8 :=
  0x10 :: (Wire.encode c.body.length ++ c.body)

/-! ## §3. Reading. -/

def readShort : List UInt8 → Option (Nat × List UInt8)
  | hi :: lo :: rest => some (256 * hi.toNat + lo.toNat, rest)
  | _ => none

def Field.read (bs : List UInt8) : Option (Field × List UInt8) :=
  match readShort bs with
  | none => none
  | some (n, rest) =>
      if h : n < 65536 ∧ n ≤ rest.length then
        some (⟨rest.take n, Nat.lt_of_le_of_lt (List.length_take_le n rest) h.1⟩, rest.drop n)
      else none

/-- The will that the flags announce; quality 3 is not in use, and without a will there is nothing to
keep. -/
def readWill (flags : Nat) (bs : List UInt8) : Option (Option Will × List UInt8) :=
  if flags / 4 % 2 = 1 then do
    let (topic, bs) ← Field.read bs
    let (message, bs) ← Field.read bs
    if h : flags / 8 % 4 < 3 then
      some (some ⟨topic, message, ⟨flags / 8 % 4, h⟩, flags / 32 % 2 = 1⟩, bs)
    else none
  else if flags / 8 % 8 = 0 then some (none, bs)
  else none

def readLogin (flags : Nat) (bs : List UInt8) : Option (Option Login × List UInt8) :=
  if flags / 128 % 2 = 1 then do
    let (username, bs) ← Field.read bs
    if flags / 64 % 2 = 1 then do
      let (password, bs) ← Field.read bs
      some (some ⟨username, some password⟩, bs)
    else some (some ⟨username, none⟩, bs)
  else if flags / 64 % 2 = 0 then some (none, bs)
  else none

/-- What follows the level; the lowest flag is reserved, and nothing may be left over. -/
def readFields (flags : Nat) (bs : List UInt8) : Option Connect := do
  let (keepAlive, bs) ← readShort bs
  let (clientId, bs) ← Field.read bs
  let (will, bs) ← readWill flags bs
  let (login, bs) ← readLogin flags bs
  if flags % 2 = 0 ∧ bs = [] then
    some ⟨clientId, will, login, flags / 2 % 2 = 1, Fin.ofNat 65536 keepAlive⟩
  else none

def readBody (bs : List UInt8) : Option Connect :=
  if bs.take 7 = protocol then
    match bs.drop 7 with
    | flags :: bs => readFields flags.toNat bs
    | [] => none
  else none

/-- A broker's reader: the packet, and the bytes behind it. -/
def Connect.read : List UInt8 → Option (Connect × List UInt8)
  | [] => none
  | type :: bs =>
      if type = 0x10 then
        match Wire.readVarint bs 0 0 with
        | .error _ => none
        | .ok (n, rest) =>
            if bs.length ≤ rest.length + 4 ∧ n ≤ rest.length then
              (readBody (rest.take n)).map fun c => (c, rest.drop n)
            else none
      else none

/-! ## §4. What is written is read. -/

theorem length_short (n : Nat) : (short n).length = 2 := rfl

@[simp] theorem length_encode (f : Field) : (Field.encode f).length = f.val.length + 2 := by
  rw [Field.encode, List.length_append, length_short, Nat.add_comm]

theorem readShort_short {n : Nat} (h : n < 65536) (rest : List UInt8) :
    readShort (short n ++ rest) = some (n, rest) := by
  rw [short, List.cons_append, List.cons_append, List.nil_append, readShort,
    Wire.toNat_ofNat_of_lt (by omega), Wire.toNat_ofNat_of_lt (by omega), Nat.div_add_mod]

@[simp] theorem read_encode (f : Field) (rest : List UInt8) :
    Field.read (Field.encode f ++ rest) = some (f, rest) := by
  have hlen : f.val.length < 65536 ∧ f.val.length ≤ (f.val ++ rest).length :=
    ⟨f.property, by rw [List.length_append]; omega⟩
  simp only [Field.read, Field.encode, List.append_assoc, readShort_short f.property, dif_pos hlen,
    List.take_left, List.drop_left]

/-- What the writer puts into each place of the flags. -/
theorem flags_parts (c : Connect) :
    c.flags < 256 ∧ c.flags % 2 = 0 ∧ c.flags / 2 % 2 = c.cleanSession.toNat ∧
      c.flags / 4 % 2 = c.will.isSome.toNat ∧ c.flags / 8 % 4 = c.will.elim 0 (fun w => w.qos.val) ∧
      c.flags / 32 % 2 = c.will.elim 0 (fun w => w.retain.toNat) ∧
      c.flags / 64 % 2 = c.password.isSome.toNat ∧ c.flags / 128 % 2 = c.login.isSome.toNat := by
  obtain ⟨clientId, will, login, cleanSession, keepAlive⟩ := c
  have hclean := Bool.toNat_le cleanSession
  cases will with
  | none =>
      cases login with
      | none => simp only [Connect.flags, Connect.password, Option.elim, Option.bind_none]; simp; omega
      | some l =>
          have hpassword := Bool.toNat_le l.password.isSome
          simp only [Connect.flags, Connect.password, Option.elim, Login.flags, Option.bind_some]
          simp
          omega
  | some w =>
      have hqos := w.qos.isLt
      have hretain := Bool.toNat_le w.retain
      cases login with
      | none =>
          simp only [Connect.flags, Connect.password, Option.elim, Will.flags, Option.bind_none]
          simp
          omega
      | some l =>
          have hpassword := Bool.toNat_le l.password.isSome
          simp only [Connect.flags, Connect.password, Option.elim, Will.flags, Login.flags,
            Option.bind_some]
          simp
          omega

theorem readWill_encode (c : Connect) (rest : List UInt8) :
    readWill c.flags (c.will.elim [] Will.encode ++ rest) = some (c.will, rest) := by
  obtain ⟨-, -, -, hwill, hqos, hretain, -, -⟩ := flags_parts c
  cases hw : c.will with
  | none =>
      rw [hw] at hwill hqos hretain
      simp only [Option.isSome_none, Bool.toNat_false, Option.elim_none] at hwill hqos hretain
      rw [readWill, if_neg (by omega), if_pos (by omega)]
      rfl
  | some w =>
      rw [hw] at hwill hqos hretain
      simp only [Option.isSome_some, Bool.toNat_true, Option.elim_some] at hwill hqos hretain
      have hlt : c.flags / 8 % 4 < 3 := hqos ▸ w.qos.isLt
      have hback : decide (c.flags / 32 % 2 = 1) = w.retain := by
        rw [hretain]
        cases w.retain <;> rfl
      rw [readWill, if_pos hwill, Option.elim_some, Will.encode, List.append_assoc, read_encode]
      simp only [Option.bind_eq_bind, Option.bind_some, read_encode, dif_pos hlt, hback]
      simp only [hqos]

theorem readLogin_encode (c : Connect) (rest : List UInt8) :
    readLogin c.flags (c.login.elim [] Login.encode ++ rest) = some (c.login, rest) := by
  obtain ⟨-, -, -, -, -, -, hpassword, hlogin⟩ := flags_parts c
  rw [Connect.password] at hpassword
  cases hl : c.login with
  | none =>
      have hnoPassword : c.flags / 64 % 2 = 0 := by rw [hpassword, hl]; rfl
      rw [readLogin, if_neg (by rw [hlogin, hl]; decide), if_pos hnoPassword]
      rfl
  | some l =>
      have hsome : c.flags / 128 % 2 = 1 := by rw [hlogin, hl]; rfl
      rw [hl, Option.bind_some] at hpassword
      rw [readLogin, if_pos hsome, Option.elim_some, Login.encode, List.append_assoc, read_encode]
      obtain ⟨username, password⟩ := l
      cases password with
      | none =>
          have hno : ¬ c.flags / 64 % 2 = 1 := by
            rw [hpassword]
            exact Nat.zero_ne_one
          simp only [Option.bind_eq_bind, Option.bind_some, if_neg hno, Option.elim_none,
            List.nil_append]
      | some p =>
          have hone : c.flags / 64 % 2 = 1 := hpassword
          simp only [Option.bind_eq_bind, Option.bind_some, if_pos hone, Option.elim_some, read_encode]

/-- **A body is read back.** -/
theorem readBody_body (c : Connect) : readBody c.body = some c := by
  obtain ⟨hlt, heven, hclean, -⟩ := flags_parts c
  have hwill := readWill_encode c (c.login.elim [] Login.encode ++ [])
  have hlogin := readLogin_encode c []
  rw [List.append_nil] at hwill hlogin
  have hback : decide (c.flags / 2 % 2 = 1) = c.cleanSession := by
    rw [hclean]
    cases c.cleanSession <;> rfl
  have htake : c.body.take 7 = protocol := rfl
  have hdrop : c.body.drop 7 = UInt8.ofNat c.flags :: (short c.keepAlive.val ++ c.payload) := rfl
  rw [readBody, if_pos htake, hdrop]
  simp only [Wire.toNat_ofNat_of_lt hlt, readFields, Connect.payload,
    readShort_short c.keepAlive.isLt, Option.bind_eq_bind, Option.bind_some, read_encode, hwill,
    hlogin, heven, hback, Fin.ofNat_val_eq_self, and_self, if_true]

/-- The three fields with the largest lengths fit in 18 bits. -/
theorem length_body_lt (c : Connect) : c.body.length < 2 ^ 19 := by
  have hid := c.clientId.property
  have hwill : (c.will.elim [] Will.encode).length < 131077 := by
    cases c.will with
    | none => simp
    | some w =>
        have htopic := w.topic.property
        have hmessage := w.message.property
        simp only [Option.elim_some, Will.encode, List.length_append, length_encode]
        omega
  have hlogin : (c.login.elim [] Login.encode).length < 131077 := by
    cases c.login with
    | none => simp
    | some l =>
        have husername := l.username.property
        obtain ⟨username, password⟩ := l
        cases password with
        | none =>
            simp only [Option.elim_some, Login.encode, List.length_append, length_encode,
              Option.elim_none, List.length_nil]
            omega
        | some p =>
            have hp := p.property
            simp only [Option.elim_some, Login.encode, List.length_append, length_encode]
            omega
  simp only [Connect.body, protocol, Connect.payload, List.length_append, List.length_cons,
    List.length_nil, length_encode, length_short]
  omega

/-- **What was written is read**, whatever follows it. -/
theorem Connect.read_encode (c : Connect) (rest : List UInt8) :
    Connect.read (c.encode ++ rest) = some (c, rest) := by
  have hlt := length_body_lt c
  have hshort : (Wire.encode c.body.length).length ≤ 4 := by
    have hmono := Wire.length_encode_mono (show c.body.length ≤ 2 ^ 19 by omega)
    have hfour : (Wire.encode (2 ^ 19)).length ≤ 4 := by
      rw [Wire.length_encode]
      decide
    omega
  have hfits : (Wire.encode c.body.length ++ (c.body ++ rest)).length ≤ (c.body ++ rest).length + 4 ∧
      c.body.length ≤ (c.body ++ rest).length := by
    simp only [List.length_append]
    omega
  rw [Connect.encode, List.cons_append, List.append_assoc, Connect.read, if_pos rfl,
    Wire.readVarint_encode (by omega)]
  simp only [if_pos hfits, List.take_left, List.drop_left, readBody_body, Option.map_some]

end Mainflux.Lib.Mqtt
