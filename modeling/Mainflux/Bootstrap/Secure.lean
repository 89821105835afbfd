/-
  Mainflux.Bootstrap.Secure
  ─────────────────────────
  **BOOTSTRAP WITH AN ENCRYPTED KEY.**

  A device may send its key encrypted: the hexadecimal digits of an initialization vector
  and of the key under it, in cipher feedback mode.  The reader of the API encrypts its
  answer the same way.

  Keys are strings of Go here, that is, bytes: what comes out of the decryption need not
  be a text.  AES is a parameter, as a function on blocks of sixteen bytes.

    • `bootstrap_text` — for keys that are texts this is `bootstrap` of
      `Bootstrap.Registry`;
    • `secure_eq_plain` — a device that is known gets the same answer both ways; `dec`
      undoes `encrypt`; and `dec` fails exactly on what is not hexadecimal or too short.
-/
import Mainflux.Bootstrap.Registry
import Mainflux.Lib.Cfb
import Mainflux.Lib.Hex

namespace Mainflux.Bootstrap.Secure

open Mainflux.Lib

open Consistency (RepoFault)

/-! ## §1. Strings and texts. -/

/-- The bytes of a text. -/
def utf8 (s : String) : List UInt8 := s.toUTF8.data.toList

/-- The text that bytes are, if they are one. -/
def textOf (bytes : List UInt8) : Option String := String.fromUTF8? ⟨bytes.toArray⟩

@[simp] theorem textOf_utf8 (s : String) : textOf (utf8 s) = some s := by
  have hvalid : (⟨(utf8 s).toArray⟩ : ByteArray).IsValidUTF8 := by
    simpa [utf8] using s.isValidUTF8
  rw [textOf, String.fromUTF8?, dif_pos hvalid]
  refine congrArg some (String.toByteArray_inj.mp ?_)
  simp [utf8, String.fromUTF8]

theorem utf8_inj {s t : String} : utf8 s = utf8 t ↔ s = t := by
  refine ⟨fun h => ?_, fun h => by rw [h]⟩
  have htext := congrArg textOf h
  rw [textOf_utf8, textOf_utf8] at htext
  exact Option.some.inj htext

/-! ## §2. The cipher. -/

/-- A block of AES. -/
abbrev Block := Vector UInt8 16

local instance blockSize_ne_zero : NeZero 16 := ⟨by decide⟩

/-- The initialization vector and the ciphertext behind it. -/
def framed (block : Block → Block) (iv : Block) (input : List UInt8) : List UInt8 :=
  iv.toList ++ Cfb.xorKeyStream block false iv input

/-- `encrypt` of the reader, with the answers of `aes.NewCipher` and of `rand.Reader`. -/
def encrypt (cipher : Except Err (Block → Block)) (iv : Except Err Block) (input : List UInt8) :
    Except Err (List UInt8) :=
  match cipher, iv with
  | .error e, _ => .error e
  | .ok _, .error e => .error e
  | .ok block, .ok iv => .ok (framed block iv input)

/-- `dec`, with the answer of `aes.NewCipher`. -/
def dec (cipher : Except Err (Block → Block)) (input : List UInt8) : Except Err (List UInt8) :=
  match Hex.decode input with
  | none => .error .notFound
  | some ciphertext =>
      -- the cipher is made before the length is looked at
      match cipher with
      | .error e => .error e
      | .ok block =>
          if h : ciphertext.length < 16 then .error .malformedEntity
          else
            -- the rest is decrypted in place
            let iv : Block := ⟨(ciphertext.take 16).toArray, by simpa using h⟩
            .ok (Cfb.xorKeyStream block true iv (ciphertext.drop 16))

/-- **`dec` undoes `encrypt`.** -/
theorem dec_framed (block : Block → Block) (iv : Block) (input : List UInt8) :
    dec (.ok block) (Hex.encode (framed block iv input)) = .ok input := by
  have hlen : iv.toList.length = 16 := Vector.length_toList
  have hlong : ¬ (framed block iv input).length < 16 := by
    rw [framed, List.length_append, hlen]
    omega
  have htake : (framed block iv input).take 16 = iv.toList := List.take_left' hlen
  have hdrop : (framed block iv input).drop 16 = Cfb.xorKeyStream block false iv input :=
    List.drop_left' hlen
  simp only [dec, Hex.decode_encode, dif_neg hlong, htake, hdrop]
  exact congrArg Except.ok (Cfb.decrypt_encrypt block iv input)

/-- **What `dec` refuses.** -/
theorem dec_fails_iff (block : Block → Block) (input : List UInt8) :
    (∃ e, dec (.ok block) input = .error e) ↔ ¬ Hex.IsHex input ∨ input.length / 2 < 16 := by
  unfold dec
  cases hdecode : Hex.decode input with
  | none => exact iff_of_true ⟨_, rfl⟩ (.inl (Hex.decode_eq_none.mp hdecode))
  | some ciphertext =>
      have hhex : Hex.IsHex input := not_not.mp fun h => by
        rw [Hex.decode_eq_none.mpr h] at hdecode
        cases hdecode
      have hlen := Hex.length_of_decode hdecode
      by_cases hshort : ciphertext.length < 16
      · simp only [dif_pos hshort]
        exact iff_of_true ⟨_, rfl⟩ (.inr (by omega))
      · simp only [dif_neg hshort]
        refine iff_of_false (fun ⟨e, he⟩ => by cases he) ?_
        rintro (hnot | hfew)
        · exact hnot hhex
        · omega

/-! ## §3. `Bootstrap`. -/

/-- `SaveUnknown` of a key that is a text; PostgreSQL refuses others. -/
def saveUnknown (saving : Option RepoFault) (externalKey : List UInt8) (externalID : String)
    (unknown : List UnknownRow) : List UnknownRow :=
  match textOf externalKey with
  | none => unknown
  | some key =>
      if effective saving then ConfigRepository.saveUnknown key externalID unknown else unknown

/-- `Bootstrap`. -/
def bootstrap (cipher : Except Err (Block → Block)) (readable : Bool) (saving : Option RepoFault)
    (externalKey : List UInt8) (externalID : String) (secure : Bool) (s : Registry) :
    Registry × Except Err Config :=
  if readable then
    match ConfigRepository.retrieveByExternalID externalID s.db with
    | .error .notFound =>
        -- an unknown device is recorded with the key as it was sent
        ({ s with unknown := saveUnknown saving externalKey externalID s.unknown }, .error .notFound)
    | .error e => (s, .error e)
    | .ok cfg =>
        match if secure then dec cipher externalKey else .ok externalKey with
        | .error e => (s, .error e)
        | .ok key => if utf8 cfg.externalKey ≠ key then (s, .error .notFound) else (s, .ok cfg)
  else (s, .error .unavailable)

/-- For keys that are texts this is `bootstrap` of the registry. -/
theorem bootstrap_text (cipher : Except Err (Block → Block)) (attempt : Attempt)
    (key externalID : String) (secure : Bool) (s : Registry)
    (hdec : secure = true → dec cipher (utf8 key) = (attempt.dec key).map utf8) :
    bootstrap cipher attempt.readable attempt.saveUnknown (utf8 key) externalID secure s
      = Bootstrap.bootstrap attempt key externalID secure s := by
  unfold bootstrap Bootstrap.bootstrap saveUnknown
  rw [textOf_utf8]
  cases attempt.readable with
  | false => rfl
  | true =>
      cases ConfigRepository.retrieveByExternalID externalID s.db with
      | error e =>
          cases e with
          | notFound => rfl
          | _ => rfl
      | ok cfg =>
          cases secure with
          | false =>
              simp only [if_true, Bool.false_eq_true, if_false, ne_eq, utf8_inj]
          | true =>
              simp only [if_true, hdec rfl]
              cases attempt.dec key with
              | error e => rfl
              | ok key => simp only [Except.map, ne_eq, utf8_inj]

/-- A device that is known. -/
def Known (externalID : String) (s : Registry) : Prop :=
  ∃ r ∈ s.db.configs, r.externalID = externalID

theorem retrieveByExternalID_known {externalID : String} {s : Registry} (h : Known externalID s) :
    ∃ cfg, ConfigRepository.retrieveByExternalID externalID s.db = .ok cfg := by
  obtain ⟨r, hr, hid⟩ := h
  unfold ConfigRepository.retrieveByExternalID
  cases hfind : s.db.configs.find? fun r => r.externalID = externalID with
  | none => exact absurd (List.find?_eq_none.mp hfind r hr) (by simpa using hid)
  | some r' => exact ⟨_, rfl⟩

/-- **A secure bootstrap is a plain one**: a device that is known gets the same answer,
`dec` undoes `encrypt`, and `dec` fails exactly on what is not hexadecimal or makes fewer
than sixteen bytes. -/
theorem secure_eq_plain (block : Block → Block) :
    (∀ (iv : Block) (readable : Bool) (saving : Option RepoFault) (key : List UInt8)
        (externalID : String) (s : Registry), Known externalID s →
      bootstrap (.ok block) readable saving (Hex.encode (framed block iv key)) externalID true s
        = bootstrap (.ok block) readable saving key externalID false s) ∧
      (∀ (iv : Block) (input ciphertext : List UInt8),
        encrypt (.ok block) (.ok iv) input = .ok ciphertext →
          dec (.ok block) (Hex.encode ciphertext) = .ok input) ∧
      ∀ input, (∃ e, dec (.ok block) input = .error e) ↔
        ¬ Hex.IsHex input ∨ input.length / 2 < 16 := by
  refine ⟨fun iv readable saving key externalID s hknown => ?_, fun iv input ciphertext h => ?_,
    dec_fails_iff block⟩
  -- of a known device the key is only compared, after it was decrypted
  · obtain ⟨cfg, hcfg⟩ := retrieveByExternalID_known hknown
    simp only [bootstrap, hcfg, dec_framed, if_true, Bool.false_eq_true, if_false]
  · obtain rfl : framed block iv input = ciphertext := Except.ok.inj h
    exact dec_framed block iv input

/-! ## §4. A device. -/

/-- The block `00112233445566778899aabbccddeeff`. -/
def counting : Block := Vector.ofFn fun i => UInt8.ofNat (17 * i.val)

/-- AES-128 under the key `000102030405060708090a0b0c0d0e0f`, on that block. -/
def aes (b : Block) : Block :=
  if b = counting then
    Vector.mk #[0x69, 0xc4, 0xe0, 0xd8, 0x6a, 0x7b, 0x04, 0x30, 0xd8, 0xcd, 0xb7, 0x80, 0x70, 0xb4,
      0xc5, 0x5a] rfl
  else b

/-- Bob's sensor is known as `ext`. -/
def sensorKnown : Registry where
  world :=
    { db := ⟨[⟨"sensor", "bob", none, none, none, none, "k5", "ext", "secret", none, .inactive⟩], [], []⟩
      links := []
      pending := [] }
  unknown := []

/-- The sensor sends its key encrypted. -/
theorem secure_eq_plain_sensor :
    bootstrap (.ok aes) true none (Hex.encode (framed aes counting (utf8 "secret"))) "ext" true
        sensorKnown
      = bootstrap (.ok aes) true none (utf8 "secret") "ext" false sensorKnown ∧
    dec (.ok aes) (Hex.encode (framed aes counting (utf8 "secret"))) = .ok (utf8 "secret") := by
  obtain ⟨hsame, hback, -⟩ := secure_eq_plain aes
  exact ⟨hsame counting true none _ "ext" sensorKnown ⟨_, List.mem_singleton_self _, rfl⟩,
    hback counting _ _ rfl⟩

end Mainflux.Bootstrap.Secure
