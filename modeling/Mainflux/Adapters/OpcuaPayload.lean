/-
  Mainflux.Adapters.OpcuaPayload
  ──────────────────────────────
  **WHAT THE SENML DECODER MAKES OF A PAYLOAD OF THE OPC-UA ADAPTER.**

  The adapter writes its payload with one format string (`senML`): the type as
  the name, the seconds of the source time, and the data under the key of a
  number, whatever its type is.

    • `readSlice_senML` — name and time are always read back, so that only the
      text of the data is left to be read;
    • `unmarshal_number`, `unmarshal_bool`, `unmarshal_malformed`,
      `stringValue_unmarshal` — the four kinds of data;
    • `payload_iff` — for which values a record with the value arrives.
-/
import Mainflux.Adapters.OpcuaSubscribe
import Mainflux.Storage.SenmlJson

namespace Mainflux.Adapters.Opcua

open Mainflux.Lib

open FlatJson (writeNat)

open Storage (Slot Record)

/-! ## §1. The record that should arrive. -/

/-- The message on the broker.  Its content type is no format of the transformer, which then
takes the payload as JSON. -/
def Published.envelope (p : Published) : Storage.Envelope Binary64 where
  channel := p.channel.toList
  topic := []
  subtopic := []
  publisher := p.publisher.toList
  devname := []
  protocol := "opcua".toList
  contentType := "Content-Type".toList
  payload := Storage.unmarshal p.payload

theorem payload_envelope (p : Published) : p.envelope.payload = Storage.unmarshal p.payload := rfl

/-- The time, in seconds since 1970. -/
def Time.value : Time → ℚ
  | .zero => -62135596800
  | .unix nanos => nanos.toInt / 1000000000

/-- A number field has the value. -/
def IsNumber (field : Option Binary64) (n : Int) : Prop := ∃ x, field = some x ∧ x.value = n

/-- The field of the matching kind has exactly the value. -/
def HasValue (r : Record Binary64) (v : Variant) : Prop :=
  match v with
  | ⟨.boolean, b⟩ => r.boolValue = some b
  | ⟨.sbyte, n⟩ => IsNumber r.value n.toInt
  | ⟨.byte, n⟩ => IsNumber r.value n.toNat
  | ⟨.int16, n⟩ => IsNumber r.value n.toInt
  | ⟨.uint16, n⟩ => IsNumber r.value n.toNat
  | ⟨.int32, n⟩ => IsNumber r.value n.toInt
  | ⟨.uint32, n⟩ => IsNumber r.value n.toNat
  | ⟨.int64, n⟩ => IsNumber r.value n.toInt
  | ⟨.uint64, n⟩ => IsNumber r.value n.toNat
  | ⟨.float, x⟩ => r.value = some x.toBinary64
  | ⟨.double, x⟩ => r.value = some x
  | ⟨.string, s⟩ => r.stringValue = some s.toList
  | _ => False

/-- The payload is a pack of one record, which carries the value at the time. -/
def Carries (rt : Storage.Runtime Binary64) (p : Published) (v : Variant) (time : ℚ) : Prop :=
  ∃ r, Storage.decode rt p.envelope = .ok [r] ∧ r.name = v.type.toString.toList ∧
    r.time.value = time ∧ HasValue r v

/-- The values that the payload can hold: a finite number; a whole number with at most 53
significant bits, and of the shorter types only zero; no boolean and no text. -/
def Exact (v : Variant) : Prop :=
  match v with
  | ⟨.sbyte, n⟩ => n = 0
  | ⟨.byte, n⟩ => n = 0
  | ⟨.int16, n⟩ => n = 0
  | ⟨.uint16, n⟩ => n = 0
  | ⟨.int32, n⟩ => n = 0
  | ⟨.uint32, n⟩ => n = 0
  | ⟨.int64, n⟩ => Binary64.Short n.toInt.natAbs
  | ⟨.uint64, n⟩ => Binary64.Short n.toNat
  | ⟨.float, x⟩ => x.Finite
  | ⟨.double, x⟩ => x.Finite
  | _ => False

/-! ## §2. Reading the frame. -/

/-- Without the opening brackets: name, time, and the text of the data with what follows it. -/
def frame (name time data : List Char) : List Char :=
  '"' :: 'n' :: '"' :: ':' :: '"' :: (name ++
    '"' :: ',' :: ' ' :: '"' :: 't' :: '"' :: ':' :: ' ' :: (time ++
      ',' :: ' ' :: '"' :: 'v' :: '"' :: ':' :: data))

theorem senML_eq (m : Message) :
    senML m = '[' :: '\x7b' ::
      frame m.type.toList (writeInt m.time) (m.data.format ++ ['\x7d', ']']) := by
  have hopen : "[\x7b\"n\":\"".toList = ['[', '\x7b', '"', 'n', '"', ':', '"'] := by decide
  have htime : "\", \"t\": ".toList = ['"', ',', ' ', '"', 't', '"', ':', ' '] := by decide
  have hdata : ", \"v\":".toList = [',', ' ', '"', 'v', '"', ':'] := by decide
  have hclose : "\x7d]".toList = ['\x7d', ']'] := by decide
  show "[\x7b\"n\":\"".toList ++ m.type.toList ++ "\", \"t\": ".toList ++ writeInt m.time ++
    ", \"v\":".toList ++ m.data.format ++ "\x7d]".toList = _
  rw [hopen, htime, hdata, hclose, frame]
  simp only [List.append_assoc, List.cons_append, List.nil_append]

theorem senML_messageOf (serverURI nodeID : String) (item : Item) :
    senML (messageOf serverURI nodeID item) = '[' :: '\x7b' ::
      frame item.value.type.toString.toList (writeInt item.sourceTimestamp.seconds)
        ((dataOf item.value).format ++ ['\x7d', ']']) :=
  senML_eq _

section Frame

variable {name time : List Char}

/-- A name that is written without escapes is read as it stands. -/
theorem readString_plain (h : name.flatMap Json.escape = name) (rest : List Char) :
    Json.readString (name ++ '"' :: rest) = some (String.ofList name, rest) := by
  have hread := Json.readString_writeString (String.ofList name) rest
  rw [String.toList_ofList, h] at hread
  exact hread

theorem readValue_literal {text : List Char} (h : Json.scanNumber text = some (text, []))
    {rest : List Char} (hrest : Json.EndsNumber rest) (fuel : Nat) :
    Json.readValue (fuel + 1) (text ++ rest) = some (.num (String.ofList text), rest) := by
  obtain ⟨c, cs, hcs, hc⟩ := Json.scanNumber_head h
  have hscan := Json.scanNumber_extend hrest h
  rw [List.nil_append] at hscan
  rw [hcs, List.cons_append, Json.readValue_number hc, ← List.cons_append, ← hcs, hscan,
    Option.map_some]

/-- **Name and time are read; the data is what is left.** -/
theorem readFields_frame (hname : name.flatMap Json.escape = name)
    (htime : Json.scanNumber time = some (time, [])) (data : List Char) (fuel : Nat) :
    Json.readFields (fuel + 3) (frame name time data)
      = ((Json.readValue fuel data).bind fun v =>
          Json.readMore '\x7d' (Json.readFields fuel) ("v", v.1) v.2).map fun r =>
        (("n", .str (String.ofList name)) :: ("t", .num (String.ofList time)) :: r.1, r.2) := by
  have hn : ∀ cs, Json.readKey ('"' :: 'n' :: '"' :: ':' :: cs) = some ("n", cs) := fun _ => rfl
  have ht : ∀ cs, Json.readKey (' ' :: '"' :: 't' :: '"' :: ':' :: cs) = some ("t", cs) :=
    fun _ => rfl
  have hv : ∀ cs, Json.readKey (' ' :: '"' :: 'v' :: '"' :: ':' :: cs) = some ("v", cs) :=
    fun _ => rfl
  have htext : ∀ rest, Json.readValue (fuel + 2) ('"' :: (name ++ '"' :: rest))
      = some (.str (String.ofList name), rest) := by
    intro rest
    show (Json.readString (name ++ '"' :: rest)).map _ = _
    rw [readString_plain hname]
    rfl
  have hnumber : ∀ rest, Json.readValue (fuel + 1) (' ' :: (time ++ ',' :: rest))
      = some (.num (String.ofList time), ',' :: rest) := by
    intro rest
    have hskip : Json.readValue (fuel + 1) (' ' :: (time ++ ',' :: rest))
        = Json.readValue (fuel + 1) (time ++ ',' :: rest) := by
      rw [Json.readValue, Json.readValue]
      rfl
    rw [hskip]
    exact readValue_literal htime (by simp [Json.EndsNumber]) fuel
  have hcomma : ∀ (f : String × Json) more cs,
      Json.readMore '\x7d' more f (',' :: cs) = (more cs).map fun r => (f :: r.1, r.2) :=
    fun _ _ _ => rfl
  -- one field after the other
  rw [frame, Json.readFields_succ, hn, Option.bind_some, htext, Option.bind_some]
  rw [hcomma, Json.readFields_succ, ht, Option.bind_some, hnumber, Option.bind_some]
  rw [hcomma, Json.readFields_succ, hv, Option.bind_some, Option.map_map]
  rfl

/-- The fuel that is left for the data. -/
theorem readSlice_frame (hname : name.flatMap Json.escape = name)
    (htime : Json.scanNumber time = some (time, [])) (data : List Char) :
    ∃ fuel more, Json.readSlice ('[' :: '\x7b' :: frame name time data)
      = (((Json.readValue (fuel + 1) data).bind fun v =>
          Json.readMore '\x7d' (Json.readFields (fuel + 1)) ("v", v.1) v.2).bind fun r =>
        (Json.readMore ']' more (Json.Item.fields
          (("n", .str (String.ofList name)) :: ("t", .num (String.ofList time)) :: r.1)) r.2)).bind
        fun r => if Json.skipSpace r.2 = [] then some r.1 else none := by
  obtain ⟨fuel, hfuel⟩ : ∃ fuel,
      2 * ('[' :: '\x7b' :: frame name time data).length + 1 = fuel + 1 + 3 + 1 + 1 := by
    refine ⟨2 * (frame name time data).length - 1, ?_⟩
    have hpos : 0 < (frame name time data).length := by
      rw [frame, List.length_cons]
      omega
    simp only [List.length_cons]
    omega
  refine ⟨fuel, Json.readItemList (fuel + 1 + 3 + 1), ?_⟩
  have hitem : Json.readItem (fuel + 1 + 3 + 1) ('\x7b' :: frame name time data)
      = (Json.readFields (fuel + 1 + 3) (frame name time data)).map
          fun r => (Json.Item.fields r.1, r.2) := rfl
  have hlist : Json.readList ']' (Json.readItemList (fuel + 1 + 3 + 1 + 1))
        ('\x7b' :: frame name time data)
      = Json.readItemList (fuel + 1 + 3 + 1 + 1) ('\x7b' :: frame name time data) := rfl
  rw [List.length_cons] at hfuel
  rw [Json.readSlice_open, hfuel, hlist, Json.readItemList_succ, hitem,
    readFields_frame hname htime]
  cases (Json.readValue (fuel + 1) data).bind fun v =>
      Json.readMore '\x7d' (Json.readFields (fuel + 1)) ("v", v.1) v.2 with
  | none => rfl
  | some r => rfl

end Frame

/-! ## §3. Reading the data. -/

section Data

variable {name time : List Char}

/-- The fields, when the data is a value that ends where the object does. -/
theorem unmarshal_value (hname : name.flatMap Json.escape = name)
    (htime : Json.scanNumber time = some (time, [])) {data : List Char} {v : Json}
    (hdata : ∀ fuel, Json.readValue (fuel + 1) (data ++ ['\x7d', ']']) = some (v, ['\x7d', ']'])) :
    Storage.unmarshal ('[' :: '\x7b' :: frame name time (data ++ ['\x7d', ']']))
      = ([("n", .str (String.ofList name)), ("t", .num (String.ofList time)), ("v", v)].foldlM
          Storage.setField Storage.record0).map fun r => [r] := by
  obtain ⟨fuel, more, hslice⟩ := readSlice_frame hname htime (data ++ ['\x7d', ']'])
  have hone : ∀ item, [item].mapM Storage.recordOf
      = (Storage.recordOf item).map fun r => [r] := by
    intro item
    rw [List.mapM_cons]
    cases Storage.recordOf item with
    | none => rfl
    | some r => rfl
  have hfields : Json.readMore '\x7d' (Json.readFields (fuel + 1)) ("v", v) ['\x7d', ']']
      = some ([("v", v)], [']']) := rfl
  have hitems : ∀ item, Json.readMore ']' more item [']'] = some ([item], []) := fun _ => rfl
  rw [Storage.unmarshal, hslice, hdata fuel, Option.bind_some, hfields, Option.bind_some, hitems,
    Option.bind_some, Json.skipSpace, List.dropWhile_nil, if_pos rfl, Option.bind_some, hone,
    Storage.recordOf]

/-- The three keys of the format string are those of name, time and value. -/
theorem setField_name (r : Record Binary64) (s : String) :
    Storage.setField r ("n", .str s) = some { r with name := s.toList } := by
  have hslot : Storage.slot "n" = some .name := by decide
  rw [Storage.setField, hslot]
  rfl

theorem setField_time (r : Record Binary64) (literal : String) :
    Storage.setField r ("t", .num literal)
      = (Binary64.parseFloat literal.toList).map fun x => { r with time := x } := by
  have hslot : Storage.slot "t" = some .time := by decide
  have hplain : ∀ (read : Json → Option Binary64) (old : Binary64),
      Storage.plain read old (.num literal) = read (.num literal) := fun _ _ => rfl
  have hset : ∀ v, Storage.setSlot r v .time
      = (Storage.plain Storage.floatOf r.time v).map fun x => { r with time := x } := fun _ => rfl
  rw [Storage.setField, hslot]
  dsimp only
  rw [hset, hplain, Storage.floatOf]

theorem setField_data (r : Record Binary64) (v : Json) :
    Storage.setField r ("v", v)
      = (Storage.pointer Storage.floatOf v).map fun x => { r with value := x } := by
  have hslot : Storage.slot "v" = some .value := by decide
  rw [Storage.setField, hslot]
  rfl

/-- The record after name and time. -/
theorem foldlM_head {x : Binary64} (htime : Binary64.parseFloat time = some x)
    (fs : List (String × Json)) (r : Record Binary64) :
    (("n", .str (String.ofList name)) :: ("t", .num (String.ofList time)) :: fs).foldlM
        Storage.setField r
      = fs.foldlM Storage.setField { r with name := name, time := x } := by
  rw [List.foldlM_cons, setField_name, String.toList_ofList, Option.bind_eq_bind, Option.bind_some,
    List.foldlM_cons, setField_time, String.toList_ofList, htime, Option.map_some,
    Option.bind_eq_bind, Option.bind_some]

variable {x : Binary64} (hname : name.flatMap Json.escape = name)
  (hscan : Json.scanNumber time = some (time, []))
include hname hscan

/-- A number is the value of the record. -/
theorem unmarshal_number (htime : Binary64.parseFloat time = some x) {text : List Char}
    {y : Binary64} (htext : Json.scanNumber text = some (text, []))
    (hparse : Binary64.parseFloat text = some y) :
    Storage.unmarshal ('[' :: '\x7b' :: frame name time (text ++ ['\x7d', ']']))
      = some [{ Storage.record0 with name := name, time := x, value := some y }] := by
  rw [unmarshal_value hname hscan fun fuel => readValue_literal htext (by simp [Json.EndsNumber]) fuel,
    foldlM_head htime, List.foldlM_cons, setField_data]
  show (Option.bind (((Binary64.parseFloat (String.ofList text).toList).map some).map _) _).map _ = _
  rw [String.toList_ofList, hparse]
  rfl

/-- A boolean is no number. -/
theorem unmarshal_bool (htime : Binary64.parseFloat time = some x) (b : Bool) :
    Storage.unmarshal ('[' :: '\x7b' :: frame name time ((Data.bool b).format ++ ['\x7d', ']']))
      = none := by
  have hvalue : ∀ fuel, Json.readValue (fuel + 1) ((Data.bool b).format ++ ['\x7d', ']'])
      = some (.bool b, ['\x7d', ']']) := by
    intro fuel
    cases b with
    | true => rfl
    | false => rfl
  rw [unmarshal_value hname hscan hvalue, foldlM_head htime, List.foldlM_cons, setField_data]
  rfl

/-- What is no value of JSON makes the payload malformed. -/
theorem unmarshal_malformed {data : List Char}
    (hdata : ∀ fuel, Json.readValue (fuel + 1) (data ++ ['\x7d', ']']) = none) :
    Storage.unmarshal ('[' :: '\x7b' :: frame name time (data ++ ['\x7d', ']'])) = none := by
  obtain ⟨fuel, more, hslice⟩ := readSlice_frame hname hscan (data ++ ['\x7d', ']'])
  rw [Storage.unmarshal, hslice, hdata fuel]
  rfl

/-- **Data without quotes is no text of the record.**  For that a key of two characters, in
quotes and with a colon, and the whole data in quotes would have to stand in the data. -/
theorem stringValue_unmarshal {data : List Char} {r : Record Binary64}
    (h : Storage.unmarshal ('[' :: '\x7b' :: frame name time (data ++ ['\x7d', ']'])) = some [r]) :
    r.stringValue ≠ some data := by
  obtain ⟨fuel, more, hslice⟩ := readSlice_frame hname hscan (data ++ ['\x7d', ']'])
  obtain ⟨items, hread, hrecords⟩ := Option.bind_eq_some_iff.mp h
  rw [hslice] at hread
  obtain ⟨⟨items', rest'⟩, hread, hend⟩ := Option.bind_eq_some_iff.mp hread
  obtain ⟨⟨fs, rest⟩, hfields, hmore⟩ := Option.bind_eq_some_iff.mp hread
  -- the record is that of the first item
  have hitems : ∃ others, items = Json.Item.fields
      (("n", .str (String.ofList name)) :: ("t", .num (String.ofList time)) :: fs) :: others := by
    split at hend
    next =>
        cases hend
        rcases Json.readMore_cases hmore with ⟨heq, -⟩ | ⟨cs, others, -, -, heq⟩
        · exact ⟨[], heq⟩
        · exact ⟨others, heq⟩
    next => cases hend
  obtain ⟨others, rfl⟩ := hitems
  rw [List.mapM_cons] at hrecords
  obtain ⟨r', hfirst, hrecords⟩ := Option.bind_eq_some_iff.mp hrecords
  obtain ⟨rs, -, hrecords⟩ := Option.bind_eq_some_iff.mp hrecords
  cases hrecords
  intro hstring
  rcases Storage.stringValue_of_fields hfirst hstring with hnone | ⟨k, s, hmem, hk, rfl⟩
  · cases hnone
  · have hlast : (k, Json.str s) ∈ fs := by
      rcases List.mem_cons.mp hmem with heq | hmem
      · cases heq
        cases hk
      · rcases List.mem_cons.mp hmem with heq | hmem
        · cases heq
        · exact hmem
    obtain ⟨⟨v, cs⟩, hvalue, hfields⟩ := Option.bind_eq_some_iff.mp hfields
    have h1 := (Json.readValue_length (fuel + 1) hvalue).1
    rw [List.length_append, String.length_toList] at h1
    dsimp only at hfields
    rcases Json.readMore_cases hfields with ⟨rfl, -⟩ | ⟨cs', fs', h2, hrest, rfl⟩
    · obtain ⟨rfl, -⟩ := Prod.mk.inj (List.mem_singleton.mp hlast)
      cases hk
    · rcases List.mem_cons.mp hlast with heq | hlast
      · cases heq
        cases hk
      · -- the text stands behind what was read of the value, the key and two quotes
        have h3 := (Json.readFields_length hrest).2 k s hlast
        have h4 : ['\x7d', ']'].length = 2 := rfl
        omega

end Data

/-! ## §4. Numbers, names and times. -/

/-- A whole number is written as a literal, which is read as the number next to it. -/
theorem readback_writeInt {n : Int} (h : n.natAbs < 2 ^ 64) :
    Json.scanNumber (writeInt n) = some (writeInt n, []) ∧
      ∃ x, Binary64.parseFloat (writeInt n) = some x ∧
        (x.value = n ↔ Binary64.Short n.natAbs) := by
  have hint := Binary64.isInt_writeNat n.natAbs
  have hfrac : ∀ d ∈ ([] : List Char), d.isDigit = true := fun d hd => by cases hd
  have htext : writeInt n = Binary64.literal (decide (n < 0)) (writeNat n.natAbs) [] none := by
    rw [writeInt, Binary64.literal, Binary64.fractionText, if_pos rfl, Binary64.exponentText]
    simp
  obtain ⟨x, hx, hvalue⟩ := Binary64.ofDecimal_int h
  have hparse := Binary64.parseFloat_literal (decide (n < 0)) hint hfrac none
  rw [List.append_nil, Binary64.readNat_writeNat] at hparse
  rw [htext]
  exact ⟨Binary64.scanNumber_literal _ hint hfrac none, x, hparse.trans hx, hvalue⟩

theorem ne_of_alphanum {c d : Char} (hc : c.isAlphanum = true) (hd : d.isAlphanum = false) :
    c ≠ d := by
  intro hcd
  rw [← hcd, hc] at hd
  cases hd

/-- Letters and digits are written as they stand. -/
theorem escape_alphanum {c : Char} (h : c.isAlphanum = true) : Json.escape c = [c] := by
  have hrange : 48 ≤ c.toNat ∧ c.toNat ≤ 122 := by
    delta Char.isAlphanum Char.isAlpha Char.isUpper Char.isLower Char.isDigit at h
    simp [UInt32.le_iff_toNat_le] at h
    omega
  have hunit : ¬ Json.ByUnit c := by
    unfold Json.ByUnit
    intro hunit
    rcases hunit with hcontrol | hlt | hgt | hamp | hline | hparagraph
    · omega
    · exact ne_of_alphanum h (by decide) hlt
    · exact ne_of_alphanum h (by decide) hgt
    · exact ne_of_alphanum h (by decide) hamp
    · omega
    · omega
  unfold Json.escape
  rw [if_neg (ne_of_alphanum h (by decide)), if_neg (ne_of_alphanum h (by decide)),
    if_neg (ne_of_alphanum h (by decide)), if_neg (ne_of_alphanum h (by decide)),
    if_neg (ne_of_alphanum h (by decide)), if_neg hunit]

/-- The names are letters and digits, but for that of the null type. -/
theorem alphanum_toString {t : TypeID} (h : t ≠ .null) :
    t.toString.toList.all Char.isAlphanum = true := by
  cases t with
  | null => exact absurd rfl h
  | _ => decide +kernel

/-- The names need no escapes. -/
theorem escape_toString (t : TypeID) :
    t.toString.toList.flatMap Json.escape = t.toString.toList := by
  by_cases hnull : t = .null
  · rw [hnull]
    decide
  · have hall := List.all_eq_true.mp (alphanum_toString hnull)
    rw [List.flatMap_congr fun c hc => escape_alphanum (hall c hc), List.flatMap_singleton']

theorem toString_ne_empty (t : TypeID) : t.toString ≠ "" := by
  cases t <;> decide

/-- Every name but that of the null type passes `Validate`. -/
theorem toString_valid {t : TypeID} (h : t ≠ .null) :
    t.toString.toList ≠ [] ∧ t.toString.toList.head?.any Storage.isMark = false ∧
      (t.toString.toList.any fun c => !(c.isAlphanum || Storage.isMark c)) = false := by
  have hall := List.all_eq_true.mp (alphanum_toString h)
  have hmark : ∀ c ∈ t.toString.toList, Storage.isMark c = false := by
    intro c hc
    unfold Storage.isMark
    simp only [Bool.or_eq_false_iff, beq_eq_false_iff_ne]
    have hne := fun {d} => ne_of_alphanum (d := d) (hall c hc)
    exact ⟨⟨⟨⟨hne (by decide), hne (by decide)⟩, hne (by decide)⟩, hne (by decide)⟩,
      hne (by decide)⟩
  refine ⟨?_, ?_, ?_⟩
  · intro hnil
    exact toString_ne_empty t (String.toList_eq_nil_iff.mp hnil)
  · cases hhead : t.toString.toList.head? with
    | none => rfl
    | some c => exact hmark c (List.mem_of_head? hhead)
  · rw [List.any_eq_false]
    intro c hc
    rw [hall c hc]
    exact Bool.false_ne_true

theorem natAbs_seconds (t : Time) : t.seconds.natAbs < 2 ^ 53 := by
  cases t with
  | zero => decide
  | unix nanos =>
      have hlt := nanos.toInt_lt
      have hge := nanos.le_toInt
      rw [Time.seconds]
      omega

/-- The source time has no fraction of a second. -/
def Time.IsWhole : Time → Prop
  | .zero => True
  | .unix nanos => nanos.toInt % 1000000000 = 0

theorem Time.value_eq_seconds (t : Time) : t.value = t.seconds ↔ t.IsWhole := by
  cases t with
  | zero =>
      refine iff_of_true ?_ trivial
      rw [Time.value, Time.seconds, Int.cast_neg, Int.cast_ofNat]
  | unix nanos =>
      rw [Time.value, Time.seconds, Time.IsWhole, div_eq_iff (by decide)]
      have hcast : (nanos.toInt : ℚ) = (nanos.toInt / 1000000000 : Int) * 1000000000 ↔
          nanos.toInt = nanos.toInt / 1000000000 * 1000000000 := by
        constructor
        · intro h
          exact_mod_cast h
        · intro h
          exact_mod_cast h
      rw [hcast]
      omega

/-! ## §5. What arrives. -/

/-- What `publish` sends for an item. -/
def sent (publisher channel serverURI nodeID : String) (item : Item) : Published :=
  ⟨publisher, channel, senML (messageOf serverURI nodeID item)⟩

section Arrives

variable (rt : Storage.Runtime Binary64) (publisher channel serverURI nodeID : String) (item : Item)

/-- A record with a plain name and one number is valid. -/
theorem validate_number {name : Text} {x y : Binary64} (hne : name ≠ [])
    (hhead : name.head?.any Storage.isMark = false)
    (hall : (name.any fun c => !(c.isAlphanum || Storage.isMark c)) = false) :
    Storage.validate rt [{ Storage.record0 with name := name, time := x, value := some y }]
      = none := by
  rw [Storage.validate, Storage.validateFrom]
  simpa [Storage.record0, Storage.validateFrom, Storage.Record.values, hne, hhead] using hall

/-- The time is written, and read back. -/
theorem readback_seconds (t : Time) :
    Json.scanNumber (writeInt t.seconds) = some (writeInt t.seconds, []) ∧
      ∃ x, Binary64.parseFloat (writeInt t.seconds) = some x ∧ x.value = t.seconds := by
  have hlt := natAbs_seconds t
  obtain ⟨hscan, x, hx, hvalue⟩ := readback_writeInt (n := t.seconds) (by omega)
  exact ⟨hscan, x, hx, hvalue.mpr ⟨_, 0, hlt, (Nat.mul_one _).symm⟩⟩

/-- **Data that is a number arrives, with the seconds of the source time.** -/
theorem carries_number {y : Binary64} (hnull : item.value.type ≠ .null)
    (hscan : Json.scanNumber (dataOf item.value).format = some ((dataOf item.value).format, []))
    (hparse : Binary64.parseFloat (dataOf item.value).format = some y) (time : ℚ) :
    Carries rt (sent publisher channel serverURI nodeID item) item.value time ↔
      HasValue { Storage.record0 with value := some y } item.value ∧
        time = item.sourceTimestamp.seconds := by
  obtain ⟨htscan, x, hx, hvalue⟩ := readback_seconds item.sourceTimestamp
  obtain ⟨hne, hhead, hall⟩ := toString_valid hnull
  have hpayload : (sent publisher channel serverURI nodeID item).envelope.payload
      = some [{ Storage.record0 with
          name := item.value.type.toString.toList, time := x, value := some y }] := by
    rw [payload_envelope, sent, senML_messageOf]
    exact unmarshal_number (escape_toString _) htscan hx hscan hparse
  have hdecode : Storage.decode rt (sent publisher channel serverURI nodeID item).envelope
      = .ok [{ Storage.record0 with
          name := item.value.type.toString.toList, time := x, value := some y }] := by
    rw [Storage.decode, hpayload]
    dsimp only
    rw [validate_number rt hne hhead hall]
  -- the field of the value does not depend on name and time
  have hsame : HasValue { Storage.record0 with
      name := item.value.type.toString.toList, time := x, value := some y } item.value ↔
      HasValue { Storage.record0 with value := some y } item.value := by
    unfold HasValue
    split <;> exact Iff.rfl
  constructor
  · intro ⟨r, hr, _, htime, hhas⟩
    rw [hdecode] at hr
    cases hr
    exact ⟨hsame.mp hhas, htime.symm.trans hvalue⟩
  · intro ⟨hhas, htime⟩
    exact ⟨_, hdecode, rfl, hvalue.trans htime.symm, hsame.mpr hhas⟩

/-- A payload that is not read as records carries nothing. -/
theorem not_carries {v : Variant} {p : Published} (h : Storage.unmarshal p.payload = none)
    (time : ℚ) : ¬ Carries rt p v time := by
  intro ⟨r, hr, _⟩
  rw [Storage.decode, payload_envelope, h] at hr
  cases hr

theorem isNumber_some {x : Binary64} {n : Int} : IsNumber (some x) n ↔ x.value = n := by
  constructor
  · intro ⟨y, hy, hvalue⟩
    cases hy
    exact hvalue
  · intro hvalue
    exact ⟨x, rfl, hvalue⟩

/-- For a whole number, what counts is what is read for the one that was written. -/
theorem carries_int {n m : Int} (hnull : item.value.type ≠ .null)
    (hdata : (dataOf item.value).format = writeInt m) (hm : m.natAbs < 2 ^ 64)
    (hhas : ∀ r, HasValue r item.value ↔ IsNumber r.value n) (time : ℚ) :
    Carries rt (sent publisher channel serverURI nodeID item) item.value time ↔
      (∃ x, Binary64.parseFloat (writeInt m) = some x ∧ x.value = n) ∧
        time = item.sourceTimestamp.seconds := by
  obtain ⟨hscan, x, hx, -⟩ := readback_writeInt hm
  rw [← hdata] at hscan hx
  rw [carries_number rt publisher channel serverURI nodeID item hnull hscan hx, hhas, isNumber_some,
    ← hdata]
  refine and_congr_left fun _ => ⟨fun h => ⟨x, hx, h⟩, fun ⟨y, hy, h⟩ => ?_⟩
  rw [hx] at hy
  cases hy
  exact h

/-- Where zero is written, as it is for an integer of at most 32 bits, zero is read. -/
theorem carries_zero {n : Int} {P : Prop} (hnull : item.value.type ≠ .null)
    (hdata : dataOf item.value = .int 0)
    (hhas : ∀ r, HasValue r item.value ↔ IsNumber r.value n) (hP : n = 0 ↔ P) (time : ℚ) :
    Carries rt (sent publisher channel serverURI nodeID item) item.value time ↔
      P ∧ time = item.sourceTimestamp.seconds := by
  obtain ⟨-, x, hx, hvalue⟩ := readback_writeInt (n := 0) (by decide)
  have hzero : x.value = (0 : Int) := hvalue.mpr ⟨0, 0, by decide, rfl⟩
  have hformat : (dataOf item.value).format = writeInt 0 := by rw [hdata, Data.format]
  rw [carries_int rt publisher channel serverURI nodeID item hnull hformat (by decide) hhas, ← hP]
  refine and_congr_left fun _ => ⟨fun ⟨y, hy, h⟩ => ?_, fun h => ⟨x, hx, by rw [h, hzero]⟩⟩
  rw [hx] at hy
  cases hy
  rw [hzero] at h
  exact_mod_cast h.symm

/-- A whole number that is written itself arrives if it is short. -/
theorem carries_short {n : Int} (hnull : item.value.type ≠ .null)
    (hdata : (dataOf item.value).format = writeInt n) (hn : n.natAbs < 2 ^ 64)
    (hhas : ∀ r, HasValue r item.value ↔ IsNumber r.value n) (time : ℚ) :
    Carries rt (sent publisher channel serverURI nodeID item) item.value time ↔
      Binary64.Short n.natAbs ∧ time = item.sourceTimestamp.seconds := by
  obtain ⟨-, x, hx, hvalue⟩ := readback_writeInt hn
  rw [carries_int rt publisher channel serverURI nodeID item hnull hdata hn hhas, ← hvalue]
  refine and_congr_left fun _ => ⟨fun ⟨y, hy, h⟩ => ?_, fun h => ⟨x, hx, h⟩⟩
  rw [hx] at hy
  cases hy
  exact h

/-- The text of an infinity, or of what is no number, is no JSON. -/
theorem readValue_format {x : Binary64} (hx : ¬ x.Finite) (fuel : Nat) :
    Json.readValue (fuel + 1) (x.format ++ ['\x7d', ']']) = none := by
  have hge : Binary64.infinity ≤ x.magnitude.val := Nat.not_lt.mp hx
  rw [Binary64.format]
  split
  next => rfl
  next h =>
      rw [if_pos (by omega)]
      cases x.negative with
      | true => rfl
      | false => rfl

/-- A floating-point number arrives if it is finite. -/
theorem carries_float {x : Binary64} (hnull : item.value.type ≠ .null)
    (hdata : dataOf item.value = .float64 x)
    (hhas : ∀ r, HasValue r item.value ↔ r.value = some x) (time : ℚ) :
    Carries rt (sent publisher channel serverURI nodeID item) item.value time ↔
      x.Finite ∧ time = item.sourceTimestamp.seconds := by
  have hformat : (dataOf item.value).format = x.format := by rw [hdata, Data.format]
  by_cases hx : x.Finite
  · obtain ⟨hscan, hparse⟩ := Binary64.format_literal hx
    rw [← hformat] at hscan hparse
    rw [carries_number rt publisher channel serverURI nodeID item hnull hscan hparse, hhas]
    exact and_congr_left fun _ => iff_of_true rfl hx
  · refine iff_of_false (not_carries rt ?_ time) fun h => hx h.1
    rw [sent, senML_messageOf, hformat]
    exact unmarshal_malformed (escape_toString _) (readback_seconds _).1 (readValue_format hx)

theorem carries_iff (time : ℚ) :
    Carries rt (sent publisher channel serverURI nodeID item) item.value time ↔
      Exact item.value ∧ time = item.sourceTimestamp.seconds := by
  obtain ⟨⟨type, value⟩, t⟩ := item
  cases type with
  | boolean =>
      refine iff_of_false (not_carries rt ?_ time) fun h => h.1
      rw [sent, senML_messageOf]
      obtain ⟨hscan, x, hx, -⟩ := readback_seconds t
      exact unmarshal_bool (escape_toString _) hscan hx value
  | sbyte =>
      exact carries_zero rt publisher channel serverURI nodeID _ (by nofun) rfl
        (fun _ => Iff.rfl) (Int8.toInt_inj (y := 0)) time
  | byte =>
      exact carries_zero rt publisher channel serverURI nodeID _ (by nofun) rfl
        (fun _ => Iff.rfl) (Int.ofNat_inj.trans (UInt8.toNat_inj (b := 0))) time
  | int16 =>
      exact carries_zero rt publisher channel serverURI nodeID _ (by nofun) rfl
        (fun _ => Iff.rfl) (Int16.toInt_inj (y := 0)) time
  | uint16 =>
      exact carries_zero rt publisher channel serverURI nodeID _ (by nofun) rfl
        (fun _ => Iff.rfl) (Int.ofNat_inj.trans (UInt16.toNat_inj (b := 0))) time
  | int32 =>
      exact carries_zero rt publisher channel serverURI nodeID _ (by nofun) rfl
        (fun _ => Iff.rfl) (Int32.toInt_inj (y := 0)) time
  | uint32 =>
      exact carries_zero rt publisher channel serverURI nodeID _ (by nofun) rfl
        (fun _ => Iff.rfl) (Int.ofNat_inj.trans (UInt32.toNat_inj (b := 0))) time
  | int64 =>
      have hlt := Int64.toInt_lt value
      have hge := Int64.le_toInt value
      exact carries_short rt publisher channel serverURI nodeID _ (by nofun) rfl (by omega)
        (fun _ => Iff.rfl) time
  | uint64 =>
      have hlt := UInt64.toNat_lt value
      have hdata : writeNat (UInt64.toNat value) = writeInt (UInt64.toNat value : Int) := by
        rw [writeInt, if_neg (by omega), Int.natAbs_natCast, List.nil_append]
      exact carries_short rt publisher channel serverURI nodeID ⟨⟨.uint64, value⟩, t⟩ (by nofun) hdata
        (by omega) (fun _ => Iff.rfl) time
  | float =>
      refine Iff.trans ?_ (and_congr_left' (Binary32.finite_toBinary64 value))
      exact carries_float rt publisher channel serverURI nodeID _ (by nofun) rfl
        (fun _ => Iff.rfl) time
  | double =>
      exact carries_float rt publisher channel serverURI nodeID _ (by nofun) rfl
        (fun _ => Iff.rfl) time
  | string =>
      refine iff_of_false ?_ fun h => h.1
      intro ⟨r, hr, _, _, hhas⟩
      rw [Storage.decode, payload_envelope, sent, senML_messageOf] at hr
      split at hr
      next => cases hr
      next records hrecords =>
          split at hr
          next => cases hr
          next =>
              cases hr
              exact stringValue_unmarshal (escape_toString _) (readback_seconds t).1 hrecords hhas
  | _ =>
      refine iff_of_false ?_ fun h => h.1
      intro ⟨r, _, _, _, h⟩
      exact h

/-- **A payload carries its value exactly when it can hold it**: with the seconds of the source
time in every case, and with the source time itself if that is one of whole seconds. -/
theorem payload_iff :
    (Carries rt (sent publisher channel serverURI nodeID item) item.value
        item.sourceTimestamp.seconds ↔ Exact item.value) ∧
      (Carries rt (sent publisher channel serverURI nodeID item) item.value
        item.sourceTimestamp.value ↔ Exact item.value ∧ item.sourceTimestamp.IsWhole) := by
  rw [carries_iff, carries_iff, Time.value_eq_seconds]
  exact ⟨and_iff_left rfl, Iff.rfl⟩

end Arrives

/-- A boolean stands where a number is expected, and the whole payload is refused. -/
theorem boolean_is_refused :
    (sent "t" "c" "opc.tcp://a" "ns=2;s=Door" ⟨⟨.boolean, true⟩, .unix 0⟩).payload
        = "[\x7b\"n\":\"TypeIDBoolean\", \"t\": 0, \"v\":true\x7d]".toList ∧
      ¬ ∃ (rt : Storage.Runtime Binary64) (time : ℚ), Carries rt
        (sent "t" "c" "opc.tcp://a" "ns=2;s=Door" ⟨⟨.boolean, true⟩, .unix 0⟩) ⟨.boolean, true⟩ time := by
  refine ⟨?_, ?_⟩
  · have htext : String.ofList
        (sent "t" "c" "opc.tcp://a" "ns=2;s=Door" ⟨⟨.boolean, true⟩, .unix 0⟩).payload
          = "[\x7b\"n\":\"TypeIDBoolean\", \"t\": 0, \"v\":true\x7d]" := by
      rw [sent, senML_messageOf]
      rfl
    rw [← htext, String.toList_ofList]
  intro ⟨rt, time, h⟩
  exact ((carries_iff rt "t" "c" "opc.tcp://a" "ns=2;s=Door" ⟨⟨.boolean, true⟩, .unix 0⟩ time).mp h).1

end Mainflux.Adapters.Opcua
