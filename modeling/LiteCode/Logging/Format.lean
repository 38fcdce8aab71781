import LiteCode.Lib.JsonEscape
import LiteCode.Lib.Stoi

/-!
# Log lines

`Logger::log` of `src/logger.h` formats a record as a line, in JSON or as plain text, and writes it
with a newline at its end. In JSON every key and value is escaped. A text record has the time, the
level, the request id, the message and the fields as they are, but that a value with white space is
put in quotes; "never multi-line values from this path", it says, and leaves newlines alone.

* `appendJsonEscaped`, `formatLine`, `Logger.log`: the functions of the source;
* `formatLine_json_eq`: a JSON record is an object of escaped strings, so that it is read back as
  what was logged (`formatLine_json_decodes`) and stands on one line;
* `newline_mem_text`: where the newlines of a text record come from;
* `one_record_iff`: a call writes one line, unless the record is a text one and there is a newline
  in the request id, the message, a key or a value.
-/

namespace LiteCode.Logging

open Json (Escapes)

/-! ## Time -/

/-- The time as `gmtime_r` breaks it down, and the milliseconds. -/
structure Tm where
  year : Int
  mon : Int
  mday : Int
  hour : Int
  min : Int
  sec : Int
  ms : Int
  deriving DecidableEq, Repr

/-- `%0wd`. -/
def padded (w : Nat) : Int → Bytes
  | .ofNat n => List.replicate (w - (decimal n).length) 0x30 ++ decimal n
  | .negSucc n =>
    0x2D :: (List.replicate (w - 1 - (decimal (n + 1)).length) 0x30 ++ decimal (n + 1))

/-- `format_iso8601_utc`; the buffer holds 31 bytes. -/
def formatIso8601Utc (t : Tm) : Bytes :=
  (padded 4 t.year ++ 0x2D :: padded 2 t.mon ++ 0x2D :: padded 2 t.mday ++ 0x54 ::
    padded 2 t.hour ++ 0x3A :: padded 2 t.min ++ 0x3A :: padded 2 t.sec ++ 0x2E ::
      padded 3 t.ms ++ [0x5A]).take 31

/-! ## Records -/

/-- `LogLevel`. -/
inductive LogLevel
  | trace
  | debug
  | info
  | warn
  | error
  deriving DecidableEq, Repr

/-- The number of a level. -/
def LogLevel.toInt : LogLevel → Int
  | .trace => 0
  | .debug => 1
  | .info => 2
  | .warn => 3
  | .error => 4

/-- `log_level_name`. -/
def LogLevel.name : LogLevel → Bytes
  | .trace => bytes "TRACE"
  | .debug => bytes "DEBUG"
  | .info => bytes "INFO"
  | .warn => bytes "WARN"
  | .error => bytes "ERROR"

/-- `Field`: a key and a value. -/
abbrev Field := Bytes × Bytes

/-- What a `Logger` needs for a line. -/
structure Logger where
  level : LogLevel
  jsonFormat : Bool
  includeRequestId : Bool
  deriving DecidableEq, Repr

/-- `%04x`. -/
def hexText (c : UInt8) : Bytes :=
  let digits := (Nat.toDigits 16 c.toNat).map fun d => UInt8.ofNat d.toNat
  List.replicate (4 - digits.length) 0x30 ++ digits

/-- What `append_json_escaped` appends for a byte. -/
def escapeByte (c : UInt8) : Bytes :=
  if c = 0x22 then bytes "\\\""
  else if c = 0x5C then bytes "\\\\"
  else if c = 0x08 then bytes "\\b"
  else if c = 0x0C then bytes "\\f"
  else if c = 0x0A then bytes "\\n"
  else if c = 0x0D then bytes "\\r"
  else if c = 0x09 then bytes "\\t"
  else if c < 0x20 then bytes "\\u" ++ hexText c
  else [c]

/-- `append_json_escaped`. -/
def appendJsonEscaped (out text : Bytes) : Bytes := out ++ text.flatMap escapeByte

/-- `append_kv_json`, with `needs_comma`. -/
def appendKvJson (out : Bytes × Bool) (f : Field) : Bytes × Bool :=
  let start := if out.2 then out.1 ++ [0x2C] else out.1
  let key := appendJsonEscaped (start ++ [0x22]) f.1
  (appendJsonEscaped (key ++ bytes "\":\"") f.2 ++ [0x22], true)

/-- A field of a text record. -/
def appendField (out : Bytes) (f : Field) : Bytes :=
  let start := out ++ 0x20 :: f.1 ++ [0x3D]
  if f.2.any isSpace then
    -- in quotes, with a backslash before each quote
    start ++ 0x22 :: f.2.flatMap (fun c => if c = 0x22 then [0x5C, c] else [c]) ++ [0x22]
  else start ++ f.2

/-- `format_line`. -/
def formatLine (jsonFormat : Bool) (lvl : LogLevel) (ts msg : Bytes) (fields : List Field)
    (rid : Bytes) (includeRid : Bool) : Bytes :=
  if jsonFormat then
    let out := (([0x7B], false) : Bytes × Bool)
    let out := appendKvJson out (bytes "ts", ts)
    let out := appendKvJson out (bytes "level", lvl.name)
    let out := appendKvJson out (bytes "logger", bytes "litecode")
    let out := appendKvJson out (bytes "msg", msg)
    let out := if includeRid then appendKvJson out (bytes "request_id", rid) else out
    (fields.foldl appendKvJson out).1 ++ [0x7D]
  else
    let out := ts ++ 0x20 :: lvl.name
    let out := if includeRid then out ++ bytes " [req=" ++ rid ++ [0x5D] else out
    fields.foldl appendField (out ++ 0x20 :: msg)

/-- `Logger::log`: what is written, if the call is enabled. The request id is that of the thread, if
    there is one. -/
def Logger.log (l : Logger) (rid : Option Bytes) (now : Tm) (lvl : LogLevel) (msg : Bytes)
    (fields : List Field) : Option Bytes :=
  if lvl.toInt < l.level.toInt then none
  else some (formatLine l.jsonFormat lvl (formatIso8601Utc now) msg fields (rid.getD [])
    (l.includeRequestId && rid.isSome) ++ [0x0A])

/-! ## What is meant -/

/-- The members of a record, in order. -/
def record (lvl : LogLevel) (ts msg : Bytes) (fields : List Field) (rid : Option Bytes) :
    List Field :=
  [(bytes "ts", ts), (bytes "level", lvl.name), (bytes "logger", bytes "litecode"),
    (bytes "msg", msg)] ++ rid.toList.map (fun id => (bytes "request_id", id)) ++ fields

/-- What is written is one line: the only newline stands at its end. -/
def OneRecord (written : Bytes) : Prop := ∃ line, written = line ++ [0x0A] ∧ 0x0A ∉ line

/-- There is no newline in what a text record shows. -/
structure Unbroken (l : Logger) (rid : Option Bytes) (msg : Bytes) (fields : List Field) :
    Prop where
  requestId : l.includeRequestId = true → ∀ id ∈ rid, 0x0A ∉ id
  msg : 0x0A ∉ msg
  fields : ∀ f ∈ fields, 0x0A ∉ f.1 ∧ 0x0A ∉ f.2

variable {lvl : LogLevel} {ts msg rid out : Bytes} {fields : List Field} {f : Field}

/-! ## JSON records -/

/-- A key and a value, as `append_kv_json` writes them. -/
def kvText (f : Field) : Bytes :=
  Json.memberText (f.1.flatMap escapeByte) (Json.strText (f.2.flatMap escapeByte))

theorem appendKvJson_false (out : Bytes) (f : Field) :
    appendKvJson (out, false) f = (out ++ kvText f, true) := by
  simp [appendKvJson, appendJsonEscaped, kvText, Json.memberText, Json.strText,
    show bytes "\":\"" = [0x22, 0x3A, 0x22] by decide]

theorem appendKvJson_true (out : Bytes) (f : Field) :
    appendKvJson (out, true) f = (out ++ 0x2C :: kvText f, true) := by
  simp [appendKvJson, appendJsonEscaped, kvText, Json.memberText, Json.strText,
    show bytes "\":\"" = [0x22, 0x3A, 0x22] by decide]

/-- The members are written one after the other, with commas in between. -/
theorem foldl_appendKvJson (out : Bytes) (f : Field) (l : List Field) :
    (f :: l).foldl appendKvJson (out, false) =
      (out ++ Json.commaSep ((f :: l).map kvText), true) := by
  have hrest : ∀ (l : List Field) (out : Bytes) (f : Field),
      l.foldl appendKvJson (out ++ kvText f, true) =
        (out ++ Json.commaSep ((f :: l).map kvText), true) := by
    intro l
    induction l with
    | nil => exact fun out f => rfl
    | cons g l ih =>
      intro out f
      have hsplit : out ++ kvText f ++ 0x2C :: kvText g =
          (out ++ kvText f ++ [0x2C]) ++ kvText g := by simp
      rw [List.foldl_cons, appendKvJson_true, hsplit, ih]
      simp [Json.commaSep]
  rw [List.foldl_cons, appendKvJson_false, hrest]

/-- A JSON record is the object of its members. -/
theorem formatLine_json_eq (lvl : LogLevel) (ts msg : Bytes) (fields : List Field) (rid : Bytes)
    (includeRid : Bool) : formatLine true lvl ts msg fields rid includeRid =
      Json.objText ((record lvl ts msg fields (if includeRid then some rid else none)).map fun f =>
        (f.1.flatMap escapeByte, Json.strText (f.2.flatMap escapeByte))) := by
  have hfold : formatLine true lvl ts msg fields rid includeRid =
      ((record lvl ts msg fields (if includeRid then some rid else none)).foldl appendKvJson
        ([0x7B], false)).1 ++ [0x7D] := by
    cases includeRid <;> simp [formatLine, record]
  rw [hfold, Json.objText, List.map_map, record, List.cons_append, List.cons_append,
    foldl_appendKvJson]
  rfl

/-! ## What is escaped -/

/-- The four digits of a control character. -/
theorem hexText_control {c : UInt8} (hc : c < 0x20) : ∃ d e, hexText c = [0x30, 0x30, d, e] ∧
    Json.hex4 0x30 0x30 d e = some c.toNat ∧ 0x0A ∉ hexText c := by
  have hall : ∀ n < 32, hexText (UInt8.ofNat n) =
      [0x30, 0x30, (hexText (UInt8.ofNat n)).getD 2 0, (hexText (UInt8.ofNat n)).getD 3 0] ∧
        Json.hex4 0x30 0x30 ((hexText (UInt8.ofNat n)).getD 2 0)
          ((hexText (UInt8.ofNat n)).getD 3 0) = some n ∧
            0x0A ∉ hexText (UInt8.ofNat n) := by decide +kernel
  have h := hall c.toNat (UInt8.lt_iff_toNat_lt.1 hc)
  rw [UInt8.ofNat_toNat] at h
  exact ⟨_, _, h⟩

/-- The bytes that are escaped. -/
theorem escapeByte_cases (c : UInt8) :
    (∃ d, escapeByte c = [0x5C, d] ∧ d ≠ 0x75 ∧ Json.escapedByte d = some c ∧ d ≠ 0x0A ∧ c < 0x80) ∨
      (c < 0x20 ∧ escapeByte c = bytes "\\u" ++ hexText c) ∨
        0x20 ≤ c ∧ c ≠ 0x22 ∧ c ≠ 0x5C ∧ escapeByte c = [c] := by
  unfold escapeByte
  split_ifs with h₁ h₂ h₃ h₄ h₅ h₆ h₇ h₈
  · exact .inl ⟨0x22, rfl, by decide, by rw [h₁]; rfl, by decide, by rw [h₁]; decide⟩
  · exact .inl ⟨0x5C, rfl, by decide, by rw [h₂]; rfl, by decide, by rw [h₂]; decide⟩
  · exact .inl ⟨0x62, rfl, by decide, by rw [h₃]; rfl, by decide, by rw [h₃]; decide⟩
  · exact .inl ⟨0x66, rfl, by decide, by rw [h₄]; rfl, by decide, by rw [h₄]; decide⟩
  · exact .inl ⟨0x6E, rfl, by decide, by rw [h₅]; rfl, by decide, by rw [h₅]; decide⟩
  · exact .inl ⟨0x72, rfl, by decide, by rw [h₆]; rfl, by decide, by rw [h₆]; decide⟩
  · exact .inl ⟨0x74, rfl, by decide, by rw [h₇]; rfl, by decide, by rw [h₇]; decide⟩
  · exact .inr (.inl ⟨h₈, rfl⟩)
  · exact .inr (.inr ⟨UInt8.not_lt.1 h₈, h₁, h₂, rfl⟩)

/-- An escaped ASCII character reads as itself. -/
theorem escapes_escapeByte : Escapes escapeByte where
  ascii c hc i := by
    rcases escapeByte_cases c with ⟨d, h, hu, hd, -⟩ | ⟨hlt, h⟩ | ⟨hle, hquote, hback, h⟩
    · rw [h]
      exact Json.scanString_escape hu hd i
    · obtain ⟨d, e, hhex, hread, -⟩ := hexText_control hlt
      rw [h, hhex]
      exact Json.scanString_hex hread hc i
    · have hplain : Json.isPlain c = true := by simp [Json.isPlain, hle, hc, hquote, hback]
      rw [h]
      exact Json.scanString_plain (k := [c]) (List.forall_mem_singleton.2 hplain) i
  high c hc := by
    rcases escapeByte_cases c with ⟨d, -, -, -, -, hlt⟩ | ⟨hlt, h⟩ | ⟨-, -, -, h⟩
    · exact absurd hlt (UInt8.not_lt.2 hc)
    · exact absurd hlt (UInt8.not_lt.2 (UInt8.le_trans (by decide) hc))
    · exact h

/-- No byte of an escape is a newline. -/
theorem newline_notMem_escapeByte (c : UInt8) : 0x0A ∉ escapeByte c := by
  rcases escapeByte_cases c with ⟨d, h, -, -, hd, -⟩ | ⟨hlt, h⟩ | ⟨hle, -, -, h⟩
  · rw [h]
    simp only [List.mem_cons, List.not_mem_nil, or_false, not_or]
    exact ⟨by decide, hd.symm⟩
  · obtain ⟨d, e, -, -, hhex⟩ := hexText_control hlt
    rw [h, List.mem_append, not_or]
    exact ⟨by decide, hhex⟩
  · rw [h, List.mem_singleton]
    rintro rfl
    exact absurd hle (by decide)

/-! ## Reading a record back -/

theorem wellFormed_record {rid : Option Bytes} (hts : Utf8.WellFormed ts)
    (hmsg : Utf8.WellFormed msg) (hrid : ∀ id ∈ rid, Utf8.WellFormed id)
    (hfields : ∀ f ∈ fields, Utf8.WellFormed f.1 ∧ Utf8.WellFormed f.2) :
    ∀ f ∈ record lvl ts msg fields rid, Utf8.WellFormed f.1 ∧ Utf8.WellFormed f.2 := by
  have hlevel : Utf8.WellFormed lvl.name := by cases lvl <;> decide
  intro f hf
  rcases List.mem_append.1 hf with hf | hf
  · rcases List.mem_append.1 hf with hf | hf
    · simp only [List.mem_cons, List.not_mem_nil, or_false] at hf
      rcases hf with rfl | rfl | rfl | rfl
      · exact ⟨show Utf8.WellFormed (bytes "ts") by decide, hts⟩
      · exact ⟨show Utf8.WellFormed (bytes "level") by decide, hlevel⟩
      · exact ⟨by decide, by decide⟩
      · exact ⟨show Utf8.WellFormed (bytes "msg") by decide, hmsg⟩
    · obtain ⟨id, hid, rfl⟩ := List.mem_map.1 hf
      exact ⟨show Utf8.WellFormed (bytes "request_id") by decide, hrid id (Option.mem_toList.1 hid)⟩
  · exact hfields f hf

/-- A JSON record is one value of RFC 8259 to its end: the object of what was logged, member by
    member. -/
theorem formatLine_json_decodes (lvl : LogLevel) (ts msg : Bytes) (fields : List Field)
    (rid : Bytes) (includeRid : Bool) (hts : Utf8.WellFormed ts) (hmsg : Utf8.WellFormed msg)
    (hrid : includeRid = true → Utf8.WellFormed rid)
    (hfields : ∀ f ∈ fields, Utf8.WellFormed f.1 ∧ Utf8.WellFormed f.2) :
    let line := formatLine true lvl ts msg fields rid includeRid
    let members := record lvl ts msg fields (if includeRid then some rid else none)
    Json.value (line.length + 1) line = some (.obj (members.map fun f => (f.1, .str f.2)), []) ∧
      Json.parse line = some (.obj (members.map fun f => (f.1, .str f.2))) := by
  intro line members
  have hmembers : ∀ f ∈ members, Utf8.WellFormed f.1 ∧ Utf8.WellFormed f.2 := by
    refine wellFormed_record hts hmsg (fun id hid => ?_) hfields
    cases includeRid with
    | false => cases hid
    | true =>
      cases hid
      exact hrid rfl
  have hdenotes := escapes_escapeByte.denotes_object hmembers
  have hline : line = _ := formatLine_json_eq lvl ts msg fields rid includeRid
  rw [hline]
  exact ⟨hdenotes.value_eq, Json.parse_of_denotes hdenotes rfl⟩

/-- A message with a quote, a newline and a character of two bytes. -/
theorem formatLine_json_decodes_escaped :
    let line := formatLine true .info (bytes "2026-06-28T12:34:56.789Z") [0x22, 0x0A, 0xC3, 0xA9]
      [([0x5C], [0x01])] (bytes "r") true
    let members := record .info (bytes "2026-06-28T12:34:56.789Z") [0x22, 0x0A, 0xC3, 0xA9]
      [([0x5C], [0x01])] (some (bytes "r"))
    Json.value (line.length + 1) line = some (.obj (members.map fun f => (f.1, .str f.2)), []) ∧
      Json.parse line = some (.obj (members.map fun f => (f.1, .str f.2))) :=
  formatLine_json_decodes _ _ _ _ _ _ (by decide) (by decide) (fun _ => by decide)
    (List.forall_mem_singleton.2 ⟨by decide, by decide⟩)

/-! ## Lines -/

theorem newline_notMem_commaSep {l : List Bytes} (hl : ∀ e ∈ l, 0x0A ∉ e) :
    0x0A ∉ Json.commaSep l := by
  induction l with
  | nil => exact List.not_mem_nil
  | cons e l ih =>
    have he := hl e List.mem_cons_self
    cases l with
    | nil => exact he
    | cons e' l =>
      rw [Json.commaSep, List.mem_append, List.mem_cons]
      rintro (h | h | h)
      · exact he h
      · cases h
      · exact ih (fun e'' he'' => hl e'' (List.mem_cons_of_mem _ he'')) h

/-- A JSON record stands on one line. -/
theorem newline_notMem_json (lvl : LogLevel) (ts msg : Bytes) (fields : List Field) (rid : Bytes)
    (includeRid : Bool) : 0x0A ∉ formatLine true lvl ts msg fields rid includeRid := by
  have hkv : ∀ f : Field, 0x0A ∉ Json.memberText (f.1.flatMap escapeByte)
      (Json.strText (f.2.flatMap escapeByte)) := fun f => by
    simp [Json.memberText, Json.strText, newline_notMem_escapeByte]
  rw [formatLine_json_eq, Json.objText, List.map_map, List.cons_append, List.mem_cons,
    List.mem_append]
  rintro (h | h | h)
  · cases h
  · refine newline_notMem_commaSep (fun e he => ?_) h
    obtain ⟨f, -, rfl⟩ := List.mem_map.1 he
    exact hkv f
  · exact absurd h (by decide)

theorem newline_mem_appendField :
    0x0A ∈ appendField out f ↔ 0x0A ∈ out ∨ 0x0A ∈ f.1 ∨ 0x0A ∈ f.2 := by
  have hquoted : 0x0A ∈ f.2.flatMap (fun c => if c = 0x22 then [0x5C, c] else [c]) ↔
      0x0A ∈ f.2 := by
    rw [List.mem_flatMap]
    constructor
    · rintro ⟨c, hc, h⟩
      split at h
      · next hquote =>
        rw [hquote] at h
        exact absurd h (by decide)
      · rwa [List.mem_singleton.1 h]
    · exact fun h => ⟨0x0A, h, by decide⟩
  rw [appendField]
  split
  · simp [hquoted]
  · simp

theorem newline_mem_foldl_appendField : 0x0A ∈ fields.foldl appendField out ↔
    0x0A ∈ out ∨ ∃ f ∈ fields, 0x0A ∈ f.1 ∨ 0x0A ∈ f.2 := by
  induction fields generalizing out with
  | nil => simp
  | cons f fields ih =>
    rw [List.foldl_cons, ih, newline_mem_appendField, List.exists_mem_cons_iff, or_assoc]

/-- The newlines of a text record are those of what it shows. -/
theorem newline_mem_text (lvl : LogLevel) (includeRid : Bool) :
    0x0A ∈ formatLine false lvl ts msg fields rid includeRid ↔
      0x0A ∈ ts ∨ (includeRid = true ∧ 0x0A ∈ rid) ∨ 0x0A ∈ msg ∨
        ∃ f ∈ fields, 0x0A ∈ f.1 ∨ 0x0A ∈ f.2 := by
  have hlevel : 0x0A ∉ lvl.name := by cases lvl <;> decide
  have hreq : 0x0A ∉ bytes " [req=" := by decide
  simp only [formatLine, Bool.false_eq_true, if_false, newline_mem_foldl_appendField]
  cases includeRid
  · simp [hlevel, or_assoc]
  · simp [hlevel, hreq, or_assoc]

theorem newline_notMem_padded (w : Nat) (n : Int) : 0x0A ∉ padded w n := by
  have hdecimal : ∀ k : Nat, 0x0A ∉ decimal k := fun k h =>
    absurd (isDigit_of_mem_decimal _ h) (by decide)
  cases n with
  | ofNat n => simp [padded, hdecimal, List.mem_replicate]
  | negSucc n => simp [padded, hdecimal, List.mem_replicate]

theorem newline_notMem_formatIso8601Utc (t : Tm) : 0x0A ∉ formatIso8601Utc t := by
  intro h
  have h := List.mem_of_mem_take h
  simp [newline_notMem_padded] at h

/-! ## One call -/

theorem oneRecord_concat_iff {line : Bytes} : OneRecord (line ++ [0x0A]) ↔ 0x0A ∉ line := by
  constructor
  · rintro ⟨line', h, hline⟩
    rwa [(List.append_inj' h rfl).1]
  · exact fun h => ⟨line, rfl, h⟩

/-- What an enabled call writes. -/
theorem oneRecord_formatLine_iff (l : Logger) (rid : Option Bytes) (now : Tm) (lvl : LogLevel)
    (msg : Bytes) (fields : List Field) :
    OneRecord (formatLine l.jsonFormat lvl (formatIso8601Utc now) msg fields (rid.getD [])
      (l.includeRequestId && rid.isSome) ++ [0x0A]) ↔
        l.jsonFormat = true ∨ Unbroken l rid msg fields := by
  rw [oneRecord_concat_iff]
  cases hformat : l.jsonFormat with
  | true => simp [newline_notMem_json]
  | false =>
    have hunbroken : Unbroken l rid msg fields ↔
        (l.includeRequestId = true → ∀ id ∈ rid, 0x0A ∉ id) ∧ 0x0A ∉ msg ∧
          ∀ f ∈ fields, 0x0A ∉ f.1 ∧ 0x0A ∉ f.2 :=
      ⟨fun h => ⟨h.requestId, h.msg, h.fields⟩, fun h => ⟨h.1, h.2.1, h.2.2⟩⟩
    rw [newline_mem_text, hunbroken]
    have hts := newline_notMem_formatIso8601Utc now
    cases rid with
    | none => simp [hts]
    | some id => simp [hts]

/-- A call writes one line, if the record is in JSON or nothing in it has a newline; a call below
    the level of the logger writes nothing. -/
theorem one_record_iff (l : Logger) (rid : Option Bytes) (now : Tm) (lvl : LogLevel) (msg : Bytes)
    (fields : List Field) :
    (∀ written, l.log rid now lvl msg fields = some written → OneRecord written) ↔
      (l.level.toInt ≤ lvl.toInt → l.jsonFormat = true ∨ Unbroken l rid msg fields) := by
  rw [← oneRecord_formatLine_iff l rid now lvl msg fields, Logger.log]
  split
  · next h => exact ⟨fun _ hle => absurd h (Int.not_lt.2 hle), fun _ _ hw => by cases hw⟩
  · next h =>
    constructor
    · exact fun hw _ => hw _ rfl
    · rintro hle _ ⟨⟩
      exact hle (Int.not_lt.1 h)

/-- A message with a newline is two lines of a text log. -/
theorem not_one_record : ¬∀ (l : Logger) (rid : Option Bytes) (now : Tm) (lvl : LogLevel)
    (msg : Bytes) (fields : List Field) (written : Bytes),
    l.log rid now lvl msg fields = some written → OneRecord written := by
  intro h
  have hone := h ⟨.info, false, true⟩ none ⟨2026, 6, 28, 12, 34, 56, 789⟩ .info
    [0x61, 0x0A, 0x62] [] _ rfl
  rcases (oneRecord_formatLine_iff ⟨.info, false, true⟩ none _ _ _ _).1 hone with hjson | hplain
  · cases hjson
  · exact hplain.msg (by decide)

end LiteCode.Logging
