import Mathlib.Data.List.Chain
import LiteCode.Lib.TextDecoder

/-!
# Events on the wire

`format_sse_event` of `src/routes/submission_routes.h`, and the reader of the page in
`web/js/api.js`: `parseSseFrames`, `parseSseFrame`, and `openSse` from the first read of the body of
a response on. The body is a frame with the interval for a retry and then frames with an event each;
the page gets its bytes in chunks, cut anywhere.

* `parseSseFrames_append`: a text can be split into frames in two parts, the rest of the first one
  put in front of the second one; so the calls of the handlers depend on the text alone
  (`pump_eq_deliver`);
* `parseSseFrames_body`: the frames of a body;
* `openSse_body`: every event calls its handler once, in order, with what it has been sent with, and
  there are no other calls.

The text of a payload, its reader, and the decoder are those of libraries (`Codec`, `TextDecoder`).
-/

namespace LiteCode.EventStream

/-! ## The server -/

/-- The events. -/
inductive Kind
  | result
  | pending
  deriving DecidableEq, Repr

/-- The name of an event. -/
def Kind.name : Kind → String
  | .result => "result"
  | .pending => "pending"

/-- The text of a payload, as `dump` writes it and `JSON.parse` reads it. -/
structure Codec (J V : Type) where
  dump : J → List Char
  /-- `none` when it throws. -/
  parse : Units → Option V
  /-- The value of JavaScript that a payload stands for. -/
  value : J → V

/-- What is relied on: the text of an object is on one line, and is read as the object. -/
structure Codec.Correct {J V : Type} (json : Codec J V) (data : J) : Prop where
  head_dump : (json.dump data).head? = some '\x7b'
  line_dump : '\n' ∉ json.dump data
  parse_dump : json.parse (utf16 (json.dump data)) = some (json.value data)

variable {J V : Type}

/-- A frame with an event. -/
def formatSseEvent (json : Codec J V) (eventName : Bytes) (data : J) : Bytes :=
  bytes "event: " ++ eventName ++ bytes "\n" ++ bytes "data: " ++ utf8 (json.dump data) ++
    bytes "\n\n"

/-- The interval for a retry, in milliseconds. -/
def kSseRetryIntervalMs : Nat := 3000

/-- The first frame. -/
def kRetryFrame : Bytes := bytes "retry: " ++ decimal kSseRetryIntervalMs ++ bytes "\n\n"

/-- The body of a response with these events. -/
def body (json : Codec J V) (events : List (Kind × J)) : Bytes :=
  kRetryFrame ++ events.flatMap fun e => formatSseEvent json (bytes e.1.name) e.2

/-! ## The page -/

/-- `'\n'`. -/
def newline : UInt16 := 10

/-- `' '`. -/
def space : UInt16 := 32

/-- `':'`. -/
def colon : UInt16 := 58

/-- The frames that are complete, and what follows them. -/
@[ext]
structure Parsed where
  frames : List Units
  rest : Units
  deriving DecidableEq, Repr

/-- The loop of `parseSseFrames`: `chunk` is `buffer.slice(start, i)`, before what is to be read. -/
def scan : Units → Units → Parsed
  | chunk, [] => ⟨[], chunk⟩
  | chunk, [a] => ⟨[], chunk ++ [a]⟩
  | chunk, a :: b :: l =>
    if a = newline ∧ b = newline then
      let parsed := scan [] l
      ⟨if chunk = [] then parsed.frames else chunk :: parsed.frames, parsed.rest⟩
    else scan (chunk ++ [a]) (b :: l)

/-- Split a buffer at the blank lines. -/
def parseSseFrames (buffer : Units) : Parsed := scan [] buffer

/-- A white space of JavaScript. -/
def isWhiteSpace (a : UInt16) : Bool :=
  (9 ≤ a && a ≤ 13) || a = 0x20 || a = 0xA0 || a = 0x1680 || (0x2000 ≤ a && a ≤ 0x200A) ||
    a = 0x2028 || a = 0x2029 || a = 0x202F || a = 0x205F || a = 0x3000 || a = 0xFEFF

/-- `parseInt(value, 10)`, before it is rounded to a double; `none` is `NaN`. -/
def parseInt (value : Units) : Option Int :=
  let text := value.dropWhile isWhiteSpace
  let signed := text.head? = some 45 ∨ text.head? = some 43
  let digits := (if signed then text.tail else text).takeWhile fun a => 48 ≤ a && a ≤ 57
  let n : Nat := digits.foldl (fun n a => n * 10 + (a.toNat - 48)) 0
  if digits = [] then none else some (if text.head? = some 45 then -n else n)

/-- A frame, read. -/
structure Frame where
  event : Option Units
  data : Option Units
  retry : Option Int
  deriving DecidableEq, Repr

/-- The variables of `parseSseFrame`. -/
structure Fields where
  event : Option Units
  data : List Units
  retry : Option Int
  deriving DecidableEq, Repr

/-- The field of a line. -/
def fieldOf (line : Units) : Units := line.takeWhile fun a => a ≠ colon

/-- The value of a line, without the spaces in front of it. -/
def valueOf (line : Units) : Units :=
  ((line.dropWhile fun a => a ≠ colon).drop 1).dropWhile fun a => a = space

/-- One line of a frame. -/
def Fields.line (f : Fields) (line : Units) : Fields :=
  if line = [] ∨ line.head? = some colon then f
  else if fieldOf line = units "event" then { f with event := some (valueOf line) }
  else if fieldOf line = units "data" then { f with data := f.data ++ [valueOf line] }
  else if fieldOf line = units "retry" then { f with retry := parseInt (valueOf line) }
  else f

/-- Read a frame. -/
def parseSseFrame (frame : Units) : Frame :=
  let f := (frame.splitOn newline).foldl Fields.line ⟨none, [], none⟩
  ⟨f.event, if f.data = [] then none else some ([newline].intercalate f.data), f.retry⟩

/-- The argument of a handler. -/
inductive Payload (V : Type)
  | null
  | json (v : V)
  /-- A text that is no JSON. -/
  | text (s : Units)
  deriving DecidableEq, Repr

/-- A call of a handler of the caller. -/
inductive Call (V : Type)
  | onResult (payload : Payload V)
  | onPending (payload : Payload V)
  /-- With the error that is made of this payload. -/
  | onError (payload : Payload V)
  | onClose
  deriving DecidableEq, Repr

/-- The payload of a frame. -/
def payload (json : Codec J V) : Option Units → Payload V
  | none => .null
  | some data =>
    if data = [] then .null
    else match json.parse data with
      | some v => .json v
      | none => .text data

/-- The calls for a frame, where the caller has given every handler. -/
def dispatchFrame (json : Codec J V) (f : Frame) : List (Call V) :=
  if f.event = some (units "result") then [.onResult (payload json f.data)]
  else if f.event = some (units "pending") then [.onPending (payload json f.data)]
  else if f.event = some (units "error") then [.onError (payload json f.data)]
  else []

/-- The loop over the chunks of the body, from a state of the decoder and a buffer. -/
def pump (json : Codec J V) (decoder : TextDecoder) :
    decoder.State → Units → List Bytes → List (Call V)
  | _, buffer, [] =>
    (if buffer = [] then [] else dispatchFrame json (parseSseFrame buffer)) ++ [.onClose]
  | s, buffer, chunk :: chunks =>
    let parsed := parseSseFrames (buffer ++ (decoder.decode s chunk).2)
    parsed.frames.flatMap (fun frame => dispatchFrame json (parseSseFrame frame)) ++
      pump json decoder (decoder.decode s chunk).1 parsed.rest chunks

/-- The calls for a body that comes in these chunks. -/
def openSse (json : Codec J V) (decoder : TextDecoder) (chunks : List Bytes) : List (Call V) :=
  pump json decoder decoder.start [] chunks

/-- The handler of an event. -/
def Kind.call : Kind → Payload V → Call V
  | .result => .onResult
  | .pending => .onPending

/-! ## Texts -/

/-- The bytes and the units are those of one text. -/
def SameText (b : Bytes) (u : Units) : Prop := ∃ t, b = utf8 t ∧ u = utf16 t

namespace SameText

theorem of (t : List Char) : SameText (utf8 t) (utf16 t) := ⟨t, rfl, rfl⟩

theorem append {b b' : Bytes} {u u' : Units} (h : SameText b u) (h' : SameText b' u') :
    SameText (b ++ b') (u ++ u') := by
  obtain ⟨t, rfl, rfl⟩ := h
  obtain ⟨t', rfl, rfl⟩ := h'
  exact ⟨t ++ t', (utf8_append t t').symm, (utf16_append t t').symm⟩

theorem flatMap {α : Type} {f : α → Bytes} {g : α → Units} (h : ∀ a, SameText (f a) (g a))
    (l : List α) : SameText (l.flatMap f) (l.flatMap g) := by
  induction l with
  | nil => exact .of []
  | cons a l ih => exact (h a).append ih

theorem literal {s : String} (h : s.toList.all fun c => c.toNat < 0x80) :
    SameText (bytes s) (units s) := by
  refine ⟨s.toList, ?_, rfl⟩
  rw [bytes, utf8, List.map_eq_flatMap]
  exact List.flatMap_congr fun c hc =>
    (if_pos (of_decide_eq_true (List.all_eq_true.1 h c hc))).symm

end SameText

/-! ## Splitting in parts -/

/-- There is no blank line in the text. -/
def Solid (w : Units) : Prop := w.IsChain fun a b => ¬(a = newline ∧ b = newline)

theorem scan_append_solid (chunk w l : Units) (h : Solid (w ++ l.take 1)) :
    scan chunk (w ++ l) = scan (chunk ++ w) l := by
  induction w generalizing chunk with
  | nil => rw [List.nil_append, List.append_nil]
  | cons a w ih =>
    rw [List.cons_append] at h
    obtain ⟨ha, hw⟩ := List.isChain_cons.1 h
    have hnext := ih (chunk ++ [a]) hw
    rw [List.append_assoc, List.singleton_append] at hnext
    have hhead : (w ++ l.take 1).head? = (w ++ l).head? := by cases w <;> cases l <;> rfl
    rw [← hnext, List.cons_append]
    -- The first unit is taken alone, as it does not begin a blank line.
    cases hrest : w ++ l with
    | nil => rfl
    | cons b rest => exact if_neg (ha b (by rw [hhead, hrest]; rfl))

/-- Two parts of a text, of which `chunk` has been read already. -/
theorem scan_append (chunk a b : Units) (hsolid : Solid (chunk ++ a.take 1))
    (hend : a = [] → chunk = []) :
    scan chunk (a ++ b) = ⟨(scan chunk a).frames ++ (scan [] ((scan chunk a).rest ++ b)).frames,
      (scan [] ((scan chunk a).rest ++ b)).rest⟩ := by
  fun_induction scan chunk a with
  | case1 chunk =>
    rw [hend rfl]
    rfl
  | case2 chunk a =>
    -- The second part is not read as if it began with `a`: what is left is read again.
    have hagain := scan_append_solid [] chunk (a :: b) hsolid
    rw [List.append_assoc]
    exact hagain.symm
  | case3 chunk a c l h parsed ih =>
    have hl := ih (by cases l <;> simp [Solid]) fun _ => rfl
    simp only [List.cons_append, scan, if_pos h, hl, parsed]
    split_ifs <;> rfl
  | case4 chunk a c l h ih =>
    have hl := ih ?_ (fun h => nomatch h)
    · simpa only [List.cons_append, scan, if_neg h] using hl
    · exact List.isChain_append.2 ⟨hsolid, .singleton c, by simpa using h⟩

/-- The rest of the first part is put in front of the second one. -/
theorem parseSseFrames_append (a b : Units) : parseSseFrames (a ++ b) =
    ⟨(parseSseFrames a).frames ++ (parseSseFrames ((parseSseFrames a).rest ++ b)).frames,
      (parseSseFrames ((parseSseFrames a).rest ++ b)).rest⟩ :=
  scan_append [] a b (by cases a <;> simp [Solid]) fun _ => rfl

/-- What is left of a text has no frame. -/
theorem parseSseFrames_rest (a : Units) :
    parseSseFrames (parseSseFrames a).rest = ⟨[], (parseSseFrames a).rest⟩ := by
  have happend := parseSseFrames_append a []
  rw [List.append_nil, List.append_nil] at happend
  ext1
  · have hframes := congrArg Parsed.frames happend
    exact List.append_right_eq_self.1 hframes.symm
  · exact (congrArg Parsed.rest happend).symm

/-- The calls for what is left at the end. -/
def finish (json : Codec J V) (rest : Units) : List (Call V) :=
  (if rest = [] then [] else dispatchFrame json (parseSseFrame rest)) ++ [.onClose]

/-- The calls for a text that comes at once. -/
def deliver (json : Codec J V) (text : Units) : List (Call V) :=
  (parseSseFrames text).frames.flatMap (fun frame => dispatchFrame json (parseSseFrame frame)) ++
    finish json (parseSseFrames text).rest

theorem deliver_append (json : Codec J V) (a b : Units) : deliver json (a ++ b) =
    (parseSseFrames a).frames.flatMap (fun frame => dispatchFrame json (parseSseFrame frame)) ++
      deliver json ((parseSseFrames a).rest ++ b) := by
  rw [deliver, parseSseFrames_append, List.flatMap_append, List.append_assoc]
  rfl

/-- The cuts do not matter. -/
theorem pump_eq_deliver (json : Codec J V) (decoder : TextDecoder) (s : decoder.State)
    (buffer : Units) (chunks : List Bytes) (hbuffer : parseSseFrames buffer = ⟨[], buffer⟩) :
    pump json decoder s buffer chunks =
      deliver json (buffer ++ (decodeChunks decoder.decode s chunks).flatten) := by
  induction chunks generalizing s buffer with
  | nil =>
    have hend : deliver json buffer = finish json buffer := by rw [deliver, hbuffer]; rfl
    rw [decodeChunks, List.flatten_nil, List.append_nil, hend]
    rfl
  | cons chunk chunks ih =>
    rw [pump, ih _ _ (parseSseFrames_rest _), decodeChunks, List.flatten_cons,
      ← List.append_assoc, deliver_append json (buffer ++ _)]

theorem openSse_eq_deliver (json : Codec J V) (decoder : TextDecoder) {chunks : List Bytes}
    {text : Units} (htext : SameText chunks.flatten text)
    (hmark : text.head? ≠ some (UInt16.ofNat byteOrderMark.toNat)) :
    openSse json decoder chunks = deliver json text := by
  obtain ⟨t, hbytes, rfl⟩ := htext
  have ht : t.head? ≠ some byteOrderMark := by
    intro hhead
    obtain ⟨t', rfl⟩ := List.head?_eq_some_iff.1 hhead
    exact hmark rfl
  rw [openSse, pump_eq_deliver json decoder _ _ _ rfl, decoder.decode_text t chunks ht hbytes,
    List.nil_append]

/-! ## Frames -/

theorem solid_append {a b : Units} (ha : newline ∉ a) (hb : Solid b) : Solid (a ++ b) := by
  induction a with
  | nil => exact hb
  | cons c a ih =>
    rw [List.mem_cons, not_or] at ha
    exact List.isChain_cons.2 ⟨fun _ _ h => ha.1 h.1.symm, ih ha.2⟩

/-- Two lines, and the end of the second one. -/
theorem solid_lines {a b : Units} (ha : newline ∉ a) (hb : newline ∉ b) (hne : b ≠ []) :
    Solid (a ++ newline :: (b ++ [newline])) := by
  refine solid_append ha (List.isChain_cons.2 ⟨fun c hc h => ?_, solid_append hb (.singleton _)⟩)
  rw [List.head?_append_of_ne_nil _ hne, h.2] at hc
  exact hb (List.mem_of_mem_head? hc)

/-- A frame and what follows it. -/
theorem parseSseFrames_frame {frame : Units} (hne : frame ≠ []) (h : Solid (frame ++ [newline]))
    (l : Units) : parseSseFrames (frame ++ newline :: newline :: l) =
      ⟨frame :: (parseSseFrames l).frames, (parseSseFrames l).rest⟩ := by
  have hscan := scan_append_solid [] frame (newline :: newline :: l) h
  rw [List.nil_append, scan, if_pos ⟨rfl, rfl⟩] at hscan
  rw [parseSseFrames, hscan]
  exact congrArg (Parsed.mk · _) (if_neg hne)

theorem fieldOf_append {field l : Units} (h : colon ∉ field) :
    fieldOf (field ++ colon :: l) = field := by
  have hpos : ∀ a ∈ field, decide (a ≠ colon) = true := fun a ha =>
    decide_eq_true fun hcolon => h (hcolon ▸ ha)
  rw [fieldOf, List.takeWhile_append_of_pos hpos, List.takeWhile_cons_of_neg (by simp),
    List.append_nil]

theorem valueOf_append {field value : Units} (h : colon ∉ field)
    (hvalue : value.head? ≠ some space) :
    valueOf (field ++ colon :: space :: value) = value := by
  have hpos : ∀ a ∈ field, decide (a ≠ colon) = true := fun a ha =>
    decide_eq_true fun hcolon => h (hcolon ▸ ha)
  rw [valueOf, List.dropWhile_append_of_pos hpos, List.dropWhile_cons_of_neg (by simp),
    List.drop_one, List.tail_cons, List.dropWhile_cons_of_pos (by simp)]
  cases value with
  | nil => rfl
  | cons a value => exact List.dropWhile_cons_of_neg (by simpa using hvalue)

/-- The line of an event. -/
theorem line_event (f : Fields) {value : Units} (h : value.head? ≠ some space) :
    f.line (units "event: " ++ value) = { f with event := some value } := by
  have hline : units "event: " ++ value = units "event" ++ colon :: space :: value := rfl
  rw [hline, Fields.line, fieldOf_append (by decide), valueOf_append (by decide) h]
  exact if_neg (by rintro (h | h) <;> cases h)

/-- A line of data. -/
theorem line_data (f : Fields) {value : Units} (h : value.head? ≠ some space) :
    f.line (units "data: " ++ value) = { f with data := f.data ++ [value] } := by
  have hline : units "data: " ++ value = units "data" ++ colon :: space :: value := rfl
  rw [hline, Fields.line, fieldOf_append (by decide), valueOf_append (by decide) h]
  exact if_neg (by rintro (h | h) <;> cases h)

/-- The frame of an event. -/
def frameOf (json : Codec J V) (e : Kind × J) : Units :=
  units "event: " ++ units e.1.name ++ newline :: (units "data: " ++ utf16 (json.dump e.2))

theorem newline_not_mem_utf16 {t : List Char} (h : '\n' ∉ t) : newline ∉ utf16 t :=
  fun hmem => h (mem_of_mem_utf16 (a := '\n') (by decide) hmem)

theorem newline_not_mem_event (kind : Kind) : newline ∉ units "event: " ++ units kind.name := by
  cases kind <;> decide

theorem newline_not_mem_data {t : List Char} (h : '\n' ∉ t) : newline ∉ units "data: " ++ utf16 t :=
  newline_not_mem_utf16 (t := "data: ".toList ++ t) (by simpa using h)

theorem frameOf_ne_nil (json : Codec J V) (e : Kind × J) : frameOf json e ≠ [] := by
  rw [frameOf, List.append_assoc]
  exact List.cons_ne_nil _ _

theorem solid_frameOf {json : Codec J V} {e : Kind × J} (h : json.Correct e.2) :
    Solid (frameOf json e ++ [newline]) := by
  have hlines := solid_lines (newline_not_mem_event e.1) (newline_not_mem_data h.line_dump)
    (List.cons_ne_nil _ _)
  rwa [frameOf, List.append_assoc]

/-- What is read in the frame of an event. -/
theorem parseSseFrame_frameOf {json : Codec J V} {e : Kind × J} (h : json.Correct e.2) :
    parseSseFrame (frameOf json e) =
      ⟨some (units e.1.name), some (utf16 (json.dump e.2)), none⟩ := by
  have hname : (units e.1.name).head? ≠ some space := by cases e.1 <;> decide
  have hdata : (utf16 (json.dump e.2)).head? ≠ some space := by
    obtain ⟨t, ht⟩ := List.head?_eq_some_iff.1 h.head_dump
    rw [ht]
    exact fun h => nomatch h
  rw [parseSseFrame, frameOf, List.splitOn_append_cons_self_of_not_mem (newline_not_mem_event e.1),
    List.splitOn_eq_singleton (newline_not_mem_data h.line_dump), List.foldl_cons, List.foldl_cons,
    List.foldl_nil, line_event _ hname, line_data _ hdata]
  simp

/-- The handler for a frame of the server. -/
theorem dispatchFrame_name (json : Codec J V) (kind : Kind) (data : Option Units)
    (retry : Option Int) : dispatchFrame json ⟨some (units kind.name), data, retry⟩ =
      [kind.call (payload json data)] := by
  have hne : units "pending" ≠ units "result" := by decide
  cases kind with
  | result => exact if_pos rfl
  | pending => exact (if_neg fun h => hne (Option.some.inj h)).trans (if_pos rfl)

theorem dispatchFrame_frameOf {json : Codec J V} {e : Kind × J} (h : json.Correct e.2) :
    dispatchFrame json (parseSseFrame (frameOf json e)) =
      [e.1.call (.json (json.value e.2))] := by
  have hne : utf16 (json.dump e.2) ≠ [] := by
    obtain ⟨t, ht⟩ := List.head?_eq_some_iff.1 h.head_dump
    rw [ht]
    exact List.cons_ne_nil _ _
  rw [parseSseFrame_frameOf h, dispatchFrame_name, payload, if_neg hne, h.parse_dump]

/-! ## The body -/

/-- The units of a body. -/
def bodyUnits (json : Codec J V) (events : List (Kind × J)) : Units :=
  units "retry: 3000" ++ newline :: newline ::
    events.flatMap fun e => frameOf json e ++ [newline, newline]

theorem sameText_event (json : Codec J V) (e : Kind × J) :
    SameText (formatSseEvent json (bytes e.1.name) e.2) (frameOf json e ++ [newline, newline]) := by
  have hname : SameText (bytes e.1.name) (units e.1.name) :=
    .literal (by cases e.1 <;> decide)
  have hline : SameText (bytes "\n") [newline] := .literal (by decide)
  have hend : SameText (bytes "\n\n") [newline, newline] := .literal (by decide)
  have hevent : SameText (bytes "event: ") (units "event: ") := .literal (by decide)
  have hdata : SameText (bytes "data: ") (units "data: ") := .literal (by decide)
  have hframe : frameOf json e = units "event: " ++ units e.1.name ++ [newline] ++
      units "data: " ++ utf16 (json.dump e.2) := by
    simp only [frameOf, List.append_assoc, List.cons_append, List.nil_append]
  rw [hframe]
  exact ((((hevent.append hname).append hline).append hdata).append (.of _)).append hend

theorem sameText_body (json : Codec J V) (events : List (Kind × J)) :
    SameText (body json events) (bodyUnits json events) := by
  have hretry : SameText kRetryFrame (units "retry: 3000" ++ [newline, newline]) := by
    have hline : kRetryFrame = bytes "retry: 3000\n\n" := by decide +kernel
    rw [hline]
    exact .literal (by decide)
  have hbody := hretry.append (.flatMap (sameText_event json) events)
  rwa [List.append_assoc] at hbody

/-- The frames of a body. -/
theorem parseSseFrames_body {json : Codec J V} {events : List (Kind × J)}
    (h : ∀ e ∈ events, json.Correct e.2) : parseSseFrames (bodyUnits json events) =
      ⟨units "retry: 3000" :: events.map (frameOf json), []⟩ := by
  have hretry : Solid (units "retry: 3000" ++ [newline]) :=
    solid_append (by decide) (.singleton _)
  have hevents : parseSseFrames (events.flatMap fun e => frameOf json e ++ [newline, newline]) =
      ⟨events.map (frameOf json), []⟩ := by
    induction events with
    | nil => rfl
    | cons e events ih =>
      obtain ⟨he, hrest⟩ := List.forall_mem_cons.1 h
      rw [List.flatMap_cons, List.append_assoc, List.cons_append, List.cons_append, List.nil_append,
        parseSseFrames_frame (frameOf_ne_nil json e) (solid_frameOf he), ih hrest]
      rfl
  rw [bodyUnits, parseSseFrames_frame (by decide) hretry, hevents]

/-- The first frame calls no handler. -/
theorem dispatchFrame_retry (json : Codec J V) :
    dispatchFrame json (parseSseFrame (units "retry: 3000")) = [] := by
  have hframe : parseSseFrame (units "retry: 3000") = ⟨none, none, some 3000⟩ := by
    decide +kernel
  rw [hframe]
  rfl

/-- Every event calls its handler once, in order, with what it has been sent with, and there are
    no other calls. -/
theorem openSse_body (json : Codec J V) (decoder : TextDecoder) (events : List (Kind × J))
    (chunks : List Bytes) (hjson : ∀ e ∈ events, json.Correct e.2)
    (hchunks : chunks.flatten = body json events) :
    openSse json decoder chunks =
      events.map (fun e => e.1.call (.json (json.value e.2))) ++ [.onClose] := by
  have htext : SameText chunks.flatten (bodyUnits json events) :=
    hchunks ▸ sameText_body json events
  have hmark : (bodyUnits json events).head? ≠ some (UInt16.ofNat byteOrderMark.toNat) := by
    have hhead : (bodyUnits json events).head? = some 114 := rfl
    rw [hhead]
    decide
  have hcalls : (events.map (frameOf json)).flatMap
      (fun frame => dispatchFrame json (parseSseFrame frame)) =
        events.map fun e => e.1.call (.json (json.value e.2)) := by
    rw [List.flatMap_map, List.map_eq_flatMap]
    exact List.flatMap_congr fun e he => dispatchFrame_frameOf (hjson e he)
  rw [openSse_eq_deliver json decoder htext hmark, deliver, parseSseFrames_body hjson,
    List.flatMap_cons, dispatchFrame_retry, hcalls]
  rfl

/-- The objects with one member `message`, a text with nothing to escape. -/
def messages : Codec String Units where
  dump s := "\x7b\"message\":\"".toList ++ s.toList ++ "\"\x7d".toList
  parse u :=
    if u.take 12 = units "\x7b\"message\":\"" ∧ u.reverse.take 2 = (units "\"\x7d").reverse then
      some (((u.drop 12).reverse.drop 2).reverse)
    else none
  value := units

/-- The body is cut between the two ends of a line and in a character. -/
theorem openSse_body_cut :
    let body := body messages [(.result, "判题完成 🎉"), (.pending, "later")]
    openSse messages .pending [body.take 12, (body.drop 12).take 34, body.drop 46] =
      [.onResult (.json (units "判题完成 🎉")), .onPending (.json (units "later")), .onClose] := by
  intro body
  refine openSse_body messages .pending [(.result, "判题完成 🎉"), (.pending, "later")] _ ?_ ?_
  · intro e he
    rcases List.mem_cons.1 he with rfl | he
    · exact ⟨by decide +kernel, by decide +kernel, by decide +kernel⟩
    · rcases List.mem_singleton.1 he with rfl
      exact ⟨by decide +kernel, by decide +kernel, by decide +kernel⟩
  · decide +kernel

end LiteCode.EventStream
