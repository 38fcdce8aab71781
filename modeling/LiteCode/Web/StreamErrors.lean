import LiteCode.Lib.JsonLiteral
import LiteCode.Routes.SubmissionAccess

/-!
# Errors of the stream

When `sse_submission_handler` of `src/routes/submission_routes.h` rejects a request, it sends the
envelope of the error as an event, under the status of the error. The server looks at every response
from `400` on before it is written (`set_error_handler` of `src/server.h`): a body that is not of
the type `application/json` is replaced by the default envelope of the status. The page, `openSse`
of `web/js/api.js`, reads the body of a response that is not ok as a JSON text.

So the event never arrives. The page shows the status and the code of the error, as the default
code is the same, but the message is that of the status; and if the event did arrive, it would be
no JSON text for the page.

* `formatSseErrorEvent`, `reject`: the response of the handler;
* `HttpServer.write`: what the server sends for it;
* `openSse`: the calls of the page;
* `openSse_write_reject`, `openSse_reject`: what the page shows;
* `message_lost`: it is never the error that the handler has sent.
-/

namespace LiteCode.StreamErrors

open ErrorHandler Json SubmissionAccess

/-! ## The server -/

/-- `error_code_name`. -/
def errorCodeName : ErrorCode → Bytes
  | .invalidInput => bytes "INVALID_INPUT"
  | .unauthorized => bytes "UNAUTHORIZED"
  | .forbidden => bytes "FORBIDDEN"
  | .notFound => bytes "NOT_FOUND"
  | .rateLimited => bytes "RATE_LIMITED"
  | .conflict => bytes "CONFLICT"
  | .internalError => bytes "INTERNAL_ERROR"
  | .serviceUnavailable => bytes "SERVICE_UNAVAILABLE"

/-- `default_error_for_status`. -/
def defaultErrorForStatus (status : Nat) : ErrorCode :=
  match status with
  | 400 => .invalidInput
  | 401 => .unauthorized
  | 403 => .forbidden
  | 404 => .notFound
  | 409 => .conflict
  | 429 => .rateLimited
  | 503 => .serviceUnavailable
  | _ => .internalError

/-- `default_message_for_status`. -/
def defaultMessageForStatus (status : Nat) : Bytes :=
  match status with
  | 400 => bytes "Bad Request"
  | 401 => bytes "Unauthorized"
  | 403 => bytes "Forbidden"
  | 404 => bytes "Not Found"
  | 409 => bytes "Conflict"
  | 429 => bytes "Too Many Requests"
  | 503 => bytes "Service Unavailable"
  | _ => bytes "Internal Server Error"

/-- `is_valid_request_id`. -/
def isValidRequestId (id : Bytes) : Bool :=
  !id.isEmpty && id.length ≤ 128 && id.all fun u =>
    (0x30 ≤ u && u ≤ 0x39) || (0x61 ≤ u && u ≤ 0x7A) || (0x41 ≤ u && u ≤ 0x5A) ||
      u == 0x2D || u == 0x5F || u == 0x2E

/-- `resolve_request_id`: the id of the client, or a new one. -/
abbrev RequestId := {id : Bytes // isValidRequestId id = true}

/-- A byte of a string, as `dump` writes it. -/
def escapeByte (b : UInt8) : Bytes :=
  if b = 0x22 then bytes "\\\""
  else if b = 0x5C then bytes "\\\\"
  else if b = 0x08 then bytes "\\b"
  else if b = 0x0C then bytes "\\f"
  else if b = 0x0A then bytes "\\n"
  else if b = 0x0D then bytes "\\r"
  else if b = 0x09 then bytes "\\t"
  else if b < 0x20 then bytes "\\u00" ++ (Nat.toDigits 16 (b.toNat + 0x100)).tail.map (fun c =>
    UInt8.ofNat c.toNat)
  else [b]

/-- The text of a string; `none` if `dump` throws, as it is not UTF-8. -/
def dumpString (s : Bytes) : Option Bytes :=
  if Utf8.WellFormed s then some (strText (s.flatMap escapeByte)) else none

/-- `make_error_envelope` without details, and `dump`: the members stand in the order of their
    keys. -/
def dumpEnvelope (code : ErrorCode) (message : Bytes) (id : RequestId)
    (more : List (Bytes × Bytes)) : Option Bytes := do
  let message ← dumpString (if message.isEmpty then defaultMessageForStatus 500 else message)
  return objText ([(bytes "code", strText (errorCodeName code)), (bytes "message", message),
    (bytes "request_id", strText id.1)] ++ more)

/-- `format_sse_error_event`; `none` if `dump` throws. -/
def formatSseErrorEvent (status : Nat) (code : ErrorCode) (message : Bytes) (id : RequestId) :
    Option Bytes := do
  let env ← dumpEnvelope code message id [(bytes "status", decimal status)]
  return bytes "event: error\n" ++ bytes "data: " ++ env ++ bytes "\n\n"

/-- A response. -/
structure Response where
  status : Nat
  contentType : Bytes
  body : Bytes
  deriving DecidableEq, Repr

/-- `kSseContentType`. -/
def kSseContentType : Bytes := bytes "text/event-stream; charset=utf-8"

/-- `kJsonContentType`. -/
def kJsonContentType : Bytes := bytes "application/json; charset=utf-8"

/-- The response for a rejected request. When `dump` throws, the route catches the exception, whose
    text is `what`, and sends that; if that cannot be sent either, the library answers without a
    body. -/
def reject (what : Bytes) (id : RequestId) (e : Envelope) : Response :=
  match formatSseErrorEvent e.status e.code e.message id with
  | some body => ⟨e.status, kSseContentType, body⟩
  | none =>
    match formatSseErrorEvent 500 .internalError (bytes "internal error: " ++ what) id with
    | some body => ⟨500, kSseContentType, body⟩
    | none => ⟨500, [], []⟩

/-- `find` finds the text. -/
def contains (s part : Bytes) : Bool := s.tails.any fun t => part.isPrefixOf t

/-- The handler of `set_error_handler`. -/
def HttpServer.errorHandler (id : RequestId) (res : Response) : Response :=
  if !res.body.isEmpty && contains res.contentType (bytes "application/json") then res
  else match dumpEnvelope (defaultErrorForStatus res.status) (defaultMessageForStatus res.status)
      id [] with
    | some body => ⟨res.status, kJsonContentType, body⟩
    | none => res

/-- What is sent: the library calls the error handler for every status from `400` on. -/
def HttpServer.write (id : RequestId) (res : Response) : Response :=
  if 400 ≤ res.status then HttpServer.errorHandler id res else res

/-! ## The page -/

/-- A call of a handler of the page. -/
inductive Call
  | onError (status : Nat) (code message : Bytes)
  | onClose
  /-- The others. -/
  | other
  deriving DecidableEq, Repr

/-- The call is one of `onError`. -/
def Call.isError : Call → Bool
  | .onError .. => true
  | _ => false

/-- What is taken from JavaScript: `String` of a value that is no string, whether a decimal number
    is rounded to zero, and the calls for the body of a response that is ok. -/
structure Js where
  toText : Json → Bytes
  isZero : Decimal → Bool
  stream : Bytes → List Call

namespace Js

variable (js : Js)

/-- The value counts as true. -/
def truthy : Json → Bool
  | .null => false
  | .bool b => b
  | .num (.unsigned n) => n != 0
  | .num (.integer n) => n != 0
  | .num (.float d) => !js.isZero d
  | .str s => !s.isEmpty
  | _ => true

/-- `parsed && parsed.key ? String(parsed.key) : fallback`. -/
def member (parsed : Option Json) (key fallback : Bytes) : Bytes :=
  match (parsed.bind fun j => j.get? key).filter js.truthy with
  | none => fallback
  | some (.str s) => s
  | some j => js.toText j

/-- `openSse`, when the response has arrived. -/
def openSse (res : Response) : List Call :=
  if 200 ≤ res.status ∧ res.status ≤ 299 then js.stream res.body
  else
    let parsed := if res.body.isEmpty then none else Json.parse res.body
    [.onError res.status (js.member parsed (bytes "code") (bytes "INTERNAL_ERROR"))
      (js.member parsed (bytes "message") (bytes "HTTP " ++ decimal res.status)), .onClose]

end Js

/-- The calls tell of the error once, and of no other. -/
def Intact (e : Envelope) (calls : List Call) : Prop :=
  calls.filter Call.isError = [.onError e.status (errorCodeName e.code) e.message]

/-! ## Texts -/

theorem plain_errorCodeName (code : ErrorCode) : Plain (errorCodeName code) := by
  cases code <;> decide

theorem plain_defaultMessage (status : Nat) : Plain (defaultMessageForStatus status) := by
  unfold defaultMessageForStatus
  split <;> decide

theorem plain_requestId (id : RequestId) : Plain id.1 := by
  intro b hb
  have hall := (Bool.and_eq_true_iff.1 id.2).2
  have hvalid := List.all_eq_true.1 hall b hb
  simp only [isPlain, Bool.or_eq_true, Bool.and_eq_true, decide_eq_true_eq, beq_iff_eq, bne_iff_ne,
    ne_eq, UInt8.le_iff_toNat_le, UInt8.lt_iff_toNat_lt, ← UInt8.toNat_inj,
    UInt8.reduceToNat] at hvalid ⊢
  omega

theorem escapeByte_of_isPlain {b : UInt8} (hb : isPlain b = true) : escapeByte b = [b] := by
  unfold escapeByte
  unfold isPlain at hb
  grind

/-- A text with nothing to escape. -/
theorem dumpString_of_plain {s : Bytes} (hs : Plain s) : dumpString s = some (strText s) := by
  have hwf : Utf8.WellFormed s := Utf8.wellFormed_of_lt fun b hb => lt_of_isPlain (hs b hb)
  have hescape : s.flatMap escapeByte = s := by
    rw [List.flatMap_congr fun b hb => escapeByte_of_isPlain (hs b hb)]
    exact List.flatMap_singleton' s
  rw [dumpString, if_pos hwf, hescape]

/-! ## The default envelope -/

/-- The default envelope of a status. -/
def defaultEnvelope (status : Nat) (id : RequestId) : Literal := .obj [
  (⟨bytes "code", by decide⟩, .str _ (plain_errorCodeName (defaultErrorForStatus status))),
  (⟨bytes "message", by decide⟩, .str _ (plain_defaultMessage status)),
  (⟨bytes "request_id", by decide⟩, .str _ (plain_requestId id))]

theorem defaultMessage_ne_nil (status : Nat) : defaultMessageForStatus status ≠ [] := by
  unfold defaultMessageForStatus
  split <;> exact List.cons_ne_nil _ _

theorem errorCodeName_ne_nil (code : ErrorCode) : errorCodeName code ≠ [] := by
  cases code <;> exact List.cons_ne_nil _ _

theorem dumpEnvelope_default (status : Nat) (id : RequestId) :
    dumpEnvelope (defaultErrorForStatus status) (defaultMessageForStatus status) id [] =
      some (defaultEnvelope status id).text := by
  have hne : (defaultMessageForStatus status).isEmpty = false :=
    List.isEmpty_eq_false_iff.2 (defaultMessage_ne_nil status)
  simp only [dumpEnvelope, hne, Bool.false_eq_true, if_false,
    dumpString_of_plain (plain_defaultMessage status)]
  rfl

/-- A member that is a string with something in it. -/
theorem member_of_get? {js : Js} {j : Json} {key fallback k : Bytes}
    (hget : j.get? key = some (.str k)) (hk : k ≠ []) : js.member (some j) key fallback = k := by
  have hfilter : ((some j).bind fun j => j.get? key).filter js.truthy = some (.str k) := by
    rw [Option.bind_some, hget]
    exact if_pos (by rw [Js.truthy, List.isEmpty_eq_false_iff.2 hk]; rfl)
  rw [Js.member, hfilter]

/-- The page reads the default envelope. -/
theorem openSse_default (js : Js) {status : Nat} (hstatus : 400 ≤ status) (id : RequestId) :
    js.openSse ⟨status, kJsonContentType, (defaultEnvelope status id).text⟩ =
      [.onError status (errorCodeName (defaultErrorForStatus status))
        (defaultMessageForStatus status), .onClose] := by
  have hnotok : ¬(200 ≤ status ∧ status ≤ 299) := by omega
  obtain ⟨j, hj⟩ : ∃ j, (defaultEnvelope status id).json = some j := ⟨_, rfl⟩
  have hparse : Json.parse (defaultEnvelope status id).text = some j :=
    (Literal.parse_text_obj _).trans hj
  have hkeys : [bytes "code", bytes "message", bytes "request_id"].Nodup := by decide
  have hcode : j.get? (bytes "code") =
      some (.str (errorCodeName (defaultErrorForStatus status))) :=
    Literal.obj_get? hj hkeys (.head _)
  have hmessage : j.get? (bytes "message") = some (.str (defaultMessageForStatus status)) :=
    Literal.obj_get? hj hkeys (.tail _ (.head _))
  simp only [Js.openSse, if_neg hnotok]
  rw [if_neg (by simp [defaultEnvelope, Literal.obj, objText]), hparse,
    member_of_get? hcode (errorCodeName_ne_nil _),
    member_of_get? hmessage (defaultMessage_ne_nil _)]

/-! ## The event -/

/-- A text that begins with the letter `e` is no JSON text. -/
theorem parse_event (rest : Bytes) : Json.parse (0x65 :: rest) = none := by
  have hbom : skipBom (0x65 :: rest) = 0x65 :: rest := rfl
  have hdigit : isDigit 0x65 = false := by decide
  have hvalue : value ((0x65 :: rest).length + 1) (0x65 :: rest) = none := by
    rw [value, skipSpace_cons rest (by decide)]
    simp [hdigit]
  rw [Json.parse, hbom, hvalue]

/-- What is no JSON text has no members. -/
theorem member_none (js : Js) (key fallback : Bytes) : js.member none key fallback = fallback := rfl

/-- The page shows what it has for a body that is no JSON text. -/
theorem openSse_event (js : Js) {status : Nat} (hstatus : 400 ≤ status) {code : ErrorCode}
    {message body : Bytes} {id : RequestId} (type : Bytes)
    (hbody : formatSseErrorEvent status code message id = some body) :
    js.openSse ⟨status, type, body⟩ =
      [.onError status (bytes "INTERNAL_ERROR") (bytes "HTTP " ++ decimal status), .onClose] := by
  have hnotok : ¬(200 ≤ status ∧ status ≤ 299) := by omega
  obtain ⟨env, -, henv⟩ := Option.bind_eq_some_iff.1 hbody
  obtain ⟨rest, rfl⟩ : ∃ rest, body = 0x65 :: rest := ⟨_, (Option.some.inj henv).symm⟩
  simp only [Js.openSse, if_neg hnotok]
  rw [if_neg (by simp), parse_event, member_none, member_none]

/-! ## What the page shows -/

variable {v : Views} {req : Request} {e : Envelope}

/-- A request that is accepted is answered with an event of its own. -/
theorem awaitResult_ne (published : List SubmissionRepo.SubmissionRow) (id : Nat)
    (row : SubmissionRepo.SubmissionRow) (e : Envelope) :
    awaitResult v published id row ≠ .streamError e := by
  unfold awaitResult
  split
  · nofun
  · split <;> nofun

/-- The errors that a request is rejected with. -/
theorem rejected_cases
    (h : sseSubmissionHandler v req = .streamError e) :
    e = invalidInput (bytes "submission id must be a positive integer") [] ∨
      e = ⟨404, .notFound, bytes "submission not found", []⟩ ∨
      e = ⟨403, .forbidden, bytes "you can only view your own submissions", []⟩ ∨
      ∃ what, e = internal what := by
  unfold sseSubmissionHandler at h
  split at h
  · exact .inl (Answer.streamError.inj h).symm
  · split at h
    · exact .inr (.inr (.inr ⟨_, (Answer.streamError.inj h).symm⟩))
    · exact .inr (.inl (Answer.streamError.inj h).symm)
    · split at h
      · exact .inr (.inr (.inl (Answer.streamError.inj h).symm))
      · -- from here on the request is accepted
        split at h
        · cases h
        · split at h
          · cases h
          · exact absurd h (awaitResult_ne _ _ _ _)

/-- The error is a `500`, or one of the texts that can be sent. -/
theorem status_of_rejected (h : sseSubmissionHandler v req = .streamError e) :
    400 ≤ e.status ∧ (e.status = 500 ∨ e.message ≠ [] ∧ Plain e.message) := by
  rcases rejected_cases h with rfl | rfl | rfl | ⟨what, rfl⟩
  · exact ⟨by decide, .inr (by decide)⟩
  · exact ⟨by decide, .inr (by decide)⟩
  · exact ⟨by decide, .inr (by decide)⟩
  · exact ⟨Nat.le_add_left 400 100, .inl rfl⟩

/-- A text with nothing to escape can be sent. -/
theorem isSome_formatSseErrorEvent {status : Nat} {code : ErrorCode} {message : Bytes}
    (hne : message ≠ []) (hplain : Plain message) (id : RequestId) :
    (formatSseErrorEvent status code message id).isSome = true := by
  simp only [formatSseErrorEvent, dumpEnvelope, List.isEmpty_eq_false_iff.2 hne, Bool.false_eq_true,
    if_false, dumpString_of_plain hplain]
  rfl

/-- The response has the status of the error, and an event, or nothing at all. -/
theorem reject_cases (what : Bytes) (id : RequestId)
    (h : sseSubmissionHandler v req = .streamError e) :
    (∃ code message body, formatSseErrorEvent e.status code message id = some body ∧
      reject what id e = ⟨e.status, kSseContentType, body⟩) ∨
    reject what id e = ⟨e.status, [], []⟩ := by
  cases hbody : formatSseErrorEvent e.status e.code e.message id with
  | some body => exact .inl ⟨_, _, body, hbody, by rw [reject, hbody]⟩
  | none =>
    have hstatus : e.status = 500 := by
      refine (status_of_rejected h).2.resolve_right fun hsent => ?_
      have hsome : (formatSseErrorEvent e.status e.code e.message id).isSome = true :=
        isSome_formatSseErrorEvent hsent.1 hsent.2 id
      rw [hbody] at hsome
      cases hsome
    cases hagain : formatSseErrorEvent 500 .internalError (bytes "internal error: " ++ what) id with
    | some body =>
      exact .inl ⟨_, _, body, hstatus ▸ hagain, by rw [reject, hbody, hagain, hstatus]⟩
    | none => exact .inr (by rw [reject, hbody, hagain, hstatus])

/-- The server replaces what is no JSON. -/
theorem write_reject (what : Bytes) (id : RequestId)
    (h : sseSubmissionHandler v req = .streamError e) :
    HttpServer.write id (reject what id e) =
      ⟨e.status, kJsonContentType, (defaultEnvelope e.status id).text⟩ := by
  have hstatus := (status_of_rejected h).1
  have htype : contains kSseContentType (bytes "application/json") = false := by decide
  rcases reject_cases what id h with ⟨_, _, body, -, hres⟩ | hres
  · rw [hres, HttpServer.write, if_pos hstatus, HttpServer.errorHandler]
    simp only [htype, Bool.and_false, Bool.false_eq_true, if_false,
      dumpEnvelope_default]
  · rw [hres, HttpServer.write, if_pos hstatus, HttpServer.errorHandler]
    simp only [List.isEmpty_nil, Bool.not_true, Bool.false_and, Bool.false_eq_true, if_false,
      dumpEnvelope_default]

/-- The page shows the status, and the default code and message of it. -/
theorem openSse_write_reject (js : Js) (what : Bytes) (id : RequestId)
    (h : sseSubmissionHandler v req = .streamError e) :
    js.openSse (HttpServer.write id (reject what id e)) =
      [.onError e.status (errorCodeName (defaultErrorForStatus e.status))
        (defaultMessageForStatus e.status), .onClose] := by
  rw [write_reject what id h, openSse_default js (status_of_rejected h).1]

/-- Without the server, it would show the status only. -/
theorem openSse_reject (js : Js) (what : Bytes) (id : RequestId)
    (h : sseSubmissionHandler v req = .streamError e) :
    js.openSse (reject what id e) =
      [.onError e.status (bytes "INTERNAL_ERROR") (bytes "HTTP " ++ decimal e.status),
        .onClose] := by
  have hstatus := (status_of_rejected h).1
  rcases reject_cases what id h with ⟨_, _, body, hbody, hres⟩ | hres
  · rw [hres, openSse_event js hstatus _ hbody]
  · have hnotok : ¬(200 ≤ e.status ∧ e.status ≤ 299) := by omega
    rw [hres]
    simp only [Js.openSse, if_neg hnotok, List.isEmpty_nil, if_true, member_none]

/-- The message is neither that of the status nor the number of the status. -/
theorem message_of_rejected (h : sseSubmissionHandler v req = .streamError e) :
    e.message ≠ defaultMessageForStatus e.status ∧
      e.message ≠ bytes "HTTP " ++ decimal e.status := by
  -- the first letters are small, and capital
  have hhead : e.message.head? = some 0x73 ∨ e.message.head? = some 0x79 ∨
      e.message.head? = some 0x69 := by
    rcases rejected_cases h with rfl | rfl | rfl | ⟨what, rfl⟩
    · exact .inl rfl
    · exact .inl rfl
    · exact .inr (.inl rfl)
    · exact .inr (.inr rfl)
  have hdefault : ∀ b ∈ (defaultMessageForStatus e.status).head?, b ≤ 0x5A := by
    unfold defaultMessageForStatus
    split <;>
      · rintro b ⟨⟩
        decide
  constructor
  · intro heq
    rw [← heq] at hdefault
    rcases hhead with hb | hb | hb <;> exact absurd (hdefault _ hb) (by decide)
  · intro heq
    have hnumber : e.message.head? = some 0x48 := by
      rw [heq]
      rfl
    rw [hnumber] at hhead
    exact absurd hhead (by decide)

/-- The error that the handler has sent is not shown, neither for what the server sends nor for what
    the handler has written. -/
theorem message_lost (js : Js) (what : Bytes) (id : RequestId) (v : Views) (req : Request)
    (e : Envelope) (h : sseSubmissionHandler v req = .streamError e) :
    ¬Intact e (js.openSse (HttpServer.write id (reject what id e))) ∧
      ¬Intact e (js.openSse (reject what id e)) := by
  have hmessage := message_of_rejected h
  rw [openSse_write_reject js what id h, openSse_reject js what id h]
  constructor
  · intro hintact
    exact hmessage.1 (Call.onError.inj (List.cons.inj hintact).1).2.2.symm
  · intro hintact
    exact hmessage.2 (Call.onError.inj (List.cons.inj hintact).1).2.2.symm

/-- Before the first submission. -/
def noRows (db : SubmissionRepo.Sql) : Views :=
  ⟨⟨SubmissionRepo.Table.empty, 100, []⟩, [], db, .ok (), none⟩

/-- A user asks for the stream of a submission. -/
def streamOf (id : String) : Request :=
  ⟨⟨bytes "7", bytes "user"⟩, bytes "/api/v1/submissions/sse/" ++ bytes id, []⟩

/-- Only texts are shown. -/
def plainJs : Js := ⟨fun _ => bytes "[object Object]", fun d => d.mant == 0, fun _ => [.onClose]⟩

def requestId : RequestId := ⟨bytes "a-1", by decide⟩

theorem message_lost_database :
    ¬Intact (internal (bytes "submission_repo::find_by_id: gone"))
        (plainJs.openSse (HttpServer.write requestId
          (reject [] requestId (internal (bytes "submission_repo::find_by_id: gone"))))) ∧
      ¬Intact (internal (bytes "submission_repo::find_by_id: gone"))
        (plainJs.openSse
          (reject [] requestId (internal (bytes "submission_repo::find_by_id: gone")))) :=
  message_lost plainJs [] requestId (noRows (.error (bytes "gone"))) (streamOf "1") _
    (by decide +kernel)

/-- A submission that is not there: the page tells of a page that is not there. -/
theorem not_found_shown :
    sseSubmissionHandler (noRows (.ok ())) (streamOf "1") =
        .streamError ⟨404, .notFound, bytes "submission not found", []⟩ ∧
      plainJs.openSse (HttpServer.write requestId
        (reject [] requestId ⟨404, .notFound, bytes "submission not found", []⟩)) =
          [.onError 404 (bytes "NOT_FOUND") (bytes "Not Found"), .onClose] ∧
      ¬Intact ⟨404, .notFound, bytes "submission not found", []⟩
        [.onError 404 (bytes "NOT_FOUND") (bytes "Not Found"), .onClose] := by
  have hrejected : sseSubmissionHandler (noRows (.ok ())) (streamOf "1") =
      .streamError ⟨404, .notFound, bytes "submission not found", []⟩ := by
    decide +kernel
  exact ⟨hrejected, openSse_write_reject plainJs [] requestId hrejected, by unfold Intact; decide⟩

end LiteCode.StreamErrors
