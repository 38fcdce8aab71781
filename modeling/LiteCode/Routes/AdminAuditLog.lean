import LiteCode.Db.AuditLog
import LiteCode.Lib.Pages
import LiteCode.Lib.Stoi
import LiteCode.Lib.System

/-!
# Reading the audit log

`list_admin_audit_logs_handler` of `src/routes/admin_audit_log_routes.h`, after the checks of the
caller: the parameters of the request are read, and a page of the log is the answer. A client that
wants the whole log asks for one page after the other, while calls of `record` add rows.

* `listAdminAuditLogs_spec`: a request is refused with an error that names a parameter of it, or
  fails if a statement does or a date is none for the database; otherwise it is answered with the
  rows that the parameters ask for;
* `seen_of_short`: a client that has come to a page that is not full has seen every row that was in
  the log when it began.
-/

namespace LiteCode.AdminAuditLogRoutes

open AuditLogRepo ErrorHandler
open ProblemRepo (Fault)

/-! ## The parameters -/

/-- The parameters of a request. -/
abbrev Params := List (Bytes × Bytes)

/-- `get_param_value`, if `has_param`. -/
def Params.get (q : Params) (name : String) : Option Bytes :=
  (q.find? fun x => x.1 == bytes name).map Prod.snd

/-- The refusal of a parameter, with its value. -/
def refuse (name : String) (message value : Bytes) : Envelope :=
  invalidInput message [field (bytes name), .text (bytes "value") value]

/-- `parse_admin_id_param`. -/
def parseAdminIdParam (raw : Bytes) : Option Int :=
  if raw.isEmpty then none
  else if raw.length > 11 then none
  else if !raw.all Json.isDigit then none
  else
    let v := Json.digitsVal raw
    if v < 1 ∨ 2147483647 < v then none else some v

/-- The parameter `admin_id`. -/
def parseAdminId (q : Params) : Except Envelope (Option Int) :=
  match q.get "admin_id" with
  | none => .ok none
  | some raw =>
    match parseAdminIdParam raw with
    | none => .error (refuse "admin_id" (bytes "admin_id must be a positive integer")
        (truncateForEnvelope raw))
    | some v => .ok (some v)

/-- A parameter that is taken as it is if it passes a check. -/
def parseText (q : Params) (name : String) (validate : Bytes → Option Bytes) :
    Except Envelope (Option Bytes) :=
  match q.get name with
  | none => .ok none
  | some raw =>
    match validate raw with
    | some err => .error (refuse name (bytes "invalid " ++ bytes name ++ bytes ": " ++ err)
        (truncateForEnvelope raw))
    | none => .ok (some raw)

/-- `parse_datetime_param`, for a parameter that may be missing. -/
def parseDatetime (q : Params) (name : String) : Except Envelope (Option Bytes) :=
  match q.get name with
  | none => .ok none
  | some raw =>
    if raw.isEmpty then .error (invalidInput (bytes "datetime value is empty") [field (bytes name)])
    else
      match validateDatetime raw with
      | some err => .error (refuse name (bytes "invalid datetime: " ++ err)
          (truncateForEnvelope raw))
      | none => .ok (some raw)

/-- A parameter that is a number, at least `min`; `dflt` if it is missing. -/
def parseNumber (q : Params) (name : String) (min dflt : Int) (what : String) :
    Except Envelope Int :=
  match q.get name with
  | none => .ok dflt
  | some raw =>
    let refused := refuse name (bytes name ++ bytes " must be a " ++ bytes what) raw
    if raw.isEmpty then .error refused
    else
      match stoiRest raw with
      | some (v, []) => if v < min then .error refused else .ok v
      | _ => .error refused

/-- `parse_list_query`. -/
def parseListQuery (q : Params) : Except Envelope AuditListFilter := do
  let adminId ← parseAdminId q
  let action ← parseText q "action" validateAction
  let targetType ← parseText q "target_type" validateTargetType
  let targetId ← parseText q "target_id" validateTargetId
  let since ← parseDatetime q "since"
  let untilDate ← parseDatetime q "until"
  let limit ← parseNumber q "limit" 1 20 "positive integer"
  let offset ← parseNumber q "offset" 0 0 "non-negative integer"
  return clampListFilter ⟨adminId, action, targetType, targetId, since, untilDate, limit, offset⟩

/-- What `list_admin_audit_logs_handler` sends to an admin within the quota. The tables are those of
    the two statements of `list`. -/
def pageOrError (db : Database) (t₁ t₂ : AuditLogs) (q : Params)
    (countFault listFault : Option Fault) : Except Envelope AuditListResult := do
  let f ← parseListQuery q
  match AuditLogRepo.list db t₁ t₂ f countFault listFault with
  | .ok page => .ok page
  | .error what => .error (internalError (bytes "internal error: " ++ what))

/-- A response. -/
inductive Reply
  | error (e : Envelope)
  /-- `send_success`. -/
  | page (page : AuditListResult)
  /-- `dump` throws, and the route answers with an internal error. -/
  | exception
  deriving DecidableEq, Repr

/-- The texts of a row. A payload that is no JSON text is sent as `null`. -/
def rowTexts (r : AuditRow) : List Bytes :=
  r.action :: (r.targetType.toList ++ r.targetId.toList ++ r.ip.toList)

/-- The texts of a page are UTF-8. -/
def Printable (page : AuditListResult) : Prop :=
  ∀ s ∈ page.items.flatMap rowTexts, Utf8.WellFormed s

instance (page : AuditListResult) : Decidable (Printable page) :=
  inferInstanceAs (Decidable (∀ _ ∈ _, _))

/-- `list_admin_audit_logs_handler`, after the checks of the caller. -/
def listAdminAuditLogs (db : Database) (t₁ t₂ : AuditLogs) (q : Params)
    (countFault listFault : Option Fault) : Reply :=
  match pageOrError db t₁ t₂ q countFault listFault with
  | .error e => if e.WellFormed then .error e else .exception
  | .ok page => if Printable page then .page page else .exception

/-! ## What a request gets -/

/-- The names of the parameters. -/
def paramNames : List String :=
  ["admin_id", "action", "target_type", "target_id", "since", "until", "limit", "offset"]

/-- A refusal names a parameter that was sent. -/
def Names (q : Params) (e : Envelope) : Prop :=
  e.status = 400 ∧
    ∃ name ∈ paramNames, q.get name ≠ none ∧ e.details.head? = some (field (bytes name))

/-- The filter that the parameters spell out. -/
structure Requested (q : Params) (f : AuditListFilter) : Prop where
  adminId : f.adminId = (q.get "admin_id").bind parseAdminIdParam
  action : f.action = q.get "action"
  targetType : f.targetType = q.get "target_type"
  targetId : f.targetId = q.get "target_id"
  since : f.since = q.get "since"
  untilDate : f.untilDate = q.get "until"
  limit : f.limit = min 100 (((q.get "limit").bind stoi).getD 20)
  offset : f.offset = ((q.get "offset").bind stoi).getD 0

/-- A date that was sent is none for the database. -/
def Undated (db : Database) (q : Params) : Prop :=
  ∃ name ∈ ["since", "until"], ∃ s ∈ q.get name, db.datetime s = none

/-- An internal error, because a statement fails or a date is none for the database. -/
def Fails (db : Database) (q : Params) (countFault listFault : Option Fault) (e : Envelope) :
    Prop :=
  e.status = 500 ∧ e.code = .internalError ∧
    (countFault ≠ none ∨ listFault ≠ none ∨ Undated db q)

/-- The page has the rows that the parameters ask for: the newest first, from the offset on, with
    their number when they were counted. No statement has failed. -/
structure Asked (db : Database) (t₁ t₂ : AuditLogs) (q : Params)
    (countFault listFault : Option Fault) (page : AuditListResult) : Prop where
  counted : countFault = none
  read : listFault = none
  dated : ¬Undated db q
  rows : ∃ f, Requested q f ∧ 1 ≤ f.limit ∧ 0 ≤ f.offset ∧
    page.limit = f.limit ∧ page.offset = f.offset ∧ page.total = (t₁.matching db f).length ∧
    page.items = (((t₂.matching db f).drop f.offset.toNat).take f.limit.toNat).map rowToAudit

variable {q : Params} {db : Database} {f : AuditListFilter}
  {countFault listFault : Option Fault}

/-- A refusal of a parameter names it. -/
theorem names_refuse {name : String} (message value : Bytes) (hmem : name ∈ paramNames)
    {raw : Bytes} (h : q.get name = some raw) : Names q (refuse name message value) :=
  ⟨rfl, name, hmem, by simp [h], rfl⟩

/-- The number of the admin is read, or the refusal names it. -/
theorem parseAdminId_spec : FailsWith (Names q) (parseAdminId q) ∧
    ∀ a, parseAdminId q = .ok a → a = (q.get "admin_id").bind parseAdminIdParam := by
  rw [parseAdminId]
  cases h : q.get "admin_id" with
  | none => simp
  | some raw =>
    simp only [Option.bind_some]
    cases hraw : parseAdminIdParam raw with
    | none => simpa using names_refuse _ _ (by decide) h
    | some v => simp

/-- A text is taken as it is, or the refusal names it. -/
theorem parseText_spec {name : String} (hmem : name ∈ paramNames)
    (validate : Bytes → Option Bytes) :
    FailsWith (Names q) (parseText q name validate) ∧
      ∀ s, parseText q name validate = .ok s → s = q.get name := by
  rw [parseText]
  cases h : q.get name with
  | none => simp
  | some raw =>
    dsimp only
    cases hraw : validate raw with
    | none => simp
    | some err => simpa using names_refuse _ _ hmem h

/-- So is a date that has the form of one. -/
theorem parseDatetime_spec {name : String} (hmem : name ∈ paramNames) :
    FailsWith (Names q) (parseDatetime q name) ∧
      ∀ s, parseDatetime q name = .ok s →
        s = q.get name ∧ ∀ x ∈ s, validateDatetime x = none := by
  rw [parseDatetime]
  cases h : q.get name with
  | none => simp
  | some raw =>
    dsimp only
    by_cases hempty : raw.isEmpty = true
    · have names_empty : Names q (invalidInput (bytes "datetime value is empty")
          [field (bytes name)]) := ⟨rfl, name, hmem, by simp [h], rfl⟩
      simp only [hempty, if_true, failsWith_error, reduceCtorEq, false_implies, implies_true,
        and_true]
      exact names_empty
    · cases hraw : validateDatetime raw with
      | none => simp [hempty, hraw]
      | some err => simpa [hempty] using names_refuse _ _ hmem h

/-- A number is read as `stoi` does, or the refusal names it. -/
theorem parseNumber_spec {name : String} (hmem : name ∈ paramNames) (min dflt : Int)
    (what : String) : FailsWith (Names q) (parseNumber q name min dflt what) ∧
      ∀ n, parseNumber q name min dflt what = .ok n →
        n = ((q.get name).bind stoi).getD dflt ∧ (dflt < min ∨ min ≤ n) := by
  rw [parseNumber]
  cases h : q.get name with
  | none =>
    simp
    omega
  | some raw =>
    have hrefuse := names_refuse (bytes name ++ bytes " must be a " ++ bytes what) raw hmem h
    simp only [Option.bind_some, stoi]
    split_ifs
    · simpa using hrefuse
    · split
      case h_1 v hv =>
        split_ifs with hlt
        · simpa using hrefuse
        · simp [hv]
          omega
      case h_2 => simpa using hrefuse

/-- Every refusal names its parameter. -/
theorem parseListQuery_failsWith (q : Params) : FailsWith (Names q) (parseListQuery q) := by
  refine parseAdminId_spec.1.bind fun _ _ => ?_
  refine (parseText_spec (by decide) _).1.bind fun _ _ => ?_
  refine (parseText_spec (by decide) _).1.bind fun _ _ => ?_
  refine (parseText_spec (by decide) _).1.bind fun _ _ => ?_
  refine (parseDatetime_spec (by decide)).1.bind fun _ _ => ?_
  refine (parseDatetime_spec (by decide)).1.bind fun _ _ => ?_
  refine (parseNumber_spec (by decide) _ _ _).1.bind fun _ _ => ?_
  exact (parseNumber_spec (by decide) _ _ _).1.bind fun _ _ => failsWith_pure _

/-- The parameters that pass are those of the filter, and its dates pass the check of `list`. -/
theorem requested_of_parseListQuery (h : parseListQuery q = .ok f) :
    f.Dated ∧ Requested q f ∧ clampListFilter f = f := by
  simp only [parseListQuery, bind_eq_ok] at h
  obtain ⟨adminId, hadmin, action, haction, targetType, htype, targetId, hid, since, hsince,
    untilDate, huntil, limit, hlimit, offset, hoffset, hf⟩ := h
  cases hf
  obtain ⟨hsince, hsinceDate⟩ := (parseDatetime_spec (by decide)).2 _ hsince
  obtain ⟨huntil, huntilDate⟩ := (parseDatetime_spec (by decide)).2 _ huntil
  obtain ⟨hlimit, hlow⟩ := (parseNumber_spec (by decide) _ _ _).2 _ hlimit
  obtain ⟨hoffset, hnonneg⟩ := (parseNumber_spec (by decide) _ _ _).2 _ hoffset
  refine ⟨⟨hsinceDate, huntilDate⟩, ?_, ?_⟩
  · constructor
    case adminId => exact parseAdminId_spec.2 _ hadmin
    case action => exact (parseText_spec (by decide) _).2 _ haction
    case targetType => exact (parseText_spec (by decide) _).2 _ htype
    case targetId => exact (parseText_spec (by decide) _).2 _ hid
    case since => exact hsince
    case untilDate => exact huntil
    case limit =>
      rw [← hlimit]
      simp only [clampListFilter]
      split_ifs <;> omega
    case offset =>
      rw [← hoffset]
      simp only [clampListFilter]
      split_ifs <;> omega
  · simp only [clampListFilter]
    congr 1 <;> split_ifs <;> omega

/-- The dates of the filter are those of the parameters. -/
theorem Requested.undated?_eq_none_iff (h : Requested q f) :
    f.undated? db = none ↔ ¬Undated db q := by
  simp [Undated, AuditListFilter.undated?, Database.undated?, h.since, h.untilDate,
    Option.bind_eq_none_iff]

/-- The handler means to send an error that names a parameter, an internal error, or the page. -/
theorem pageOrError_spec (db : Database) (t₁ t₂ : AuditLogs) (q : Params)
    (countFault listFault : Option Fault) :
    match pageOrError db t₁ t₂ q countFault listFault with
    | .error e => Names q e ∨ Fails db q countFault listFault e
    | .ok page => Asked db t₁ t₂ q countFault listFault page := by
  cases hq : parseListQuery q with
  | error e =>
    have herror : pageOrError db t₁ t₂ q countFault listFault = .error e := by
      rw [pageOrError, hq]
      rfl
    rw [herror]
    exact .inl (parseListQuery_failsWith q e hq)
  | ok f =>
    obtain ⟨hdated, hrequested, hclamp⟩ := requested_of_parseListQuery hq
    have hspec := @list_spec db f countFault listFault t₁ t₂ hdated
    simp only [ne_eq, hrequested.undated?_eq_none_iff, not_not] at hspec
    simp only [pageOrError, hq, bind, Except.bind]
    cases hlist : AuditLogRepo.list db t₁ t₂ f countFault listFault with
    | error what =>
      simp only [hlist] at hspec
      exact .inr ⟨rfl, rfl, hspec⟩
    | ok page =>
      simp only [hlist] at hspec
      obtain ⟨hcount, hread, hdate, rfl⟩ := hspec
      obtain ⟨hlimit, -, hoffset⟩ := clampListFilter_bounds f
      rw [hclamp] at hlimit hoffset
      refine ⟨hcount, hread, hdate, f, hrequested, hlimit, hoffset, ?_⟩
      rw [AuditListFilter.page, hclamp]
      exact ⟨rfl, rfl, rfl, rfl⟩

/-- A request is refused for a parameter that was sent, fails because a statement fails or a date is
    none for the database, or gets the rows that the parameters ask for. The handler throws only if
    a text to be sent is not UTF-8. -/
theorem listAdminAuditLogs_spec (db : Database) (t₁ t₂ : AuditLogs) (q : Params)
    (countFault listFault : Option Fault) :
    match listAdminAuditLogs db t₁ t₂ q countFault listFault with
    | .error e => Names q e ∨ Fails db q countFault listFault e
    | .page page => Asked db t₁ t₂ q countFault listFault page
    | .exception =>
      (∃ e, ¬e.WellFormed ∧ (Names q e ∨ Fails db q countFault listFault e)) ∨
        ∃ page, ¬Printable page ∧ Asked db t₁ t₂ q countFault listFault page := by
  have hspec := pageOrError_spec db t₁ t₂ q countFault listFault
  rw [listAdminAuditLogs]
  cases h : pageOrError db t₁ t₂ q countFault listFault with
  | error e =>
    rw [h] at hspec
    by_cases he : e.WellFormed
    · simpa only [if_pos he] using hspec
    · simpa only [if_neg he] using .inl ⟨e, he, hspec⟩
  | ok page =>
    rw [h] at hspec
    by_cases hp : Printable page
    · simpa only [if_pos hp] using hspec
    · simpa only [if_neg hp] using .inr ⟨page, hp, hspec⟩

/-! ## One page after the other -/

/-- The log, and the pages that a client has read. -/
structure State where
  log : AuditLogs
  pages : List (List AuditRow)

/-- The atomic steps. -/
inductive Action
  /-- Time passes. -/
  | tick (d : Nat)
  /-- A call of `record_best_effort`, with what the database says. -/
  | record (e : AuditEntry) (stored : Except Bytes (Option Bytes))
  /-- The client asks for the next page; before it is read, the rows were counted in `counted`. -/
  | next (counted : AuditLogs)

/-- The request for the page `k` of a filter. -/
def nthPage (f : AuditListFilter) (k : Nat) : AuditListFilter :=
  { f with offset := k * (clampListFilter f).limit }

/-- One step of a client whose parameters are those of the filter. It goes on as long as the offset
    is an `int`. A request that fails gives no page, and the client asks for that page again. -/
def step (db : Database) (f : AuditListFilter) (s : State) : Action → Option State
  | .tick d => some { s with log := s.log.tick d }
  | .record e stored => some { s with log := (recordBestEffort s.log e stored).2 }
  | .next counted =>
    if 2 ^ 31 ≤ (nthPage f s.pages.length).offset then none
    else
      match AuditLogRepo.list db counted s.log (nthPage f s.pages.length) none none with
      | .ok page => some { s with pages := s.pages ++ [page.items] }
      | .error _ => none

/-- The log and the client, before the first page. -/
def system (db : Database) (f : AuditListFilter) (log : AuditLogs) : System State Action where
  init s := s = ⟨log, []⟩
  step := step db f

/-- The size of a page. -/
def pageSize (f : AuditListFilter) : Nat := (clampListFilter f).limit.toNat

/-- The rows as the client gets them. -/
def answered (db : Database) (f : AuditListFilter) (t : AuditLogs) : List AuditRow :=
  (t.matching db f).map rowToAudit

/-- A new row is put in front of those that were to be answered. -/
theorem answered_insert (t : AuditLogs) (e : AuditEntry) (stored : Option Bytes) :
    answered db f t <:+ answered db f (t.insert e stored) := by
  have hrows : (t.insert e stored).rows.reverse = t.newRow e stored :: t.rows.reverse :=
    List.reverse_append
  rw [answered, answered, AuditLogs.matching, AuditLogs.matching, hrows, List.filter_cons]
  split_ifs
  · exact List.suffix_cons _ _
  · exact List.suffix_rfl

/-- A row of the log is only pushed back. -/
theorem answered_record (t : AuditLogs) (e : AuditEntry) (stored : Except Bytes (Option Bytes)) :
    answered db f t <:+ answered db f (recordBestEffort t e stored).2 := by
  unfold recordBestEffort record
  cases checkEntry e with
  | some err => exact List.suffix_rfl
  | none =>
    cases e.payload with
    | error what => exact List.suffix_rfl
    | ok text =>
      cases stored with
      | error what => exact List.suffix_rfl
      | ok stored => exact answered_insert t e stored

/-- Every page is one of the same rows. -/
theorem matching_nthPage (t : AuditLogs) (k : Nat) :
    t.matching db (nthPage f k) = t.matching db f :=
  List.filter_congr fun _ _ => decide_eq_decide.2
    ⟨fun ⟨ha, hb, hc, hd, he, hf⟩ => ⟨ha, hb, hc, hd, he, hf⟩,
      fun ⟨ha, hb, hc, hd, he, hf⟩ => ⟨ha, hb, hc, hd, he, hf⟩⟩

theorem toNat_offset_nthPage (k : Nat) :
    (clampListFilter (nthPage f k)).offset.toNat = k * pageSize f := by
  have hpos := (clampListFilter_bounds f).1
  have hnonneg : 0 ≤ (k : Int) * (clampListFilter f).limit :=
    Int.mul_nonneg (Int.natCast_nonneg k) (by omega)
  have hclamp : (clampListFilter (nthPage f k)).offset = k * (clampListFilter f).limit :=
    if_neg (by simp only [nthPage]; omega)
  rw [hclamp, Int.toNat_mul (Int.natCast_nonneg k) (by omega)]
  rfl

/-- The page that the client gets next. -/
theorem items_nthPage (hf : f.Dated) (t₁ t₂ : AuditLogs) (k : Nat) {page : AuditListResult}
    (h : AuditLogRepo.list db t₁ t₂ (nthPage f k) none none = .ok page) :
    page.items = Pages.page (pageSize f) k (answered db f t₂) := by
  have hspec := @list_spec db (nthPage f k) none none t₁ t₂ hf
  rw [h] at hspec
  obtain ⟨-, -, -, rfl⟩ := hspec
  rw [AuditListFilter.page, toNat_offset_nthPage, matching_nthPage, Pages.page, answered,
    List.map_take, List.map_drop]
  rfl

/-- A row is on a page that was read, or behind them. -/
def Tracked (db : Database) (f : AuditListFilter) (r : AuditRow) (s : State) : Prop :=
  r ∈ s.pages.flatten ∨ Pages.Ahead (pageSize f) s.pages (answered db f s.log) r

/-- Every step keeps track of the row. -/
theorem Tracked.step {r : AuditRow} {s s' : State} {a : Action} (hf : f.Dated)
    (h : Tracked db f r s) (hs : step db f s a = some s') : Tracked db f r s' := by
  cases a with
  | tick d =>
    cases hs
    exact h
  | record e stored =>
    cases hs
    exact h.imp id fun h => h.grow (answered_record _ _ _)
  | next counted =>
    simp only [AdminAuditLogRoutes.step] at hs
    split_ifs at hs
    split at hs
    case h_2 => cases hs
    case h_1 page hpage =>
      cases hs
      have hitems := items_nthPage hf _ _ _ hpage
      rw [Tracked, List.flatten_concat, List.mem_append, hitems]
      rcases h with h | h
      · exact .inl (.inl h)
      · exact h.read.imp .inr id

/-- A client that has come to a page that is not full has seen every row that passes the filter and
    was in the log when it began, whatever was recorded meanwhile. -/
theorem seen_of_short {log : AuditLogs} {s : State} {page : List AuditRow} {r : AuditRow}
    (hf : f.Dated) (h : (system db f log).Reach System.Always s) (hpage : page ∈ s.pages)
    (hshort : page.length < pageSize f) (hr : r ∈ log.rows) (hmatch : Matches db f r) :
    rowToAudit r ∈ s.pages.flatten := by
  have htracked : Tracked db f (rowToAudit r) s := by
    refine h.invariant (fun s hs => ?_) fun _ _ _ h _ hs => h.step hf hs
    rw [show s = ⟨log, []⟩ from hs]
    refine .inr (Pages.ahead_nil (List.mem_map_of_mem ?_))
    exact List.mem_filter.2 ⟨List.mem_reverse.2 hr, decide_eq_true hmatch⟩
  rcases htracked with h | h
  · exact h
  · exact absurd h (Pages.not_ahead hpage hshort)

/-- A database whose texts are compared byte by byte. -/
def plainDatabase : Database := ⟨fun s => s, fun _ => none, fun _ => [], []⟩

/-- An entry without details. -/
def plainEntry (action : String) : AuditEntry := ⟨none, bytes action, none, none, .ok [], none⟩

/-- A log of two rows. -/
def twoRows : AuditLogs :=
  let empty : AuditLogs := ⟨[], 1, 0, .nil, by simp, .nil, by simp⟩
  ((empty.insert (plainEntry "problem.create") none).tick 5).insert
    (plainEntry "problem.update") none

/-- A client reads one row at a time. A row that is recorded after the first page pushes the others
    back, so that one of them comes again. -/
theorem seen_twoRows : ∃ s : State, s.pages.map (List.map AuditRow.id) = [[2], [2], [1], []] ∧
    ∀ r ∈ twoRows.rows, rowToAudit r ∈ s.pages.flatten := by
  obtain ⟨s, hl, hs⟩ := System.exists_exec_of_run
    (S := system plainDatabase { limit := 1 } twoRows) (s := ⟨twoRows, []⟩)
    (l := [.next twoRows, .record (plainEntry "problem.delete") (.ok none), .next twoRows,
      .next twoRows, .next twoRows])
    (p := fun s => s.pages.map (List.map AuditRow.id) = [[2], [2], [1], []] ∧ [] ∈ s.pages)
    (by decide +kernel)
  obtain ⟨hpages, hempty⟩ := of_decide_eq_true hs
  refine ⟨s, hpages, fun r hr => ?_⟩
  exact seen_of_short ⟨by simp, by simp⟩ ⟨_, _, rfl, hl⟩ hempty (by decide) hr
    ⟨by simp, by simp, by simp, by simp, by simp, by simp⟩

end LiteCode.AdminAuditLogRoutes
