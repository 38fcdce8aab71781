import LiteCode.Lib.Json

/-!
# Errors of the API

`src/routes/error_handler.h`: the catalog of error codes, the envelope that `send_error` writes,
and `parse_json_body`, which answers a body that is no JSON text with an envelope.
-/

namespace LiteCode.ErrorHandler

/-- `ErrorCode`. -/
inductive ErrorCode
  | invalidInput
  | unauthorized
  | forbidden
  | notFound
  | rateLimited
  | conflict
  | internalError
  | serviceUnavailable
  deriving DecidableEq, Repr

/-- A member of `details`. -/
inductive Detail
  | text (key value : Bytes)
  | number (key : Bytes) (n : Int)
  deriving DecidableEq, Repr

/-- The response of `send_error`. -/
structure Envelope where
  status : Nat
  code : ErrorCode
  message : Bytes
  details : List Detail
  deriving DecidableEq, Repr

/-- The texts of a member of `details`. -/
def Detail.texts : Detail → List Bytes
  | .text key value => [key, value]
  | .number key _ => [key]

/-- The texts of an envelope are UTF-8: otherwise `dump` throws, and it is not sent. -/
def Envelope.WellFormed (e : Envelope) : Prop :=
  ∀ s ∈ e.message :: e.details.flatMap Detail.texts, Utf8.WellFormed s

instance (e : Envelope) : Decidable e.WellFormed := inferInstanceAs (Decidable (∀ _ ∈ _, _))

/-- A `400`. -/
def invalidInput (message : Bytes) (details : List Detail) : Envelope :=
  ⟨400, .invalidInput, message, details⟩

/-- A `500`. -/
def internalError (message : Bytes) : Envelope := ⟨500, .internalError, message, []⟩

/-- The member of `details` that names a field. -/
def field (name : Bytes) : Detail := .text (bytes "field") name

/-- `truncate_for_envelope`. -/
def truncateForEnvelope (v : Bytes) : Bytes :=
  if v.length ≤ 64 then v else v.take 64 ++ bytes "..."

/-- `parse_json_body`; `what` is the text of the exception of the JSON reader. -/
def parseJsonBody (body what : Bytes) : Except Envelope Json :=
  if body.isEmpty then .error (invalidInput (bytes "Request body is empty") [])
  else match Json.parse body with
    | some j => .ok j
    | none => .error (invalidInput (bytes "Invalid JSON body: " ++ what) [])

/-- Checks one after the other: both pass. -/
theorem bind_eq_ok {ε α β : Type} {x : Except ε α} {f : α → Except ε β} {b : β} :
    x >>= f = .ok b ↔ ∃ a, x = .ok a ∧ f a = .ok b := by
  cases x with
  | error e => simp [bind, Except.bind]
  | ok a => simp [bind, Except.bind]

/-! ## Errors of a property -/

section FailsWith

variable {ε α β : Type} {P : ε → Prop}

/-- If a computation fails, its error satisfies `P`. -/
def FailsWith (P : ε → Prop) (x : Except ε α) : Prop := ∀ e, x = .error e → P e

@[simp]
theorem failsWith_ok (a : α) : FailsWith P (.ok a) := nofun

@[simp]
theorem failsWith_pure (a : α) : FailsWith P (pure a) := nofun

@[simp]
theorem failsWith_error {e : ε} : FailsWith P (.error e : Except ε α) ↔ P e :=
  ⟨fun h => h e rfl, fun h _ he => Except.error.inj he ▸ h⟩

theorem FailsWith.bind {x : Except ε α} {f : α → Except ε β} (hx : FailsWith P x)
    (hf : ∀ a, x = .ok a → FailsWith P (f a)) : FailsWith P (x >>= f) := by
  cases x with
  | error e => exact failsWith_error.2 (failsWith_error.1 hx)
  | ok a => exact hf a rfl

theorem FailsWith.mapM {f : α → Except ε β} (hf : ∀ a, FailsWith P (f a)) (l : List α) :
    FailsWith P (l.mapM f) := by
  induction l with
  | nil => exact failsWith_pure []
  | cons a l ih =>
    rw [List.mapM_cons]
    exact (hf a).bind fun b _ => ih.bind fun bs _ => failsWith_pure (b :: bs)

end FailsWith

end LiteCode.ErrorHandler
