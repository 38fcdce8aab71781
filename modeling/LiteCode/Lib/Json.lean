import LiteCode.Lib.Utf8

/-!
# JSON

JSON values and a strict reader of JSON texts (RFC 8259). `Json.parse` stands for the reader of
the C++ library, `nlohmann::json::parse`: strings must be well-formed UTF-8 without raw control
characters, a repeated key stands for its last value, a number without fraction and exponent that
fits in 64 bits is an integer and every other one a double, where a double that overflows is an
error. As in that reader, a zero byte is read as the end of the text.

* `Json.scanString`: the rest of a string literal, byte by byte, along the UTF-8 machine;
* `Json.scanNumber`: a number;
* `Json.value`, `elements`, `members`: the recursive reader. Its first argument bounds the depth
  and the length of what is read; `Json.parse` gives it more than the text can use up;
* `Json.get?`: the value of a key.
-/

namespace LiteCode

/-- The decimal number `± mant · 10 ^ exp`, as it was written. -/
structure Decimal where
  neg : Bool
  mant : Nat
  exp : Int
  deriving DecidableEq, Repr

/-- A JSON number, as the reader classifies it. -/
inductive JsonNum
  | unsigned (n : Nat)
  | integer (n : Int)
  | float (d : Decimal)
  deriving DecidableEq, Repr

/-- A JSON value. An object keeps its members in the order of the text. -/
inductive Json
  | null
  | bool (b : Bool)
  | num (n : JsonNum)
  | str (s : Bytes)
  | arr (l : List Json)
  | obj (l : List (Bytes × Json))

namespace Json

/-- The last member of an object with a key. -/
def get? (j : Json) (key : Bytes) : Option Json :=
  match j with
  | .obj l => (l.reverse.find? fun m => m.1 == key).map Prod.snd
  | _ => none

/-! ## Tokens -/

def isSpace (b : UInt8) : Bool := b == 0x20 || b == 0x09 || b == 0x0A || b == 0x0D

def skipSpace (i : Bytes) : Bytes := i.dropWhile isSpace

def isDigit (b : UInt8) : Bool := 0x30 ≤ b && b ≤ 0x39

/-- The value of a hexadecimal digit. -/
def hexDigit (b : UInt8) : Option Nat :=
  if 0x30 ≤ b ∧ b ≤ 0x39 then some (b.toNat - 0x30)
  else if 0x41 ≤ b ∧ b ≤ 0x46 then some (b.toNat - 0x41 + 10)
  else if 0x61 ≤ b ∧ b ≤ 0x66 then some (b.toNat - 0x61 + 10)
  else none

def hex4 (a b c d : UInt8) : Option Nat := do
  return (← hexDigit a) * 4096 + (← hexDigit b) * 256 + (← hexDigit c) * 16 + (← hexDigit d)

/-- The byte that a one-letter escape stands for. -/
def escapedByte (c : UInt8) : Option UInt8 :=
  if c = 0x22 then some 0x22
  else if c = 0x5C then some 0x5C
  else if c = 0x2F then some 0x2F
  else if c = 0x62 then some 0x08
  else if c = 0x66 then some 0x0C
  else if c = 0x6E then some 0x0A
  else if c = 0x72 then some 0x0D
  else if c = 0x74 then some 0x09
  else none

/-- The rest of a string literal after its opening quote, the UTF-8 machine being in the state
    `q`: the decoded bytes, and the input after the closing quote. -/
def scanString (q : Utf8.State) : Bytes → Option (Bytes × Bytes)
  | [] => none
  | b :: i =>
    if q = Utf8.start ∧ b = 0x22 then some ([], i)
    else if q = Utf8.start ∧ b = 0x5C then
      match i with
      | [] => none
      | c :: i =>
        if c = 0x75 then
          match i with
          | h₁ :: h₂ :: h₃ :: h₄ :: i =>
            match hex4 h₁ h₂ h₃ h₄ with
            | none => none
            | some hi =>
              if 0xD800 ≤ hi ∧ hi < 0xDC00 then
                -- a high surrogate: the low one must follow
                match i with
                | 0x5C :: 0x75 :: l₁ :: l₂ :: l₃ :: l₄ :: i =>
                  match hex4 l₁ l₂ l₃ l₄ with
                  | none => none
                  | some lo =>
                    if 0xDC00 ≤ lo ∧ lo < 0xE000 then
                      (scanString Utf8.start i).map fun p =>
                        (Utf8.encode (0x10000 + (hi - 0xD800) * 1024 + (lo - 0xDC00)) ++ p.1, p.2)
                    else none
                | _ => none
              else if 0xDC00 ≤ hi ∧ hi < 0xE000 then none
              else (scanString Utf8.start i).map fun p => (Utf8.encode hi ++ p.1, p.2)
          | _ => none
        else match escapedByte c with
          | none => none
          | some b => (scanString Utf8.start i).map fun p => (b :: p.1, p.2)
    else if b < 0x20 then none
    else match Utf8.step q b with
      | none => none
      | some q' => (scanString q' i).map fun p => (b :: p.1, p.2)

/-- The value of a string of digits. -/
def digitsVal (l : Bytes) : Nat := l.foldl (fun n b => n * 10 + (b.toNat - 0x30)) 0

/-- The magnitude of a decimal is that of no finite double: it is at least half a unit in the
    last place above the largest one. -/
def Decimal.overflows (mant : Nat) (exp : Int) : Bool :=
  match exp with
  | .ofNat e => 2 ^ 1024 - 2 ^ 970 ≤ mant * 10 ^ e
  | .negSucc e => (2 ^ 1024 - 2 ^ 970) * 10 ^ (e + 1) ≤ mant

/-- The number with the given sign, integer digits, fraction digits and exponent. -/
def mkNumber (neg : Bool) (int : Bytes) (frac : Option Bytes) (exp : Option Int) :
    Option JsonNum :=
  let float (mant : Nat) (e : Int) : Option JsonNum :=
    if Decimal.overflows mant e then none else some (.float ⟨neg, mant, e⟩)
  match frac, exp with
  | none, none =>
    let n := digitsVal int
    if neg then if n ≤ 2 ^ 63 then some (.integer (-n)) else float n 0
    else if n < 2 ^ 64 then some (.unsigned n) else float n 0
  | _, _ =>
    let f := frac.getD []
    float (digitsVal (int ++ f)) (exp.getD 0 - f.length)

/-- The exponent part, if there is one. -/
def scanExp (i : Bytes) : Option (Option Int × Bytes) :=
  match i with
  | [] => some (none, [])
  | e :: r =>
    if e = 0x65 ∨ e = 0x45 then
      let (neg, r) := match r with
        | 0x2D :: r => (true, r)
        | 0x2B :: r => (false, r)
        | r => (false, r)
      let ds := r.takeWhile isDigit
      if ds.isEmpty then none
      else some (some (if neg then -(digitsVal ds : Int) else digitsVal ds), r.dropWhile isDigit)
    else some (none, i)

/-- The fraction part, if there is one. -/
def scanFrac (i : Bytes) : Option (Option Bytes × Bytes) :=
  match i with
  | [] => some (none, [])
  | d :: r =>
    if d = 0x2E then
      let ds := r.takeWhile isDigit
      if ds.isEmpty then none else some (some ds, r.dropWhile isDigit)
    else some (none, i)

/-- The integer part: a zero, or digits that do not start with one. -/
def scanInt (i : Bytes) : Option (Bytes × Bytes) :=
  match i with
  | [] => none
  | b :: r =>
    if b = 0x30 then some ([b], r)
    else if isDigit b then some (b :: r.takeWhile isDigit, r.dropWhile isDigit)
    else none

/-- A number. -/
def scanNumber (i : Bytes) : Option (JsonNum × Bytes) :=
  let (neg, i) := match i with
    | 0x2D :: r => (true, r)
    | i => (false, i)
  (scanInt i).bind fun (int, i) =>
    (scanFrac i).bind fun (frac, i) =>
      (scanExp i).bind fun (exp, i) =>
        (mkNumber neg int frac exp).map fun n => (n, i)

/-- The rest of a literal. -/
def scanLiteral (l : Bytes) (v : Json) (i : Bytes) : Option (Json × Bytes) :=
  if l.isPrefixOf i then some (v, i.drop l.length) else none

/-! ## Values -/

mutual

/-- A value, after white space. -/
def value : Nat → Bytes → Option (Json × Bytes)
  | 0, _ => none
  | n + 1, i =>
    match skipSpace i with
    | [] => none
    | b :: i =>
      if b = 0x7B then
        match skipSpace i with
        | 0x7D :: i => some (.obj [], i)
        | i => (members n i).map fun p => (.obj p.1, p.2)
      else if b = 0x5B then
        match skipSpace i with
        | 0x5D :: i => some (.arr [], i)
        | i => (elements n i).map fun p => (.arr p.1, p.2)
      else if b = 0x22 then (scanString Utf8.start i).map fun p => (.str p.1, p.2)
      else if b = 0x74 then scanLiteral (bytes "rue") (.bool true) i
      else if b = 0x66 then scanLiteral (bytes "alse") (.bool false) i
      else if b = 0x6E then scanLiteral (bytes "ull") .null i
      else if b = 0x2D ∨ isDigit b then (scanNumber (b :: i)).map fun p => (.num p.1, p.2)
      else none

/-- The elements of an array that has some, and its closing bracket. -/
def elements : Nat → Bytes → Option (List Json × Bytes)
  | 0, _ => none
  | n + 1, i =>
    (value n i).bind fun (v, i) =>
      match skipSpace i with
      | 0x2C :: i => (elements n i).map fun p => (v :: p.1, p.2)
      | 0x5D :: i => some ([v], i)
      | _ => none

/-- The members of an object that has some, and its closing brace. -/
def members : Nat → Bytes → Option (List (Bytes × Json) × Bytes)
  | 0, _ => none
  | n + 1, i =>
    match skipSpace i with
    | 0x22 :: i =>
      (scanString Utf8.start i).bind fun (k, i) =>
        match skipSpace i with
        | 0x3A :: i =>
          (value n i).bind fun (v, i) =>
            match skipSpace i with
            | 0x2C :: i => (members n i).map fun p => ((k, v) :: p.1, p.2)
            | 0x7D :: i => some ([(k, v)], i)
            | _ => none
        | _ => none
    | _ => none

end

/-- Nothing but white space is left, or a zero byte. -/
def atEnd (i : Bytes) : Bool :=
  match skipSpace i with
  | [] => true
  | b :: _ => b == 0

/-- The byte order mark is skipped. -/
def skipBom : Bytes → Bytes
  | 0xEF :: 0xBB :: 0xBF :: i => i
  | i => i

/-- The value of a JSON text, `none` when it is not one. -/
def parse (i : Bytes) : Option Json :=
  match value (i.length + 1) (skipBom i) with
  | some (v, i) => if atEnd i then some v else none
  | none => none

end Json

end LiteCode
