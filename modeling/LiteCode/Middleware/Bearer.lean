import LiteCode.Lib.Json
import LiteCode.Lib.Stoi

/-!
# Bearer tokens

The `Authorization` header is read twice: by the authentication, which rejects a request without a
token, and by the rate limits, which take the subject of the token as the key of a bucket, without
a check of its signature. The second reader is meant to behave like the first.

It does not look for the end of the scheme, so that the token may follow at once, or after other
white space than a blank; and it ends a token at a line break, for which the first one rejects it.

* `extractBearerToken`: the token of the authentication;
* `tryExtractJwtSubject`: the subject for the rate limits;
* `agree_iff`: the readers agree iff the scheme is not `Bearer`, or is followed by white space only,
  or by a blank and a token without line breaks.
-/

namespace LiteCode.Bearer

/-- `tolower` on a byte. -/
def toLower (b : UInt8) : UInt8 := if 0x41 ≤ b && b ≤ 0x5A then b + 0x20 else b

/-- `iequals_ascii`. -/
def iequalsAscii (a b : Bytes) : Bool :=
  a.length == b.length && (a.zip b).all fun p => toLower p.1 == toLower p.2

/-- `kBearerScheme`. -/
def bearerScheme : Bytes := bytes "Bearer"

/-- A space or a tab. -/
def isBlank (b : UInt8) : Bool := b == 0x20 || b == 0x09

/-- A carriage return or a newline. -/
def isBreak (b : UInt8) : Bool := b == 0x0D || b == 0x0A

/-- `extract_bearer_token`: the token of a header, empty if it is rejected. -/
def extractBearerToken (header : Bytes) : Bytes :=
  let header := header.dropWhile isSpace
  if header = [] then []
  else
    let scheme := header.takeWhile (!isBlank ·)
    if iequalsAscii scheme bearerScheme = false then []
    else
      let rest := (header.drop scheme.length).dropWhile isSpace
      if rest = [] then []
      else
        let token := rest.takeWhile (!isBlank ·)
        if token = [] then []
        else if token.any fun b => isBlank b || isBreak b then []
        else token

/-- The value of a digit of base 64, in the alphabet for URLs or in the standard one. -/
def base64Digit (c : UInt8) : Option Nat :=
  if 0x41 ≤ c && c ≤ 0x5A then some (c.toNat - 0x41)
  else if 0x61 ≤ c && c ≤ 0x7A then some (c.toNat - 0x61 + 26)
  else if 0x30 ≤ c && c ≤ 0x39 then some (c.toNat - 0x30 + 52)
  else if c == 0x2D || c == 0x2B then some 62
  else if c == 0x5F || c == 0x2F then some 63
  else none

/-- The loop of `base64url_decode`, with the unused bits and their number. The padding ends it, and
    so does the end of the digits, as they are only padded before it. -/
def decodeDigits (accumulator bits : Nat) : Bytes → Option Bytes
  | [] => some []
  | c :: l =>
    if c == 0x3D then some []
    else
      match base64Digit c with
      | none => none
      | some v =>
        let accumulator := accumulator <<< 6 ||| v
        let bits := bits + 6
        if 8 ≤ bits then
          (decodeDigits (accumulator &&& (1 <<< (bits - 8) - 1)) (bits - 8) l).map
            (UInt8.ofNat (accumulator >>> (bits - 8) &&& 0xFF) :: ·)
        else decodeDigits accumulator bits l

/-- `base64url_decode`: empty if the text is malformed. -/
def base64urlDecode (text : Bytes) : Bytes := (decodeDigits 0 0 text).getD []

/-- The first two steps of `try_extract_jwt_subject`: the token that it goes on with, empty if it
    returns before. -/
def subjectToken (header : Bytes) : Bytes :=
  let header := header.dropWhile isSpace
  if header.length < bearerScheme.length then []
  else if iequalsAscii (header.take bearerScheme.length) bearerScheme = false then []
  else
    let rest := (header.drop bearerScheme.length).dropWhile isSpace
    if rest = [] then [] else rest.takeWhile fun b => !(isBlank b || isBreak b)

/-- The third step: the subject in the second segment of the token. -/
def subjectOf (token : Bytes) : Bytes :=
  match token.dropWhile (· != 0x2E) with
  | [] => []
  | _ :: rest =>
    if 0x2E ∉ rest then []
    else
      let payload := rest.takeWhile (· != 0x2E)
      if payload = [] then []
      else if base64urlDecode payload = [] then []
      else
        match (Json.parse (base64urlDecode payload)).bind (Json.get? · (bytes "sub")) with
        | some (.str sub) => sub
        | _ => []

/-- `try_extract_jwt_subject`. -/
def tryExtractJwtSubject (header : Bytes) : Bytes :=
  if subjectToken header = [] then [] else subjectOf (subjectToken header)

/-- The readers go on with the same token, and there is no subject without a token. -/
def Agree (header : Bytes) : Prop :=
  subjectToken header = extractBearerToken header ∧
    (extractBearerToken header = [] → tryExtractJwtSubject header = [])

/-- What follows the six bytes of the scheme. -/
def afterScheme (header : Bytes) : Bytes := (header.dropWhile isSpace).drop 6

/-- If the scheme is `Bearer` and more than white space follows, it is a blank first, and a token
    without line breaks. -/
def Separated (header : Bytes) : Prop :=
  iequalsAscii ((header.dropWhile isSpace).take 6) bearerScheme = true →
    (afterScheme header).any (!isSpace ·) = true →
      (afterScheme header).head?.any isBlank = true ∧
        (((afterScheme header).dropWhile isSpace).takeWhile (!isBlank ·)).any isBreak = false

instance (header : Bytes) : Decidable (Agree header) := inferInstanceAs (Decidable (_ ∧ _))

instance (header : Bytes) : Decidable (Separated header) := inferInstanceAs (Decidable (_ → _))

/-! ## The scheme -/

variable {header h l : Bytes} {b : UInt8}

theorem iequalsAscii_iff {a b : Bytes} :
    iequalsAscii a b = true ↔ a.map toLower = b.map toLower := by
  rw [iequalsAscii, Bool.and_eq_true, beq_iff_eq]
  induction a generalizing b with
  | nil => cases b <;> simp
  | cons x a ih =>
    cases b with
    | nil => simp
    | cons y b =>
      rw [List.map_cons, List.map_cons, List.cons.injEq, ← ih]
      simp [and_left_comm]

theorem length_of_iequalsAscii (h : iequalsAscii l bearerScheme = true) : l.length = 6 := by
  have := congrArg List.length (iequalsAscii_iff.1 h)
  rwa [List.length_map, List.length_map] at this

/-- There is no blank in the scheme. -/
theorem isBlank_of_iequalsAscii (h : iequalsAscii l bearerScheme = true) (hb : b ∈ l) :
    isBlank b = false := by
  have hmem : toLower b ∈ bearerScheme.map toLower := by
    rw [← iequalsAscii_iff.1 h]
    exact List.mem_map_of_mem hb
  rw [← Bool.not_eq_true]
  intro hblank
  rw [isBlank, Bool.or_eq_true, beq_iff_eq, beq_iff_eq] at hblank
  revert hmem
  rcases hblank with rfl | rfl <;> decide

/-- The text up to the first blank is the scheme iff the first six bytes are, and no more of it
    follows. -/
theorem scheme_iff : iequalsAscii (h.takeWhile (!isBlank ·)) bearerScheme = true ↔
    iequalsAscii (h.take 6) bearerScheme = true ∧ (h.drop 6).head?.all isBlank = true := by
  constructor
  · intro hs
    have htake : h.takeWhile (!isBlank ·) = h.take 6 := by
      rw [← length_of_iequalsAscii hs]
      exact List.prefix_iff_eq_take.1 (List.takeWhile_prefix _)
    have hdrop : h.dropWhile (!isBlank ·) = h.drop 6 := by
      have happend := List.takeWhile_append_dropWhile (p := (!isBlank ·)) (l := h)
      rw [htake] at happend
      exact List.append_cancel_left (happend.trans (List.take_append_drop 6 h).symm)
    refine ⟨htake ▸ hs, ?_⟩
    rw [← hdrop]
    have hhead := List.head?_dropWhile_not (!isBlank ·) h
    cases hd : (h.dropWhile (!isBlank ·)).head? with
    | none => rfl
    | some b => simpa [hd] using hhead
  · rintro ⟨hs, hhead⟩
    have hrest : (h.drop 6).takeWhile (!isBlank ·) = [] := by
      cases hd : h.drop 6 with
      | nil => rfl
      | cons b l =>
        rw [hd, List.head?_cons, Option.all_some] at hhead
        rw [List.takeWhile_cons, hhead]
        rfl
    rw [← List.take_append_drop 6 h, List.takeWhile_append_of_pos, hrest, List.append_nil]
    · exact hs
    · intro b hb
      rw [isBlank_of_iequalsAscii hs hb]
      rfl

/-! ## The two tokens -/

/-- A text with more than white space starts with more than white space, once that is skipped. -/
theorem exists_dropWhile (h : l.any (!isSpace ·) = true) :
    ∃ b r, l.dropWhile isSpace = b :: r ∧ isSpace b = false := by
  obtain ⟨c, hc, hspace⟩ := List.any_eq_true.1 h
  obtain ⟨b, r, hl⟩ : ∃ b r, l.dropWhile isSpace = b :: r := by
    refine List.exists_cons_of_ne_nil fun hnil => ?_
    rw [List.dropWhile_eq_nil_iff.1 hnil c hc] at hspace
    cases hspace
  refine ⟨b, r, hl, ?_⟩
  have hhead := List.head?_dropWhile_not isSpace l
  simpa [hl] using hhead

theorem dropWhile_of_any_false (h : l.any (!isSpace ·) = false) : l.dropWhile isSpace = [] := by
  rw [List.dropWhile_eq_nil_iff]
  intro b hb
  simpa using List.any_eq_false.1 h b hb

theorem isSpace_of_isBlank (h : isBlank b = true) : isSpace b = true := by
  rw [isBlank, Bool.or_eq_true, beq_iff_eq, beq_iff_eq] at h
  rcases h with rfl | rfl <;> rfl

theorem isSpace_of_isBreak (h : isBreak b = true) : isSpace b = true := by
  rw [isBreak, Bool.or_eq_true, beq_iff_eq, beq_iff_eq] at h
  rcases h with rfl | rfl <;> rfl

/-- No token without the scheme, followed by a blank if by anything. -/
theorem extractBearerToken_of_not
    (h : ¬(iequalsAscii ((header.dropWhile isSpace).take 6) bearerScheme = true ∧
      (afterScheme header).head?.all isBlank = true)) : extractBearerToken header = [] := by
  have hscheme : iequalsAscii ((header.dropWhile isSpace).takeWhile (!isBlank ·)) bearerScheme =
      false := by
    rw [← Bool.not_eq_true, scheme_iff]
    exact h
  rw [extractBearerToken, if_pos hscheme, ite_self]

theorem subjectToken_of_scheme
    (h : iequalsAscii ((header.dropWhile isSpace).take 6) bearerScheme = false) :
    subjectToken header = [] := by
  have hscheme : iequalsAscii ((header.dropWhile isSpace).take bearerScheme.length) bearerScheme =
      false := h
  rw [subjectToken, if_pos hscheme, ite_self]

/-- The token of the rate limits is what follows the scheme and white space, up to a blank or a
    line break. -/
theorem subjectToken_eq
    (h : iequalsAscii ((header.dropWhile isSpace).take 6) bearerScheme = true) :
    subjectToken header = ((afterScheme header).dropWhile isSpace).takeWhile
      fun b => !(isBlank b || isBreak b) := by
  have hlen : ¬(header.dropWhile isSpace).length < bearerScheme.length := by
    have := length_of_iequalsAscii h
    rw [List.length_take] at this
    have hsix : bearerScheme.length = 6 := rfl
    omega
  have hscheme : ¬iequalsAscii ((header.dropWhile isSpace).take bearerScheme.length)
      bearerScheme = false := by
    rw [Bool.not_eq_false]
    exact h
  rw [subjectToken, if_neg hlen, if_neg hscheme]
  change (if (afterScheme header).dropWhile isSpace = [] then [] else _) = _
  split_ifs with hnil
  · rw [hnil, List.takeWhile_nil]
  · rfl

/-- That of the authentication ends at a blank, and is rejected for a line break in it. -/
theorem extractBearerToken_eq
    (h : iequalsAscii ((header.dropWhile isSpace).take 6) bearerScheme = true)
    (hhead : (afterScheme header).head?.all isBlank = true) :
    extractBearerToken header =
      if (((afterScheme header).dropWhile isSpace).takeWhile (!isBlank ·)).any isBreak then []
      else ((afterScheme header).dropWhile isSpace).takeWhile (!isBlank ·) := by
  have hscheme : iequalsAscii ((header.dropWhile isSpace).takeWhile (!isBlank ·)) bearerScheme =
      true := scheme_iff.2 ⟨h, hhead⟩
  have hne : header.dropWhile isSpace ≠ [] := by
    intro hnil
    rw [hnil] at h
    exact absurd h (by decide)
  rw [extractBearerToken, if_neg hne, if_neg (by simp [hscheme]), length_of_iequalsAscii hscheme,
    ← afterScheme]
  -- there is no blank in a text up to a blank
  have hany : (((afterScheme header).dropWhile isSpace).takeWhile (!isBlank ·)).any
      (fun b => isBlank b || isBreak b) =
        (((afterScheme header).dropWhile isSpace).takeWhile (!isBlank ·)).any isBreak := by
    rw [Bool.eq_iff_iff, List.any_eq_true, List.any_eq_true]
    refine exists_congr fun b => and_congr_right fun hb => ?_
    have hblank := List.mem_takeWhile_imp hb
    rw [Bool.not_eq_true'] at hblank
    rw [hblank, Bool.false_or]
  by_cases hrest : (afterScheme header).dropWhile isSpace = []
  · simp [hrest]
  · by_cases htoken : ((afterScheme header).dropWhile isSpace).takeWhile (!isBlank ·) = []
    · simp [htoken]
    · simp only [hrest, htoken, if_false, hany]

/-- Where white space ends, a token starts, also for the rate limits. -/
theorem takeWhile_ne_nil (h : l.any (!isSpace ·) = true) :
    (l.dropWhile isSpace).takeWhile (fun b => !(isBlank b || isBreak b)) ≠ [] := by
  obtain ⟨b, r, hl, hspace⟩ := exists_dropWhile h
  have hblank : isBlank b = false := by
    rw [← Bool.not_eq_true] at hspace ⊢
    exact mt isSpace_of_isBlank hspace
  have hbreak : isBreak b = false := by
    rw [← Bool.not_eq_true] at hspace ⊢
    exact mt isSpace_of_isBreak hspace
  rw [hl, List.takeWhile_cons, hblank, hbreak]
  exact List.cons_ne_nil _ _

/-- The two tokens are the same iff there is no line break up to the blank. -/
theorem takeWhile_eq_iff (h : l.any (!isSpace ·) = true) :
    (l.dropWhile isSpace).takeWhile (fun b => !(isBlank b || isBreak b)) =
        (if ((l.dropWhile isSpace).takeWhile (!isBlank ·)).any isBreak then []
          else (l.dropWhile isSpace).takeWhile (!isBlank ·)) ↔
      ((l.dropWhile isSpace).takeWhile (!isBlank ·)).any isBreak = false := by
  split_ifs with hbreak
  · exact iff_of_false (takeWhile_ne_nil h) (by simp [hbreak])
  · rw [Bool.not_eq_true] at hbreak
    refine iff_of_true ?_ hbreak
    have hsplit : (fun b => !(isBlank b || isBreak b)) =
        fun b => decide ((!isBreak b) = true ∧ (!isBlank b) = true) := by
      funext b
      rw [Bool.not_or, Bool.and_comm, Bool.decide_and, Bool.decide_eq_true, Bool.decide_eq_true]
    rw [hsplit, ← List.takeWhile_takeWhile, List.takeWhile_eq_self_iff]
    intro b hb
    simpa using List.any_eq_false.1 hbreak b hb

/-- The readers agree iff the scheme is not `Bearer`, or is followed by white space only, or by a
    blank and a token without line breaks. -/
theorem agree_iff (header : Bytes) : Agree header ↔ Separated header := by
  have hagree : Agree header ↔ subjectToken header = extractBearerToken header := by
    refine and_iff_left_of_imp fun heq hnil => ?_
    rw [tryExtractJwtSubject, heq, if_pos hnil]
  rw [hagree]
  cases hscheme : iequalsAscii ((header.dropWhile isSpace).take 6) bearerScheme with
  | false =>
    rw [subjectToken_of_scheme hscheme, extractBearerToken_of_not (by simp [hscheme]), Separated,
      hscheme]
    simp
  | true =>
    rw [subjectToken_eq hscheme, Separated]
    cases hany : (afterScheme header).any (!isSpace ·) with
    | false =>
      -- neither finds a token
      have hnil := dropWhile_of_any_false hany
      refine iff_of_true ?_ fun _ h => absurd h Bool.false_ne_true
      by_cases hhead : (afterScheme header).head?.all isBlank = true
      · rw [extractBearerToken_eq hscheme hhead, hnil, List.takeWhile_nil]
        rfl
      · rw [extractBearerToken_of_not fun h => hhead h.2, hnil, List.takeWhile_nil]
    | true =>
      have hhead : (afterScheme header).head?.any isBlank =
          (afterScheme header).head?.all isBlank := by
        cases hafter : afterScheme header with
        | nil => simp [hafter] at hany
        | cons c l => rfl
      rw [hhead]
      by_cases hblank : (afterScheme header).head?.all isBlank = true
      · rw [extractBearerToken_eq hscheme hblank, takeWhile_eq_iff hany]
        simp [hscheme, hblank]
      · rw [extractBearerToken_of_not fun h => hblank h.2]
        exact iff_of_false (takeWhile_ne_nil hany) fun h => hblank (h hscheme rfl).1

/-- A token right after the scheme is rejected by the authentication, but has a subject. -/
theorem forged_disagree : ¬Agree (bytes "Bearera.eyJzdWIiOiJ4In0.c") := by decide +kernel

example : tryExtractJwtSubject (bytes "Bearera.eyJzdWIiOiJ4In0.c") = bytes "x" := by
  decide +kernel

end LiteCode.Bearer
