import Mathlib.Algebra.Order.Ring.Rat
import Mathlib.Algebra.Order.Field.Basic
import Mathlib.Algebra.Order.Group.MinMax
import Mathlib.Tactic.Linarith
import Mathlib.Tactic.NormNum
import LiteCode.Judge.Compare

/-!
# Comparing numbers

`compare_float_eps` should accept two texts iff they have the same lines of tokens, all of them
numbers, and corresponding numbers are close. The tokens of a line are what is between its blanks.
The script cuts a line at its runs of blanks, so that a blank at an end of a line makes an empty
token, which is no number.

* `Numeral`: the grammar of `isnum`, with the number (`number?_iff`);
* `compareFloatEps_iff`: what the script accepts;
* `compareFloatEps_sound_iff`: the texts on which this is right.
-/

namespace LiteCode.Judge

/-! ## The grammar of numbers -/

/-- `[+-]?`, with whether it is a minus. -/
inductive SignText : Bytes → Bool → Prop
  | none : SignText [] false
  | plus : SignText [0x2B] false
  | minus : SignText [0x2D] true

/-- `[0-9]+`. -/
def Digits (l : Bytes) : Prop := l ≠ [] ∧ ∀ b ∈ l, Json.isDigit b = true

/-- `([.][0-9]+)?`, with its digits. -/
inductive FracText : Bytes → Option Bytes → Prop
  | none : FracText [] none
  | some {ds : Bytes} : Digits ds → FracText (0x2E :: ds) (some ds)

/-- `([eE][+-]?[0-9]+)?`, with the exponent. -/
inductive ExpText : Bytes → Option Int → Prop
  | none : ExpText [] none
  | some {e : UInt8} {sg ds : Bytes} {neg : Bool} : e = 0x65 ∨ e = 0x45 → SignText sg neg →
      Digits ds → ExpText (e :: (sg ++ ds))
        (some (if neg then -(Json.digitsVal ds : Int) else Json.digitsVal ds))

/-- A token of the grammar of `isnum`, and the number that it stands for. -/
inductive Numeral : Bytes → Decimal → Prop
  | mk {sg int fr ex : Bytes} {neg : Bool} {frac : Option Bytes} {exp : Option Int} :
      SignText sg neg → (∀ b ∈ int, Json.isDigit b = true) → FracText fr frac →
      (int ≠ [] ∨ frac ≠ Option.none) → ExpText ex exp →
      Numeral (sg ++ (int ++ (fr ++ ex))) ⟨neg, Json.digitsVal (int ++ frac.getD []),
        exp.getD 0 - (frac.getD []).length⟩

variable {s t rest : Bytes} {d : Decimal}

/-- A text does not go on with a digit. -/
def NoDigit (s : Bytes) : Prop := ∀ b ∈ s.head?, Json.isDigit b = false

/-- Digits end where no digit follows. -/
theorem takeWhile_digits {ds : Bytes} (h : ∀ b ∈ ds, Json.isDigit b = true) (hr : NoDigit rest) :
    (ds ++ rest).takeWhile Json.isDigit = ds ∧ (ds ++ rest).dropWhile Json.isDigit = rest := by
  rw [List.takeWhile_append_of_pos h, List.dropWhile_append_of_pos h]
  cases rest with
  | nil => simp
  | cons b rest =>
    have hb : Json.isDigit b = false := hr b rfl
    rw [List.takeWhile_cons_of_neg (by simp [hb]), List.dropWhile_cons_of_neg (by simp [hb])]
    simp

/-- What is taken is a sign, or nothing. -/
theorem takeSign_text (s : Bytes) :
    ∃ sg, s = sg ++ (takeSign s).2 ∧ SignText sg (takeSign s).1 := by
  fun_cases takeSign s with
  | case1 s => exact ⟨[0x2D], rfl, .minus⟩
  | case2 s => exact ⟨[0x2B], rfl, .plus⟩
  | case3 s h₁ h₂ => exact ⟨[], rfl, .none⟩

/-- A sign is taken, if no other one follows. -/
theorem takeSign_append {sg : Bytes} {neg : Bool} (h : SignText sg neg)
    (hr : ∀ b ∈ rest.head?, b ≠ 0x2D ∧ b ≠ 0x2B) : takeSign (sg ++ rest) = (neg, rest) := by
  cases h with
  | none =>
    rw [List.nil_append, takeSign]
    · rintro t rfl
      exact (hr _ rfl).1 rfl
    · rintro t rfl
      exact (hr _ rfl).2 rfl
  | plus => rfl
  | minus => rfl

/-- What is scanned is a fraction, or nothing. -/
theorem scanFrac_text {i : Bytes} {frac : Option Bytes} (h : Json.scanFrac i = some (frac, rest)) :
    ∃ fr, i = fr ++ rest ∧ FracText fr frac := by
  cases i with
  | nil =>
    cases h
    exact ⟨[], rfl, .none⟩
  | cons c r =>
    simp only [Json.scanFrac] at h
    split_ifs at h with hc he
    · cases h
      refine ⟨0x2E :: r.takeWhile Json.isDigit, ?_, .some ⟨?_, fun b => List.mem_takeWhile_imp⟩⟩
      · rw [hc, List.cons_append, List.takeWhile_append_dropWhile]
      · simpa using he
    · cases h
      exact ⟨[], rfl, .none⟩

/-- A fraction is scanned. -/
theorem scanFrac_append {fr : Bytes} {frac : Option Bytes} (h : FracText fr frac)
    (hr : NoDigit rest) (hdot : ∀ b ∈ rest.head?, b ≠ 0x2E) :
    Json.scanFrac (fr ++ rest) = some (frac, rest) := by
  cases h with
  | none =>
    cases rest with
    | nil => rfl
    | cons b rest => exact if_neg (hdot b rfl)
  | some hds =>
    rename_i ds
    obtain ⟨htake, hdrop⟩ := takeWhile_digits hds.2 hr
    simp only [List.cons_append, Json.scanFrac, htake, hdrop, ↓reduceIte]
    exact if_neg (by simpa using hds.1)

/-- The scan of an exponent, behind its letter. -/
theorem scanExp_cons {e : UInt8} (he : e = 0x65 ∨ e = 0x45) (r : Bytes) :
    Json.scanExp (e :: r) =
      if ((takeSign r).2.takeWhile Json.isDigit).isEmpty then none
      else some (some (if (takeSign r).1 then
          -(Json.digitsVal ((takeSign r).2.takeWhile Json.isDigit) : Int)
        else Json.digitsVal ((takeSign r).2.takeWhile Json.isDigit)),
        (takeSign r).2.dropWhile Json.isDigit) := by
  simp only [Json.scanExp, if_pos he]
  unfold takeSign
  rfl

/-- What is scanned to the end is an exponent, or nothing. -/
theorem scanExp_text {i : Bytes} {exp : Option Int} (h : Json.scanExp i = some (exp, [])) :
    ExpText i exp := by
  cases i with
  | nil =>
    cases h
    exact .none
  | cons e r =>
    by_cases he : e = 0x65 ∨ e = 0x45
    · rw [scanExp_cons he] at h
      by_cases hds : ((takeSign r).2.takeWhile Json.isDigit).isEmpty
      · rw [if_pos hds] at h
        cases h
      · rw [if_neg hds, Option.some.injEq, Prod.mk.injEq] at h
        obtain ⟨rfl, hdrop⟩ := h
        obtain ⟨sg, hr, hsg⟩ := takeSign_text r
        have hall : (takeSign r).2.takeWhile Json.isDigit = (takeSign r).2 := by
          rw [List.takeWhile_eq_self_iff, ← List.dropWhile_eq_nil_iff]
          exact hdrop
        have htext := ExpText.some he hsg ⟨by simpa using hds, fun b => List.mem_takeWhile_imp⟩
        rw [hall, ← hr] at htext
        rwa [hall]
    · simp only [Json.scanExp, if_neg he] at h
      cases h

theorem not_sign_of_isDigit {b : UInt8} (h : Json.isDigit b = true) : b ≠ 0x2D ∧ b ≠ 0x2B := by
  constructor <;> rintro rfl <;> cases h

/-- An exponent is scanned. -/
theorem scanExp_of_text {ex : Bytes} {exp : Option Int} (h : ExpText ex exp) :
    Json.scanExp ex = some (exp, []) := by
  cases h with
  | none => rfl
  | some he hsg hds =>
    rename_i sg ds neg
    have hnil : NoDigit [] := by simp [NoDigit]
    obtain ⟨htake, hdrop⟩ := takeWhile_digits hds.2 hnil
    rw [List.append_nil] at htake hdrop
    rw [scanExp_cons he, takeSign_append hsg fun b hb =>
      not_sign_of_isDigit (hds.2 b (List.mem_of_mem_head? hb))]
    simp only [htake, hdrop]
    exact if_neg (by simpa using hds.1)

/-- What follows the digits before the point. -/
theorem noDigit_tail {fr ex : Bytes} {frac : Option Bytes} {exp : Option Int}
    (hf : FracText fr frac) (hx : ExpText ex exp) : NoDigit (fr ++ ex) ∧ NoDigit ex ∧
      ∀ b ∈ ex.head?, b ≠ 0x2E := by
  have hex : NoDigit ex ∧ ∀ b ∈ ex.head?, b ≠ 0x2E := by
    cases hx with
    | none => simp [NoDigit]
    | some he =>
      rcases he with rfl | rfl <;> constructor <;> rintro b ⟨⟩ <;> decide
  refine ⟨?_, hex⟩
  cases hf with
  | none => exact hex.1
  | some => rintro b ⟨⟩; rfl

/-- The reader of tokens takes the grammar of `isnum`. -/
theorem number?_iff (s : Bytes) (d : Decimal) : number? s = some d ↔ Numeral s d := by
  constructor
  · intro h
    obtain ⟨sg, hs, hsg⟩ := takeSign_text s
    simp only [number?, Option.bind_eq_some_iff] at h
    obtain ⟨⟨frac, i⟩, hfrac, h⟩ := h
    split_ifs at h with hne
    simp only [Option.bind_eq_some_iff] at h
    obtain ⟨⟨exp, r⟩, hexp, h⟩ := h
    split_ifs at h with hr
    rw [List.isEmpty_iff] at hr
    subst hr
    obtain ⟨fr, hdrop, hfr⟩ := scanFrac_text hfrac
    have hex := scanExp_text hexp
    have hint : (takeSign s).2 = (takeSign s).2.takeWhile Json.isDigit ++ (fr ++ i) := by
      rw [← hdrop, List.takeWhile_append_dropWhile]
    have hdigits : ∀ b ∈ (takeSign s).2.takeWhile Json.isDigit, Json.isDigit b = true :=
      fun b => List.mem_takeWhile_imp
    have hparts : (takeSign s).2.takeWhile Json.isDigit ≠ [] ∨ frac ≠ none := by
      rw [Bool.and_eq_true, not_and_or, List.isEmpty_iff, Option.isNone_iff_eq_none] at hne
      exact hne
    have hnum := Numeral.mk hsg hdigits hfr hparts hex
    rw [← hint, ← hs] at hnum
    rwa [Option.some.inj h] at hnum
  · rintro ⟨hsg, hint, hfr, hne, hex⟩
    rename_i sg int fr ex neg frac exp
    obtain ⟨h₁, h₂, h₃⟩ := noDigit_tail hfr hex
    obtain ⟨htake, hdrop⟩ := takeWhile_digits hint h₁
    -- If there are no digits, there is a point, which is no sign either.
    have hsign : ∀ b ∈ (int ++ (fr ++ ex)).head?, b ≠ 0x2D ∧ b ≠ 0x2B := by
      cases int with
      | cons c int =>
        rintro b ⟨⟩
        exact not_sign_of_isDigit (hint c List.mem_cons_self)
      | nil =>
        cases hfr with
        | none => simp at hne
        | some => rintro b ⟨⟩; decide
    have hparts : ¬(int.isEmpty && frac.isNone) = true := by
      rw [Bool.and_eq_true, not_and_or, List.isEmpty_iff, Option.isNone_iff_eq_none]
      exact hne
    rw [number?, takeSign_append hsg hsign]
    simp only [htake, hdrop, scanFrac_append hfr h₂ h₃, Option.bind_some, scanExp_of_text hex,
      if_neg hparts]
    rfl

/-! ## The tokens of a line -/

/-- What is between the blanks of a line. -/
def blankTokens (l : Bytes) : List Bytes := (l.splitOnP isBlank).filter fun t => !t.isEmpty

/-- The line begins or ends with a blank. -/
def edgeBlank (l : Bytes) : Bool := l.head?.any isBlank || endsInBlank l

variable {l : Bytes} {c : UInt8}

/-- A blank ends a token. -/
theorem splitBlanks_false (hc : isBlank c = true) (l : Bytes) :
    splitBlanks false (c :: l) = [] :: splitBlanks true l := by
  rw [splitBlanks, if_pos hc]
  rfl

/-- The blanks of a run count as one. -/
theorem splitBlanks_true (hc : isBlank c = true) (l : Bytes) :
    splitBlanks true (c :: l) = splitBlanks true l := by
  rw [splitBlanks, if_pos hc]
  rfl

/-- Another byte is one of the token. -/
theorem splitBlanks_of_not (hc : isBlank c = false) (run : Bool) (l : Bytes) :
    splitBlanks run (c :: l) = (splitBlanks false l).modifyHead (c :: ·) := by
  rw [splitBlanks, if_neg (by simp [hc])]

theorem splitBlanks_ne_nil (l : Bytes) : splitBlanks false l ≠ [] := by
  induction l with
  | nil => exact List.cons_ne_nil _ _
  | cons c l ih =>
    cases hc : isBlank c with
    | true => rw [splitBlanks_false hc]; exact List.cons_ne_nil _ _
    | false => rw [splitBlanks_of_not hc]; simpa using ih

/-- Cutting at every blank or at every run of them makes the same tokens, up to the empty ones. -/
theorem filter_splitBlanks (l : Bytes) :
    (∃ h u v, splitBlanks false l = h :: u ∧ l.splitOnP isBlank = h :: v ∧
      u.filter (fun t => !t.isEmpty) = v.filter fun t => !t.isEmpty) ∧
    (splitBlanks true l).filter (fun t => !t.isEmpty) = blankTokens l := by
  induction l with
  | nil => exact ⟨⟨[], [], [], rfl, rfl, rfl⟩, rfl⟩
  | cons c l ih =>
    obtain ⟨⟨h, u, v, hu, hv, huv⟩, htrue⟩ := ih
    rw [blankTokens, List.splitOnP_cons_eq_if_modifyHead]
    cases hc : isBlank c with
    | true =>
      rw [splitBlanks_false hc, splitBlanks_true hc]
      exact ⟨⟨[], _, _, rfl, rfl, htrue⟩, htrue⟩
    | false =>
      rw [splitBlanks_of_not hc, splitBlanks_of_not hc, hu, hv]
      refine ⟨⟨c :: h, u, v, rfl, rfl, huv⟩, ?_⟩
      simp [huv]

/-- Where the empty tokens of a line come from. -/
theorem nil_mem_splitBlanks (l : Bytes) :
    ([] ∈ splitBlanks true l ↔ l = [] ∨ endsInBlank l = true) ∧
      ([] ∈ (splitBlanks false l).tail ↔ endsInBlank l = true) := by
  induction l with
  | nil => simp [splitBlanks, endsInBlank]
  | cons c l ih =>
    have hends : endsInBlank (c :: l) = true ↔ l = [] ∧ isBlank c ∨ endsInBlank l = true := by
      cases l <;> simp [endsInBlank]
    cases hc : isBlank c with
    | true =>
      rw [splitBlanks_false hc, splitBlanks_true hc, List.tail_cons, ih.1, hends]
      simp [hc]
    | false =>
      obtain ⟨h, u, hu⟩ := List.exists_cons_of_ne_nil (splitBlanks_ne_nil l)
      rw [hu, List.tail_cons] at ih
      rw [splitBlanks_of_not hc, splitBlanks_of_not hc, hu, hends]
      simp [hc, ih.2]

/-- A line with bytes has an empty token iff it begins or ends with a blank. -/
theorem nil_mem_awkSplit (hl : l ≠ []) : [] ∈ awkSplit l ↔ edgeBlank l = true := by
  obtain ⟨c, l, rfl⟩ := List.exists_cons_of_ne_nil hl
  obtain ⟨h, u, hu⟩ := List.exists_cons_of_ne_nil (splitBlanks_ne_nil l)
  have htail := (nil_mem_splitBlanks (c :: l)).2
  rw [awkSplit, if_neg (by simp), edgeBlank, Bool.or_eq_true, ← htail]
  cases hc : isBlank c with
  | true => simp [splitBlanks_false hc, hc]
  | false => simp [splitBlanks_of_not hc, hc, hu]

/-- Without a blank at an end, the tokens are those between the blanks. -/
theorem awkSplit_eq (h : edgeBlank l = false) : awkSplit l = blankTokens l := by
  by_cases hl : l = []
  · subst hl
    rfl
  · have hnil : [] ∉ awkSplit l := by
      rw [nil_mem_awkSplit hl, h]
      exact Bool.false_ne_true
    obtain ⟨⟨w, u, v, hu, hv, huv⟩, -⟩ := filter_splitBlanks l
    have hsplit : awkSplit l = w :: u := by
      rw [awkSplit, if_neg (by simpa using hl), hu]
    rw [hsplit] at hnil ⊢
    rw [List.mem_cons, not_or] at hnil
    have hself : u.filter (fun t => !t.isEmpty) = u := by
      refine List.filter_eq_self.2 fun t ht => ?_
      simp only [Bool.not_eq_true', List.isEmpty_eq_false_iff]
      rintro rfl
      exact hnil.2 ht
    have hw : (!w.isEmpty) = true := by
      rw [Bool.not_eq_true', List.isEmpty_eq_false_iff]
      exact Ne.symm hnil.1
    rw [blankTokens, hv, List.filter_cons, if_pos hw, ← huv, hself]

/-! ## Close numbers -/

/-- `|x - y| <= eps` or `|x - y| <= eps * max(|x|, |y|)`. -/
def Close (eps x y : ℚ) : Prop := |x - y| ≤ eps ∨ |x - y| ≤ eps * max |x| |y|

variable {eps x y : ℚ}

theorem absv_eq (x : ℚ) : absv x = |x| := by
  rw [absv]
  split_ifs with h
  · exact (abs_of_neg h).symm
  · exact (abs_of_nonneg (not_lt.1 h)).symm

/-- `awk` writes the maximum as a condition. -/
theorem ite_eq_max (x y : ℚ) : (if y > x then y else x) = max x y := by
  split_ifs with h
  · exact (max_eq_right h.le).symm
  · exact (max_eq_left (not_lt.1 h)).symm

/-- Numbers too small to be divided are not close if the first test fails. -/
theorem not_close_of_small (hxy : x ≠ y) (hd : eps < |x - y|)
    (hsmall : max |x| |y| < 1 / 10 ^ 300) : ¬|x - y| ≤ eps * max |x| |y| := by
  intro h
  have hpos : 0 < |x - y| := abs_pos.2 (sub_ne_zero.2 hxy)
  have hbig : 0 ≤ max |x| |y| := le_max_of_le_left (abs_nonneg x)
  have hten : (1 : ℚ) / 10 ^ 300 ≤ 1 :=
    (div_le_one (by positivity)).2 (one_le_pow₀ (by norm_num))
  rcases le_or_gt 0 eps with heps | heps
  · have := mul_le_mul_of_nonneg_left (hsmall.le.trans hten) heps
    linarith
  · have := mul_nonpos_of_nonpos_of_nonneg heps.le hbig
    linarith

/-- Numbers are equal if they are the same or close. -/
theorem feq_iff (eps x y : ℚ) : feq eps x y = true ↔ x = y ∨ Close eps x y := by
  simp only [feq, absv_eq, ite_eq_max]
  split_ifs with hxy hd hsmall
  · exact iff_of_true rfl (.inl hxy)
  · exact iff_of_true rfl (.inr (.inl hd))
  · refine iff_of_false not_false ?_
    rintro (h | h | h)
    · exact hxy h
    · exact hd h
    · exact not_close_of_small hxy (not_le.1 hd) hsmall h
  · have hpos : 0 < max |x| |y| := lt_of_lt_of_le (by positivity) (not_lt.1 hsmall)
    rw [decide_eq_true_iff, div_le_iff₀ hpos, Close]
    simp [hxy, hd]

/-! ## Walking through the two files -/

/-- Two tokens that are numbers in the relation `R`. -/
def MatchToken (R : ℚ → ℚ → Prop) (s t : Bytes) : Prop :=
  ∃ x y, Numeral s x ∧ Numeral t y ∧ R x.toRat y.toRat

/-- The files have the same lines of tokens, numbers in the relation `R`. -/
def Matches (R : ℚ → ℚ → Prop) (a b : Bytes) : Prop :=
  List.Forall₂ (fun l m => List.Forall₂ (MatchToken R) (blankTokens l) (blankTokens m))
    (records [] a) (records [] b)

/-- No line begins or ends with a blank. -/
def NoEdges (t : Bytes) : Prop := ∀ l ∈ records [] t, edgeBlank l = false

instance (t : Bytes) : Decidable (NoEdges t) := inferInstanceAs (Decidable (∀ l ∈ _, _))

variable {R S : ℚ → ℚ → Prop} {a b : Bytes}

/-- A weaker relation of the numbers matches more. -/
theorem Matches.mono (hRS : ∀ x y, R x y → S x y) (h : Matches R a b) : Matches S a b :=
  h.imp fun _ _ hl => hl.imp fun _ _ ⟨x, y, hx, hy, hr⟩ => ⟨x, y, hx, hy, hRS _ _ hr⟩

/-- Tokens are compared as numbers if both are, and as texts otherwise. -/
theorem tokenOk_iff (eps : ℚ) (s t : Bytes) :
    tokenOk eps (s, t) = true ↔ MatchToken (fun x y => x = y ∨ Close eps x y) s t := by
  simp only [tokenOk, isnum, Bool.and_eq_true, Option.isSome_iff_exists, feq_iff, tokenValue]
  constructor
  · rintro ⟨⟨⟨x, hx⟩, y, hy⟩, h⟩
    rw [hx, hy] at h
    exact ⟨x, y, (number?_iff s x).1 hx, (number?_iff t y).1 hy, h⟩
  · rintro ⟨x, y, hx, hy, h⟩
    rw [← number?_iff] at hx hy
    rw [hx, hy]
    exact ⟨⟨⟨x, rfl⟩, y, rfl⟩, h⟩

/-- The main loop passes iff the lines that are left match. -/
theorem awkMain_iff {tok : List (List Bytes)} {fnr : Nat} (h : fnr ≤ tok.length)
    (rest : List Bytes) : awkMain eps tok fnr rest = some tok.length ↔
      List.Forall₂ (fun ta line => List.Forall₂
        (MatchToken fun x y => x = y ∨ Close eps x y) ta (awkSplit line)) (tok.drop fnr) rest := by
  induction rest generalizing fnr with
  | nil =>
    rw [awkMain, Option.some.injEq, List.forall₂_nil_right_iff, List.drop_eq_nil_iff]
    omega
  | cons line rest ih =>
    rw [awkMain]
    rcases Nat.lt_or_ge fnr tok.length with hlt | hge
    · rw [List.getElem?_eq_getElem hlt, List.drop_eq_getElem_cons hlt, List.forall₂_cons,
        ← ih hlt]
      dsimp only
      -- Two empty lines match without a look at their tokens.
      by_cases hskip : (line.isEmpty && tok[fnr].isEmpty) = true
      · rw [if_pos hskip]
        rw [Bool.and_eq_true, List.isEmpty_iff, List.isEmpty_iff] at hskip
        rw [hskip.1, hskip.2]
        exact (and_iff_right List.Forall₂.nil).symm
      · rw [if_neg hskip]
        by_cases hlen : (awkSplit line).length = tok[fnr].length
        · have hall : ((tok[fnr].zip (awkSplit line)).all (tokenOk eps)) = true ↔ List.Forall₂
              (MatchToken fun x y => x = y ∨ Close eps x y) tok[fnr] (awkSplit line) := by
            rw [List.forall₂_iff_zip, List.all_eq_true]
            simp [hlen, tokenOk_iff]
          rw [if_neg (not_not.2 hlen), ← hall]
          split_ifs with hok
          · exact (and_iff_right hok).symm
          · exact iff_of_false (by simp) fun hc => hok hc.1
        · rw [if_pos hlen]
          exact iff_of_false (by simp) fun hc => hlen hc.1.length_eq.symm
    · rw [List.getElem?_eq_none hge, List.drop_eq_nil_of_le hge, List.forall₂_nil_left_iff]
      simp

theorem Numeral.ne_nil (h : Numeral s d) : s ≠ [] := by
  rintro rfl
  rw [← number?_iff] at h
  cases h

/-- Tokens that match are not empty. -/
theorem nil_not_mem_of_match {u v : List Bytes} (h : List.Forall₂ (MatchToken R) u v) :
    [] ∉ u ∧ [] ∉ v := by
  induction h with
  | nil => exact ⟨List.not_mem_nil, List.not_mem_nil⟩
  | cons hst _ ih =>
    obtain ⟨x, y, hx, hy, -⟩ := hst
    rw [List.mem_cons, List.mem_cons, not_or, not_or]
    exact ⟨⟨hx.ne_nil.symm, ih.1⟩, hy.ne_nil.symm, ih.2⟩

/-- A condition on the right side only. -/
theorem forall₂_and_right {p : Bytes → Prop} {Q : Bytes → Bytes → Prop} {u v : List Bytes} :
    List.Forall₂ (fun l m => p m ∧ Q l m) u v ↔ (∀ m ∈ v, p m) ∧ List.Forall₂ Q u v := by
  constructor
  · intro h
    induction h with
    | nil => exact ⟨by simp, .nil⟩
    | cons hlm _ ih => exact ⟨List.forall_mem_cons.2 ⟨hlm.1, ih.1⟩, .cons hlm.2 ih.2⟩
  · rintro ⟨hp, h⟩
    induction h with
    | nil => exact .nil
    | cons hlm _ ih =>
      rw [List.forall_mem_cons] at hp
      exact .cons ⟨hp.1, hlm⟩ (ih hp.2)

/-- The tokens that the script cuts match iff those between the blanks do, and no blank is at an
    end of a line. -/
theorem forall₂_awkSplit_iff (l m : Bytes) :
    List.Forall₂ (MatchToken R) (awkSplit l) (awkSplit m) ↔ edgeBlank l = false ∧
      edgeBlank m = false ∧ List.Forall₂ (MatchToken R) (blankTokens l) (blankTokens m) := by
  constructor
  · intro h
    have hedge : ∀ {l : Bytes}, [] ∉ awkSplit l → edgeBlank l = false := by
      intro l hnil
      by_cases hl : l = []
      · subst hl
        rfl
      · rwa [nil_mem_awkSplit hl, Bool.not_eq_true] at hnil
    have hl := hedge (nil_not_mem_of_match h).1
    have hm := hedge (nil_not_mem_of_match h).2
    rw [awkSplit_eq hl, awkSplit_eq hm] at h
    exact ⟨hl, hm, h⟩
  · rintro ⟨hl, hm, h⟩
    rwa [awkSplit_eq hl, awkSplit_eq hm]

/-- What the script accepts. -/
theorem compareFloatEps_iff (a b : Bytes) (eps : ℚ) : compareFloatEps a b eps = true ↔
    NoEdges a ∧ NoEdges b ∧ Matches (fun x y => x = y ∨ Close eps x y) a b := by
  rw [compareFloatEps, beq_iff_eq, awkMain_iff (Nat.zero_le _), List.drop_zero,
    List.forall₂_map_left_iff]
  simp only [forall₂_awkSplit_iff]
  rw [List.forall₂_and_left, forall₂_and_right]
  rfl

/-- The texts on which the script accepts what it should: no line begins or ends with a blank, or
    there is something else that differs. With a negative tolerance it still accepts equal
    numbers. -/
def FloatSound (eps : ℚ) (a b : Bytes) : Prop :=
  NoEdges a ∧ NoEdges b ∧
      (eps < 0 → Matches (· = ·) a b → Matches (fun x y => x = 0 ∧ y = 0) a b) ∨
    ¬(NoEdges a ∧ NoEdges b) ∧ ¬Matches (Close eps) a b

/-- With a negative bound only zeros are close. -/
theorem close_of_neg (h : eps < 0) : Close eps x y ↔ x = 0 ∧ y = 0 := by
  constructor
  · rintro (hd | hd)
    · exact absurd (hd.trans_lt h) (not_lt.2 (abs_nonneg _))
    · have hbig : 0 ≤ max |x| |y| := le_max_of_le_left (abs_nonneg x)
      have hprod : 0 ≤ eps * max |x| |y| := (abs_nonneg _).trans hd
      have hzero : max |x| |y| = 0 := by
        by_contra hne
        exact absurd hprod (not_le.2 (mul_neg_of_neg_of_pos h (lt_of_le_of_ne hbig (Ne.symm hne))))
      have hx : |x| ≤ 0 := hzero ▸ le_max_left _ _
      have hy : |y| ≤ 0 := hzero ▸ le_max_right _ _
      exact ⟨abs_nonpos_iff.1 hx, abs_nonpos_iff.1 hy⟩
  · rintro ⟨rfl, rfl⟩
    exact .inr (by simp)

/-- Every number is close to itself, if the bound is not negative. -/
theorem close_refl (h : 0 ≤ eps) (x : ℚ) : Close eps x x := .inl (by simpa using h)

/-- The comparator accepts two texts iff they have the same lines of close numbers, provided that
    the texts are such (`FloatSound`), and only then. -/
theorem compareFloatEps_sound_iff (a b : Bytes) (eps : ℚ) :
    (compareFloatEps a b eps = true ↔ Matches (Close eps) a b) ↔ FloatSound eps a b := by
  rw [compareFloatEps_iff, FloatSound]
  by_cases hedges : NoEdges a ∧ NoEdges b
  · have hclose : Matches (Close eps) a b → Matches (fun x y => x = y ∨ Close eps x y) a b :=
      Matches.mono fun _ _ => .inr
    -- With a negative tolerance only zeros are close, but equal numbers are accepted as well.
    rcases lt_or_ge eps 0 with heps | heps
    · have hmatch : Matches (fun x y => x = y ∨ Close eps x y) a b ↔ Matches (· = ·) a b := by
        refine ⟨Matches.mono fun x y h => ?_, Matches.mono fun _ _ => .inl⟩
        rcases h with h | h
        · exact h
        · rw [close_of_neg heps] at h
          exact h.1.trans h.2.symm
      have hzero : Matches (Close eps) a b ↔ Matches (fun x y => x = 0 ∧ y = 0) a b :=
        ⟨Matches.mono fun _ _ => (close_of_neg heps).1,
          Matches.mono fun _ _ => (close_of_neg heps).2⟩
      simp only [hedges, true_and, hmatch, hzero, heps, true_imp_iff, not_true_eq_false, false_and,
        or_false]
      exact ⟨fun h => h.1, fun h => ⟨h, fun hz => hmatch.1 (hclose (hzero.2 hz))⟩⟩
    · refine iff_of_true ⟨fun h => h.2.2.mono fun x y hxy => ?_, fun h => ?_⟩ ?_
      · rcases hxy with rfl | hxy
        · exact close_refl heps x
        · exact hxy
      · exact ⟨hedges.1, hedges.2, hclose h⟩
      · exact .inl ⟨hedges.1, hedges.2, fun hneg => absurd hneg (not_lt.2 heps)⟩
  · have hrej : ¬(NoEdges a ∧ NoEdges b ∧ Matches (fun x y => x = y ∨ Close eps x y) a b) :=
      fun h => hedges ⟨h.1, h.2.1⟩
    rw [iff_false_left hrej]
    constructor
    · exact fun h => .inr ⟨hedges, h⟩
    · rintro (h | h)
      · exact absurd ⟨h.1, h.2.1⟩ hedges
      · exact h.2

/-- A text with a blank at the end of a line is not accepted although it is the expected one. -/
theorem compareFloatEps_trailing :
    ¬(compareFloatEps (bytes "1.0 \n") (bytes "1.0 \n") (1 / 1000000) = true ↔
      Matches (Close (1 / 1000000)) (bytes "1.0 \n") (bytes "1.0 \n")) := by
  have hrec : records [] (bytes "1.0 \n") = [bytes "1.0 "] := by decide +kernel
  have htok : blankTokens (bytes "1.0 ") = [bytes "1.0"] := by decide +kernel
  have hnum : Numeral (bytes "1.0") ⟨false, 10, -1⟩ := (number?_iff _ _).1 (by decide +kernel)
  have hmatch : Matches (Close (1 / 1000000)) (bytes "1.0 \n") (bytes "1.0 \n") := by
    rw [Matches, hrec]
    refine .cons ?_ .nil
    rw [htok]
    exact .cons ⟨_, _, hnum, hnum, close_refl (by norm_num) _⟩ .nil
  intro h
  exact absurd (h.2 hmatch) (by decide +kernel)

end LiteCode.Judge
