import Mathlib.Data.List.DropRight
import LiteCode.Config.LoadConfig
import LiteCode.Lib.Cut

/-!
# Cookies

`src/utils/cookie_utils.h` writes the value of a `Set-Cookie` header and reads the `Cookie` header
of a request. The reader skips separators, takes what stands up to the next `;`, cuts it at the
first `=`, takes the blanks off both parts and a pair of quotes off the value.

* `parseCookieHeader_join`: a header is read cookie by cookie;
* `readChunk_pair`: a pair with a plain name and a plain value is read back;
* `validName_of_token`: the name of the configuration is plain;
* `firstPair_buildSetCookieHeader`: what a browser keeps of a `Set-Cookie` header;
* `cookies_round_trip`: pairs that are written into a header are read from it, and the cookie that
  was set is found among others.
-/

namespace LiteCode.Cookies

open Config (CookieConfig)

/-! ## Writing -/

/-- `build_set_cookie_header`. -/
def buildSetCookieHeader (cfg : CookieConfig) (value : Bytes) (maxAgeSeconds : Int) : Bytes :=
  let maxAge := if 0 < maxAgeSeconds then maxAgeSeconds else cfg.maxAgeSeconds
  cfg.name ++ 0x3D :: value ++
    (if 0 < maxAge then bytes "; Max-Age=" ++ decimalInt maxAge else []) ++
    (if cfg.path.isEmpty then [] else bytes "; Path=" ++ cfg.path) ++
    (if cfg.httpOnly then bytes "; HttpOnly" else []) ++
    (if cfg.secure then bytes "; Secure" else []) ++
    (if cfg.sameSite.isEmpty then [] else bytes "; SameSite=" ++ cfg.sameSite)

/-! ## Reading -/

/-- `CookiePair`. -/
abbrev CookiePair := Bytes × Bytes

/-- A blank or a tab. -/
def isOws (b : UInt8) : Bool := b == 0x20 || b == 0x09

/-- What is skipped between cookies. -/
def isSeparator (b : UInt8) : Bool := b == 0x20 || b == 0x09 || b == 0x3B || b == 0x2C

/-- `trim_ows`. -/
def trimOws (s : Bytes) : Bytes := (s.dropWhile isOws).rdropWhile isOws

/-- A pair of quotes is taken off. -/
def unquote (value : Bytes) : Bytes :=
  if 2 ≤ value.length ∧ value.head? = some 0x22 ∧ value.getLast? = some 0x22 then
    (value.drop 1).take (value.length - 2)
  else value

/-- One `name=value`. -/
def readChunk (chunk : Bytes) : Option CookiePair :=
  match chunk.dropWhile (· ≠ 0x3D) with
  | [] => none
  | _ :: value =>
    let name := trimOws (chunk.takeWhile (· ≠ 0x3D))
    if name.isEmpty then none else some (name, unquote (trimOws value))

/-- `parse_cookie_header`, from a place in the header on. -/
def parseCookieHeader (header : Bytes) : List CookiePair :=
  match _h : header.dropWhile isSeparator with
  | [] => []
  | b :: rest =>
    let chunk := (b :: rest).takeWhile (· ≠ 0x3B)
    (readChunk chunk).toList ++ parseCookieHeader ((b :: rest).drop (chunk.length + 1))
termination_by header.length
decreasing_by
  have hle := (List.dropWhile_suffix (l := header) isSeparator).length_le
  rw [_h] at hle
  simp only [List.length_drop, List.length_cons] at hle ⊢
  omega

/-- `get_cookie_value`. -/
def getCookieValue (header name : Bytes) : Bytes :=
  if header.isEmpty ∨ name.isEmpty then []
  else (((parseCookieHeader header).find? fun p => p.1 == name).map Prod.snd).getD []

/-! ## What is meant -/

/-- A name that is kept as it is. -/
structure ValidName (name : Bytes) : Prop where
  ne_nil : name ≠ []
  equals : 0x3D ∉ name
  semicolon : 0x3B ∉ name
  comma : name.head? ≠ some 0x2C
  head : name.head?.any isOws = false
  last : name.getLast?.any isOws = false

/-- A value that is kept as it is. -/
structure ValidValue (value : Bytes) : Prop where
  semicolon : 0x3B ∉ value
  head : value.head?.any isOws = false
  last : value.getLast?.any isOws = false
  quotes : ¬(2 ≤ value.length ∧ value.head? = some 0x22 ∧ value.getLast? = some 0x22)

/-- `name=value`. -/
def pairText (p : CookiePair) : Bytes := p.1 ++ 0x3D :: p.2

/-- The cookies of a header. -/
def join (chunks : List Bytes) : Bytes := (bytes "; ").intercalate chunks

/-- What a browser stores of a `Set-Cookie` header: what stands up to the first `;`. -/
def firstPair (header : Bytes) : Bytes := header.takeWhile (· ≠ 0x3B)

variable {name value chunk header : Bytes} {chunks : List Bytes} {p : CookiePair}

/-! ## One cookie -/

theorem rdropWhile_eq_self {s : Bytes} (h : s.getLast?.any isOws = false) :
    s.rdropWhile isOws = s := by
  refine List.rdropWhile_eq_self_iff.2 fun hne hlast => ?_
  rw [List.getLast?_eq_some_getLast hne, Option.any_some, hlast] at h
  cases h

theorem trimOws_eq_self {s : Bytes} (hhead : s.head?.any isOws = false)
    (hlast : s.getLast?.any isOws = false) : trimOws s = s := by
  have hfirst : s.dropWhile isOws = s := by
    cases s with
    | nil => rfl
    | cons b s => exact List.dropWhile_cons_of_neg (by simpa using hhead)
  rw [trimOws, hfirst, rdropWhile_eq_self hlast]

/-- The name of a pair is kept, whatever its value is. -/
theorem readChunk_of_validName (hname : ValidName name) (value : Bytes) :
    readChunk (pairText (name, value)) = some (name, unquote (trimOws value)) := by
  rw [readChunk, pairText, dropWhile_ne_append hname.equals, takeWhile_ne_append hname.equals]
  dsimp only
  rw [trimOws_eq_self hname.head hname.last,
    if_neg (by simpa using hname.ne_nil)]

theorem readChunk_pair (hname : ValidName name) (hvalue : ValidValue value) :
    readChunk (pairText (name, value)) = some (name, value) := by
  rw [readChunk_of_validName hname, trimOws_eq_self hvalue.head hvalue.last, unquote,
    if_neg hvalue.quotes]

/-! ## The header -/

/-- What the reader takes for one cookie. -/
structure IsChunk (chunk : Bytes) : Prop where
  head : chunk.head?.any (!isSeparator ·) = true
  semicolon : 0x3B ∉ chunk

theorem ValidName.isChunk (hname : ValidName name) (hvalue : 0x3B ∉ value) :
    IsChunk (pairText (name, value)) := by
  obtain ⟨b, s, hb⟩ := List.exists_cons_of_ne_nil hname.ne_nil
  have hsemicolon := hname.semicolon
  have hcomma := hname.comma
  have hows := hname.head
  rw [hb] at hsemicolon hcomma hows
  refine ⟨?_, ?_⟩
  · simp only [isOws, List.head?_cons, Option.any_some, Bool.or_eq_false_iff, beq_eq_false_iff_ne,
      List.mem_cons, not_or, ne_eq, Option.some.injEq] at hows hsemicolon hcomma
    simp [pairText, hb, isSeparator, hows, hcomma, Ne.symm hsemicolon.1]
  · simp [pairText, hname.semicolon, hvalue]

/-- Separators are skipped. -/
theorem parseCookieHeader_separator {b : UInt8} (hb : isSeparator b = true) :
    parseCookieHeader (b :: header) = parseCookieHeader header := by
  rw [parseCookieHeader, parseCookieHeader, List.dropWhile_cons_of_pos hb]

theorem parseCookieHeader_nil : parseCookieHeader [] = [] := by
  rw [parseCookieHeader]
  rfl

/-- Nothing, or what starts with a semicolon. -/
def EndsPair (s : Bytes) : Prop := s = [] ∨ ∃ rest, s = 0x3B :: rest

theorem EndsPair.append {s t : Bytes} (hs : EndsPair s) (ht : EndsPair t) : EndsPair (s ++ t) := by
  rcases hs with rfl | ⟨rest, rfl⟩
  · exact ht
  · exact .inr ⟨rest ++ t, rfl⟩

theorem EndsPair.takeWhile_append {s t : Bytes} (ht : EndsPair t) (hs : 0x3B ∉ s) :
    (s ++ t).takeWhile (· ≠ 0x3B) = s := by
  rcases ht with rfl | ⟨rest, rfl⟩
  · rw [List.append_nil, takeWhile_ne_of_notMem hs]
  · exact takeWhile_ne_append hs

/-- A cookie is read, and the reader goes on behind its end. -/
theorem parseCookieHeader_chunk (hchunk : IsChunk chunk) (hheader : EndsPair header) :
    parseCookieHeader (chunk ++ header) =
      (readChunk chunk).toList ++ parseCookieHeader (header.drop 1) := by
  obtain ⟨hhead, hsemicolon⟩ := hchunk
  cases chunk with
  | nil => cases hhead
  | cons b s =>
    have hskip : (b :: s ++ header).dropWhile isSeparator = b :: (s ++ header) :=
      List.dropWhile_cons_of_neg (by simpa using hhead)
    have htake : (b :: (s ++ header)).takeWhile (· ≠ 0x3B) = b :: s :=
      hheader.takeWhile_append hsemicolon
    have hdrop : (b :: (s ++ header)).drop ((b :: s).length + 1) = header.drop 1 := by
      rw [← List.drop_drop, ← List.cons_append, List.drop_left]
    rw [parseCookieHeader]
    split
    · next h => cases hskip.symm.trans h
    · next h =>
      cases hskip.symm.trans h
      dsimp only
      rw [htake, hdrop]

/-- A header is read cookie by cookie. -/
theorem parseCookieHeader_join (hchunks : ∀ c ∈ chunks, IsChunk c) :
    parseCookieHeader (join chunks) = chunks.filterMap readChunk := by
  induction chunks with
  | nil => exact parseCookieHeader_nil
  | cons c cs ih =>
    have hc := hchunks c List.mem_cons_self
    have ih := ih fun c' hc' => hchunks c' (List.mem_cons_of_mem _ hc')
    have hmap : (c :: cs).filterMap readChunk = (readChunk c).toList ++ cs.filterMap readChunk := by
      rw [List.filterMap_cons]
      cases readChunk c <;> rfl
    cases cs with
    | nil =>
      have h := parseCookieHeader_chunk hc (.inl rfl)
      rw [List.append_nil] at h
      rw [join, List.intercalate_singleton, h, hmap]
      exact congrArg _ parseCookieHeader_nil
    | cons c' cs =>
      have hjoin : join (c :: c' :: cs) = c ++ 0x3B :: 0x20 :: join (c' :: cs) := by
        rw [join, List.intercalate_cons_cons, List.append_assoc]
        rfl
      rw [hjoin, parseCookieHeader_chunk hc (.inr ⟨_, rfl⟩), List.drop_one, List.tail_cons,
        parseCookieHeader_separator rfl, ih, hmap]

/-! ## The cookie that was set -/

/-- `load_config` lets no other name through, but for a tab at an end. -/
theorem validName_of_token (hne : name ≠ []) (htoken : ¬∃ b ∈ name, b ∈ bytes " ;,=\"")
    (hhead : name.head? ≠ some 0x09) (hlast : name.getLast? ≠ some 0x09) : ValidName name := by
  have hout : ∀ b ∈ bytes " ;,=\"", b ∉ name := fun b hb hmem => htoken ⟨b, hmem, hb⟩
  have hends : ∀ o : Option UInt8, (∀ b ∈ o, b ∈ name) → o ≠ some 0x09 →
      o.any isOws = false := by
    intro o ho htab
    cases o with
    | none => rfl
    | some b =>
      have hblank : b ≠ 0x20 := fun h => hout 0x20 (by decide) (h ▸ ho b rfl)
      have htab : b ≠ 0x09 := fun h => htab (congrArg some h)
      simp [isOws, hblank, htab]
  exact
    { ne_nil := hne
      equals := hout 0x3D (by decide)
      semicolon := hout 0x3B (by decide)
      comma := fun h => hout 0x2C (by decide) (List.mem_of_head? h)
      head := hends _ (fun b hb => List.mem_of_head? hb) hhead
      last := hends _ (fun b hb => List.mem_of_getLast? hb) hlast }

theorem endsPair_ite {c : Prop} [Decidable c] {s t : Bytes} (hs : EndsPair s) (ht : EndsPair t) :
    EndsPair (if c then s else t) := by
  split
  · exact hs
  · exact ht

/-- A browser keeps the name and the value. -/
theorem firstPair_buildSetCookieHeader (cfg : CookieConfig) (age : Int)
    (hname : 0x3B ∉ cfg.name) (hvalue : 0x3B ∉ value) :
    firstPair (buildSetCookieHeader cfg value age) = pairText (cfg.name, value) := by
  have hpair : 0x3B ∉ pairText (cfg.name, value) := by simp [pairText, hname, hvalue]
  have hnone : EndsPair [] := .inl rfl
  simp only [firstPair, buildSetCookieHeader, List.append_assoc]
  rw [← List.append_assoc]
  refine EndsPair.takeWhile_append ?_ hpair
  exact (endsPair_ite (.inr ⟨_, rfl⟩) hnone).append <|
    (endsPair_ite hnone (.inr ⟨_, rfl⟩)).append <|
    (endsPair_ite (.inr ⟨_, rfl⟩) hnone).append <|
    (endsPair_ite (.inr ⟨_, rfl⟩) hnone).append <| endsPair_ite hnone (.inr ⟨_, rfl⟩)

/-- A pair with another name is read with that name. -/
theorem readChunk_fst_ne {q : CookiePair} (hname : ValidName p.1) (hne : p.1 ≠ name)
    (hq : readChunk (pairText p) = some q) : q.1 ≠ name := by
  obtain rfl := Option.some.inj ((readChunk_of_validName hname p.2).symm.trans hq)
  exact hne

/-- The first cookie with the name is found. -/
theorem getCookieValue_join {before after : List CookiePair} (hname : ValidName name)
    (hvalue : ValidValue value)
    (hother : ∀ p ∈ before ++ after, ValidName p.1 ∧ 0x3B ∉ p.2 ∧ p.1 ≠ name) :
    getCookieValue (join (before.map pairText ++ pairText (name, value) :: after.map pairText))
      name = value := by
  have hchunks : ∀ c ∈ before.map pairText ++ pairText (name, value) :: after.map pairText,
      IsChunk c := by
    intro c hc
    simp only [List.mem_append, List.mem_cons, List.mem_map] at hc
    rcases hc with ⟨p, hp, rfl⟩ | rfl | ⟨p, hp, rfl⟩
    · exact (hother p (List.mem_append_left _ hp)).1.isChunk
        (hother p (List.mem_append_left _ hp)).2.1
    · exact hname.isChunk hvalue.semicolon
    · exact (hother p (List.mem_append_right _ hp)).1.isChunk
        (hother p (List.mem_append_right _ hp)).2.1
  have hpairs := parseCookieHeader_join hchunks
  rw [List.filterMap_append, List.filterMap_cons_some (readChunk_pair hname hvalue)] at hpairs
  have hbefore :
      ((before.map pairText).filterMap readChunk).find? (fun p => p.1 == name) = none := by
    refine List.find?_eq_none.2 fun q hq => ?_
    obtain ⟨c, hc, hread⟩ := List.mem_filterMap.1 hq
    obtain ⟨p, hp, rfl⟩ := List.mem_map.1 hc
    obtain ⟨hvalid, -, hne⟩ := hother p (List.mem_append_left _ hp)
    simpa using readChunk_fst_ne hvalid hne hread
  have hheader : (join (before.map pairText ++
      pairText (name, value) :: after.map pairText)).isEmpty = false := by
    refine List.isEmpty_eq_false_iff.2 fun h => ?_
    rw [h, parseCookieHeader_nil] at hpairs
    exact List.append_ne_nil_of_right_ne_nil _ (List.cons_ne_nil _ _) hpairs.symm
  rw [getCookieValue, if_neg (by simp [hheader, hname.ne_nil]), hpairs, List.find?_append, hbefore,
    Option.none_or, List.find?_cons_of_pos (by simp)]
  rfl

/-- Plain pairs that are written into a header are read from it in order. The cookie that
    `Set-Cookie` sets is found, wherever a browser puts it among other cookies. -/
theorem cookies_round_trip :
    (∀ ps : List CookiePair, (∀ p ∈ ps, ValidName p.1 ∧ ValidValue p.2) →
      parseCookieHeader (join (ps.map pairText)) = ps) ∧
    ∀ (cfg : CookieConfig) (value : Bytes) (age : Int) (before after : List CookiePair),
      ValidName cfg.name → ValidValue value →
      (∀ p ∈ before ++ after, ValidName p.1 ∧ 0x3B ∉ p.2 ∧ p.1 ≠ cfg.name) →
        getCookieValue (join (before.map pairText ++
          firstPair (buildSetCookieHeader cfg value age) :: after.map pairText)) cfg.name =
            value := by
  refine ⟨fun ps hps => ?_, fun cfg value age before after hname hvalue hother => ?_⟩
  · rw [parseCookieHeader_join, List.filterMap_map]
    · have hread : ∀ p ∈ ps, (readChunk ∘ pairText) p = some p :=
        fun p hp => readChunk_pair (hps p hp).1 (hps p hp).2
      rw [List.filterMap_congr hread, List.filterMap_some]
    · intro c hc
      obtain ⟨p, hp, rfl⟩ := List.mem_map.1 hc
      exact (hps p hp).1.isChunk (hps p hp).2.semicolon
  · rw [firstPair_buildSetCookieHeader cfg age hname.semicolon hvalue.semicolon]
    exact getCookieValue_join hname hvalue hother

/-- Values with `=`, `,` and inner blanks, and an empty one; the cookie of the defaults. -/
theorem cookies_round_trip_default :
    parseCookieHeader (join ([(bytes "a", bytes "x=, y"), (bytes "b c", [])].map pairText)) =
      [(bytes "a", bytes "x=, y"), (bytes "b c", [])] ∧
    getCookieValue (join ([(bytes "a", bytes "\"x\"")].map pairText ++
      firstPair (buildSetCookieHeader {} (bytes "t.o=") 604800) :: [].map pairText))
        (bytes "lc_refresh") = bytes "t.o=" := by
  have ha : ValidName (bytes "a") := by constructor <;> decide
  have hb : ValidName (bytes "b c") := by constructor <;> decide
  have hx : ValidValue (bytes "x=, y") := by constructor <;> decide
  have hnil : ValidValue [] := by constructor <;> decide
  have hname : ValidName (bytes "lc_refresh") := by constructor <;> decide
  have hvalue : ValidValue (bytes "t.o=") := by constructor <;> decide
  refine ⟨cookies_round_trip.1 _ ?_,
    cookies_round_trip.2 {} (bytes "t.o=") 604800 _ [] hname hvalue ?_⟩
  · intro p hp
    rcases List.mem_cons.1 hp with rfl | hp
    · exact ⟨ha, hx⟩
    · obtain rfl := List.mem_singleton.1 hp
      exact ⟨hb, hnil⟩
  · intro p hp
    obtain rfl := List.mem_singleton.1 hp
    exact ⟨ha, by decide, by decide⟩

end LiteCode.Cookies
