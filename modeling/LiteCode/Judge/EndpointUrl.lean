import LiteCode.Config.Numbers
import LiteCode.Lib.Cut

/-!
# The address of the docker daemon

`parse_endpoint_url` of `src/judge/docker_client.h` takes `tcp://host:port` or
`http://host:port/base` apart. It refuses other schemes, credentials, queries and fragments, and
promises a `DockerConfigError` on anything malformed. The port goes through `std::stoi`, which reads
a number at the front of a text: blanks and a sign before it are skipped, and what follows the
digits is left.

* `Grammar`: the urls that are meant, with their endpoints;
* `parseEndpointUrl_text`: a url that is well formed up to its port is parsed as its port is;
* `exists_parts`: nothing else is;
* `Lenient`: the urls with a port that is none; `meets_grammar_iff`: on all other urls the parser
  follows the grammar.
-/

namespace LiteCode.EndpointUrl

open Config (toLower)

/-- What is thrown: `DockerConfigError`, or an exception of `std::stoi`. -/
inductive Exception
  | dockerConfig (what : Bytes)
  | invalidArgument
  | outOfRange
  deriving DecidableEq, Repr

/-- `Endpoint`. -/
structure Endpoint where
  scheme : Bytes := bytes "http"
  host : Bytes := []
  port : UInt16 := 2375
  base : Bytes := bytes "/"
  timeoutMs : Int := 30000
  deriving DecidableEq, Repr

/-- `std::stoi`. -/
def stoiOrThrow (s : Bytes) : Except Exception Int :=
  match integerRest s with
  | none => .error .invalidArgument
  | some (n, _) => if IsInt32 n then .ok n else .error .outOfRange

/-- The port, with `catch (...)`. -/
def parsePort (url portS : Bytes) : Except Exception UInt16 :=
  tryCatch (do
      let p ← stoiOrThrow portS
      if p < 1 ∨ 65535 < p then throw .outOfRange
      pure (UInt16.ofNat p.toNat))
    fun _ => throw (.dockerConfig (bytes "docker endpoint port invalid: '" ++ portS ++
      bytes "' in " ++ url))

/-- `host[:port]`. -/
def parseAuthority (url authority : Bytes) : Except Exception (Bytes × UInt16) :=
  let host := authority.takeWhile (· ≠ 0x3A)
  let missingHost := .error (.dockerConfig (bytes "docker endpoint missing host: " ++ url))
  match authority.dropWhile (· ≠ 0x3A) with
  | [] => if host.isEmpty then missingHost else .ok (host, 2375)
  | _ :: portS =>
    if host.isEmpty then missingHost else (parsePort url portS).map fun port => (host, port)

/-- `parse_endpoint_url`. -/
def parseEndpointUrl (url : Bytes) : Except Exception Endpoint :=
  match cutAt (bytes "://") url with
  | none | some ([], _) =>
    .error (.dockerConfig (bytes "docker endpoint url missing scheme: " ++ url))
  | some (typed, rest) =>
    let scheme := typed.map toLower
    if scheme ≠ bytes "http" ∧ scheme ≠ bytes "tcp" then
      .error (.dockerConfig (bytes "docker endpoint scheme must be http or tcp, got '" ++ scheme ++
        bytes "' in " ++ url))
    else if rest.contains 0x40 then
      .error (.dockerConfig (bytes "docker endpoint url has '@' (no credentials): " ++ url))
    else if rest.contains 0x23 then
      .error (.dockerConfig (bytes "docker endpoint url has fragment: " ++ url))
    else if rest.contains 0x3F then
      .error (.dockerConfig (bytes "docker endpoint url has query string: " ++ url))
    else
      let path := rest.dropWhile (· ≠ 0x2F)
      (parseAuthority url (rest.takeWhile (· ≠ 0x2F))).map fun (host, port) =>
        { scheme, host, port, base := if path.isEmpty then bytes "/" else path }

/-! ## What is meant -/

/-- The parts of a url: `scheme://host[:port][/base]`. -/
structure Parts where
  scheme : Bytes
  host : Bytes
  /-- What follows the colon, if there is one. -/
  port : Option Bytes
  /-- Nothing, or what starts with the first slash. -/
  base : Bytes

namespace Parts

variable (p : Parts)

/-- `host[:port]`. -/
def authority : Bytes := p.host ++ p.port.elim [] (0x3A :: ·)

/-- What follows the scheme. -/
def rest : Bytes := p.authority ++ p.base

/-- The url. -/
def text : Bytes := p.scheme ++ (bytes "://" ++ p.rest)

/-- What the grammar asks of a url, except that its port is one. -/
structure WellFormed : Prop where
  scheme : p.scheme.map toLower = bytes "http" ∨ p.scheme.map toLower = bytes "tcp"
  host_ne_nil : p.host ≠ []
  colon : 0x3A ∉ p.host
  slash : 0x2F ∉ p.authority
  base : p.base = [] ∨ ∃ path, p.base = 0x2F :: path
  sign : 0x40 ∉ p.rest
  fragment : 0x23 ∉ p.rest
  query : 0x3F ∉ p.rest

/-- The endpoint, given the number of its port. -/
def endpoint (port : UInt16) : Endpoint :=
  { scheme := p.scheme.map toLower
    host := p.host
    port
    base := if p.base.isEmpty then bytes "/" else p.base }

end Parts

/-- The text of a port and its number. -/
def IsPort (t : Bytes) (n : UInt16) : Prop :=
  (∀ b ∈ t, Json.isDigit b = true) ∧ 1 ≤ Json.digitsVal t ∧ Json.digitsVal t = n.toNat

/-- The port that an endpoint has. -/
def PortIs (port : Option Bytes) (n : UInt16) : Prop :=
  port.elim (n = 2375) fun t => IsPort t n

/-- The grammar: a url and what it stands for. -/
def Grammar (url : Bytes) (ep : Endpoint) : Prop :=
  ∃ (p : Parts) (n : UInt16), url = p.text ∧ p.WellFormed ∧ PortIs p.port n ∧ ep = p.endpoint n

/-- What the parser takes for a port without its being one: there are blanks or a sign before the
    digits, or something after them. -/
def LenientPort (t : Bytes) : Prop :=
  ∃ (q : Spelling) (junk : Bytes), t = q.text ++ junk ∧ NoDigit junk ∧
    1 ≤ q.value ∧ q.value ≤ 65535 ∧ (q.blanks ≠ [] ∨ q.sign ≠ [] ∨ junk ≠ [])

/-- A url of the grammar but for its port. -/
def Lenient (url : Bytes) : Prop :=
  ∃ (p : Parts) (t : Bytes), url = p.text ∧ p.WellFormed ∧ p.port = some t ∧ LenientPort t

/-! ## The port -/

variable {url t junk : Bytes} {n : UInt16} {e : Exception} {ep : Endpoint} {p q : Parts}

/-- The number of a port is at the front of the text. -/
def Reads (t : Bytes) (n : UInt16) : Prop :=
  ∃ (q : Spelling) (junk : Bytes), t = q.text ++ junk ∧ NoDigit junk ∧ 1 ≤ q.value ∧
    q.value = (n.toNat : Int)

theorem stoiOrThrow_eq_ok_iff {m : Int} : stoiOrThrow t = .ok m ↔
    ∃ (q : Spelling) (junk : Bytes), t = q.text ++ junk ∧ NoDigit junk ∧ q.value = m ∧
      IsInt32 m := by
  constructor
  · intro h
    rw [stoiOrThrow] at h
    split at h
    · cases h
    next k rest hread =>
    obtain ⟨q, ht, rfl, hrest⟩ := integerRest_eq_some_iff.1 hread
    split at h
    · next hk =>
      cases h
      exact ⟨q, rest, ht, hrest, rfl, hk⟩
    · cases h
  · rintro ⟨q, junk, rfl, hjunk, rfl, hm⟩
    rw [stoiOrThrow, q.integerRest_append hjunk]
    exact if_pos hm

theorem parsePort_cases (url t : Bytes) :
    (∃ m, stoiOrThrow t = .ok m ∧ 1 ≤ m ∧ m ≤ 65535 ∧
      parsePort url t = .ok (UInt16.ofNat m.toNat)) ∨
    (∀ m, stoiOrThrow t = .ok m → ¬(1 ≤ m ∧ m ≤ 65535)) ∧
      ∃ what, parsePort url t = .error (.dockerConfig what) := by
  rw [parsePort]
  cases stoiOrThrow t with
  | error e => exact .inr ⟨nofun, _, rfl⟩
  | ok m =>
    by_cases hm : m < 1 ∨ 65535 < m
    · refine .inr ⟨?_, ?_⟩
      · rintro _ ⟨⟩
        omega
      · simp [hm, bind, Except.bind, tryCatch, tryCatchThe, MonadExceptOf.tryCatch, Except.tryCatch,
          throw, throwThe, MonadExceptOf.throw]
    · refine .inl ⟨m, rfl, by omega, by omega, ?_⟩
      simp [hm, bind, Except.bind, tryCatch, tryCatchThe, MonadExceptOf.tryCatch, Except.tryCatch,
        pure, Except.pure]

theorem parsePort_eq_ok_iff : parsePort url t = .ok n ↔ Reads t n := by
  constructor
  · intro h
    obtain ⟨m, hm, hone, hmax, hok⟩ | ⟨-, what, herr⟩ := parsePort_cases url t
    · obtain ⟨q, junk, ht, hjunk, rfl, -⟩ := stoiOrThrow_eq_ok_iff.1 hm
      obtain rfl := Except.ok.inj (hok.symm.trans h)
      refine ⟨q, junk, ht, hjunk, hone, ?_⟩
      rw [UInt16.toNat_ofNat']
      omega
    · cases herr.symm.trans h
  · rintro ⟨q, junk, ht, hjunk, hone, hvalue⟩
    have hmax := n.toNat_lt
    have hm : stoiOrThrow t = .ok q.value :=
      stoiOrThrow_eq_ok_iff.2 ⟨q, junk, ht, hjunk, rfl, by omega, by omega⟩
    obtain ⟨m, hm', -, -, hok⟩ | ⟨hno, -⟩ := parsePort_cases url t
    · obtain rfl := Except.ok.inj (hm'.symm.trans hm)
      rw [hok, hvalue, Int.toNat_natCast, UInt16.ofNat_toNat]
    · exact absurd ⟨hone, by omega⟩ (hno _ hm)

theorem parsePort_error (h : parsePort url t = .error e) : ∃ what, e = .dockerConfig what := by
  obtain ⟨m, -, -, -, hok⟩ | ⟨-, what, herr⟩ := parsePort_cases url t
  · cases hok.symm.trans h
  · exact ⟨what, Except.error.inj (h.symm.trans herr)⟩

/-- The digits of a port are a spelling of their number. -/
theorem IsPort.reads (h : IsPort t n) : Reads t n := by
  obtain ⟨hdigits, hone, hvalue⟩ := h
  have hne : t ≠ [] := by
    rintro rfl
    exact absurd hone (by decide)
  refine ⟨⟨[], [], t, nofun, .inl rfl, hne, hdigits⟩, [], ?_, noDigit_nil, ?_, ?_⟩
  · simp [Spelling.text]
  · simpa [Spelling.value] using Int.ofNat_le.2 hone
  · simpa [Spelling.value] using congrArg Int.ofNat hvalue

/-- What is read is a port, if there is nothing but digits. -/
theorem Reads.cases (h : Reads t n) : IsPort t n ∨ LenientPort t := by
  obtain ⟨q, junk, rfl, hjunk, hone, hvalue⟩ := h
  by_cases hplain : q.blanks = [] ∧ q.sign = [] ∧ junk = []
  · obtain ⟨hblanks, hsign, rfl⟩ := hplain
    have ht : q.text ++ [] = q.digits := by simp [Spelling.text, hblanks, hsign]
    have hv : q.value = Json.digitsVal q.digits := by simp [Spelling.value, hsign]
    rw [ht]
    refine .inl ⟨q.isDigit_digits, ?_, ?_⟩ <;> omega
  · refine .inr ⟨q, junk, rfl, hjunk, hone, ?_, ?_⟩
    · have := n.toNat_lt
      omega
    · by_contra hall
      simp only [not_or, not_not] at hall
      exact hplain hall

theorem LenientPort.reads (h : LenientPort t) : ∃ n, Reads t n := by
  obtain ⟨q, junk, rfl, hjunk, hone, hmax, -⟩ := h
  refine ⟨UInt16.ofNat q.value.toNat, q, junk, rfl, hjunk, hone, ?_⟩
  rw [UInt16.toNat_ofNat']
  omega

/-- A text with blanks, a sign or something after the number has a byte that is no digit. -/
theorem LenientPort.not_isPort (h : LenientPort t) : ¬IsPort t n := by
  obtain ⟨q, junk, rfl, hjunk, -, -, hloose⟩ := h
  rintro ⟨hdigits, -⟩
  simp only [Spelling.text, List.mem_append] at hdigits
  rcases hloose with h | h | h
  · obtain ⟨b, s, hb⟩ := List.exists_cons_of_ne_nil h
    have hmem : b ∈ q.blanks := hb ▸ List.mem_cons_self
    have hspace := q.isSpace_blanks b hmem
    rw [not_isSpace_of_isDigit (hdigits b (.inl (.inl hmem)))] at hspace
    cases hspace
  · rcases q.sign_mem with hs | hs | hs
    · exact h hs
    · cases hdigits 0x2B (.inl (.inr (.inl (hs ▸ List.mem_cons_self))))
    · cases hdigits 0x2D (.inl (.inr (.inl (hs ▸ List.mem_cons_self))))
  · obtain ⟨b, s, rfl⟩ := List.exists_cons_of_ne_nil h
    have hdigit := hdigits b (.inr List.mem_cons_self)
    rw [hjunk b rfl] at hdigit
    cases hdigit

/-! ## The parts -/

theorem colon_notMem_scheme {s : Bytes} (h : s.map toLower = bytes "http" ∨
    s.map toLower = bytes "tcp") : 0x3A ∉ s := by
  intro hmem
  have hlower : 0x3A ∈ s.map toLower := List.mem_map.2 ⟨0x3A, hmem, by decide⟩
  rcases h with h | h <;> rw [h] at hlower <;> exact absurd hlower (by decide)

namespace Parts.WellFormed

variable (hp : p.WellFormed)

include hp

theorem scheme_ne_nil : p.scheme ≠ [] := by
  intro h
  rcases hp.scheme with hs | hs <;> rw [h] at hs <;> exact absurd hs (by decide)

theorem cutAt_text : cutAt (bytes "://") p.text = some (p.scheme, p.rest) :=
  cutAt_append (colon_notMem_scheme hp.scheme)

theorem takeWhile_rest : p.rest.takeWhile (· ≠ 0x2F) = p.authority := by
  rw [Parts.rest]
  rcases hp.base with h | ⟨path, h⟩ <;> rw [h]
  · rw [List.append_nil, takeWhile_ne_of_notMem hp.slash]
  · exact takeWhile_ne_append hp.slash

theorem dropWhile_rest : p.rest.dropWhile (· ≠ 0x2F) = p.base := by
  rw [Parts.rest]
  rcases hp.base with h | ⟨path, h⟩ <;> rw [h]
  · rw [List.append_nil, dropWhile_ne_of_notMem hp.slash]
  · exact dropWhile_ne_append hp.slash

theorem takeWhile_authority : p.authority.takeWhile (· ≠ 0x3A) = p.host := by
  rw [Parts.authority]
  cases p.port with
  | none => rw [Option.elim_none, List.append_nil, takeWhile_ne_of_notMem hp.colon]
  | some t => exact takeWhile_ne_append hp.colon

theorem dropWhile_authority :
    p.authority.dropWhile (· ≠ 0x3A) = p.port.elim [] (0x3A :: ·) := by
  rw [Parts.authority]
  cases p.port with
  | none => rw [Option.elim_none, List.append_nil, dropWhile_ne_of_notMem hp.colon]
  | some t => exact dropWhile_ne_append hp.colon

end Parts.WellFormed

/-- A url has its parts in one way only. -/
theorem Parts.WellFormed.eq_of_text_eq (hp : p.WellFormed) (hq : q.WellFormed)
    (h : p.text = q.text) : p = q := by
  have hcut : some (p.scheme, p.rest) = some (q.scheme, q.rest) := by
    rw [← hp.cutAt_text, h, hq.cutAt_text]
  obtain ⟨hscheme, hrest⟩ := Prod.mk.inj (Option.some.inj hcut)
  have hbase : p.base = q.base := by rw [← hp.dropWhile_rest, hrest, hq.dropWhile_rest]
  have hauthority : p.authority = q.authority := by
    rw [← hp.takeWhile_rest, hrest, hq.takeWhile_rest]
  have hhost : p.host = q.host := by
    rw [← hp.takeWhile_authority, hauthority, hq.takeWhile_authority]
  have hport : p.port.elim [] (0x3A :: ·) = q.port.elim [] (0x3A :: ·) := by
    rw [← hp.dropWhile_authority, hauthority, hq.dropWhile_authority]
  obtain ⟨ps, ph, pp, pb⟩ := p
  obtain ⟨qs, qh, qp, qb⟩ := q
  subst hscheme hhost hbase
  cases pp <;> cases qp <;> cases hport <;> rfl

/-- The parser takes a url apart, and its port is read. -/
theorem parseEndpointUrl_text (hp : p.WellFormed) : parseEndpointUrl p.text =
    (p.port.elim (.ok 2375) (parsePort p.text)).map p.endpoint := by
  have hhost : p.host.isEmpty = false := List.isEmpty_eq_false_iff.2 hp.host_ne_nil
  have hauthority : parseAuthority p.text p.authority =
      (p.port.elim (.ok 2375) (parsePort p.text)).map fun port => (p.host, port) := by
    rw [parseAuthority, hp.takeWhile_authority, hp.dropWhile_authority]
    cases p.port <;> simp [hhost, Except.map]
  have hscheme : ¬(p.scheme.map toLower ≠ bytes "http" ∧ p.scheme.map toLower ≠ bytes "tcp") := by
    have := hp.scheme
    tauto
  rw [parseEndpointUrl, hp.cutAt_text]
  split
  · next h => cases h
  · next h => exact absurd (congrArg Prod.fst (Option.some.inj h)) hp.scheme_ne_nil
  · next h =>
    cases h
    rw [if_neg hscheme, if_neg (by simpa using hp.sign), if_neg (by simpa using hp.fragment),
      if_neg (by simpa using hp.query)]
    simp only [hp.takeWhile_rest, hp.dropWhile_rest, hauthority]
    cases p.port.elim (.ok 2375) (parsePort p.text) <;> rfl

/-- An authority without a host is refused. -/
theorem parseAuthority_cases (url authority : Bytes) :
    (∃ (host : Bytes) (port : Option Bytes), authority = host ++ port.elim [] (0x3A :: ·) ∧
      host ≠ [] ∧ 0x3A ∉ host) ∨
    ∃ what, parseAuthority url authority = .error (.dockerConfig what) := by
  rw [parseAuthority]
  rcases cut_cases 0x3A authority with h | ⟨host, portS, rfl, h⟩
  · simp only [takeWhile_ne_of_notMem h, dropWhile_ne_of_notMem h]
    by_cases hhost : authority = []
    · exact .inr ⟨_, by rw [hhost]; rfl⟩
    · exact .inl ⟨authority, none, (List.append_nil _).symm, hhost, h⟩
  · simp only [takeWhile_ne_append h, dropWhile_ne_append h]
    by_cases hhost : host = []
    · exact .inr ⟨_, by rw [hhost]; rfl⟩
    · exact .inl ⟨host, some portS, rfl, hhost, h⟩

/-- What follows the scheme is an authority and a path that starts with a slash. -/
theorem rest_cases (rest : Bytes) : ∃ base, rest = rest.takeWhile (· ≠ 0x2F) ++ base ∧
    0x2F ∉ rest.takeWhile (· ≠ 0x2F) ∧ (base = [] ∨ ∃ path, base = 0x2F :: path) := by
  rcases cut_cases 0x2F rest with h | ⟨authority, path, rfl, h⟩
  · rw [takeWhile_ne_of_notMem h]
    exact ⟨[], (List.append_nil _).symm, h, .inl rfl⟩
  · rw [takeWhile_ne_append h]
    exact ⟨_, rfl, h, .inr ⟨path, rfl⟩⟩

/-- A url that is not well formed up to its port is refused with a `DockerConfigError`. -/
theorem parseEndpointUrl_cases (url : Bytes) :
    (∃ p : Parts, url = p.text ∧ p.WellFormed) ∨
      ∃ what, parseEndpointUrl url = .error (.dockerConfig what) := by
  -- Each check refuses with a `DockerConfigError`; what passes them all makes up the parts.
  rw [parseEndpointUrl]
  split
  · exact .inr ⟨_, rfl⟩
  · exact .inr ⟨_, rfl⟩
  next typed rest hne hcut =>
  obtain rfl := eq_append_of_cutAt hcut
  dsimp only
  split
  · exact .inr ⟨_, rfl⟩
  next hscheme =>
  split
  · exact .inr ⟨_, rfl⟩
  next hsign =>
  split
  · exact .inr ⟨_, rfl⟩
  next hfragment =>
  split
  · exact .inr ⟨_, rfl⟩
  next hquery =>
  obtain ⟨base, hrest, hslash, hbase⟩ := rest_cases rest
  rcases parseAuthority_cases (typed ++ (bytes "://" ++ rest)) (rest.takeWhile (· ≠ 0x2F)) with
    ⟨host, port, hauthority, hhost, hcolon⟩ | ⟨what, herr⟩
  · have hparts : rest = (Parts.mk typed host port base).rest :=
      hrest.trans (congrArg (· ++ base) hauthority)
    have hlower : typed.map toLower = bytes "http" ∨ typed.map toLower = bytes "tcp" := by tauto
    refine .inl ⟨⟨typed, host, port, base⟩, ?_, hlower, hhost, hcolon, ?_, hbase, ?_, ?_, ?_⟩
    · rw [Parts.text, ← hparts]
    · rw [hauthority] at hslash
      exact hslash
    · rw [← hparts]
      simpa using hsign
    · rw [← hparts]
      simpa using hfragment
    · rw [← hparts]
      simpa using hquery
  · exact .inr ⟨what, by rw [herr]; rfl⟩

/-! ## The parser and the grammar -/

/-- The url is parsed just when the grammar has it, and to what the grammar says; there is no other
    exception than a `DockerConfigError`. -/
def MeetsGrammar (url : Bytes) : Prop :=
  (∀ ep, parseEndpointUrl url = .ok ep ↔ Grammar url ep) ∧
    ∀ e, parseEndpointUrl url = .error e → ∃ what, e = .dockerConfig what

theorem parseEndpointUrl_error (h : parseEndpointUrl url = .error e) :
    ∃ what, e = .dockerConfig what := by
  rcases parseEndpointUrl_cases url with ⟨p, rfl, hp⟩ | ⟨what, herr⟩
  · rw [parseEndpointUrl_text hp] at h
    cases hport : p.port with
    | none =>
      rw [hport] at h
      cases h
    | some t =>
      rw [hport, Option.elim_some] at h
      cases hparse : parsePort p.text t with
      | ok n =>
        rw [hparse] at h
        cases h
      | error e' =>
        rw [hparse] at h
        cases h
        exact parsePort_error hparse
  · exact ⟨what, Except.error.inj (h.symm.trans herr)⟩

/-- What is parsed is a url of the grammar but for its port, which is read. -/
theorem parseEndpointUrl_eq_ok_iff : parseEndpointUrl url = .ok ep ↔
    ∃ (p : Parts) (n : UInt16), url = p.text ∧ p.WellFormed ∧
      p.port.elim (n = 2375) (Reads · n) ∧ ep = p.endpoint n := by
  constructor
  · intro h
    rcases parseEndpointUrl_cases url with ⟨p, rfl, hp⟩ | ⟨what, herr⟩
    · rw [parseEndpointUrl_text hp] at h
      cases hport : p.port with
      | none =>
        rw [hport] at h
        cases h
        exact ⟨p, 2375, rfl, hp, by rw [hport]; rfl, rfl⟩
      | some t =>
        rw [hport, Option.elim_some] at h
        cases hparse : parsePort p.text t with
        | ok n =>
          rw [hparse] at h
          cases h
          exact ⟨p, n, rfl, hp, by rw [hport]; exact parsePort_eq_ok_iff.1 hparse, rfl⟩
        | error e' =>
          rw [hparse] at h
          cases h
    · cases herr.symm.trans h
  · rintro ⟨p, n, rfl, hp, hport, rfl⟩
    rw [parseEndpointUrl_text hp]
    cases h : p.port with
    | none =>
      rw [h] at hport
      cases hport
      rfl
    | some t =>
      rw [h] at hport
      rw [Option.elim_some, parsePort_eq_ok_iff.2 hport]
      rfl

theorem parseEndpointUrl_of_grammar (h : Grammar url ep) : parseEndpointUrl url = .ok ep := by
  obtain ⟨p, n, rfl, hp, hport, rfl⟩ := h
  refine parseEndpointUrl_eq_ok_iff.2 ⟨p, n, rfl, hp, ?_, rfl⟩
  cases h : p.port with
  | none =>
    rw [h] at hport
    exact hport
  | some t =>
    rw [h] at hport
    exact hport.reads

theorem Lenient.not_meetsGrammar (h : Lenient url) : ¬MeetsGrammar url := by
  obtain ⟨p, t, rfl, hp, hport, ht⟩ := h
  rintro ⟨hiff, -⟩
  obtain ⟨n, hn⟩ := ht.reads
  have hok : parseEndpointUrl p.text = .ok (p.endpoint n) :=
    parseEndpointUrl_eq_ok_iff.2 ⟨p, n, rfl, hp, by rw [hport]; exact hn, rfl⟩
  obtain ⟨q, m, htext, hq, hm, -⟩ := (hiff _).1 hok
  obtain rfl := hp.eq_of_text_eq hq htext
  rw [hport] at hm
  exact ht.not_isPort hm

/-- The parser accepts the grammar and nothing else, except on the urls whose port is read from a
    text with blanks, a sign or other bytes around its digits. -/
theorem meets_grammar_iff (url : Bytes) : MeetsGrammar url ↔ ¬Lenient url := by
  refine ⟨fun h hlenient => hlenient.not_meetsGrammar h, fun hstrict =>
    ⟨fun ep => ⟨fun h => ?_, parseEndpointUrl_of_grammar⟩, fun e => parseEndpointUrl_error⟩⟩
  obtain ⟨p, n, rfl, hp, hport, rfl⟩ := parseEndpointUrl_eq_ok_iff.1 h
  refine ⟨p, n, rfl, hp, ?_, rfl⟩
  cases ht : p.port with
  | none =>
    rw [ht] at hport
    exact hport
  | some t =>
    rw [ht] at hport
    rcases hport.cases with hplain | hlenient
    · exact hplain
    · exact absurd ⟨p, t, rfl, hp, ht, hlenient⟩ hstrict

/-- `tcp://h:80abc` is taken for port 80. -/
theorem not_meets_grammar : ¬∀ url, MeetsGrammar url := by
  intro h
  have hlenient : Lenient (bytes "tcp://h:80abc") := by
    refine ⟨⟨bytes "tcp", bytes "h", some (bytes "80abc"), []⟩, _, by decide, ?_, rfl,
      ⟨[], [], bytes "80", nofun, .inl rfl, by decide, List.all_eq_true.1 (by decide)⟩,
      bytes "abc", by decide, ?_, by decide, by decide, .inr (.inr (by decide))⟩
    · exact ⟨.inr (by decide), by decide, by decide, by decide, .inl rfl, by decide, by decide,
        by decide⟩
    · rintro b ⟨⟩
      rfl
  exact hlenient.not_meetsGrammar (h _)

end LiteCode.EndpointUrl
