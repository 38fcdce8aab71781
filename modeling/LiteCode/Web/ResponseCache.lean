import Mathlib.Data.List.AList
import Mathlib.Data.List.TakeWhile
import LiteCode.Lib.System
import LiteCode.Lib.TextDecoder

/-!
# The cache of responses

The read-through cache of `src/web/js/api.js` in the `sessionStorage` of a tab: `cacheBucketKey`,
`tryCacheRead`, `tryCacheWrite` and `invalidateCache`, and what a sign-in, `logout`, `forceSignOut`
and `forceLogout` of `idle-timeout.js` do to it. The storage lives on when a page is left.

The key of an entry is made of a 32-bit hash of the path (`key_collides`), neither a sign-in nor a
sign-out other than `logout` drops the entries (`forceSignOut_leaks`), and the scope of a key starts
with a slash, which the first segment of a path lacks (`found_invalidateCache_segment`). Every entry
keeps the path it was stored for and the number of events before it.

* `Isolated`: what was served from the cache was stored for the same path, and nothing has ended
  this since: no sign-in or sign-out, and no call of `invalidateCache` for all or for its segment;
* `Careful`: a request does not find an entry that was missed, or that has the key of another path;
* `isolated_of_reach`: in a run of such steps the accounts and the paths are isolated, and any other
  step ends this.
-/

namespace LiteCode.ResponseCache

/-! ## Keys -/

/-- `'/'`. -/
def slash : UInt16 := 47

/-- `'?'`. -/
def question : UInt16 := 63

/-- An integer as a double: the nearest one with 53 bits, the even one of two. -/
def toDouble (n : Nat) : Nat :=
  let unit := 2 ^ (n.log2 - 52)
  let q := n / unit
  let r := n % unit
  if unit < 2 * r ∨ (2 * r = unit ∧ q % 2 = 1) then (q + 1) * unit else q * unit

/-- The hash after one more unit. The product is rounded before its low bits are taken. -/
def fold (h : Nat) (c : UInt16) : Nat := toDouble ((h ^^^ c.toNat) * 16777619) % 2 ^ 32

/-- The hash of a string. -/
def hash (id : Units) : Nat := id.foldl fold 2166136261

/-- The last digits in base 36. -/
def digits36 : Nat → Nat → Units
  | 0, _ => []
  | k + 1, n =>
    let d := UInt16.ofNat (if n % 36 < 10 then 48 + n % 36 else 87 + n % 36)
    if n < 36 then [d] else digits36 k (n / 36) ++ [d]

/-- `toString(36)` of an integer of 32 bits. -/
def toString36 (n : Nat) : Units := digits36 7 n

/-- `a || b`. -/
def orElse (a : Option Units) (b : Units) : Units := (a.filter (· ≠ [])).getD b

/-- A request, with what the cache reads of `init` and `opts`. Without a `cacheTtlMs` it is 0. -/
structure Request where
  path : Units
  method : Option Units
  body : Option Units
  cacheTtlMs : Rat
  cacheKey : Option Units
  cacheScope : Option Units
  deriving DecidableEq

/-- `get(path, { cacheTtlMs })`. -/
def Request.get (path : Units) (cacheTtlMs : Rat) : Request :=
  ⟨path, some (units "GET"), none, cacheTtlMs, none, none⟩

/-- What the keys of all entries start with. -/
def bucket : Units := units "litecode:cache:"

/-- `cacheBucketKey`. -/
def cacheBucketKey (r : Request) : Units :=
  let first := (r.path.dropWhile (· = slash)).takeWhile (· ≠ slash)
  let scope := orElse r.cacheScope (slash :: orElse (some first) (units "_root_"))
  let id := orElse r.cacheKey (r.path ++ units "|" ++ orElse r.body [])
  bucket ++ (scope ++ units ":" ++ toString36 (hash id))

/-- The key of a path. -/
def key (path : Units) : Units := cacheBucketKey (.get path 0)

/-- The first segment of a path, without its query. -/
def firstSegment (path : Units) : Units :=
  ((path.takeWhile (· ≠ question)).dropWhile (· = slash)).takeWhile (· ≠ slash)

/-! ## The storage -/

/-- The path that an entry was stored for, and the number of events before. The code keeps
    neither. -/
structure Origin where
  path : Units
  no : Nat
  deriving DecidableEq

/-- An entry. -/
structure Entry (V : Type) where
  ts : Nat
  data : V
  requestId : Option Units
  origin : Origin
  deriving DecidableEq

/-- An item of the storage: the user, or an entry of the cache. -/
inductive Item (V : Type)
  | user (user : V)
  | entry (e : Entry V)
  deriving DecidableEq

/-- An item that is read as an entry. The user has no `ts`. -/
def Item.entry? {V : Type} : Item V → Option (Entry V)
  | .user _ => none
  | .entry e => some e

/-- The storage of a tab. -/
abbrev Storage (V : Type) := AList fun _ : Units => Item V

/-- `STORAGE_KEY_USER`. -/
def storageKeyUser : Units := units "litecode:user"

variable {V : Type}

/-- The entry under a key. -/
def Storage.found (ss : Storage V) (k : Units) : Option (Entry V) :=
  (ss.lookup k).bind Item.entry?

/-- A response of the server; the data is `none` if it is falsy. -/
structure Response (V : Type) where
  status : Nat
  data : Option V
  requestId : Option Units
  deriving DecidableEq

/-- A response from the cache. -/
structure Cached (V : Type) where
  data : V
  requestId : Option Units
  cachedAgeMs : Int
  origin : Origin
  deriving DecidableEq

/-- The entry is not too old. -/
def Entry.Fresh (e : Entry V) (cacheTtlMs : Rat) (now : Nat) : Prop :=
  e.ts ≠ 0 ∧ 0 ≤ (now : Int) - e.ts ∧ (((now : Int) - e.ts : Int) : Rat) ≤ cacheTtlMs

instance (e : Entry V) (cacheTtlMs : Rat) (now : Nat) : Decidable (e.Fresh cacheTtlMs now) :=
  inferInstanceAs (Decidable (_ ∧ _ ∧ _))

/-- The request may be answered by the cache. -/
def Request.Caches (r : Request) : Prop :=
  0 < r.cacheTtlMs ∧ orElse r.method (units "GET") = units "GET"

instance (r : Request) : Decidable r.Caches := inferInstanceAs (Decidable (_ ∧ _))

/-- `tryCacheRead`. -/
def tryCacheRead (ss : Storage V) (r : Request) (now : Nat) : Option (Cached V) :=
  if r.Caches then
    (ss.found (cacheBucketKey r)).bind fun e =>
      if e.Fresh r.cacheTtlMs now then
        some ⟨e.data, e.requestId.filter (· ≠ []), (now : Int) - e.ts, e.origin⟩
      else none
  else none

/-- `tryCacheWrite`; there may be no room. -/
def tryCacheWrite (ss : Storage V) (r : Request) (resp : Response V) (now : Nat) (room : Bool)
    (no : Nat) : Storage V :=
  if r.Caches ∧ resp.status = 200 ∧ room = true then
    match resp.data with
    | none => ss
    | some data =>
      ss.insert (cacheBucketKey r)
        (.entry ⟨now, data, resp.requestId.filter (· ≠ []), ⟨r.path, no⟩⟩)
  else ss

/-- What the keys that `invalidateCache` deletes start with. -/
def bucketOf (scope : Option Units) : Units :=
  match orElse scope [] with
  | [] => bucket
  | name => bucket ++ (name ++ units ":")

/-- `invalidateCache`, with the number of entries deleted. -/
def invalidateCache (ss : Storage V) (scope : Option Units) : Storage V × Nat :=
  let toDelete := ss.keys.filter (bucketOf scope).isPrefixOf
  (toDelete.foldl (fun ss k => ss.erase k) ss, toDelete.length)

/-- `writeCachedUser`. -/
def writeCachedUser (ss : Storage V) (user : Option V) : Storage V :=
  match user with
  | some user => ss.insert storageKeyUser (.user user)
  | none => ss.erase storageKeyUser

/-- `clearAuthLocal`. -/
def clearAuthLocal (ss : Storage V) : Storage V := ss.erase storageKeyUser

/-! ## Steps -/

/-- What ends an account session, or what was stored for it. -/
inductive Event
  /-- `login` or `register`. -/
  | signIn
  | logout
  | forceSignOut
  | idleLogout
  | invalidateCache (scope : Option Units)
  deriving DecidableEq

/-- A request that the cache has answered, and the events between the storing and the answer. -/
structure Hit (V : Type) where
  path : Units
  response : Cached V
  since : List Event
  deriving DecidableEq

/-- A tab: its storage, the variable of its page, the cached requests that are under way, and a
    record of the events and of what the cache has served. -/
structure State (V : Type) where
  storage : Storage V
  redirectInFlight : Bool
  requests : List (Option (Units × Rat))
  events : List Event
  served : List (Hit V)

/-- What happens in a tab. -/
inductive Action (V : Type)
  | get (path : Units) (cacheTtlMs : Rat) (now : Nat)
  /-- An answer; `none` if it is an error, also after a refresh. -/
  | answer (i : Nat) (resp : Option (Response V)) (now : Nat) (room : Bool)
  | signIn (user : Option V)
  | logout
  | forceSignOut
  | idleLogout
  | invalidateCache (scope : Option Units)
  /-- Another page is loaded. -/
  | load

/-- The start of `fetchWithAutoRefresh` for a cached request. -/
def get (s : State V) (path : Units) (cacheTtlMs : Rat) (now : Nat) : State V :=
  match tryCacheRead s.storage (.get path cacheTtlMs) now with
  | some resp =>
    { s with served := s.served ++ [⟨path, resp, s.events.drop resp.origin.no⟩] }
  | none => { s with requests := s.requests ++ [some (path, cacheTtlMs)] }

/-- Its end. -/
def answered (s : State V) (i : Nat) (path : Units) (cacheTtlMs : Rat) (resp : Option (Response V))
    (now : Nat) (room : Bool) : State V :=
  let s := { s with requests := s.requests.set i none }
  match resp with
  | none => s
  | some resp => { s with
      storage := tryCacheWrite s.storage (.get path cacheTtlMs) resp now room s.events.length }

/-- An event, and what is left in the storage. -/
def State.after (s : State V) (event : Event) (storage : Storage V) : State V :=
  { s with storage, events := s.events ++ [event] }

/-- `forceSignOut`. -/
def forceSignOut (s : State V) : State V :=
  if s.redirectInFlight then s
  else { s.after .forceSignOut (clearAuthLocal s.storage) with redirectInFlight := true }

/-- The last callback of `logout`. -/
def logout (s : State V) : State V :=
  s.after .logout (invalidateCache (clearAuthLocal s.storage) none).1

/-- `forceLogout`. The functions that it looks for in `auth` are not there. -/
def forceLogout (s : State V) : State V :=
  s.after .idleLogout (s.storage.erase (units "litecode.access_token"))

/-- One step. -/
def step (s : State V) : Action V → Option (State V)
  | .get path cacheTtlMs now => some (get s path cacheTtlMs now)
  | .answer i resp now room => s.requests[i]?.bind fun r => r.map fun (path, cacheTtlMs) =>
    answered s i path cacheTtlMs resp now room
  | .signIn user => some (s.after .signIn (writeCachedUser s.storage user))
  | .logout => some (logout s)
  | .forceSignOut => some (forceSignOut s)
  | .idleLogout => some (forceLogout s)
  | .invalidateCache scope =>
    some (s.after (.invalidateCache scope) (invalidateCache s.storage scope).1)
  | .load => some { s with redirectInFlight := false, requests := [] }

/-- A new tab. -/
def tab : System (State V) (Action V) where
  init s := s = ⟨∅, false, [], [], []⟩
  step := step

/-! ## The promise -/

/-- After the event nothing of the path is to be served that was stored before. -/
def Event.Ends (path : Units) : Event → Prop
  | .invalidateCache scope => orElse scope [] = [] ∨ orElse scope [] = firstSegment path
  | _ => True

/-- What was served was stored for the same path, and no event has ended it. -/
def Isolated (s : State V) : Prop :=
  ∀ h ∈ s.served, h.response.origin.path = h.path ∧ ∀ event ∈ h.since, ¬event.Ends h.path

/-- The event is one of those that should end what was stored for the path, but delete nothing. -/
def Event.Misses (path : Units) : Event → Prop
  | .logout => False
  | .invalidateCache scope => orElse scope [] ≠ [] ∧ orElse scope [] = firstSegment path
  | _ => True

/-- A request that is harmless: a fresh entry under its key is not of another path whose key is the
    same, and no event has missed it. -/
def Careful (s : State V) : Action V → Prop
  | .get path cacheTtlMs now => 0 < cacheTtlMs → ∀ e ∈ s.storage.found (key path),
    e.Fresh cacheTtlMs now → (key e.origin.path = key path → e.origin.path = path) ∧
      ∀ event ∈ s.events.drop e.origin.no, ¬event.Misses path
  | _ => True

instance (path : Units) : (event : Event) → Decidable (event.Misses path)
  | .logout => isFalse id
  | .invalidateCache scope =>
    inferInstanceAs (Decidable (orElse scope [] ≠ [] ∧ orElse scope [] = firstSegment path))
  | .signIn | .forceSignOut | .idleLogout => isTrue trivial

instance (s : State V) : (a : Action V) → Decidable (Careful s a)
  | .get path cacheTtlMs now => inferInstanceAs (Decidable (0 < cacheTtlMs →
      ∀ e ∈ s.storage.found (key path), e.Fresh cacheTtlMs now →
        (key e.origin.path = key path → e.origin.path = path) ∧
          ∀ event ∈ s.events.drop e.origin.no, ¬event.Misses path))
  | .answer .. | .signIn _ | .logout | .forceSignOut | .idleLogout | .invalidateCache _ | .load =>
    isTrue trivial

/-! ## What the functions do to the storage -/

variable {ss : Storage V} {k : Units} {e : Entry V} {s s' : State V} {a : Action V}

theorem found_erase (ss : Storage V) (k k' : Units) :
    Storage.found (ss.erase k') k = if k = k' then none else ss.found k := by
  rw [Storage.found]
  split_ifs with h
  · rw [h, AList.lookup_erase, Option.bind_none]
  · rw [AList.lookup_erase_ne h, Storage.found]

theorem found_insert (ss : Storage V) (k k' : Units) (item : Item V) :
    Storage.found (ss.insert k' item) k = if k = k' then item.entry? else ss.found k := by
  rw [Storage.found]
  split_ifs with h
  · rw [h, AList.lookup_insert, Option.bind_some]
  · rw [AList.lookup_insert_ne h, Storage.found]

theorem found_foldl_erase (l : List Units) (ss : Storage V) (k : Units) :
    Storage.found (l.foldl (fun ss k => ss.erase k) ss) k =
      if k ∈ l then none else ss.found k := by
  induction l generalizing ss with
  | nil => simp
  | cons k' l ih =>
    rw [List.foldl_cons, ih, found_erase]
    by_cases hl : k ∈ l
    · simp [hl]
    · simp [hl]

/-- The entries that `invalidateCache` leaves. -/
theorem found_invalidateCache (ss : Storage V) (scope : Option Units) (k : Units) :
    (invalidateCache ss scope).1.found k =
      if (bucketOf scope).isPrefixOf k then none else ss.found k := by
  rw [invalidateCache, found_foldl_erase]
  by_cases hk : (bucketOf scope).isPrefixOf k
  · rw [if_pos hk]
    split_ifs with hmem
    · rfl
    · have hnone : ss.lookup k = none := by
        rw [AList.lookup_eq_none]
        exact fun hm => hmem (List.mem_filter.2 ⟨AList.mem_keys.1 hm, hk⟩)
      rw [Storage.found, hnone, Option.bind_none]
  · rw [if_neg hk, if_neg fun hmem => hk (List.mem_filter.1 hmem).2]

theorem orElse_some {a b : Units} (h : a ≠ []) : orElse (some a) b = a := by
  rw [orElse, Option.filter_some, if_pos (by simpa using h), Option.getD_some]

/-- A key is `bucket`, the scope and the hash. -/
theorem key_eq (path : Units) : ∃ segment rest,
    key path = bucket ++ (slash :: segment ++ units ":" ++ rest) :=
  ⟨_, _, rfl⟩

/-- Without a name everything is deleted. -/
theorem found_invalidateCache_key (ss : Storage V) {scope : Option Units}
    (h : orElse scope [] = []) (path : Units) :
    (invalidateCache ss scope).1.found (key path) = none := by
  obtain ⟨segment, rest, hkey⟩ := key_eq path
  rw [found_invalidateCache, bucketOf, h, hkey, if_pos]
  exact List.isPrefixOf_iff_prefix.2 (List.prefix_append _ _)

/-- With a name that does not start with a slash, such as the first segment of a path, nothing is
    deleted. -/
theorem found_invalidateCache_name (ss : Storage V) {scope : Option Units}
    (h : orElse scope [] ≠ []) (hslash : (orElse scope []).head? ≠ some slash) (path : Units) :
    (invalidateCache ss scope).1.found (key path) = ss.found (key path) := by
  obtain ⟨segment, rest, hkey⟩ := key_eq path
  rw [found_invalidateCache, if_neg]
  intro hstart
  have hstart := List.isPrefixOf_iff_prefix.1 hstart
  rw [bucketOf, hkey] at hstart
  match hname : orElse scope [] with
  | [] => exact h hname
  | c :: name =>
    simp only [hname, List.prefix_append_right_inj] at hstart
    obtain ⟨t, ht⟩ := hstart
    have hc : c = slash := by simpa using congrArg List.head? ht
    exact hslash (by rw [hname, hc, List.head?_cons])

/-- The first segment of a path is such a name. -/
theorem found_invalidateCache_segment (ss : Storage V) {path : Units} (h : firstSegment path ≠ [])
    (path' : Units) :
    (invalidateCache ss (some (firstSegment path))).1.found (key path') = ss.found (key path') := by
  have hname : orElse (some (firstSegment path)) [] = firstSegment path := orElse_some h
  refine found_invalidateCache_name ss (by rwa [hname]) ?_ path'
  rw [hname]
  intro hhead
  have hslash := List.mem_takeWhile_imp (List.mem_of_mem_head? hhead)
  simp at hslash

/-! ## The invariant -/

/-- The event deletes every entry. -/
def Event.Clears : Event → Prop
  | .logout => True
  | .invalidateCache scope => orElse scope [] = []
  | _ => False

theorem Event.ends_iff {event : Event} {path : Units} :
    event.Ends path ↔ event.Misses path ∨ event.Clears := by
  cases event with
  | invalidateCache scope =>
    simp only [Event.Ends, Event.Misses, Event.Clears]
    tauto
  | _ => simp [Event.Ends, Event.Misses, Event.Clears]

/-- Every entry is under the key of the path that it was stored for, and no event since has deleted
    every entry. -/
def Inv (s : State V) : Prop :=
  ∀ k e, s.storage.found k = some e → k = key e.origin.path ∧ e.origin.no ≤ s.events.length ∧
    ∀ event ∈ s.events.drop e.origin.no, ¬event.Clears

/-- An event that leaves some of the entries, and none if it deletes them all. -/
theorem Inv.after (h : Inv s) {event : Event}
    (hsub : ∀ k e, ss.found k = some e → s.storage.found k = some e)
    (hclears : event.Clears → ∀ path, ss.found (key path) = none) : Inv (s.after event ss) := by
  intro k e he
  obtain ⟨hk, hno, hevents⟩ := h k e (hsub k e he)
  refine ⟨hk, ?_, fun event' hmem => ?_⟩
  · rw [State.after, List.length_append]
    exact Nat.le_add_right_of_le hno
  · rw [State.after, List.drop_append_of_le_length hno] at hmem
    rcases List.mem_append.1 hmem with hmem | hmem
    · exact hevents event' hmem
    · obtain rfl := List.mem_singleton.1 hmem
      intro hc
      have hnone : ss.found k = none := hk ▸ hclears hc _
      cases hnone.symm.trans he

theorem found_of_erase {k' : Units} (h : Storage.found (ss.erase k') k = some e) :
    ss.found k = some e := by
  rw [found_erase] at h
  split_ifs at h
  exact h

theorem found_of_writeCachedUser {user : Option V}
    (h : (writeCachedUser ss user).found k = some e) : ss.found k = some e := by
  cases user with
  | none => exact found_of_erase h
  | some user =>
    rw [writeCachedUser, found_insert] at h
    split_ifs at h
    · cases h
    · exact h

theorem found_of_invalidateCache {scope : Option Units}
    (h : (invalidateCache ss scope).1.found k = some e) : ss.found k = some e := by
  rw [found_invalidateCache] at h
  split_ifs at h
  exact h

/-- An entry after `tryCacheWrite` is an old one or the new one. -/
theorem found_of_tryCacheWrite {r : Request} {resp : Response V} {now no : Nat} {room : Bool}
    (h : (tryCacheWrite ss r resp now room no).found k = some e) :
    ss.found k = some e ∨ (k = cacheBucketKey r ∧ e.origin = ⟨r.path, no⟩) := by
  rw [tryCacheWrite] at h
  split_ifs at h with hw
  · cases hdata : resp.data with
    | none =>
      rw [hdata] at h
      exact .inl h
    | some data =>
      simp only [hdata, found_insert] at h
      split_ifs at h with hk
      · cases h
        exact .inr ⟨hk, rfl⟩
      · exact .inl h
  · exact .inl h

theorem Inv.answered (h : Inv s) {i now : Nat} {path : Units} {cacheTtlMs : Rat}
    {resp : Option (Response V)} {room : Bool} :
    Inv (answered s i path cacheTtlMs resp now room) := by
  match resp with
  | none => exact h
  | some resp =>
    intro k e he
    rcases found_of_tryCacheWrite he with he | ⟨hk, ho⟩
    · exact h k e he
    · rw [ho]
      refine ⟨hk, le_rfl, fun event hmem => ?_⟩
      change event ∈ s.events.drop s.events.length at hmem
      simp at hmem

theorem Inv.get (h : Inv s) {path : Units} {cacheTtlMs : Rat} {now : Nat} :
    Inv (get s path cacheTtlMs now) := by
  rw [ResponseCache.get]
  split <;> exact h

theorem Inv.step (h : Inv s) (hs : step s a = some s') : Inv s' := by
  cases a with
  | get path cacheTtlMs now =>
    cases hs
    exact h.get
  | answer i resp now room =>
    obtain ⟨r, -, hs⟩ := Option.bind_eq_some_iff.1 hs
    obtain ⟨r, -, rfl⟩ := Option.map_eq_some_iff.1 hs
    exact h.answered
  | signIn user =>
    cases hs
    exact h.after (fun _ _ => found_of_writeCachedUser) fun hc => hc.elim
  | logout =>
    cases hs
    exact h.after (fun _ _ he => found_of_erase (found_of_invalidateCache he))
      fun _ => found_invalidateCache_key _ rfl
  | forceSignOut =>
    cases hs
    rw [forceSignOut]
    split_ifs
    · exact h
    · exact h.after (fun _ _ => found_of_erase) fun hc => hc.elim
  | idleLogout =>
    cases hs
    exact h.after (fun _ _ => found_of_erase) fun hc => hc.elim
  | invalidateCache scope =>
    cases hs
    exact h.after (fun _ _ => found_of_invalidateCache) fun hc => found_invalidateCache_key _ hc
  | load =>
    cases hs
    exact h

/-! ## Runs -/

/-- What the cache serves. -/
theorem tryCacheRead_get (ss : Storage V) (path : Units) (cacheTtlMs : Rat) (now : Nat) :
    (tryCacheRead ss (.get path cacheTtlMs) now = none ∧
      (0 < cacheTtlMs → ∀ e ∈ ss.found (key path), ¬e.Fresh cacheTtlMs now)) ∨
    ∃ e resp, 0 < cacheTtlMs ∧ ss.found (key path) = some e ∧ e.Fresh cacheTtlMs now ∧
      tryCacheRead ss (.get path cacheTtlMs) now = some resp ∧ resp.origin = e.origin := by
  have hcaches : (Request.get path cacheTtlMs).Caches ↔ 0 < cacheTtlMs :=
    and_iff_left (orElse_some (by decide +kernel))
  have hkey : cacheBucketKey (.get path cacheTtlMs) = key path := rfl
  rw [tryCacheRead, hkey]
  by_cases httl : 0 < cacheTtlMs
  · rw [if_pos (hcaches.2 httl)]
    cases hf : ss.found (key path) with
    | none => exact .inl ⟨rfl, fun _ e he => by cases he⟩
    | some e =>
      rw [Option.bind_some]
      by_cases hfresh : e.Fresh cacheTtlMs now
      · exact .inr ⟨e, _, httl, rfl, hfresh, if_pos hfresh, rfl⟩
      · refine .inl ⟨if_neg hfresh, fun _ e' he => ?_⟩
        obtain rfl := Option.some.inj he
        exact hfresh
  · exact .inl ⟨if_neg fun hc => httl (hcaches.1 hc), fun hc => absurd hc httl⟩

/-- A request keeps what was served isolated exactly if it is careful. -/
theorem Inv.get_iff (h : Inv s) (hi : Isolated s) {path : Units} {cacheTtlMs : Rat} {now : Nat} :
    Isolated (ResponseCache.get s path cacheTtlMs now) ↔ Careful s (.get path cacheTtlMs now) := by
  rw [ResponseCache.get]
  rcases tryCacheRead_get s.storage path cacheTtlMs now with
    ⟨hnone, hstale⟩ | ⟨e, resp, httl, hfound, hfresh, hsome, horigin⟩
  · rw [hnone]
    exact iff_of_true hi fun httl e he hfresh => absurd hfresh (hstale httl e he)
  · obtain ⟨hkey, -, hclears⟩ := h _ e hfound
    rw [hsome]
    -- the entry is under its own key, and only the events that delete nothing have come since
    have hmissed : (∀ event ∈ s.events.drop e.origin.no, ¬event.Ends path) ↔
        ∀ event ∈ s.events.drop e.origin.no, ¬event.Misses path := by
      refine forall₂_congr fun event hmem => ?_
      rw [Event.ends_iff, or_iff_left (hclears event hmem)]
    have hcareful : Careful s (.get path cacheTtlMs now) ↔ e.origin.path = path ∧
        ∀ event ∈ s.events.drop e.origin.no, ¬event.Misses path := by
      simp [Careful, httl, hfound, hfresh, hkey.symm]
    rw [hcareful, ← hmissed, ← horigin]
    constructor
    · intro hafter
      exact hafter _ (List.mem_append_right _ (List.mem_singleton_self _))
    · intro hlast hit hmem
      rcases List.mem_append.1 hmem with hmem | hmem
      · exact hi hit hmem
      · rw [List.mem_singleton.1 hmem]
        exact hlast

/-- A step keeps what was served isolated exactly if it is careful. -/
theorem Inv.step_iff (h : Inv s) (hi : Isolated s) (hs : ResponseCache.step s a = some s') :
    Isolated s' ↔ Careful s a := by
  cases a with
  | get path cacheTtlMs now =>
    cases hs
    exact h.get_iff hi
  | answer i resp now room =>
    obtain ⟨r, -, hs⟩ := Option.bind_eq_some_iff.1 hs
    obtain ⟨r, -, rfl⟩ := Option.map_eq_some_iff.1 hs
    cases resp <;> exact iff_of_true hi trivial
  | forceSignOut =>
    cases hs
    refine iff_of_true ?_ trivial
    rw [forceSignOut]
    split_ifs <;> exact hi
  | _ =>
    cases hs
    exact iff_of_true hi trivial

/-- In a run of careful steps everything that the cache has served was stored for the same path and
    query, in the same account session and after the last call of `invalidateCache` that is about
    it; and a step that is not careful ends this. -/
theorem isolated_of_reach (s : State V) (h : tab.Reach Careful s) :
    Isolated s ∧ ∀ a s', tab.step s a = some s' → (Isolated s' ↔ Careful s a) := by
  have hinv : Inv s ∧ Isolated s := by
    refine h.invariant (P := fun t => Inv t ∧ Isolated t) ?_
      fun t a t' ht hg hs => ⟨ht.1.step hs, (ht.1.step_iff ht.2 hs).2 hg⟩
    rintro _ rfl
    exact ⟨fun k e he => by simp [Storage.found] at he, fun hit hmem => by simp at hmem⟩
  exact ⟨hinv.2, fun a s' => hinv.1.step_iff hinv.2⟩

/-- A response with some data. -/
def found200 (data : Units) : Option (Response Units) := some ⟨200, some data, none⟩

/-- Two users sign in one after the other, and each of them is served what was stored for them. -/
theorem isolated_of_reach_logout : ∃ s : State Units,
    s.served.map (fun h => h.response.data) = [units "a", units "b"] ∧ Isolated s := by
  obtain ⟨s, hl, hs⟩ := System.exists_exec_of_runGuarded
    (S := tab) (G := Careful) (s := ⟨∅, false, [], [], []⟩)
    (l := [.signIn (some (units "A")), .get (units "/checkin/stats") 60000 1,
      .answer 0 (found200 (units "a")) 2 true, .get (units "/checkin/stats") 60000 3, .logout,
      .load, .signIn (some (units "B")), .get (units "/checkin/stats") 60000 4,
      .answer 0 (found200 (units "b")) 5 true, .get (units "/checkin/stats") 60000 6])
    (p := fun s => s.served.map (fun h => h.response.data) = [units "a", units "b"])
    (by decide +kernel)
  exact ⟨s, of_decide_eq_true hs, (isolated_of_reach s ⟨_, _, rfl, hl⟩).1⟩

/-- Not so after a forced sign-out: the second user is served what was stored for the first. -/
theorem forceSignOut_leaks : ∃ s : State Units, tab.Reach System.Always s ∧ ¬Isolated s := by
  obtain ⟨s, hl, hs⟩ := System.exists_exec_of_run
    (S := tab) (s := ⟨∅, false, [], [], []⟩)
    (l := [.signIn (some (units "A")), .get (units "/checkin/stats") 60000 1,
      .answer 0 (found200 (units "a")) 2 true, .forceSignOut, .load,
      .signIn (some (units "B")), .get (units "/checkin/stats") 60000 4])
    (p := fun s => s.served =
      [⟨units "/checkin/stats", ⟨units "a", none, 2, ⟨units "/checkin/stats", 1⟩⟩,
        [.forceSignOut, .signIn]⟩])
    (by decide +kernel)
  refine ⟨s, ⟨_, _, rfl, hl⟩, fun hi => ?_⟩
  have hhit := hi _ (of_decide_eq_true hs ▸ List.mem_singleton_self _)
  exact hhit.2 .signIn (by simp) trivial

/-- Not so after `invalidateCache('problems')`. -/
theorem invalidateCache_leaves : ∃ s : State Units, tab.Reach System.Always s ∧ ¬Isolated s := by
  obtain ⟨s, hl, hs⟩ := System.exists_exec_of_run
    (S := tab) (s := ⟨∅, false, [], [], []⟩)
    (l := [.get (units "/problems/7") 60000 1, .answer 0 (found200 (units "a")) 2 true,
      .invalidateCache (some (units "problems")), .get (units "/problems/7") 60000 4])
    (p := fun s => s.served =
      [⟨units "/problems/7", ⟨units "a", none, 2, ⟨units "/problems/7", 0⟩⟩,
        [.invalidateCache (some (units "problems"))]⟩])
    (by decide +kernel)
  refine ⟨s, ⟨_, _, rfl, hl⟩, fun hi => ?_⟩
  have hhit := hi _ (of_decide_eq_true hs ▸ List.mem_singleton_self _)
  exact hhit.2 _ (List.mem_singleton_self _) (.inr (by decide +kernel))

/-- And two paths may have the same key. -/
theorem key_collides : ∃ s : State Units, tab.Reach System.Always s ∧ ¬Isolated s := by
  obtain ⟨s, hl, hs⟩ := System.exists_exec_of_run
    (S := tab) (s := ⟨∅, false, [], [], []⟩)
    (l := [.get (units "/problems/6620") 60000 1, .answer 0 (found200 (units "a")) 2 true,
      .get (units "/problems/17380") 60000 4])
    (p := fun s => s.served =
      [⟨units "/problems/17380", ⟨units "a", none, 2, ⟨units "/problems/6620", 0⟩⟩, []⟩])
    (by decide +kernel)
  refine ⟨s, ⟨_, _, rfl, hl⟩, fun hi => ?_⟩
  have hhit := hi _ (of_decide_eq_true hs ▸ List.mem_singleton_self _)
  exact absurd hhit.1 (by decide +kernel)

end LiteCode.ResponseCache
