import LiteCode.Auth.Replay

/-!
# Rotating a refresh token once

Concurrent calls of `rotate_token_pair` with one token: each looks the token up and revokes it,
in two operations of the store. Two calls that both look it up before either has revoked it both
succeed.

* `Orderly`: the steps without such an overlap, where no token is looked up after its entry has
  ended;
* `rotated_once`: in every execution of such steps, at most one call succeeds for each token.
-/

namespace LiteCode.RefreshToken

/-- The token of a rotation that has looked it up and not yet revoked it. -/
def Call.pending : Call → Option Claims
  | .rotate _ (.unrevoked c) => some c
  | .rotate _ (.timed c _) => some c
  | _ => none

/-- The steps where no call looks a token up between the look-up and the revocation of another
    one, or after the entry that another one has made for it has ended. -/
def Orderly (p : Setting) (s : State) : Action → Prop
  | .lookup i => ∀ call ∈ s.calls[i]?, ∀ c ∈ call.claims, ∀ other ∈ s.calls,
      other.pending ≠ some c ∧ (other.retired = some c → s.store.Holds (p.steady s) c.jti)
  | _ => True

instance (p : Setting) (s : State) : (a : Action) → Decidable (Orderly p s a)
  | .lookup i => inferInstanceAs (Decidable (∀ call ∈ s.calls[i]?, _))
  | .blacklist _ _ => isTrue trivial
  | .tick _ => isTrue trivial
  | .issue _ _ _ => isTrue trivial
  | .rotate _ _ _ => isTrue trivial
  | .revoke _ _ _ _ => isTrue trivial
  | .time _ => isTrue trivial
  | .sign _ _ => isTrue trivial
  | .purge => isTrue trivial

variable {p : Setting} {s s' : State} {a : Action} {c : Claims} {call : Call}

/-- The entries of the store are for tokens with a `jti`. -/
theorem Step.named (h : s.store.Named) (hs : Step p s a s') : s'.store.Named := by
  cases hs with
  | found => exact fun x hx => h x (Store.mem_isRevoked hx)
  | passed => exact fun x hx => h x (Store.mem_isRevoked hx)
  | blacklisted => exact h.revoke
  | purged => exact fun x hx => h x (List.mem_filter.1 hx).1
  | _ => exact h

/-- A call that found the token unrevoked has yet to revoke it, or has done so. -/
theorem Call.pending_or_retired (h : call.passed = some c) :
    call.pending = some c ∨ call.retired = some c := by
  cases call with
  | rotate args pc => cases pc <;> first | exact .inl h | exact .inr h
  | revoke maxTtl pc => cases h

/-- At most one call got past the look-up, for each token. -/
def Single (calls : List Call) : Prop :=
  ∀ (i j : Nat) (x y : Call) (c : Claims), calls[i]? = some x → calls[j]? = some y →
    x.passed = some c → y.passed = some c → i = j

/-- A call that got past the look-up before is still the only one. -/
theorem Single.set {calls : List Call} {i : Nat} {old new : Call} (h : Single calls)
    (hi : calls[i]? = some old)
    (hp : ∀ c, new.passed = some c → old.passed = some c ∨ ∀ x ∈ calls, x.passed ≠ some c) :
    Single (calls.set i new) := by
  -- the call at an index of the new list, as one of the old list
  have hold : ∀ (j : Nat) (x : Call) c, (calls.set i new)[j]? = some x → x.passed = some c →
      (∃ x', calls[j]? = some x' ∧ x'.passed = some c) ∨
        j = i ∧ ∀ x ∈ calls, x.passed ≠ some c := by
    intro j x c hj hc
    rw [List.getElem?_set] at hj
    split_ifs at hj with hij hlt
    · cases hj
      subst hij
      exact (hp c hc).imp (fun h => ⟨old, hi, h⟩) fun h => ⟨rfl, h⟩
    · exact .inl ⟨x, hj, hc⟩
  intro j k x y c hj hk hx hy
  rcases hold j x c hj hx with ⟨x', hj', hx'⟩ | ⟨rfl, hn⟩ <;>
    rcases hold k y c hk hy with ⟨y', hk', hy'⟩ | ⟨rfl, hn'⟩
  · exact h j k x' y' c hj' hk' hx' hy'
  · exact absurd hx' (hn' x' (List.mem_of_getElem? hj'))
  · exact absurd hy' (hn y' (List.mem_of_getElem? hk'))
  · rfl

/-- A new call has passed no token. -/
theorem Single.append {calls : List Call} (h : Single calls) (hc : call.passed = none) :
    Single (calls ++ [call]) := by
  have hold : ∀ (j : Nat) (x : Call) c, (calls ++ [call])[j]? = some x → x.passed = some c →
      calls[j]? = some x := by
    intro j x c hj hx
    rw [List.getElem?_append] at hj
    split_ifs at hj
    · exact hj
    · rw [List.getElem?_singleton] at hj
      split_ifs at hj
      cases hj
      rw [hc] at hx
      cases hx
  intro j k x y c hj hk hx hy
  exact h j k x y c (hold j x c hj hx) (hold k y c hk hy) hx hy

/-- Every orderly step lets one call at most pass a token. -/
theorem Single.step (h : Single s.calls) (hn : s.store.Named) (hg : Orderly p s a)
    (hs : Step p s a s') : Single s'.calls := by
  cases hs with
  | called a call he => exact h.append (Call.passed_of_entered he)
  | found i args c hi => exact h.set hi nofun
  | passed i args c hi hr =>
    refine h.set hi fun c' hc => .inr fun x hx hp => ?_
    cases hc
    obtain ⟨hpending, hretired⟩ := hg _ hi c rfl x hx
    -- another call that got past is pending, which the guard excludes, or has retired the token
    rcases Call.pending_or_retired hp with hp | hp
    · exact hpending hp
    · obtain ⟨y, hy, hk, hend⟩ := hretired hp
      rw [Store.isRevoked_of_holds (hk ▸ hn y hy) ⟨y, hy, hk, hend⟩] at hr
      cases hr
  | timedRotate i args c hi => exact h.set hi fun _ => .inl
  | timedRevoke i maxTtl c hi => exact h.set hi nofun
  | blacklisted i victim call c ttl hi =>
    exact h.set hi fun _ hp => .inl (Call.passed_afterRevoke hp)
  | signed i args c new jti hi => exact h.set hi fun _ => .inl
  | unsigned i args c e jti hi => exact h.set hi nofun
  | _ => exact h

/-- In every execution where the look-up and the revocation of a token are not interleaved, and no
    token is looked up after its entry has ended, at most one rotation of a token succeeds. -/
theorem rotated_once (h : (system p).Reach (Orderly p) s) {i j : Nat} {args args' : PairArgs}
    {new new' : Claims} (hi : s.calls[i]? = some (.rotate args (.rotated c new)))
    (hj : s.calls[j]? = some (.rotate args' (.rotated c new'))) : i = j := by
  have hinv : s.store.Named ∧ Single s.calls := by
    refine h.invariant (P := fun s => s.store.Named ∧ Single s.calls) (fun s hs => ?_) ?_
    · refine ⟨fun x hx => ?_, fun i j x y c hi => ?_⟩
      · rw [hs.1] at hx
        cases hx
      · rw [hs.2.2, List.getElem?_nil] at hi
        cases hi
    · rintro t a t' ⟨hn, ht⟩ hg hs
      have hs := step_step hs
      exact ⟨hs.named hn, ht.step hn hg hs⟩
  exact hinv.2 i j _ _ c hi hj rfl rfl

/-- Two calls verified the token a second and a half before its expiry; the second one looks it up
    after the first has revoked it. -/
def secondRefused : State :=
  { rotatedEarly with
    calls := rotatedEarly.calls ++ [.rotate shortArgs (.failed (revokedFailure firstToken))] }

/-- The first call is the only one that has rotated it. -/
theorem rotated_once_secondRefused :
    (system defaultSetting).Reach (Orderly defaultSetting) secondRefused ∧
      ∀ j args new, secondRefused.calls[j]? = some (.rotate args (.rotated firstToken new)) →
        j = 0 := by
  have h : (system defaultSetting).Reach (Orderly defaultSetting) secondRefused :=
    System.reach_of_runGuarded
      (l := [.tick 500000000, .rotate (some firstToken) shortArgs [],
        .rotate (some firstToken) shortArgs [], .lookup 0, .time 0, .blacklist 0 [], .lookup 1,
        .sign 0 (.ok (bytes "b"))])
      (reach_loggedIn fun _ _ _ _ => trivial) (by decide +kernel)
  exact ⟨h, fun j args new hj => rotated_once h hj rfl⟩

/-- Two calls looked the token up before either had revoked it. -/
def rotatedTwice : State where
  now := second
  store := firstEntry (2 * second - 5)
  signed := rotatedOnTime.signed ++ [⟨bytes "7", bytes "d", 3 * second⟩]
  calls := rotatedOnTime.calls ++
    [.rotate shortArgs (.rotated firstToken ⟨bytes "7", bytes "d", 3 * second⟩)]

/-- Two rotations of one token succeed. -/
theorem rotated_twice :
    (system defaultSetting).Reach System.Always rotatedTwice ∧
      rotatedTwice.now < firstToken.expiresAt ∧ ∃ new new',
      rotatedTwice.calls[0]? = some (.rotate shortArgs (.rotated firstToken new)) ∧
      rotatedTwice.calls[1]? = some (.rotate shortArgs (.rotated firstToken new')) := by
  refine ⟨?_, by decide +kernel, _, _, rfl, rfl⟩
  exact System.reach_of_run
    (l := [.tick second, .rotate (some firstToken) shortArgs [],
      .rotate (some firstToken) shortArgs [], .lookup 0, .lookup 1, .time 0, .blacklist 0 [],
      .time 1, .blacklist 1 [], .sign 0 (.ok (bytes "b")), .sign 1 (.ok (bytes "d"))])
    (reach_loggedIn fun _ _ _ _ => trivial) (by decide +kernel)

end LiteCode.RefreshToken
