import LiteCode.Lib.JsonText

/-!
# JSON literals

A literal is a text together with what a strict reader makes of it, and the proof of that: a
number, `null`, a string, and the arrays and objects that are put together from literals. Its text
stands on one line, so that a line-oriented tool can carry it.

* `Literal.null`, `num`, `str`, `arr`, `obj`: the literals;
* `Literal.parse_text_obj`: what the reader makes of the text of an object;
* `Literal.obj_get?`: its members, read back by their keys;
* `Literal.arr_forall₂`: the elements of an array.
-/

namespace LiteCode.Json

/-! ## One line -/

/-- No zero byte, newline or CR. -/
def OneLine (e : Bytes) : Prop := ∀ b ∈ e, b ≠ 0 ∧ b ≠ 0x0A ∧ b ≠ 0x0D

instance (e : Bytes) : Decidable (OneLine e) := List.decidableBAll _ e

/-- Two texts on one line are on one line. -/
theorem OneLine.append {e e' : Bytes} (h : OneLine e) (h' : OneLine e') : OneLine (e ++ e') :=
  fun b hb => (List.mem_append.1 hb).elim (h b) (h' b)

theorem OneLine.cons {b : UInt8} {e : Bytes} (hb : b ≠ 0 ∧ b ≠ 0x0A ∧ b ≠ 0x0D) (h : OneLine e) :
    OneLine (b :: e) :=
  fun c hc => (List.mem_cons.1 hc).elim (fun he => he ▸ hb) (h c)

/-- A plain text is on one line. -/
theorem Plain.oneLine {k : Bytes} (h : Plain k) : OneLine k := fun b hb => by
  have := h b hb
  simp only [isPlain, Bool.and_eq_true, decide_eq_true_eq] at this
  refine ⟨?_, ?_, ?_⟩ <;> grind

/-- So is a string of one. -/
theorem OneLine.strText {e : Bytes} (h : OneLine e) : OneLine (strText e) :=
  .cons (by decide) (h.append (by decide))

/-- A list is on one line if its items are. -/
theorem OneLine.commaSep {l : List Bytes} (h : ∀ e ∈ l, OneLine e) : OneLine (commaSep l) := by
  induction l with
  | nil => exact fun _ hb => absurd hb List.not_mem_nil
  | cons e l ih =>
    have he := h e List.mem_cons_self
    have ih := ih fun e' he' => h e' (List.mem_cons_of_mem _ he')
    cases l with
    | nil => exact he
    | cons e' l => exact he.append (.cons (by decide) ih)

theorem OneLine.arrText {l : List Bytes} (h : ∀ e ∈ l, OneLine e) : OneLine (arrText l) :=
  .cons (by decide) ((OneLine.commaSep h).append (by decide))

/-- The text of an object with plain keys. -/
theorem OneLine.objText {l : List (Bytes × Bytes)} (h : ∀ p ∈ l, Plain p.1 ∧ OneLine p.2) :
    OneLine (objText l) := by
  refine .cons (by decide) ((OneLine.commaSep fun e he => ?_).append (by decide))
  obtain ⟨p, hp, rfl⟩ := List.mem_map.1 he
  obtain ⟨hk, he⟩ := h p hp
  exact .cons (by decide) (hk.oneLine.append (.cons (by decide) (.cons (by decide) he)))

/-! ## Literals -/

/-- A text on one line that denotes a value, or is no value if there is none. -/
structure Literal where
  text : Bytes
  json : Option Json
  denotes : Denotes text json
  oneLine : OneLine text

namespace Literal

def null : Literal := ⟨bytes "null", some .null, denotes_null, by decide⟩

def num (n : Nat) : Literal := ⟨decimal n, ofNat? n, denotes_decimal n, (plain_decimal n).oneLine⟩

/-- A plain string. -/
def str (k : Bytes) (h : Plain k) : Literal :=
  ⟨strText k, some (.str k), denotes_string (o := some k) h.scanString, h.oneLine.strText⟩

def arr (l : List Literal) : Literal where
  text := arrText (l.map (·.text))
  json := (l.mapM Literal.json).map Json.arr
  denotes := by
    have h := Denotes.arr (l.map fun v => ⟨(), v.text, v.json⟩) (by simp [Literal.denotes])
    simpa [Function.comp_def] using h
  oneLine := .arrText (by simp [Literal.oneLine])

def obj (l : List ({k // Plain k} × Literal)) : Literal where
  text := objText (l.map fun p => (p.1.1, p.2.text))
  json := (l.mapM fun p : {k // Plain k} × Literal => p.2.json.map fun v => (p.1.1, v)).map Json.obj
  denotes := by
    have h := Denotes.obj (l.map fun p => ⟨p.1, p.2.text, p.2.json⟩) fun q hq => by
      obtain ⟨p, -, rfl⟩ := List.mem_map.1 hq
      exact p.2.denotes
    simpa [Function.comp_def] using h
  oneLine := .objText fun p hp => by
    obtain ⟨q, -, rfl⟩ := List.mem_map.1 hp
    exact ⟨q.1.2, q.2.oneLine⟩

end Literal

/-! ## Reading members back -/

/-- What a list of optional values gives as a whole, element by element. -/
theorem forall₂_of_mapM {α β : Type} {f : α → Option β} {l : List α} {vs : List β}
    (h : l.mapM f = some vs) : List.Forall₂ (fun a v => f a = some v) l vs := by
  induction l generalizing vs with
  | nil =>
    cases h
    exact .nil
  | cons a l ih =>
    rw [List.mapM_cons] at h
    obtain ⟨v, hv, h⟩ := Option.bind_eq_some_iff.1 h
    obtain ⟨vs', hvs, h⟩ := Option.bind_eq_some_iff.1 h
    cases h
    exact .cons hv (ih hvs)

/-- The last member with the key counts. -/
theorem get?_cons (m : Bytes × Json) (ms : List (Bytes × Json)) (k : Bytes) :
    (Json.obj (m :: ms)).get? k =
      ((Json.obj ms).get? k).or (if m.1 = k then some m.2 else none) := by
  simp only [get?, List.reverse_cons, List.find?_append]
  cases ms.reverse.find? fun m => m.1 == k with
  | some m' => rfl
  | none =>
    by_cases h : m.1 = k
    · simp [h]
    · simp [h]

/-- A key that is not there is not found. -/
theorem get?_eq_none {ms : List (Bytes × Json)} {k : Bytes} (h : k ∉ ms.map Prod.fst) :
    (Json.obj ms).get? k = none := by
  simp only [get?, Option.map_eq_none_iff, List.find?_eq_none, List.mem_reverse, beq_iff_eq]
  exact fun m hm he => h (he ▸ List.mem_map_of_mem hm)

/-- A list is read if its items are. -/
theorem isSome_mapM {α β : Type} {f : α → Option β} {l : List α} :
    (l.mapM f).isSome ↔ ∀ a ∈ l, (f a).isSome := by
  induction l with
  | nil => simp
  | cons a l ih =>
    rw [List.mapM_cons, List.forall_mem_cons, ← ih]
    cases f a with
    | none => simp
    | some v => cases l.mapM f <;> simp

namespace Literal

/-- An object is read if its members are. -/
theorem isSome_obj {l : List ({k // Plain k} × Literal)} :
    (obj l).json.isSome ↔ ∀ p ∈ l, p.2.json.isSome := by
  rw [obj, Option.isSome_map, isSome_mapM]
  simp

/-- An array is read if its elements are. -/
theorem isSome_arr {l : List Literal} : (arr l).json.isSome ↔ ∀ v ∈ l, v.json.isSome := by
  rw [arr, Option.isSome_map, isSome_mapM]

/-- The elements of an array. -/
theorem arr_forall₂ {l : List Literal} {j : Json} (h : (arr l).json = some j) :
    ∃ vs, j = .arr vs ∧ List.Forall₂ (fun v w => v.json = some w) l vs := by
  obtain ⟨vs, hvs, rfl⟩ := Option.map_eq_some_iff.1 h
  exact ⟨vs, rfl, forall₂_of_mapM hvs⟩

/-- The keys of an object. -/
theorem keys_of_forall₂ {l : List ({k // Plain k} × Literal)} {ms : List (Bytes × Json)}
    (h : List.Forall₂ (fun p m => (p.2.json.map fun v => (p.1.1, v)) = some m) l ms) :
    ms.map Prod.fst = l.map (·.1.1) := by
  induction h with
  | nil => rfl
  | cons hm _ ih =>
    obtain ⟨v, -, rfl⟩ := Option.map_eq_some_iff.1 hm
    simp [ih]

/-- A member of a literal is found under its key. -/
theorem get?_of_forall₂ {l : List ({k // Plain k} × Literal)} {ms : List (Bytes × Json)}
    (h : List.Forall₂ (fun p m => (p.2.json.map fun v => (p.1.1, v)) = some m) l ms)
    (hn : (l.map (·.1.1)).Nodup) {p : {k // Plain k} × Literal} (hp : p ∈ l) :
    (Json.obj ms).get? p.1.1 = p.2.json := by
  induction h with
  | nil => cases hp
  | @cons q m l ms hm hms ih =>
    obtain ⟨v, hv, rfl⟩ := Option.map_eq_some_iff.1 hm
    rw [List.map_cons, List.nodup_cons] at hn
    rw [get?_cons]
    rcases List.mem_cons.1 hp with rfl | hp
    · rw [get?_eq_none (keys_of_forall₂ hms ▸ hn.1), if_pos rfl, hv]
      rfl
    · have hne : q.1.1 ≠ p.1.1 := fun he =>
        hn.1 (he ▸ List.mem_map_of_mem (f := fun q : {k // Plain k} × Literal => q.1.1) hp)
      rw [ih hn.2 hp, if_neg hne, Option.or_none]

/-- The members of an object, read back by their keys. -/
theorem obj_get? {l : List ({k // Plain k} × Literal)} {j : Json} (h : (obj l).json = some j)
    (hn : (l.map (·.1.1)).Nodup) {p : {k // Plain k} × Literal} (hp : p ∈ l) :
    j.get? p.1.1 = p.2.json := by
  obtain ⟨ms, hms, rfl⟩ := Option.map_eq_some_iff.1 h
  exact get?_of_forall₂ (forall₂_of_mapM hms) hn hp

/-- The text of an object is read as the object. -/
theorem parse_text_obj (l : List ({k // Plain k} × Literal)) :
    parse (obj l).text = (obj l).json :=
  parse_of_denotes (obj l).denotes rfl

end Literal

end LiteCode.Json
