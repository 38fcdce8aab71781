import LiteCode.Lib.JsonText

/-!
# Escaped strings

Programs that print JSON by hand replace some characters of a text by escapes and leave the others.
When every ASCII character is written as a text that reads as this character, and all other bytes
are left as they are, then a text in UTF-8 is read back.

* `scanString_escape`, `scanString_hex`: what the reader makes of an escape;
* `Escapes`: what is asked of such a replacement;
* `Escapes.scanString_flatMap`: the text is read back; `Escapes.key`, `Escapes.denotes`: as a key
  and as a value; `Escapes.denotes_object`: an object of such members.
-/

namespace LiteCode.Json

/-- A one-letter escape. -/
theorem scanString_escape {c d : UInt8} (hu : c ≠ 0x75) (h : escapedByte c = some d) (i : Bytes) :
    scanString Utf8.start (0x5C :: c :: i) =
      (scanString Utf8.start i).map fun p => (d :: p.1, p.2) := by
  rw [scanString.eq_def]
  simp [hu, h]

/-- The escape of an ASCII character by its number. -/
theorem scanString_hex {h₁ h₂ h₃ h₄ b : UInt8} (h : hex4 h₁ h₂ h₃ h₄ = some b.toNat) (hb : b < 0x80)
    (i : Bytes) : scanString Utf8.start (0x5C :: 0x75 :: h₁ :: h₂ :: h₃ :: h₄ :: i) =
      (scanString Utf8.start i).map fun p => (b :: p.1, p.2) := by
  have hlt : b.toNat < 0x80 := UInt8.lt_iff_toNat_lt.1 hb
  have hencode : Utf8.encode b.toNat = [b] := by simp [Utf8.encode, hlt]
  rw [scanString.eq_def]
  simp only [h, hencode]
  rw [if_neg (by decide), if_pos (by decide), if_pos trivial, if_neg (by omega),
    if_neg (by omega)]
  rfl

/-- Inside a character no ASCII byte is read. -/
theorem scanString_of_owed {q : Utf8.State} (hq : 0 < q.owed) (hlo : 0x80 ≤ q.lo) {b : UInt8}
    (hb : b < 0x80) (i : Bytes) : scanString q (b :: i) = none := by
  have hne : q ≠ Utf8.start := by rintro rfl; cases hq
  rw [scanString.eq_def]
  simp [hne, Utf8.step_of_owed hq hlo hb]

/-- A byte of a longer character stands for itself. -/
theorem scanString_high {q q' : Utf8.State} {b : UInt8} (hb : 0x80 ≤ b)
    (hq : Utf8.step q b = some q') (i : Bytes) :
    scanString q (b :: i) = (scanString q' i).map fun p => (b :: p.1, p.2) := by
  have hquote : b ≠ 0x22 := by rintro rfl; exact absurd hb (by decide)
  have hback : b ≠ 0x5C := by rintro rfl; exact absurd hb (by decide)
  have hlow : ¬b < 0x20 := fun h => absurd hb (by grind)
  rw [scanString.eq_def]
  simp only [hquote, hback, and_false, if_false, hlow, hq]

/-- A replacement of bytes by texts that read as them. -/
structure Escapes (f : UInt8 → Bytes) : Prop where
  ascii : ∀ b, b < 0x80 → ∀ i, scanString Utf8.start (f b ++ i) =
    (scanString Utf8.start i).map fun p => (b :: p.1, p.2)
  high : ∀ b, 0x80 ≤ b → f b = [b]

namespace Escapes

variable {f : UInt8 → Bytes} (hf : Escapes f) {t : Bytes}

include hf

theorem scanString_of_run {q : Utf8.State} (hq : q.Good) (ht : Utf8.run q t = some Utf8.start)
    (rest : Bytes) : scanString q (t.flatMap f ++ 0x22 :: rest) = some (t, rest) := by
  induction t generalizing q with
  | nil =>
    cases ht
    exact scanString_quote rest
  | cons b t ih =>
    obtain ⟨q', hstep, ht⟩ := Option.bind_eq_some_iff.1 ht
    rw [List.flatMap_cons, List.append_assoc]
    by_cases hb : b < 0x80
    · -- an ASCII byte stands between two characters
      rcases hq with rfl | ⟨howed, hlo⟩
      · rw [Utf8.step_start_of_lt hb] at hstep
        cases hstep
        rw [hf.ascii b hb, ih Utf8.good_start ht]
        rfl
      · rw [Utf8.step_of_owed howed hlo hb] at hstep
        cases hstep
    · have hb : 0x80 ≤ b := UInt8.not_lt.1 hb
      rw [hf.high b hb, List.cons_append, List.nil_append, scanString_high hb hstep,
        ih (Utf8.good_of_step hstep) ht]
      rfl

/-- A text in UTF-8 is read back. -/
theorem scanString_flatMap (ht : Utf8.WellFormed t) (rest : Bytes) :
    scanString Utf8.start (t.flatMap f ++ 0x22 :: rest) = some (t, rest) :=
  hf.scanString_of_run Utf8.good_start ht rest

/-- An escaped text as a key. -/
def key (ht : Utf8.WellFormed t) : Key := ⟨t.flatMap f, t, hf.scanString_flatMap ht⟩

/-- An escaped text as a value. -/
theorem denotes (ht : Utf8.WellFormed t) : Denotes (strText (t.flatMap f)) (some (.str t)) :=
  denotes_string (o := some t) (hf.scanString_flatMap ht)

/-- An object with escaped keys and strings, as its members one by one. -/
theorem exists_items {l : List (Bytes × Bytes)}
    (hl : ∀ p ∈ l, Utf8.WellFormed p.1 ∧ Utf8.WellFormed p.2) :
    ∃ items : List (Item Key), (∀ q ∈ items, Denotes q.text q.result) ∧
      items.map (fun q => (q.label.text, q.text)) =
        l.map (fun p => (p.1.flatMap f, strText (p.2.flatMap f))) ∧
      items.mapM (fun q => q.result.map fun v => (q.label.value, v)) =
        some (l.map fun p => (p.1, .str p.2)) := by
  induction l with
  | nil => exact ⟨[], nofun, rfl, rfl⟩
  | cons p l ih =>
    obtain ⟨hkey, hvalue⟩ := hl p List.mem_cons_self
    obtain ⟨items, hitems, htext, hresult⟩ := ih fun q hq => hl q (List.mem_cons_of_mem _ hq)
    refine ⟨⟨hf.key hkey, strText (p.2.flatMap f), some (.str p.2)⟩ :: items, ?_, ?_, ?_⟩
    · intro q hq
      rcases List.mem_cons.1 hq with rfl | hq
      · exact hf.denotes hvalue
      · exact hitems q hq
    · rw [List.map_cons, htext]
      rfl
    · rw [List.mapM_cons, hresult]
      rfl

/-- An object of escaped texts denotes the object of the texts. -/
theorem denotes_object {l : List (Bytes × Bytes)}
    (hl : ∀ p ∈ l, Utf8.WellFormed p.1 ∧ Utf8.WellFormed p.2) :
    Denotes (objText (l.map fun p => (p.1.flatMap f, strText (p.2.flatMap f))))
      (some (.obj (l.map fun p => (p.1, .str p.2)))) := by
  obtain ⟨items, hitems, htext, hresult⟩ := hf.exists_items hl
  have h := Denotes.object items hitems
  rwa [htext, hresult] at h

end Escapes

/-- A text that denotes a value is read to its end. -/
theorem Denotes.value_eq {e : Bytes} {v : Json} (h : Denotes e (some v)) :
    value (e.length + 1) e = some (v, []) := by
  have hread := h.yields [] trivial (e.length + 1)
  rw [List.append_nil] at hread
  exact hread.resolve_right fun hlt => absurd hlt.1 (Nat.not_succ_le_self _)

end LiteCode.Json
