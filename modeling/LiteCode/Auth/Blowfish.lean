import LiteCode.Auth.InitState
import LiteCode.Lib.Bytes
import LiteCode.Lib.Feistel

/-!
# Blowfish

`src/auth/bcrypt/blf.c`: the block cipher of bcrypt and its key schedule. The sixteen rounds
`BLFRND` are a Feistel network, so that `Blowfish_dec` undoes `Blowfish_enc` whatever the S-boxes
and subkeys are. The key schedule reads the key as a stream of bytes that starts over at its end,
four bytes for each of the eighteen subkeys.

* `blowfishDec_blowfishEnc`, `blfDec_blfEnc`: decryption undoes encryption, of a block and of a
  buffer of blocks;
* `streamWords_eq_iff`: the subkeys of two keys are the same exactly if their streams agree on the
  bytes that are read.
-/

namespace LiteCode.Blowfish

open Feistel

/-- `blf_ctx`. -/
structure BlfCtx where
  S : Vector (Vector UInt32 256) 4
  P : Vector UInt32 18
  deriving DecidableEq

/-- `Blowfish_initstate`. -/
def initstate : BlfCtx where
  S := #v[initialS0, initialS1, initialS2, initialS3]
  P := initialP

/-- `F`. -/
def F (s : Vector (Vector UInt32 256) 4) (x : UInt32) : UInt32 :=
  ((s[0].get (x >>> 24).toUInt8.toFin + s[1].get (x >>> 16).toUInt8.toFin) ^^^
    s[2].get (x >>> 8).toUInt8.toFin) + s[3].get x.toUInt8.toFin

/-- What `BLFRND` mixes into the other half, in the round `n`. -/
def blfrnd (c : BlfCtx) (n : Fin 18) (j : UInt32) : UInt32 := F c.S j ^^^ c.P.get n

/-- The body of `Blowfish_enc` and of `Blowfish_dec`: the subkey `n₀` is mixed into the left half,
    then come the rounds `ns`, and last the subkey `n₁`. -/
def blowfishRounds (c : BlfCtx) (n₀ : Fin 18) (ns : List (Fin 18)) (n₁ : Fin 18)
    (x : UInt32 × UInt32) : UInt32 × UInt32 :=
  let (xl, xr) := network (· ^^^ ·) (ns.map (blfrnd c)) (x.1 ^^^ c.P.get n₀, x.2)
  (xr ^^^ c.P.get n₁, xl)

/-- The rounds of `Blowfish_enc`; those of `Blowfish_dec` are in reverse. -/
def rounds : List (Fin 18) := [1, 2, 3, 4, 5, 6, 7, 8, 9, 10, 11, 12, 13, 14, 15, 16]

/-- `Blowfish_enc`. -/
def blowfishEnc (c : BlfCtx) (x : UInt32 × UInt32) : UInt32 × UInt32 :=
  blowfishRounds c 0 rounds 17 x

/-- `Blowfish_dec`. -/
def blowfishDec (c : BlfCtx) (x : UInt32 × UInt32) : UInt32 × UInt32 :=
  blowfishRounds c 17 rounds.reverse 0 x

/-- The loop of `blf_enc` and of `blf_dec`, over the first `blocks` blocks of a buffer. -/
def blfBlocks (f : UInt32 × UInt32 → UInt32 × UInt32) : Nat → List UInt32 → List UInt32
  | blocks + 1, x :: y :: d => (f (x, y)).1 :: (f (x, y)).2 :: blfBlocks f blocks d
  | _, d => d

/-- `blf_enc`. -/
def blfEnc (c : BlfCtx) (data : List UInt32) (blocks : Nat) : List UInt32 :=
  blfBlocks (blowfishEnc c) blocks data

/-- `blf_dec`. -/
def blfDec (c : BlfCtx) (data : List UInt32) (blocks : Nat) : List UInt32 :=
  blfBlocks (blowfishDec c) blocks data

/-! ## The key schedule -/

/-- A byte is shifted into a word. -/
def pushByte (temp : UInt32) (b : UInt8) : UInt32 := temp <<< 8 ||| b.toUInt32

/-- One byte of `Blowfish_stream2word`: `temp` and the position after it. -/
def streamByte (data : Bytes) (databytes : Nat) (x : UInt32 × Nat) : UInt32 × Nat :=
  let j := if databytes ≤ x.2 then 0 else x.2
  (pushByte x.1 (data.getD j 0), j + 1)

/-- `Blowfish_stream2word`: the word, and the new `current`. -/
def stream2word (data : Bytes) (databytes current : Nat) : UInt32 × Nat :=
  let next := streamByte data databytes
  next (next (next (next (0, current))))

/-- The words of `n` calls of `Blowfish_stream2word`. -/
def streamWords (data : Bytes) (databytes : Nat) : Nat → Nat → List UInt32
  | 0, _ => []
  | n + 1, j =>
    let (temp, j) := stream2word data databytes j
    temp :: streamWords data databytes n j

/-- The first loop of both expansions: the words of the key are mixed into the subkeys. -/
def xorKey (c : BlfCtx) (key : Bytes) (keybytes : Nat) : BlfCtx :=
  { c with P := Vector.ofFn fun i => c.P.get i ^^^ (streamWords key keybytes 18 0).getD i 0 }

/-- `c->P[2 * i]` and the subkey after it become the words of a block. -/
def BlfCtx.setP (c : BlfCtx) (i : Fin 9) (d : UInt32 × UInt32) : BlfCtx :=
  { c with P := (c.P.set (2 * i) d.1).set (2 * i + 1) d.2 }

/-- `c->S[i][2 * k]` and the entry after it become the words of a block. -/
def BlfCtx.setS (c : BlfCtx) (i : Fin 4) (k : Fin 128) (d : UInt32 × UInt32) : BlfCtx :=
  { c with S := c.S.set i (((c.S.get i).set (2 * k) d.1).set (2 * k + 1) d.2) }

/-- The last two loops of both expansions: the subkeys and the S-boxes become the blocks that
    `next` produces one after the other, each under the context so far. The number beside a block
    is the position in the stream `next` reads. -/
def fill (next : BlfCtx → (UInt32 × UInt32) × Nat → (UInt32 × UInt32) × Nat) (c : BlfCtx) :
    BlfCtx :=
  let s := (List.finRange 9).foldl (fun s i =>
    let d := next s.1 s.2
    (s.1.setP i d.1, d)) (c, ((0, 0), 0))
  let s := (List.finRange 4).foldl (fun s i => (List.finRange 128).foldl (fun s k =>
    let d := next s.1 s.2
    (s.1.setS i k d.1, d)) s) s
  s.1

/-- `Blowfish_expand0state`. -/
def expand0state (c : BlfCtx) (key : Bytes) (keybytes : Nat) : BlfCtx :=
  fill (fun c d => (blowfishEnc c d.1, d.2)) (xorKey c key keybytes)

/-- `Blowfish_expandstate`. -/
def expandstate (c : BlfCtx) (data : Bytes) (databytes : Nat) (key : Bytes) (keybytes : Nat) :
    BlfCtx :=
  fill (fun c d =>
    let (w₀, j) := stream2word data databytes d.2
    let (w₁, j) := stream2word data databytes j
    (blowfishEnc c (d.1.1 ^^^ w₀, d.1.2 ^^^ w₁), j)) (xorKey c key keybytes)

/-! ## Decryption -/

theorem xor_xor_self (a b : UInt32) : a ^^^ b ^^^ b = a := by
  rw [UInt32.xor_assoc, UInt32.xor_self, UInt32.xor_zero]

/-- An exclusive or undoes itself. -/
theorem involutory_xor : Involutory fun a b : UInt32 => a ^^^ b := xor_xor_self

/-- The rounds are undone in reverse, with the first subkey last. -/
theorem blowfishRounds_reverse (c : BlfCtx) (n₀ : Fin 18) (ns : List (Fin 18)) (n₁ : Fin 18)
    (x : UInt32 × UInt32) :
    blowfishRounds c n₁ ns.reverse n₀ (blowfishRounds c n₀ ns n₁ x) = x := by
  have hrev := network_reverse involutory_xor (ns.map (blfrnd c)) (x.1 ^^^ c.P.get n₀, x.2)
  rw [← List.map_reverse] at hrev
  rw [blowfishRounds, blowfishRounds]
  dsimp only
  -- the last subkey was mixed in by both, and the exchanged halves are left
  rw [xor_xor_self]
  refine (congrArg (fun y : UInt32 × UInt32 => (y.2 ^^^ c.P.get n₀, y.1)) hrev).trans ?_
  exact Prod.ext (xor_xor_self x.1 _) rfl

theorem blowfishDec_blowfishEnc (c : BlfCtx) (x : UInt32 × UInt32) :
    blowfishDec c (blowfishEnc c x) = x :=
  blowfishRounds_reverse c 0 rounds 17 x

theorem blowfishEnc_blowfishDec (c : BlfCtx) (x : UInt32 × UInt32) :
    blowfishEnc c (blowfishDec c x) = x := by
  have hrev := blowfishRounds_reverse c 17 rounds.reverse 0 x
  rwa [List.reverse_reverse] at hrev

/-- A loop over blocks is undone block by block. -/
theorem blfBlocks_blfBlocks {f g : UInt32 × UInt32 → UInt32 × UInt32} (h : ∀ x, g (f x) = x)
    (blocks : Nat) (data : List UInt32) :
    blfBlocks g blocks (blfBlocks f blocks data) = data := by
  fun_induction blfBlocks f blocks data with
  | case1 blocks x y d ih => rw [blfBlocks, ih, h]
  | case2 blocks d hd =>
    cases blocks with
    | zero => rfl
    | succ blocks =>
      match d with
      | [] => rfl
      | [_] => rfl
      | x :: y :: d => exact absurd rfl (hd blocks x y d rfl)

/-- Decryption undoes encryption on a buffer, and encryption undoes decryption. -/
theorem blfDec_blfEnc (c : BlfCtx) (data : List UInt32) (blocks : Nat) :
    blfDec c (blfEnc c data blocks) blocks = data ∧
      blfEnc c (blfDec c data blocks) blocks = data :=
  ⟨blfBlocks_blfBlocks (blowfishDec_blowfishEnc c) blocks data,
    blfBlocks_blfBlocks (blowfishEnc_blowfishDec c) blocks data⟩

/-! ## The key stream

The bytes that the key schedule reads are those of the key, over and over. A position `j` that has
reached the end of the key stands for its start. -/

/-- The byte `t` of the stream of `data`. -/
def streamAt (data : Bytes) (databytes t : Nat) : UInt8 := data.getD (t % databytes) 0

/-- `current` is where the byte `t` of the stream is, or the end of the data for its start. -/
def AtByte (databytes j t : Nat) : Prop := j ≤ databytes ∧ j % databytes = t % databytes

/-- Four bytes of the stream as `Blowfish_stream2word` packs them. -/
def packWord (b₀ b₁ b₂ b₃ : UInt8) : UInt32 :=
  pushByte (pushByte (pushByte (pushByte 0 b₀) b₁) b₂) b₃

variable (data data' : Bytes) {databytes databytes' j j' t t' : Nat}

/-- One byte is shifted in: the highest one is lost. -/
theorem toNat_pushByte (w : UInt32) (b : UInt8) :
    (pushByte w b).toNat = w.toNat % 2 ^ 24 * 256 + b.toNat := by
  have hb : b.toNat < 2 ^ 8 := b.toNat_lt
  have hw : w.toNat <<< 8 % 2 ^ 32 = (w.toNat % 2 ^ 24) <<< 8 := by
    rw [Nat.shiftLeft_eq, Nat.shiftLeft_eq]
    omega
  have h8 : (8 : UInt32).toNat % 32 = 8 := rfl
  rw [pushByte, UInt32.toNat_or, UInt32.toNat_shiftLeft, UInt8.toNat_toUInt32, h8, hw,
    ← Nat.shiftLeft_add_eq_or_of_lt hb, Nat.shiftLeft_eq]

theorem toNat_packWord (b₀ b₁ b₂ b₃ : UInt8) :
    (packWord b₀ b₁ b₂ b₃).toNat =
      ((b₀.toNat * 256 + b₁.toNat) * 256 + b₂.toNat) * 256 + b₃.toNat := by
  have h₀ := b₀.toNat_lt
  have h₁ := b₁.toNat_lt
  have h₂ := b₂.toNat_lt
  have h₃ := b₃.toNat_lt
  simp only [packWord, toNat_pushByte, UInt32.toNat_zero]
  omega

/-- A word determines the four bytes that it was packed from. -/
theorem packWord_inj {b₀ b₁ b₂ b₃ c₀ c₁ c₂ c₃ : UInt8} :
    packWord b₀ b₁ b₂ b₃ = packWord c₀ c₁ c₂ c₃ ↔ b₀ = c₀ ∧ b₁ = c₁ ∧ b₂ = c₂ ∧ b₃ = c₃ := by
  constructor
  · intro h
    have hn := congrArg UInt32.toNat h
    rw [toNat_packWord, toNat_packWord] at hn
    have := b₁.toNat_lt
    have := b₂.toNat_lt
    have := b₃.toNat_lt
    have := c₁.toNat_lt
    have := c₂.toNat_lt
    have := c₃.toNat_lt
    simp only [← UInt8.toNat_inj]
    omega
  · rintro ⟨rfl, rfl, rfl, rfl⟩
    rfl

/-- One byte of the stream is read, and the position goes on to the next. -/
theorem streamByte_eq (hn : 0 < databytes) (h : AtByte databytes j t) (w : UInt32) :
    ∃ j', streamByte data databytes (w, j) =
        (pushByte w (streamAt data databytes t), j') ∧ AtByte databytes j' (t + 1) := by
  obtain ⟨hle, hmod⟩ := h
  by_cases hj : databytes ≤ j
  · -- the end of the data: the stream is at its start
    have hj : j = databytes := Nat.le_antisymm hle hj
    have ht : t % databytes = 0 := by rw [← hmod, hj, Nat.mod_self]
    refine ⟨1, ?_, hn, ?_⟩
    · rw [streamByte, if_pos (Nat.le_of_eq hj.symm), streamAt, ht]
    · rw [Nat.add_mod, ht, Nat.zero_add, Nat.mod_mod]
  · have hj : j < databytes := Nat.lt_of_not_le hj
    refine ⟨j + 1, ?_, hj, ?_⟩
    · rw [streamByte, if_neg (Nat.not_le_of_lt hj), streamAt, ← hmod, Nat.mod_eq_of_lt hj]
    · rw [Nat.add_mod, hmod, ← Nat.add_mod]

/-- A call of `Blowfish_stream2word` reads four bytes of the stream. -/
theorem stream2word_eq (hn : 0 < databytes) (h : AtByte databytes j t) :
    ∃ j', stream2word data databytes j =
        (packWord (streamAt data databytes t) (streamAt data databytes (t + 1))
          (streamAt data databytes (t + 2)) (streamAt data databytes (t + 3)), j') ∧
      AtByte databytes j' (t + 4) := by
  obtain ⟨j₁, e₁, h₁⟩ := streamByte_eq data hn h 0
  obtain ⟨j₂, e₂, h₂⟩ := streamByte_eq data hn h₁ _
  obtain ⟨j₃, e₃, h₃⟩ := streamByte_eq data hn h₂ _
  obtain ⟨j₄, e₄, h₄⟩ := streamByte_eq data hn h₃ _
  refine ⟨j₄, ?_, h₄⟩
  simp only [stream2word]
  rw [e₁, e₂, e₃, e₄]
  rfl

/-- The words read from two streams are the same exactly if the bytes are. -/
theorem streamWords_eq_iff_of_atByte (hn : 0 < databytes) (hn' : 0 < databytes') (n : Nat)
    (h : AtByte databytes j t) (h' : AtByte databytes' j' t') :
    streamWords data databytes n j = streamWords data' databytes' n j' ↔
      ∀ i < 4 * n, streamAt data databytes (t + i) = streamAt data' databytes' (t' + i) := by
  induction n generalizing j j' t t' with
  | zero => exact ⟨fun _ i hi => absurd hi (Nat.not_lt_zero i), fun _ => rfl⟩
  | succ n ih =>
    obtain ⟨k, e, hk⟩ := stream2word_eq data hn h
    obtain ⟨k', e', hk'⟩ := stream2word_eq data' hn' h'
    rw [streamWords, streamWords, e, e']
    dsimp only
    rw [List.cons.injEq, packWord_inj, ih hk hk']
    constructor
    · rintro ⟨⟨h₀, h₁, h₂, h₃⟩, hrest⟩ i hi
      match i with
      | 0 => exact h₀
      | 1 => exact h₁
      | 2 => exact h₂
      | 3 => exact h₃
      | i + 4 =>
        have := hrest i (by omega)
        rwa [Nat.add_right_comm t 4 i, Nat.add_right_comm t' 4 i] at this
    · intro hall
      refine ⟨⟨hall 0 (by omega), hall 1 (by omega), hall 2 (by omega), hall 3 (by omega)⟩, ?_⟩
      intro i hi
      have := hall (i + 4) (by omega)
      rwa [← Nat.add_assoc, ← Nat.add_assoc, Nat.add_right_comm t i 4,
        Nat.add_right_comm t' i 4] at this

/-- The words from the start of two streams. -/
theorem streamWords_eq_iff (hn : 0 < databytes) (hn' : 0 < databytes') (n : Nat) :
    streamWords data databytes n 0 = streamWords data' databytes' n 0 ↔
      ∀ i < 4 * n, streamAt data databytes i = streamAt data' databytes' i := by
  have hstart (databytes : Nat) : AtByte databytes 0 0 := ⟨Nat.zero_le _, rfl⟩
  have h := streamWords_eq_iff_of_atByte data data' hn hn' n (hstart databytes) (hstart databytes')
  simpa only [Nat.zero_add] using h

end LiteCode.Blowfish
