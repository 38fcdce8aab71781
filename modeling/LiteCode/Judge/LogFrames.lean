import LiteCode.Judge.Result

/-!
# The log of a container

Docker sends what a container writes to stdout and stderr as one sequence of frames, each with a
header that holds its stream and its length. `strip_docker_log_frames` of
`src/judge/docker_client.h` takes the frames of a stream out of it, and
`parse_judge_result_json` reads the result of the judge from them.

How the output was cut into frames and mixed with stderr does not matter: what comes out is what
the container wrote to stdout, and the result is that of its last line that reads as an object.

* `Frame.encode`: a frame as docker sends it;
* `stripDockerLogFrames_encode`: the frames of stdout give back stdout;
* `parseJudgeResultJson_frames`: the result, from the lines of stdout alone.
-/

namespace LiteCode.Judge

/-! ## The code -/

/-- The length field of a header, its most significant byte first. -/
def frameSize (p₄ p₅ p₆ p₇ : UInt8) : UInt32 :=
  p₄.toUInt32 <<< 24 ||| p₅.toUInt32 <<< 16 ||| p₆.toUInt32 <<< 8 ||| p₇.toUInt32

/-- The stream of a frame is one that the caller wants. -/
def keepStream (stream : UInt8) (wantStdout wantStderr : Bool) : Bool :=
  stream == 1 && wantStdout || stream == 2 && wantStderr || stream == 0

/-- The loop of `strip_docker_log_frames`, on the bytes from `pos` on. -/
def walkFrames (wantStdout wantStderr : Bool) : Bytes → Bytes
  | stream :: p₁ :: p₂ :: p₃ :: p₄ :: p₅ :: p₆ :: p₇ :: rest =>
    let size := (frameSize p₄ p₅ p₆ p₇).toNat
    -- a frame that is cut off stands for itself
    if rest.length < size then stream :: p₁ :: p₂ :: p₃ :: p₄ :: p₅ :: p₆ :: p₇ :: rest
    else (if keepStream stream wantStdout wantStderr then rest.take size else []) ++
      walkFrames wantStdout wantStderr (rest.drop size)
  | _ => []
  termination_by body => body.length
  decreasing_by simp only [List.length_drop, List.length_cons]; omega

/-- `strip_docker_log_frames`. -/
def stripDockerLogFrames (body : Bytes) (wantStdout wantStderr : Bool) : Bytes :=
  if body.length < 8 then body
  else if 2 < body.headD 0 then body
  else walkFrames wantStdout wantStderr body

/-! ## Frames -/

/-- The two streams that a container writes. -/
inductive Stream
  | stdout
  | stderr
  deriving DecidableEq, Repr

/-- The byte of a stream in a header. -/
def Stream.byte : Stream → UInt8
  | .stdout => 1
  | .stderr => 2

/-- A piece of output, of a length that fits its field. -/
structure Frame where
  stream : Stream
  payload : Bytes
  fits : payload.length < 2 ^ 32

/-- The four bytes of a length. -/
def bigEndian (n : Nat) : Bytes :=
  [UInt8.ofNat (n / 2 ^ 24), UInt8.ofNat (n / 2 ^ 16), UInt8.ofNat (n / 2 ^ 8), UInt8.ofNat n]

/-- The frame as docker sends it. -/
def Frame.encode (f : Frame) : Bytes :=
  f.stream.byte :: 0 :: 0 :: 0 :: (bigEndian f.payload.length ++ f.payload)

/-- What the frames carry of a stream. -/
def written (st : Stream) (frames : List Frame) : Bytes :=
  (frames.filter fun f => f.stream = st).flatMap Frame.payload

/-- The bytes of the field do not overlap. -/
theorem toNat_frameSize (a b c d : UInt8) : (frameSize a b c d).toNat =
    a.toNat * 2 ^ 24 + (b.toNat * 2 ^ 16 + (c.toNat * 2 ^ 8 + d.toNat)) := by
  have ha := a.toNat_lt
  have hb := b.toNat_lt
  have hc := c.toNat_lt
  have hd := d.toNat_lt
  have h₁ : c.toNat <<< 8 ||| d.toNat = c.toNat * 2 ^ 8 + d.toNat := by
    rw [← Nat.shiftLeft_add_eq_or_of_lt hd, Nat.shiftLeft_eq]
  have h₂ : b.toNat <<< 16 ||| (c.toNat * 2 ^ 8 + d.toNat) =
      b.toNat * 2 ^ 16 + (c.toNat * 2 ^ 8 + d.toNat) := by
    rw [← Nat.shiftLeft_add_eq_or_of_lt (by omega), Nat.shiftLeft_eq]
  have h₃ : a.toNat <<< 24 ||| (b.toNat * 2 ^ 16 + (c.toNat * 2 ^ 8 + d.toNat)) =
      a.toNat * 2 ^ 24 + (b.toNat * 2 ^ 16 + (c.toNat * 2 ^ 8 + d.toNat)) := by
    rw [← Nat.shiftLeft_add_eq_or_of_lt (by omega), Nat.shiftLeft_eq]
  have hcut : ∀ x i : Nat, x < 2 ^ 8 → i ≤ 24 → x <<< i % 2 ^ 32 = x <<< i := by
    intro x i hx hi
    rw [Nat.shiftLeft_eq]
    refine Nat.mod_eq_of_lt ?_
    calc x * 2 ^ i < 2 ^ 8 * 2 ^ i := Nat.mul_lt_mul_of_pos_right hx (Nat.two_pow_pos i)
      _ ≤ 2 ^ 8 * 2 ^ 24 := Nat.mul_le_mul_left _ (Nat.pow_le_pow_right (by decide) hi)
      _ = 2 ^ 32 := by decide
  have hor : (frameSize a b c d).toNat = a.toNat <<< 24 % 2 ^ 32 ||| b.toNat <<< 16 % 2 ^ 32 |||
      c.toNat <<< 8 % 2 ^ 32 ||| d.toNat := by
    simp [frameSize]
  rw [hor, hcut _ _ ha (by decide), hcut _ _ hb (by decide), hcut _ _ hc (by decide),
    Nat.or_assoc, Nat.or_assoc, h₁, h₂, h₃]

/-- The frames are one way of cutting the stdout `out` and the stderr `err` of a container. -/
def Cuts (frames : List Frame) (out err : Bytes) : Prop :=
  written .stdout frames = out ∧ written .stderr frames = err

/-- The length is read back. -/
theorem toNat_frameSize_bigEndian {n : Nat} (h : n < 2 ^ 32) :
    (frameSize (.ofNat (n / 2 ^ 24)) (.ofNat (n / 2 ^ 16)) (.ofNat (n / 2 ^ 8)) (.ofNat n)).toNat =
      n := by
  simp only [toNat_frameSize, UInt8.toNat_ofNat']
  omega

/-- One frame at the front. -/
theorem walkFrames_encode (wantStdout wantStderr : Bool) (f : Frame) (rest : Bytes) :
    walkFrames wantStdout wantStderr (f.encode ++ rest) =
      (if keepStream f.stream.byte wantStdout wantStderr then f.payload else []) ++
        walkFrames wantStdout wantStderr rest := by
  have hlen : ¬ (f.payload ++ rest).length < f.payload.length := by simp
  simp only [Frame.encode, bigEndian, List.cons_append, List.nil_append]
  rw [walkFrames]
  simp only [toNat_frameSize_bigEndian f.fits, hlen, if_false, List.take_left, List.drop_left]

theorem walkFrames_nil (wantStdout wantStderr : Bool) :
    walkFrames wantStdout wantStderr [] = [] := by
  rw [walkFrames]
  simp

/-- The frames of stdout, one after the other. -/
theorem walkFrames_flatMap (frames : List Frame) :
    walkFrames true false (frames.flatMap Frame.encode) = written .stdout frames := by
  induction frames with
  | nil => exact walkFrames_nil true false
  | cons f frames ih =>
    rw [List.flatMap_cons, walkFrames_encode, ih, written, written]
    cases hst : f.stream with
    | stdout => simp [hst, keepStream, Stream.byte]
    | stderr => simp [hst, keepStream, Stream.byte]

/-- What the container wrote to stdout comes out, however it was cut. -/
theorem stripDockerLogFrames_encode {frames : List Frame} (hne : frames ≠ []) :
    stripDockerLogFrames (frames.flatMap Frame.encode) true false = written .stdout frames := by
  obtain ⟨f, fs, rfl⟩ := List.exists_cons_of_ne_nil hne
  have hlen : ¬ ((f :: fs).flatMap Frame.encode).length < 8 := by
    simp only [List.flatMap_cons, Frame.encode, bigEndian, List.length_append, List.length_cons,
      List.length_nil]
    omega
  have hfirst : ¬ 2 < ((f :: fs).flatMap Frame.encode).headD 0 := by
    rw [List.flatMap_cons, Frame.encode, List.cons_append, List.headD_cons]
    cases f.stream <;> decide
  rw [stripDockerLogFrames, if_neg hlen, if_neg hfirst, walkFrames_flatMap]

/-! ## The lines of stdout -/

/-- The lines of an output, without CR. -/
def outputLines (s : Bytes) : List Bytes :=
  (s.splitOn 0x0A).map fun line => line.filter fun b => b != 0x0D

theorem outputLines_cons {s l : Bytes} {ls : List Bytes} (c : UInt8)
    (h : outputLines s = l :: ls) :
    outputLines (c :: s) =
      if c = 0x0A then [] :: l :: ls else if c ≠ 0x0D then (c :: l) :: ls else l :: ls := by
  obtain ⟨x, xs, hx⟩ := List.exists_cons_of_ne_nil (List.splitOn_ne_nil (0x0A : UInt8) s)
  simp only [outputLines, hx, List.map_cons, List.cons.injEq] at h
  obtain ⟨rfl, rfl⟩ := h
  simp only [outputLines, List.splitOn_cons_eq_if_modifyHead, hx, beq_iff_eq]
  by_cases hlf : c = 0x0A
  · simp [hlf]
  · by_cases hcr : c = 0x0D <;> simp [hlf, hcr]

/-- The lines of the parser: the last one is left out if it is empty. -/
theorem splitLines_eq {s l : Bytes} {ls : List Bytes} (h : outputLines s = l :: ls) (cur : Bytes) :
    splitLines cur s = (cur ++ l) :: ls ∨ splitLines cur s ++ [[]] = (cur ++ l) :: ls := by
  induction s generalizing cur l ls with
  | nil =>
    obtain ⟨rfl, rfl⟩ : [] = l ∧ [] = ls := by simpa [outputLines] using h
    cases cur with
    | nil => exact .inr rfl
    | cons b cur => exact .inl (by simp [splitLines])
  | cons c s ih =>
    obtain ⟨x, xs, hx⟩ : ∃ x xs, outputLines s = x :: xs :=
      List.exists_cons_of_ne_nil (by simp [outputLines, List.splitOn_ne_nil])
    rw [outputLines_cons c hx] at h
    rw [splitLines]
    split_ifs at h ⊢ with hlf hcr
    · -- the line ends here
      obtain ⟨rfl, rfl⟩ := List.cons_eq_cons.1 h
      simpa using ih hx []
    · obtain ⟨rfl, rfl⟩ := List.cons_eq_cons.1 h
      simpa using ih hx (cur ++ [c])
    · exact ih (hx.trans h) cur

/-- The line that the parser takes is the last one of the output that reads as an object. -/
theorem findSome?_splitLines (s : Bytes) :
    (splitLines [] s).reverse.findSome? readLine =
      (outputLines s).reverse.findSome? readLine := by
  obtain ⟨l, ls, h⟩ : ∃ l ls, outputLines s = l :: ls :=
    List.exists_cons_of_ne_nil (by simp [outputLines, List.splitOn_ne_nil])
  rcases splitLines_eq h [] with hs | hs
  · rw [hs, h, List.nil_append]
  · rw [h, ← List.nil_append l, ← hs, List.reverse_append, List.reverse_singleton,
      List.singleton_append, List.findSome?_cons_of_isNone]
    rfl

/-- However the output of a container is cut into frames, its stdout comes out. The result that it
    gives is that of the last line that reads as an object, and `se` if there is none. -/
theorem parseJudgeResultJson_frames (floatToInt : Decimal → Int32) (frames : List Frame)
    (out err : Bytes) (code : Int) (hne : frames ≠ []) (hcut : Cuts frames out err) :
    stripDockerLogFrames (frames.flatMap Frame.encode) true false = out ∧
    parseJudgeResultJson floatToInt
        (stripDockerLogFrames (frames.flatMap Frame.encode) true false) code =
      parseJudgeResultJson floatToInt out code ∧
    (∀ pre line post j, outputLines out = pre ++ line :: post →
      (∀ l ∈ post, readLine l = none) → readLine line = some j →
      parseJudgeResultJson floatToInt out code = readResult floatToInt j) ∧
    ((∀ l ∈ outputLines out, readLine l = none) →
      parseJudgeResultJson floatToInt out code =
        { status := bytes "se"
          errorMessage := (if out = [] then bytes "judge produced no stdout"
            else bytes "judge produced no parseable result JSON") ++ waitExit code }) := by
  have hstrip := (stripDockerLogFrames_encode hne).trans hcut.1
  refine ⟨hstrip, by rw [hstrip], fun pre line post j hl hpost hj => ?_, fun hnone => ?_⟩
  · have hfind : (outputLines out).reverse.findSome? readLine = some j :=
      findSome?_reverse.2 ⟨pre, line, post, hl, hpost, hj⟩
    have hempty : ¬ out.isEmpty := by
      -- the only line of an empty output is empty
      intro he
      rw [List.isEmpty_iff.1 he] at hfind
      cases hfind
    rw [parseJudgeResultJson, if_neg hempty, findSome?_splitLines, hfind]
  · have hfind : (outputLines out).reverse.findSome? readLine = none := by
      simpa using hnone
    rw [parseJudgeResultJson, findSome?_splitLines, hfind]
    by_cases he : out = [] <;> simp [he]

/-- The output of a judge in three frames, with a warning on stderr in between. -/
def threeFrames : List Frame :=
  [⟨.stdout, bytes "note\n\x7b\"status\"", by decide⟩, ⟨.stderr, bytes "warning", by decide⟩,
    ⟨.stdout, bytes ":\"ac\"\x7d\r\n", by decide⟩]

/-- The verdict that these frames carry. -/
theorem parseJudgeResultJson_threeFrames :
    (parseJudgeResultJson (fun _ => 0)
      (stripDockerLogFrames (threeFrames.flatMap Frame.encode) true false) 0).status =
        bytes "ac" := by
  rw [(parseJudgeResultJson_frames (fun _ => 0) threeFrames
    (bytes "note\n\x7b\"status\":\"ac\"\x7d\r\n") (bytes "warning") 0 (by simp [threeFrames])
    (by constructor <;> decide +kernel)).2.1]
  decide +kernel

end LiteCode.Judge
