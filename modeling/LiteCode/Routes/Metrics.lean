import Mathlib.Data.List.Sort
import LiteCode.Lib.Bytes
import LiteCode.Lib.SortedMap
import LiteCode.Lib.System

/-!
# Histograms

`MetricsService` of `src/routes/metrics.h` counts samples in histograms. A histogram has bounds, and
for each of them the number of samples that are not above it; the last bucket is for all samples.
`register_histogram` makes a family with the bounds that are given to it, in order and without
repetitions. `observe_histogram` looks a family up and adds a sample to it, under the lock of the
registry and that of the family. `render` copies the registry under its lock, and then each family
under the lock of that family alone, so that samples may come in between, and even a new family
under the same name.

A step is a section under a lock. Bounds and values are of any linearly ordered type. What happened
to the service is told by the steps of a run, the last one first.

* `Tallied`: a family that agrees with the samples that went to it; `tallied_new`,
  `Tallied.observe`: a new family does, and every sample keeps it so;
* `Exposes`: what the lines of a histogram say; `Tallied.exposes`: those of such a family do;
* `exposition_consistent`: in every run, each histogram that is written shows the samples that were
  observed for its family before it was written.
-/

namespace LiteCode.Metrics

variable {κ : Type} {ν : Type} [LinearOrder κ] [LinearOrder ν]

/-! ## Bounds -/

/-- `std::unique` with `erase`: one of each group of equal neighbours is kept. -/
def unique : List ν → List ν
  | [] => []
  | [a] => [a]
  | a :: b :: l => if a = b then unique (b :: l) else a :: unique (b :: l)

theorem mem_unique {b : ν} {l : List ν} : b ∈ unique l ↔ b ∈ l := by
  induction l using unique.induct with
  | case1 => rfl
  | case2 a => rfl
  | case3 a l ih => simp [unique, ih]
  | case4 a c l hne ih => simp [unique, hne, ih]

/-- A sorted list without its repetitions is strictly sorted. -/
theorem pairwise_unique {l : List ν} (hl : l.Pairwise (· ≤ ·)) : (unique l).Pairwise (· < ·) := by
  induction l using unique.induct with
  | case1 => exact .nil
  | case2 a => exact List.pairwise_singleton _ a
  | case3 a l ih =>
    rw [unique, if_pos rfl]
    exact ih hl.of_cons
  | case4 a c l hne ih =>
    rw [unique, if_neg hne]
    refine List.pairwise_cons.2 ⟨fun b hb => ?_, ih hl.of_cons⟩
    have hac : a < c := lt_of_le_of_ne ((List.pairwise_cons.1 hl).1 c List.mem_cons_self) hne
    rcases List.mem_cons.1 (mem_unique.1 hb) with rfl | hb
    · exact hac
    · exact lt_of_lt_of_le hac ((List.pairwise_cons.1 hl.of_cons).1 b hb)

/-! ## Families -/

variable [Zero ν] [Add ν]

/-- `HistogramFamily`. -/
structure HistogramFamily (ν : Type) where
  help : Bytes
  bucketBounds : List ν
  bucketCounts : List Nat
  totalCount : Nat
  totalSum : ν

/-- The family that `register_histogram` makes. -/
def HistogramFamily.new (help : Bytes) (bucketBounds : List ν) : HistogramFamily ν :=
  let bucketBounds := unique (bucketBounds.insertionSort (· ≤ ·))
  { help, bucketBounds
    bucketCounts := List.replicate bucketBounds.length 0
    totalCount := 0
    totalSum := 0 }

/-- What `observe_histogram` does to the family. -/
def HistogramFamily.observe (h : HistogramFamily ν) (value : ν) : HistogramFamily ν :=
  { h with
    totalCount := h.totalCount + 1
    totalSum := h.totalSum + value
    bucketCounts := List.zipWith (fun bound count => if value ≤ bound then count + 1 else count)
      h.bucketBounds h.bucketCounts }

/-! ## Lines -/

/-- A line of the exposition. -/
inductive Line (κ ν : Type)
  /-- `# HELP`. -/
  | help (name : κ) (text : Bytes)
  /-- `# TYPE`. -/
  | type (name : κ)
  /-- `_bucket` with a bound. -/
  | bucket (name : κ) (le : ν) (count : Nat)
  /-- `_bucket` with `le="+Inf"`. -/
  | infinity (name : κ) (count : Nat)
  /-- `_sum`. -/
  | sum (name : κ) (value : ν)
  /-- `_count`. -/
  | count (name : κ) (value : Nat)

/-- The lines of a family. -/
def HistogramFamily.lines (h : HistogramFamily ν) (name : κ) : List (Line κ ν) :=
  [.help name h.help, .type name] ++ List.zipWith (.bucket name) h.bucketBounds h.bucketCounts ++
    [.infinity name h.totalCount, .sum name h.totalSum, .count name h.totalCount]

/-! ## The service -/

/-- The lines that were written for a family of the registry. -/
structure Block (κ ν : Type) where
  name : κ
  family : Nat
  lines : List (Line κ ν)

/-- A call of `render`. -/
structure Render (κ ν : Type) where
  /-- The families that are still to be written. -/
  hs : List (κ × Nat)
  /-- What is written. -/
  os : List (Block κ ν)

/-- The service: the families that were ever made, the registry, and the calls of `render`. -/
structure State (κ ν : Type) [LinearOrder κ] where
  families : List (HistogramFamily ν)
  histograms : SortedMap κ Nat
  renders : Nat → Option (Render κ ν)

inductive Action (κ ν : Type)
  | register (name : κ) (help : Bytes) (bounds : List ν)
  | observe (name : κ) (value : ν)
  /-- The thread copies the registry. -/
  | render (t : Nat)
  /-- The thread writes its next family. -/
  | write (t : Nat)
  /-- The thread returns what it has written. -/
  | finish (t : Nat)

/-- The next family is written. -/
def Render.write (r : Render κ ν) (families : List (HistogramFamily ν)) : Option (Render κ ν) :=
  match r.hs with
  | [] => none
  | (name, i) :: hs => families[i]?.map fun h =>
    { r with hs, os := r.os ++ [{ name, family := i, lines := h.lines name }] }

/-- A section under a lock. -/
def State.step (s : State κ ν) : Action κ ν → Option (State κ ν)
  | .register name help bounds => some
    { s with
      families := s.families ++ [.new help bounds]
      histograms := s.histograms.assign name s.families.length }
  | .observe name value => some
    { s with
      families :=
        match s.histograms.find? name with
        -- a sample for an unknown name is dropped
        | none => s.families
        | some i => s.families.modify i (·.observe value) }
  | .render t =>
    match s.renders t with
    | some _ => none
    | none => some
      { s with
        renders := Function.update s.renders t
          (some { hs := s.histograms.entries, os := [] }) }
  | .write t => ((s.renders t).bind (·.write s.families)).map fun r =>
    { s with renders := Function.update s.renders t (some r) }
  | .finish t =>
    match s.renders t with
    | some { hs := [], .. } => some { s with renders := Function.update s.renders t none }
    | _ => none

/-- A service without families. -/
def start : State κ ν := ⟨[], .empty, fun _ => none⟩

/-- Calls of any threads in any order. -/
def system : System (State κ ν) (Action κ ν) where
  init s := s = start
  step := State.step

/-! ## What is meant -/

/-- What a step does to the families. -/
inductive Event (κ ν : Type)
  | registered (name : κ) (bounds : List ν)
  | observed (name : κ) (value : ν)

def Action.event : Action κ ν → Option (Event κ ν)
  | .register name _ bounds => some (.registered name bounds)
  | .observe name value => some (.observed name value)
  | _ => none

/-- What the steps of a run do to the families, the last one first. -/
def events (l : List (Action κ ν)) : List (Event κ ν) := (l.filterMap Action.event).reverse

/-- The number of families that were made. -/
def registrations : List (Event κ ν) → Nat
  | [] => 0
  | .registered _ _ :: log => registrations log + 1
  | .observed _ _ :: log => registrations log

/-- The family of a name: the last one that was registered with it. -/
def current (name : κ) : List (Event κ ν) → Option Nat
  | [] => none
  | .registered n _ :: log => if name = n then some (registrations log) else current name log
  | .observed _ _ :: log => current name log

/-- The bounds that were given for a family. -/
def given (i : Nat) : List (Event κ ν) → List ν
  | [] => []
  | .registered _ bounds :: log => if registrations log = i then bounds else given i log
  | .observed _ _ :: log => given i log

/-- The samples of a family: what was observed under its name, while it was the family of it. -/
def samples (i : Nat) : List (Event κ ν) → List ν
  | [] => []
  | .registered _ _ :: log => samples i log
  | .observed n value :: log =>
    if current n log = some i then value :: samples i log else samples i log

/-- The buckets of a histogram. -/
def buckets (lines : List (Line κ ν)) : List (ν × Nat) :=
  lines.filterMap fun
    | .bucket _ le count => some (le, count)
    | _ => none

/-- The counts of the last bucket. -/
def infinities (lines : List (Line κ ν)) : List Nat :=
  lines.filterMap fun
    | .infinity _ count => some count
    | _ => none

/-- The total counts. -/
def totals (lines : List (Line κ ν)) : List Nat :=
  lines.filterMap fun
    | .count _ value => some value
    | _ => none

/-- What the lines of a histogram say about its bounds and its samples. -/
structure Exposes (lines : List (Line κ ν)) (bounds samples : List ν) : Prop where
  /-- The bounds are those given, strictly increasing. -/
  increasing : ((buckets lines).map Prod.fst).Pairwise (· < ·)
  bounds : ∀ b, b ∈ (buckets lines).map Prod.fst ↔ b ∈ bounds
  /-- A bucket counts the samples that are not above its bound. -/
  count : ∀ p ∈ buckets lines, p.2 = samples.countP (· ≤ p.1)
  monotone : ((buckets lines).map Prod.snd).Pairwise (· ≤ ·)
  /-- The last bucket and the total count all of them. -/
  infinity : infinities lines = [samples.length]
  total : totals lines = [samples.length]

/-- What a call of `render` has written, if it started after the steps `l₀` and the steps `l₁` have
    followed. -/
structure Sound (l₀ l₁ : List (Action κ ν)) (t : Nat) (r : Render κ ν) : Prop where
  running : .finish t ∉ l₁
  /-- What is still to be written belongs to the registry at the start, -/
  hs : ∀ p ∈ r.hs, current p.1 (events l₀) = some p.2
  /-- and all that belongs to it is written or still to be. -/
  all : ∀ name i, current name (events l₀) = some i →
    (name, i) ∈ r.hs ∨ ∃ b ∈ r.os, b.name = name ∧ b.family = i
  /-- What is written belongs to it as well, and shows the samples before the step that wrote it. -/
  os : ∀ b ∈ r.os, ∃ l₂ l₃, l₁ = l₂ ++ .write t :: l₃ ∧
    current b.name (events l₀) = some b.family ∧
      Exposes b.lines (given b.family (events (l₀ ++ .render t :: l₂)))
        (samples b.family (events (l₀ ++ .render t :: l₂)))

variable {bounds vs : List ν} {h : HistogramFamily ν} {name : κ} {help : Bytes} {v : ν}

/-! ## One family -/

/-- A family with the bounds that were given, and with the counts of the samples. -/
structure Tallied (h : HistogramFamily ν) (bounds vs : List ν) : Prop where
  bucketBounds : h.bucketBounds = unique (bounds.insertionSort (· ≤ ·))
  bucketCounts : h.bucketCounts = h.bucketBounds.map fun b => vs.countP (· ≤ b)
  totalCount : h.totalCount = vs.length

omit [Add ν] in
/-- A new family has no samples. -/
theorem tallied_new : Tallied (.new help bounds) bounds [] where
  bucketBounds := rfl
  bucketCounts := by simp [HistogramFamily.new, List.map_const']
  totalCount := rfl

omit [Zero ν] in
/-- A sample goes to every bucket whose bound is not below it. -/
theorem Tallied.observe (hh : Tallied h bounds vs) (v : ν) :
    Tallied (h.observe v) bounds (v :: vs) where
  bucketBounds := hh.bucketBounds
  bucketCounts := by
    have hcount : ∀ b : ν, (if v ≤ b then vs.countP (· ≤ b) + 1 else vs.countP (· ≤ b)) =
        (v :: vs).countP (· ≤ b) := by
      intro b
      by_cases hv : v ≤ b <;> simp [hv]
    simp only [HistogramFamily.observe, hh.bucketCounts, List.zipWith_map_right, List.zipWith_self,
      hcount]
  totalCount := by simp [HistogramFamily.observe, hh.totalCount]

omit [LinearOrder κ] [LinearOrder ν] [Zero ν] [Add ν] in
/-- What is read off the lines of the buckets. -/
theorem filterMap_bucket {β : Type} (f : Line κ ν → Option β) (g : ν × Nat → Option β)
    (hf : ∀ p : ν × Nat, f (.bucket name p.1 p.2) = g p) (bs : List ν) (cs : List Nat) :
    (List.zipWith (.bucket name) bs cs).filterMap f = (bs.zip cs).filterMap g := by
  rw [← List.map_uncurry_zip_eq_zipWith, List.filterMap_map]
  exact List.filterMap_congr fun p _ => hf p

omit [LinearOrder κ] [LinearOrder ν] [Zero ν] [Add ν] in
/-- The lines show the buckets. -/
theorem buckets_lines (h : HistogramFamily ν) (name : κ) :
    buckets (h.lines name) = h.bucketBounds.zip h.bucketCounts := by
  rw [buckets, HistogramFamily.lines, List.filterMap_append, List.filterMap_append,
    filterMap_bucket _ some fun _ => rfl, List.filterMap_some]
  exact List.append_nil _

omit [LinearOrder κ] [LinearOrder ν] [Zero ν] [Add ν] in
/-- The last bucket shows the total count. -/
theorem infinities_lines (h : HistogramFamily ν) (name : κ) :
    infinities (h.lines name) = [h.totalCount] := by
  rw [infinities, HistogramFamily.lines, List.filterMap_append, List.filterMap_append,
    filterMap_bucket _ (fun _ => none) fun _ => rfl, List.filterMap_none]
  rfl

omit [LinearOrder κ] [LinearOrder ν] [Zero ν] [Add ν] in
/-- So does the count. -/
theorem totals_lines (h : HistogramFamily ν) (name : κ) :
    totals (h.lines name) = [h.totalCount] := by
  rw [totals, HistogramFamily.lines, List.filterMap_append, List.filterMap_append,
    filterMap_bucket _ (fun _ => none) fun _ => rfl, List.filterMap_none]
  rfl

omit [LinearOrder κ] [Zero ν] [Add ν] in
/-- The lines of a family that agrees with its samples show them. -/
theorem Tallied.exposes (hh : Tallied h bounds vs) (name : κ) :
    Exposes (h.lines name) bounds vs := by
  have hbuckets : buckets (h.lines name) = h.bucketBounds.map fun b => (b, vs.countP (· ≤ b)) := by
    have hzip : (h.bucketBounds.map id).zip (h.bucketBounds.map fun b => vs.countP (· ≤ b)) = _ :=
      List.zip_map'
    rw [List.map_id] at hzip
    rw [buckets_lines, hh.bucketCounts, hzip]
    rfl
  have hbounds : (buckets (h.lines name)).map Prod.fst = unique (bounds.insertionSort (· ≤ ·)) := by
    rw [hbuckets, List.map_map, ← hh.bucketBounds]
    exact List.map_id _
  have hincreasing : (unique (bounds.insertionSort (· ≤ ·))).Pairwise (· < ·) :=
    pairwise_unique (List.pairwise_insertionSort (· ≤ ·) bounds)
  refine ⟨?_, fun b => ?_, fun p hp => ?_, ?_, ?_, ?_⟩
  · rw [hbounds]
    exact hincreasing
  · rw [hbounds, mem_unique, List.mem_insertionSort]
  · rw [hbuckets] at hp
    obtain ⟨b, -, rfl⟩ := List.mem_map.1 hp
    rfl
  · -- a sample that is not above a bound is not above the next ones
    rw [hbuckets, List.map_map, hh.bucketBounds, List.pairwise_map]
    refine hincreasing.imp fun {a b} hab => ?_
    exact List.countP_mono_left fun v _ hv => by
      simpa using le_trans (by simpa using hv) hab.le
  · rw [infinities_lines, hh.totalCount]
  · rw [totals_lines, hh.totalCount]

/-! ## The log -/

section Log

variable {log : List (Event κ ν)} {name' : κ} {i : Nat}

omit [LinearOrder ν] [Zero ν] [Add ν] in
/-- The family of a name is one that was made. -/
theorem current_lt (hi : current name log = some i) : i < registrations log := by
  induction log with
  | nil => cases hi
  | cons e log ih =>
    cases e with
    | registered n bounds =>
      rw [current] at hi
      split at hi
      · cases hi
        exact Nat.lt_succ_self _
      · exact (ih hi).trans (Nat.lt_succ_self _)
    | observed n v => exact ih hi

omit [LinearOrder ν] [Zero ν] [Add ν] in
/-- A family has one name. -/
theorem current_inj (hi : current name log = some i) (hi' : current name' log = some i) :
    name = name' := by
  induction log with
  | nil => cases hi
  | cons e log ih =>
    cases e with
    | registered n bounds =>
      rw [current] at hi hi'
      split at hi <;> split at hi'
      · next h h' => rw [h, h']
      · cases hi
        exact absurd (current_lt hi') (Nat.lt_irrefl _)
      · cases hi'
        exact absurd (current_lt hi) (Nat.lt_irrefl _)
      · exact ih hi hi'
    | observed n v => exact ih hi hi'

omit [LinearOrder ν] [Zero ν] [Add ν] in
/-- A family has no samples before it is made. -/
theorem samples_eq_nil (hi : registrations log ≤ i) : samples i log = [] := by
  induction log with
  | nil => rfl
  | cons e log ih =>
    cases e with
    | registered n bounds => exact ih ((Nat.le_succ _).trans hi)
    | observed n v =>
      have hne : current n log ≠ some i := fun h => absurd (current_lt h) (Nat.not_lt.2 hi)
      rw [samples, if_neg hne]
      exact ih hi

/-- What was observed under a name since it was registered last. -/
def observedSince (name : κ) : List (Event κ ν) → List ν
  | [] => []
  | .registered n _ :: log => if name = n then [] else observedSince name log
  | .observed n value :: log =>
    if name = n then value :: observedSince name log else observedSince name log

omit [LinearOrder ν] [Zero ν] [Add ν] in
/-- The family of a name has all that was observed under it since the registration. -/
theorem samples_of_current (hi : current name log = some i) :
    samples i log = observedSince name log := by
  induction log with
  | nil => cases hi
  | cons e log ih =>
    cases e with
    | registered n bounds =>
      rw [current] at hi
      rw [samples, observedSince]
      split at hi
      · next h =>
        cases hi
        rw [if_pos h, samples_eq_nil le_rfl]
      · next h => rw [if_neg h, ih hi]
    | observed n v =>
      have hi : current name log = some i := hi
      rw [samples, observedSince, ih hi]
      by_cases h : name = n
      · rw [if_pos h, if_pos (h ▸ hi)]
      · rw [if_neg h, if_neg fun hn => h (current_inj hi hn)]

end Log

/-! ## Runs -/

section Events

variable {l : List (Action κ ν)} {a : Action κ ν}

omit [LinearOrder κ] [LinearOrder ν] [Zero ν] [Add ν] in
theorem events_concat {e : Event κ ν} (ha : a.event = some e) :
    events (l ++ [a]) = e :: events l := by
  simp [events, ha]

omit [LinearOrder κ] [LinearOrder ν] [Zero ν] [Add ν] in
theorem events_concat_of_none (ha : a.event = none) : events (l ++ [a]) = events l := by
  simp [events, ha]

end Events

/-- The registry and the families agree with the steps of the run. -/
structure Inv (l : List (Action κ ν)) (s : State κ ν) : Prop where
  length : s.families.length = registrations (events l)
  registry : ∀ name, s.histograms.find? name = current name (events l)
  tallied : ∀ i h, s.families[i]? = some h →
    Tallied h (given i (events l)) (samples i (events l))
  renders : ∀ t r, s.renders t = some r → ∃ l₀ l₁, l = l₀ ++ .render t :: l₁ ∧ Sound l₀ l₁ t r

variable {s s' : State κ ν} {r r' : Render κ ν} {l l₀ l₁ : List (Action κ ν)} {a : Action κ ν}
  {t : Nat}

omit [Zero ν] [Add ν] in
/-- Other steps do not touch what is written. -/
theorem Sound.concat (hr : Sound l₀ l₁ t r) (ha : a ≠ .finish t) : Sound l₀ (l₁ ++ [a]) t r where
  running hmem := by
    rcases List.mem_append.1 hmem with hmem | hmem
    · exact hr.running hmem
    · exact ha (List.mem_singleton.1 hmem).symm
  hs := hr.hs
  all := hr.all
  os b hb := by
    obtain ⟨l₂, l₃, rfl, hb⟩ := hr.os b hb
    exact ⟨l₂, l₃ ++ [a], by simp, hb⟩

omit [Zero ν] [Add ν] in
/-- A call that goes on has written what it has written. -/
theorem Inv.renders_concat (hs : Inv l s) (hr : s.renders t = some r) (ha : a ≠ .finish t) :
    ∃ l₀ l₁, l ++ [a] = l₀ ++ .render t :: l₁ ∧ Sound l₀ l₁ t r := by
  obtain ⟨l₀, l₁, rfl, hsound⟩ := hs.renders t r hr
  exact ⟨l₀, l₁ ++ [a], by simp, hsound.concat ha⟩

omit [Zero ν] [Add ν] in
/-- Nothing is written before the first step. -/
theorem inv_start : Inv [] (start : State κ ν) where
  length := rfl
  registry _ := rfl
  tallied _ _ h := by cases h
  renders _ _ h := by cases h

omit [Add ν] in
/-- A new family has the next number, and no samples. -/
theorem Inv.register (hs : Inv l s) (name : κ) (help : Bytes) (bounds : List ν) :
    Inv (l ++ [.register name help bounds]) { s with
      families := s.families ++ [.new help bounds]
      histograms := s.histograms.assign name s.families.length } where
  length := by
    rw [events_concat rfl, registrations, ← hs.length]
    exact List.length_append
  registry n := by
    rw [events_concat rfl, SortedMap.find?_assign, current, hs.registry, hs.length]
  tallied i h hi := by
    rw [events_concat rfl, given, samples, ← hs.length]
    rcases Nat.lt_trichotomy i s.families.length with hlt | rfl | hgt
    · rw [List.getElem?_append_left hlt] at hi
      rw [if_neg hlt.ne']
      exact hs.tallied i h hi
    · rw [List.getElem?_concat_length] at hi
      cases hi
      rw [if_pos rfl, samples_eq_nil hs.length.ge]
      exact tallied_new
    · rw [List.getElem?_eq_none (by simpa using Nat.succ_le_of_lt hgt)] at hi
      cases hi
  renders t r hr := hs.renders_concat hr nofun

omit [Zero ν] in
/-- A sample goes to the family of its name. -/
theorem Inv.observe (hs : Inv l s) (name : κ) (value : ν) :
    Inv (l ++ [.observe name value]) { s with
      families :=
        match s.histograms.find? name with
        | none => s.families
        | some i => s.families.modify i (·.observe value) } where
  length := by
    rw [events_concat rfl, registrations]
    cases s.histograms.find? name with
    | none => exact hs.length
    | some i => exact (List.length_modify _ _ _).trans hs.length
  registry n := by
    rw [events_concat rfl]
    exact hs.registry n
  tallied i h hi := by
    rw [hs.registry] at hi
    rw [events_concat rfl, given, samples]
    cases hname : current name (events l) with
    | none =>
      rw [hname] at hi
      rw [if_neg (by simp)]
      exact hs.tallied i h hi
    | some j =>
      rw [hname] at hi
      simp only [List.getElem?_modify, Option.map_eq_map, Option.map_eq_some_iff] at hi
      obtain ⟨h, hi, rfl⟩ := hi
      by_cases hji : j = i
      · rw [if_pos hji, if_pos (congrArg some hji)]
        exact (hs.tallied i h hi).observe value
      · rw [if_neg hji, if_neg fun h => hji (Option.some.inj h)]
        exact hs.tallied i h hi
  renders t r hr := hs.renders_concat hr nofun

omit [Zero ν] [Add ν] in
/-- Only the thread itself changes its call. -/
theorem Inv.update (hs : Inv l s) (t : Nat) {o : Option (Render κ ν)} (ha : a.event = none)
    (hother : ∀ t', t' ≠ t → a ≠ .finish t')
    (ho : ∀ r, o = some r → ∃ l₀ l₁, l ++ [a] = l₀ ++ .render t :: l₁ ∧ Sound l₀ l₁ t r) :
    Inv (l ++ [a]) { s with renders := Function.update s.renders t o } where
  length := by
    rw [events_concat_of_none ha]
    exact hs.length
  registry name := by
    rw [events_concat_of_none ha]
    exact hs.registry name
  tallied := by
    rw [events_concat_of_none ha]
    exact hs.tallied
  renders t' r hr := by
    by_cases h : t' = t
    · subst h
      exact ho r ((Function.update_self t' o s.renders).symm.trans hr)
    · have hr : s.renders t' = some r := (Function.update_of_ne h o s.renders).symm.trans hr
      exact hs.renders_concat hr (hother t' h)

omit [Zero ν] [Add ν] in
/-- A call that starts has the registry to write. -/
theorem Inv.sound_start (hs : Inv l s) (t : Nat) :
    Sound l [] t { hs := s.histograms.entries, os := [] } where
  running := List.not_mem_nil
  hs p hp := by
    rw [← hs.registry]
    exact SortedMap.find?_eq_some_iff.2 hp
  all name i hi := by
    rw [← hs.registry] at hi
    exact .inl (SortedMap.find?_eq_some_iff.1 hi)
  os _ hb := absurd hb List.not_mem_nil

omit [Zero ν] [Add ν] in
/-- A family that is written shows its samples of that moment. -/
theorem Inv.write (hs : Inv (l₀ ++ .render t :: l₁) s) (hr : Sound l₀ l₁ t r)
    (hw : r.write s.families = some r') : Sound l₀ (l₁ ++ [.write t]) t r' := by
  rw [Render.write] at hw
  split at hw
  · cases hw
  next name i hs' hpending =>
  obtain ⟨h, hi, rfl⟩ := Option.map_eq_some_iff.1 hw
  have hconcat := hr.concat (a := .write t) nofun
  have hfirst : (name, i) ∈ r.hs := hpending ▸ List.mem_cons_self
  refine ⟨hconcat.running, fun p hp => hr.hs p (hpending ▸ List.mem_cons_of_mem _ hp),
    fun n j hj => ?_, fun b hb => ?_⟩
  · rcases hr.all n j hj with hmem | ⟨b, hb, hname⟩
    · rw [hpending, List.mem_cons, Prod.mk.injEq] at hmem
      rcases hmem with ⟨rfl, rfl⟩ | hmem
      · exact .inr ⟨_, List.mem_append_right _ (List.mem_singleton_self _), rfl, rfl⟩
      · exact .inl hmem
    · exact .inr ⟨b, List.mem_append_left _ hb, hname⟩
  · rcases List.mem_append.1 hb with hb | hb
    · exact hconcat.os b hb
    · obtain rfl := List.mem_singleton.1 hb
      exact ⟨l₁, [], rfl, hr.hs _ hfirst, (hs.tallied i h hi).exposes name⟩

/-- Every step keeps the agreement. -/
theorem Inv.step (hs : Inv l s) (h : s.step a = some s') : Inv (l ++ [a]) s' := by
  cases a with
  | register name help bounds =>
    cases h
    exact hs.register name help bounds
  | observe name value =>
    cases h
    exact hs.observe name value
  | render t =>
    rw [State.step] at h
    split at h
    · cases h
    · cases h
      refine hs.update t rfl nofun fun r hr => ?_
      cases hr
      exact ⟨l, [], rfl, hs.sound_start t⟩
  | write t =>
    obtain ⟨r', hr', rfl⟩ := Option.map_eq_some_iff.1 h
    obtain ⟨r, hr, hw⟩ := Option.bind_eq_some_iff.1 hr'
    refine hs.update t rfl nofun fun r'' h'' => ?_
    cases h''
    obtain ⟨l₀, l₁, rfl, hsound⟩ := hs.renders t r hr
    exact ⟨l₀, l₁ ++ [.write t], by simp, hs.write hsound hw⟩
  | finish t =>
    rw [State.step] at h
    split at h
    · cases h
      refine hs.update t rfl (fun t' ht he => ht ?_) nofun
      exact (Action.finish.inj he).symm
    · cases h

/-- So does every run. -/
theorem inv_of_exec (hl : system.Exec System.Always start l s) : Inv l s := by
  induction hl with
  | nil => exact inv_start
  | snoc _ _ hstep ih => exact ih.step hstep

/-- In every run, each histogram that a call of `render` has written has strictly increasing bounds,
    those that were given; its buckets count the samples not above their bounds, and the last one
    and the total count all that were observed for its family before it was written. -/
theorem exposition_consistent (hl : system.Exec System.Always start l s)
    (hr : s.renders t = some r) :
    ∃ l₀ l₁, l = l₀ ++ .render t :: l₁ ∧ Sound l₀ l₁ t r :=
  (inv_of_exec hl).renders t r hr

/-- A sample comes in between the copy of the registry and that of the family, and another one after
    it. -/
def twoSamples : List (Action Nat Nat) :=
  [.register 7 [] [5, 1, 5], .observe 7 1, .render 0, .observe 7 3, .write 0, .observe 7 4]

/-- The call shows the first two of the three samples. -/
theorem exposition_consistent_two : ∃ r : Render Nat Nat,
    r.os.map (fun b => (b.name, buckets b.lines, infinities b.lines, totals b.lines)) =
        [(7, [(1, 1), (5, 2)], [2], [2])] ∧
      ∃ l₀ l₁, twoSamples = l₀ ++ .render 0 :: l₁ ∧ Sound l₀ l₁ 0 r := by
  have hrun : ((system : System (State Nat Nat) (Action Nat Nat)).run start twoSamples).any
      (fun s => (s.renders 0).any fun r =>
        r.os.map (fun b => (b.name, buckets b.lines, infinities b.lines, totals b.lines)) ==
          [(7, [(1, 1), (5, 2)], [2], [2])]) = true := by decide +kernel
  obtain ⟨s, hexec, hany⟩ := System.exists_exec_of_run hrun
  obtain ⟨r, hr, hshown⟩ := (Option.any_eq_true _ _).1 hany
  exact ⟨r, beq_iff_eq.1 hshown, exposition_consistent hexec hr⟩

end LiteCode.Metrics
