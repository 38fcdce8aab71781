import LiteCode.Lib.ListIndex
import LiteCode.Routes.BulkImport
import Mathlib.Data.List.Forall2

/-!
# The names of tags

`find_or_create_many` of `src/db/tag_repo.h` turns names into rows of the table `tags`: one
`INSERT IGNORE` of all the names, and one `SELECT` of the rows that have them. The table compares
names by the collation of its column, `weight`; the result of the `SELECT` is then searched byte
by byte. A name that is stored in another spelling is not found, after the `INSERT`. A statement
that fails is taken to have had no effect: no reply of the database is lost.

* `Tags`: the table, with the key that the database enforces; `insertIgnore`;
* `name_find?_insertAll`, `mem_weights_insertAll`: the spellings and the classes after the `INSERT`;
* `Canonical`: the names that are spelt as the table has them after the `INSERT`;
* `findOrCreateMany_meets_iff`: the names are resolved, or nothing is changed, exactly when they
  are canonical; with a `SELECT` that fails, when the `INSERT` has nothing to insert.
-/

namespace LiteCode.TagRepo

open BulkImport

/-! ## The table -/

/-- `TagRow`. -/
structure TagRow where
  id : Nat
  name : Bytes
  deriving DecidableEq, Repr

/-- The table `tags`, with its next id. No two names are the same for the collation. -/
structure Tags (weight : Bytes → Bytes) where
  rows : List TagRow
  nextId : Nat
  id_lt : ∀ r ∈ rows, r.id < nextId
  names : (rows.map fun r => weight r.name).Nodup

/-- The database server: the collation of the names, and the order in which it gives rows. -/
structure Server where
  weight : Bytes → Bytes
  order : List TagRow → List TagRow
  order_perm : ∀ l, (order l).Perm l

section Table

variable {weight : Bytes → Bytes}

namespace Tags

/-- The row with a name. -/
def find? (t : Tags weight) (name : Bytes) : Option TagRow :=
  t.rows.find? fun r => weight r.name == weight name

theorem find?_eq_none_iff {t : Tags weight} {name : Bytes} :
    t.find? name = none ↔ weight name ∉ t.rows.map fun r => weight r.name :=
  find?_key_eq_none_iff

theorem find?_eq_some_iff {t : Tags weight} {name : Bytes} {r : TagRow} :
    t.find? name = some r ↔ r ∈ t.rows ∧ weight r.name = weight name :=
  find?_key_eq_some_iff t.names

/-- A row with a name that is free. -/
def insert (t : Tags weight) (name : Bytes) (h : t.find? name = none) : Tags weight where
  rows := t.rows ++ [⟨t.nextId, name⟩]
  nextId := t.nextId + 1
  id_lt :=
    forall_mem_concat (fun r hr => Nat.lt_succ_of_lt (t.id_lt r hr)) (Nat.lt_succ_self t.nextId)
  names := nodup_map_concat t.names fun _ hr hw =>
    find?_eq_none_iff.1 h (List.mem_map.2 ⟨_, hr, hw⟩)

/-- One row of `INSERT IGNORE INTO tags (name) VALUES (?), ...`. -/
def insertIgnore (t : Tags weight) (name : Bytes) : Tags weight :=
  if h : t.find? name = none then t.insert name h else t

/-- `INSERT IGNORE INTO tags (name) VALUES (?), ...`. -/
def insertAll (t : Tags weight) (names : List Bytes) : Tags weight := names.foldl insertIgnore t

/-- `SELECT id, name FROM tags WHERE name IN (?, ...)`, in the order of the table. -/
def select (t : Tags weight) (names : List Bytes) : List TagRow :=
  t.rows.filter fun r => names.any fun n => weight n == weight r.name

/-! ### After the `INSERT` -/

theorem insertIgnore_of_ne_none {t : Tags weight} {name : Bytes} (h : t.find? name ≠ none) :
    t.insertIgnore name = t := dif_neg h

/-- The spelling of a class after one row: the one that was there, or else the new one. -/
theorem name_find?_insertIgnore (t : Tags weight) (m n : Bytes) :
    ((t.insertIgnore m).find? n).map TagRow.name =
      ((t.find? n).map TagRow.name).or (if weight m == weight n then some m else none) := by
  by_cases h : t.find? m = none
  · rw [insertIgnore, dif_pos h]
    simp only [find?, insert, List.find?_append, Option.map_or, List.find?_singleton]
    split_ifs <;> rfl
  · rw [insertIgnore_of_ne_none h]
    split_ifs with hw
    · -- the class of `m` is that of `n`
      have hclass : t.find? n = t.find? m := by simp only [find?, beq_iff_eq.1 hw]
      obtain ⟨r, hr⟩ := Option.ne_none_iff_exists'.1 h
      rw [hclass, hr]
      rfl
    · rw [Option.or_none]

/-- The spelling of a class after the `INSERT`: the one that was there, or else the first of the
    names. -/
theorem name_find?_insertAll (t : Tags weight) (names : List Bytes) (n : Bytes) :
    ((t.insertAll names).find? n).map TagRow.name =
      ((t.find? n).map TagRow.name).or (names.find? fun m => weight m == weight n) := by
  induction names generalizing t with
  | nil => exact Option.or_none.symm
  | cons m names ih =>
    rw [insertAll, List.foldl_cons, ← insertAll, ih, name_find?_insertIgnore, Option.or_assoc,
      List.find?_cons]
    split_ifs with hw <;> simp [hw]

/-- The rows that are there stay where they are. -/
theorem rows_prefix_insertAll (t : Tags weight) (names : List Bytes) :
    t.rows <+: (t.insertAll names).rows := by
  induction names generalizing t with
  | nil => exact List.prefix_refl t.rows
  | cons m names ih =>
    refine List.IsPrefix.trans ?_ (ih (t.insertIgnore m))
    rw [insertIgnore]
    split_ifs
    · exact List.prefix_append t.rows _
    · exact List.prefix_refl t.rows

/-- The classes after the `INSERT` are those of the table and those of the names. -/
theorem mem_weights_insertAll (t : Tags weight) (names : List Bytes) (n : Bytes) :
    (weight n ∈ (t.insertAll names).rows.map fun r => weight r.name) ↔
      (weight n ∈ t.rows.map fun r => weight r.name) ∨ weight n ∈ names.map weight := by
  have hfind := name_find?_insertAll t names n
  rw [← not_iff_not, not_or, ← find?_eq_none_iff, ← find?_eq_none_iff, ← Option.map_eq_none_iff,
    hfind, Option.or_eq_none_iff, Option.map_eq_none_iff, find?_key_eq_none_iff]

/-- If every name is there, nothing is inserted. -/
theorem insertAll_of_forall {t : Tags weight} {names : List Bytes}
    (h : ∀ n ∈ names, t.find? n ≠ none) : t.insertAll names = t := by
  induction names with
  | nil => rfl
  | cons n names ih =>
    rw [List.forall_mem_cons] at h
    rw [insertAll, List.foldl_cons, insertIgnore_of_ne_none h.1]
    exact ih h.2

end Tags

end Table

/-! ## The resolver -/

/-- What may go wrong with the database. -/
inductive Fault
  | acquire (what : Bytes)
  | insert (what : Bytes)
  | select (what : Bytes)
  deriving DecidableEq, Repr

/-- The names trimmed, or the message of the first one that is invalid. -/
def trimAll (names : List Bytes) : Except Bytes (List Bytes) :=
  names.mapM fun n =>
    match validateTagName (trimTagName n) with
    | .ok () => .ok (trimTagName n)
    | .error err =>
      .error (bytes "find_or_create_many: '" ++ n ++ bytes "': " ++ err)

/-- The message for a name that is not among the rows. -/
def unresolved (name : Bytes) : Bytes :=
  bytes "find_or_create_many: failed to resolve '" ++ name ++
    bytes ("' after INSERT IGNORE -- collation mismatch between input and stored value is the " ++
      "most likely cause (try pre-trimming and matching the canonical case stored on disk)")

/-- The search of `by_name`, which has the first row of each name. -/
def byName (rows : List TagRow) (n : Bytes) : Except Bytes TagRow :=
  match rows.find? fun r => r.name == n with
  | none => .error (unresolved n)
  | some r => .ok r

/-- The rows of the names, in their order. -/
def reorder (rows : List TagRow) (names : List Bytes) : Except Bytes (List TagRow) :=
  names.mapM (byName rows)

/-- `find_or_create_many`: what it returns or throws, and the table that it leaves. -/
def findOrCreateMany (server : Server) (t : Tags server.weight) (names : List Bytes)
    (fault : Option Fault) : Except Bytes (List TagRow) × Tags server.weight :=
  let rethrow (what : Bytes) : Bytes := bytes "tag_repo::find_or_create_many: " ++ what
  if names.isEmpty then (.ok [], t)
  else match trimAll names with
    | .error err => (.error err, t)
    | .ok trimmed =>
      match fault with
      | some (.acquire what) => (.error what, t)
      | some (.insert what) => (.error (rethrow what), t)
      | some (.select what) => (.error (rethrow what), t.insertAll trimmed)
      | none =>
        (reorder (server.order ((t.insertAll trimmed).select trimmed)) trimmed,
          t.insertAll trimmed)

/-! ## The names -/

/-- The name is accepted. -/
def Valid (name : Bytes) : Prop := validateTagName (trimTagName name) = .ok ()

variable {names : List Bytes}

theorem trimAll_of_valid (h : ∀ n ∈ names, Valid n) :
    trimAll names = .ok (names.map trimTagName) := by
  induction names with
  | nil => rfl
  | cons n names ih =>
    rw [List.forall_mem_cons] at h
    have hrest : trimAll names = .ok (names.map trimTagName) := ih h.2
    rw [trimAll] at hrest ⊢
    rw [List.mapM_cons, hrest, show validateTagName (trimTagName n) = .ok () from h.1]
    rfl

theorem trimAll_of_invalid (h : ∃ n ∈ names, ¬Valid n) : ∃ err, trimAll names = .error err := by
  induction names with
  | nil => simp at h
  | cons n names ih =>
    rw [trimAll, List.mapM_cons]
    cases hn : validateTagName (trimTagName n) with
    | error err => exact ⟨_, rfl⟩
    | ok =>
      obtain ⟨err, herr⟩ := ih (by
        obtain ⟨m, hm, hinvalid⟩ := h
        rcases List.mem_cons.1 hm with rfl | hm
        · exact absurd hn hinvalid
        · exact ⟨m, hm, hinvalid⟩)
      rw [trimAll] at herr
      rw [herr]
      exact ⟨err, rfl⟩

/-- The search finds rows with the name only. -/
theorem mem_of_byName {rows : List TagRow} {n : Bytes} {r : TagRow} (h : byName rows n = .ok r) :
    r ∈ rows ∧ r.name = n := by
  rw [byName] at h
  cases hn : rows.find? fun r => r.name == n with
  | none =>
    rw [hn] at h
    cases h
  | some r' =>
    rw [hn] at h
    cases h
    exact mem_of_find?_key hn

theorem exists_byName_iff {rows : List TagRow} {n : Bytes} :
    (∃ r, byName rows n = .ok r) ↔ ∃ r ∈ rows, r.name = n := by
  constructor
  · rintro ⟨r, hr⟩
    exact ⟨r, mem_of_byName hr⟩
  · rintro ⟨r, hr, hname⟩
    obtain ⟨r', hr'⟩ := exists_find?_key_iff.2 ⟨r, hr, hname⟩
    exact ⟨r', by rw [byName, hr']⟩

/-- Every name is found among the rows, byte by byte. -/
theorem exists_reorder_iff {rows : List TagRow} :
    (∃ out, reorder rows names = .ok out) ↔ ∀ n ∈ names, ∃ r ∈ rows, r.name = n := by
  induction names with
  | nil => exact iff_of_true ⟨[], rfl⟩ (List.forall_mem_nil _)
  | cons n names ih =>
    rw [List.forall_mem_cons, ← ih, ← exists_byName_iff, reorder, List.mapM_cons]
    simp only [ErrorHandler.bind_eq_ok]
    constructor
    · rintro ⟨out, r, hr, rest, hrest, -⟩
      exact ⟨⟨r, hr⟩, rest, hrest⟩
    · rintro ⟨⟨r, hr⟩, rest, hrest⟩
      exact ⟨r :: rest, r, hr, rest, hrest, rfl⟩

/-- The rows come back in the order of the names. -/
theorem forall₂_of_reorder {rows out : List TagRow} (h : reorder rows names = .ok out) :
    List.Forall₂ (fun n r => r ∈ rows ∧ r.name = n) names out := by
  induction names generalizing out with
  | nil =>
    cases h
    exact .nil
  | cons n names ih =>
    rw [reorder, List.mapM_cons] at h
    obtain ⟨r, hr, h⟩ := ErrorHandler.bind_eq_ok.1 h
    obtain ⟨rest, hrest, h⟩ := ErrorHandler.bind_eq_ok.1 h
    cases h
    exact .cons (mem_of_byName hr) (ih hrest)

/-! ## Resolved, or nothing changed -/

section Resolved

variable {weight : Bytes → Bytes}

/-- The names are spelt as the table has them after the `INSERT`: as the row of their class is, or
    as the first name of the class if there is none. -/
def Tags.Canonical (t : Tags weight) (names : List Bytes) : Prop :=
  ∀ n ∈ names, ((t.find? n).map TagRow.name).or (names.find? fun m => weight m == weight n) = some n

instance (t : Tags weight) (names : List Bytes) : Decidable (t.Canonical names) :=
  inferInstanceAs (Decidable (∀ _ ∈ _, _))

/-- The names are resolved: `rows` are rows of theirs, in their order, and the table has one new
    row for each class of names that it had not. -/
structure Resolved (t : Tags weight) (names : List Bytes) (rows : List TagRow)
    (t' : Tags weight) : Prop where
  in_order : List.Forall₂ (fun n r => r ∈ t'.rows ∧ weight r.name = weight n) names rows
  created : ∃ new, t'.rows = t.rows ++ new ∧ (new.map fun r => weight r.name).Nodup ∧
    ∀ n, (weight n ∈ new.map fun r => weight r.name) ↔
      weight n ∈ names.map weight ∧ weight n ∉ t.rows.map fun r => weight r.name

/-- The new rows of the `INSERT`. -/
theorem created_insertAll (t : Tags weight) (names : List Bytes) :
    ∃ new, (t.insertAll names).rows = t.rows ++ new ∧ (new.map fun r => weight r.name).Nodup ∧
      ∀ n, (weight n ∈ new.map fun r => weight r.name) ↔
        weight n ∈ names.map weight ∧ weight n ∉ t.rows.map fun r => weight r.name := by
  obtain ⟨new, hnew⟩ := t.rows_prefix_insertAll names
  have hnodup := (t.insertAll names).names
  rw [← hnew, List.map_append] at hnodup
  obtain ⟨-, hnodup, hdisjoint⟩ := List.nodup_append'.1 hnodup
  refine ⟨new, hnew.symm, hnodup, fun n => ?_⟩
  have hmem := t.mem_weights_insertAll names n
  rw [← hnew, List.map_append, List.mem_append] at hmem
  have hnot := @hdisjoint (weight n)
  tauto

/-- Every name is found after the `INSERT` exactly if the names are canonical. -/
theorem canonical_iff (t : Tags weight) (names : List Bytes) :
    t.Canonical names ↔ ∀ n ∈ names, ∃ r ∈ (t.insertAll names).select names, r.name = n := by
  refine forall₂_congr fun n hn => ?_
  rw [← Tags.name_find?_insertAll, Option.map_eq_some_iff]
  constructor
  · rintro ⟨r, hr, hname⟩
    refine ⟨r, List.mem_filter.2 ⟨(Tags.find?_eq_some_iff.1 hr).1, ?_⟩, hname⟩
    exact List.any_eq_true.2 ⟨n, hn, by rw [hname]; exact beq_self_eq_true _⟩
  · rintro ⟨r, hr, hname⟩
    exact ⟨r, Tags.find?_eq_some_iff.2 ⟨List.mem_of_mem_filter hr, by rw [hname]⟩, hname⟩

/-- If nothing is inserted, every name is there already. -/
theorem rows_insertAll_iff (t : Tags weight) (names : List Bytes) :
    (t.insertAll names).rows = t.rows ↔ ∀ n ∈ names, t.find? n ≠ none := by
  constructor
  · intro h n hn
    have hmem := (t.mem_weights_insertAll names n).2 (.inr (List.mem_map_of_mem hn))
    rw [h] at hmem
    exact fun hnone => Tags.find?_eq_none_iff.1 hnone hmem
  · intro h
    rw [Tags.insertAll_of_forall h]

end Resolved

variable (server : Server) (t : Tags server.weight) (fault : Option Fault)

/-- The function resolves valid names when the database does not fail, and leaves the table as it
    is when a name is invalid, and whenever it throws. -/
structure Meets (names : List Bytes) : Prop where
  resolves : (∀ n ∈ names, Valid n) → fault = none →
    ∃ rows, (findOrCreateMany server t names fault).1 = .ok rows ∧
      Resolved t (names.map trimTagName) rows (findOrCreateMany server t names fault).2
  rejects : (∃ n ∈ names, ¬Valid n) → (findOrCreateMany server t names fault).2.rows = t.rows
  unchanged : ∀ what, (findOrCreateMany server t names fault).1 = .error what →
    (findOrCreateMany server t names fault).2.rows = t.rows

/-- The names are canonical; and if the `SELECT` fails, they are all there. -/
def Settled (names : List Bytes) : Prop :=
  match fault with
  | none => t.Canonical (names.map trimTagName)
  | some (.select _) => ∀ n ∈ names.map trimTagName, t.find? n ≠ none
  | some (.acquire _) | some (.insert _) => True

instance : Decidable (Settled server t fault names) :=
  match fault with
  | none => inferInstanceAs (Decidable (t.Canonical _))
  | some (.select _) => inferInstanceAs (Decidable (∀ _ ∈ _, _))
  | some (.acquire _) | some (.insert _) => isTrue trivial

variable {server t fault}

/-- What the function does with valid names. -/
theorem findOrCreateMany_of_valid (server : Server) (t : Tags server.weight)
    (fault : Option Fault) (h : ∀ n ∈ names, Valid n) (hne : names ≠ []) :
    findOrCreateMany server t names fault =
      match fault with
      | some (.acquire what) => (.error what, t)
      | some (.insert what) => (.error (bytes "tag_repo::find_or_create_many: " ++ what), t)
      | some (.select what) =>
        (.error (bytes "tag_repo::find_or_create_many: " ++ what),
          t.insertAll (names.map trimTagName))
      | none =>
        (reorder (server.order ((t.insertAll (names.map trimTagName)).select
            (names.map trimTagName))) (names.map trimTagName),
          t.insertAll (names.map trimTagName)) := by
  rw [findOrCreateMany, if_neg (by simpa using hne), trimAll_of_valid h]

/-- With an invalid name nothing is done. -/
theorem findOrCreateMany_of_invalid (server : Server) (t : Tags server.weight)
    (fault : Option Fault) (h : ∃ n ∈ names, ¬Valid n) :
    ∃ err, findOrCreateMany server t names fault = (.error err, t) := by
  obtain ⟨err, herr⟩ := trimAll_of_invalid h
  have hne : ¬names.isEmpty := by
    obtain ⟨n, hn, -⟩ := h
    exact fun hempty => absurd (List.isEmpty_iff.1 hempty ▸ hn) List.not_mem_nil
  exact ⟨err, by rw [findOrCreateMany, if_neg hne, herr]⟩

/-- The names are resolved when they are canonical. -/
theorem resolved_of_canonical (h : t.Canonical names) :
    ∃ rows, reorder (server.order ((t.insertAll names).select names)) names = .ok rows ∧
      Resolved t names rows (t.insertAll names) := by
  have hmem : ∀ r, r ∈ server.order ((t.insertAll names).select names) ↔
      r ∈ (t.insertAll names).select names := fun r => (server.order_perm _).mem_iff
  obtain ⟨rows, hrows⟩ := exists_reorder_iff.2 fun n hn => by
    obtain ⟨r, hr, hname⟩ := (canonical_iff t names).1 h n hn
    exact ⟨r, (hmem r).2 hr, hname⟩
  refine ⟨rows, hrows, (forall₂_of_reorder hrows).imp fun n r hr => ?_, created_insertAll t names⟩
  exact ⟨List.mem_of_mem_filter ((hmem r).1 hr.1), by rw [hr.2]⟩

/-- No names: nothing is done. -/
theorem meets_nil : Meets server t fault [] where
  resolves _ _ := ⟨[], rfl, .nil, [], (List.append_nil _).symm, List.nodup_nil, by simp⟩
  rejects _ := rfl
  unchanged _ _ := rfl

theorem settled_nil : Settled server t fault [] :=
  match fault with
  | none => List.forall_mem_nil _
  | some (.select _) => List.forall_mem_nil _
  | some (.acquire _) | some (.insert _) => trivial

/-- Valid names, when the database does not fail. -/
theorem meets_none_iff (hvalid : ∀ n ∈ names, Valid n) (hne : names ≠ []) :
    Meets server t none names ↔ t.Canonical (names.map trimTagName) := by
  have heq := findOrCreateMany_of_valid server t none hvalid hne
  constructor
  · intro h
    obtain ⟨rows, hrows, -⟩ := h.resolves hvalid rfl
    rw [heq] at hrows
    refine (canonical_iff t _).2 fun n hn => ?_
    obtain ⟨r, hr, hname⟩ := exists_reorder_iff.1 ⟨rows, hrows⟩ n hn
    exact ⟨r, (server.order_perm _).mem_iff.1 hr, hname⟩
  · intro h
    obtain ⟨rows, hrows, hresolved⟩ := resolved_of_canonical h
    refine ⟨fun _ _ => ⟨rows, by rw [heq]; exact hrows, by rw [heq]; exact hresolved⟩,
      fun ⟨n, hn, hinvalid⟩ => absurd (hvalid n hn) hinvalid, fun what hwhat => ?_⟩
    rw [heq] at hwhat
    exact absurd (hrows.symm.trans hwhat) nofun

/-- Valid names, when the `SELECT` fails: the `INSERT` stays. -/
theorem meets_select_iff (what : Bytes) (hvalid : ∀ n ∈ names, Valid n) (hne : names ≠ []) :
    Meets server t (some (.select what)) names ↔
      ∀ n ∈ names.map trimTagName, t.find? n ≠ none := by
  have heq := findOrCreateMany_of_valid server t (some (.select what)) hvalid hne
  rw [← rows_insertAll_iff]
  constructor
  · intro h
    simpa only [heq] using h.unchanged _ (congrArg Prod.fst heq)
  · intro h
    exact ⟨nofun, fun ⟨n, hn, hinvalid⟩ => absurd (hvalid n hn) hinvalid,
      fun _ _ => by rw [heq]; exact h⟩

/-- Where the table is left as it is, and nothing has to be resolved. -/
theorem meets_of_snd_eq (h : (findOrCreateMany server t names fault).2 = t)
    (hnot : ¬((∀ n ∈ names, Valid n) ∧ fault = none)) : Meets server t fault names where
  resolves hvalid hnone := absurd ⟨hvalid, hnone⟩ hnot
  rejects _ := by rw [h]
  unchanged _ _ := by rw [h]

/-- The names are resolved, or nothing is changed, exactly if a name is invalid, or they are
    settled. -/
theorem findOrCreateMany_meets_iff (server : Server) (t : Tags server.weight)
    (fault : Option Fault) (names : List Bytes) :
    Meets server t fault names ↔ ((∀ n ∈ names, Valid n) → Settled server t fault names) := by
  by_cases hvalid : ∀ n ∈ names, Valid n
  · rw [forall_prop_of_true hvalid]
    rcases eq_or_ne names [] with rfl | hne
    · exact iff_of_true meets_nil settled_nil
    · match fault with
      | none => exact meets_none_iff hvalid hne
      | some (.select what) => exact meets_select_iff what hvalid hne
      | some (.acquire what) | some (.insert what) =>
        refine iff_of_true (meets_of_snd_eq ?_ nofun) trivial
        rw [findOrCreateMany_of_valid server t _ hvalid hne]
  · obtain ⟨err, herr⟩ := findOrCreateMany_of_invalid server t fault (by simpa using hvalid)
    refine iff_of_true (meets_of_snd_eq ?_ fun h => hvalid h.1) fun h => absurd h hvalid
    rw [herr]

/-! ## Another spelling -/

/-- A collation that does not tell upper from lower case in ASCII. -/
def lowercase (s : Bytes) : Bytes := s.map fun c => if 0x41 ≤ c ∧ c ≤ 0x5A then c + 0x20 else c

/-- A server that gives rows in the order of the table. -/
def caseless : Server := ⟨lowercase, id, fun _ => .rfl⟩

/-- The table with the tag `hash`. -/
def oneTag : Tags caseless.weight where
  rows := [⟨1, bytes "hash"⟩]
  nextId := 2
  id_lt := by decide
  names := by decide

/-- A new name, and another spelling of `hash`: the function throws, and the new tag is there. -/
theorem misspelt_unresolved :
    (findOrCreateMany caseless oneTag [bytes "graph", bytes "Hash"] none).1 =
        .error (unresolved (bytes "Hash")) ∧
      (findOrCreateMany caseless oneTag [bytes "graph", bytes "Hash"] none).2.rows =
        [⟨1, bytes "hash"⟩, ⟨2, bytes "graph"⟩] ∧
      ¬Meets caseless oneTag none [bytes "graph", bytes "Hash"] := by
  have hthrows : (findOrCreateMany caseless oneTag [bytes "graph", bytes "Hash"] none).1 =
      .error (unresolved (bytes "Hash")) := by decide +kernel
  have hrows : (findOrCreateMany caseless oneTag [bytes "graph", bytes "Hash"] none).2.rows =
      [⟨1, bytes "hash"⟩, ⟨2, bytes "graph"⟩] := by decide +kernel
  refine ⟨hthrows, hrows, fun h => ?_⟩
  have hsame := h.unchanged _ hthrows
  rw [hrows] at hsame
  exact absurd hsame (by decide)

end LiteCode.TagRepo
