import LiteCode.Db.UserRepo
import LiteCode.Lib.Like
import LiteCode.Lib.SortedList
import LiteCode.Lib.Utf8

/-!
# The list of users

`count_users` and `list_users` of `src/db/user_repo.h`: the users of a role whose names contain a
text, page by page. The text is put between two wildcards of `LIKE`. Before that its wildcards are
to lose their meaning: but each `%` and `_` is overwritten by a `\`, and a `\` stays what it is. So
an escape takes the place of the wildcard, and the character behind it is looked for instead.

Names are compared character by character, by the weights of the collation of the column; `weight`
is a parameter.

* `countUsers`, `listUsers`: the two functions, with the clause they share, `selects`;
* `Searches`: the pages list the users whose names contain the text, in the order of the ids;
* `searches_iff`: this holds exactly if no name contains one of the text and what is looked for,
  `Sought`, without the other; `sought_of_plain`: a text without `%`, `_` and `\` is looked for.
-/

namespace LiteCode.UserRepo

open Like

/-! ## The table -/

/-- The UTF-8 form of a text. -/
def utf8 (s : List Char) : Bytes := s.flatMap fun c => Utf8.encode c.toNat

/-- A row of `users`, with the characters of the name. -/
structure NamedRow where
  user : UserRow
  name : List Char
  username_eq : user.username = utf8 name

/-- The table `users`, and the authors of the rows of `submissions`. -/
structure Users where
  rows : List NamedRow
  submissions : List Int
  ids : (rows.map fun r => r.user.id).Nodup

/-- `UserListRow`. -/
structure UserListRow where
  user : UserRow
  submissionCount : Nat
  deriving DecidableEq, Repr

/-- The columns of the query. -/
def Users.listRow (t : Users) (r : NamedRow) : UserListRow :=
  ⟨r.user, t.submissions.count r.user.id⟩

/-! ## The statements -/

/-- `UserListFilter`. -/
structure UserListFilter where
  role : Option Role := none
  q : Option (List Char) := none
  limit : Int := 20
  offset : Int := 0
  deriving DecidableEq, Repr

/-- `clamp_user_list_filter`. -/
def clampUserListFilter (f : UserListFilter) : UserListFilter :=
  let limit := if f.limit ≤ 0 then 20 else f.limit
  { f with
    limit := if limit > 100 then 100 else limit
    offset := if f.offset < 0 then 0 else f.offset }

/-- `escaped`: the loop over the text. -/
def escaped (q : List Char) : List Char := q.map fun c => if c = '%' ∨ c = '_' then '\\' else c

/-- The characters of `LIKE`. -/
def wildcards : Wildcards Char where
  many := '%'
  one := '_'
  escape := '\\'
  many_ne_one := by decide
  many_ne_escape := by decide
  one_ne_escape := by decide

section

variable {ω : Type} [DecidableEq ω] (weight : Char → ω)

/-- `AND role = ?`. -/
def hasRole (role : Option Role) (r : NamedRow) : Bool := role.all (r.user.role == ·)

/-- `AND username LIKE ?`, for a text that is not empty. -/
def nameLike (q : Option (List Char)) (r : NamedRow) : Bool :=
  q.all fun q => q.isEmpty || decide (IsLike wildcards weight r.name ('%' :: (escaped q ++ ['%'])))

/-- The rows that both functions select. -/
def Users.selected (t : Users) (f : UserListFilter) : List NamedRow :=
  t.rows.filter fun r => hasRole f.role r && nameLike weight f.q r

/-- `count_users`. -/
def Users.countUsers (t : Users) (f : UserListFilter) : Nat :=
  (t.selected weight (clampUserListFilter f)).length

/-- `ORDER BY u.id ASC`. -/
def IdLe (a b : NamedRow) : Prop := a.user.id ≤ b.user.id

instance : DecidableRel IdLe := fun _ _ => inferInstanceAs (Decidable (_ ≤ _))

/-- `list_users`. -/
def Users.listUsers (t : Users) (f : UserListFilter) : List UserListRow :=
  let f := clampUserListFilter f
  let sorted := (t.selected weight f).insertionSort IdLe
  ((sorted.drop f.offset.toNat).take f.limit.toNat).map t.listRow

/-! ## What is meant -/

/-- The number of rows of a page. -/
def pageSize (limit : Int) : Nat := (clampUserListFilter { limit }).limit.toNat

/-- The pages of a search, one after the other, until the end is reached. -/
def Users.pages (t : Users) (role : Option Role) (q : List Char) (limit : Int) :
    List (List UserListRow) :=
  let n := t.countUsers weight { role, q := some q, limit }
  (List.range (n / pageSize limit + 1)).map fun i =>
    t.listUsers weight { role, q := some q, limit, offset := (i * pageSize limit : Nat) }

/-- The pages list the users of the role whose names contain the text, in the order of their ids,
    and the count is their number. -/
structure Searches (t : Users) (role : Option Role) (q : List Char) (limit : Int) : Prop where
  rows : ∀ row, row ∈ (t.pages weight role q limit).flatten ↔
    ∃ r ∈ t.rows, hasRole role r = true ∧ q.map weight <:+: r.name.map weight ∧ t.listRow r = row
  sorted : (t.pages weight role q limit).flatten.Pairwise fun a b => a.user.id < b.user.id
  total : t.countUsers weight { role, q := some q, limit } =
    (t.pages weight role q limit).flatten.length

/-- What a search for `q` finds: the text in which each of `%`, `_` and `\` has gone, and stands
    for the character behind it; if there is none behind the last one, a text with a `%` at the
    end. -/
def Sought (q name : List Char) : Prop := q ≠ [] → Finds wildcards weight (escaped q) name

instance (q name : List Char) : Decidable (Sought weight q name) :=
  inferInstanceAs (Decidable (_ → _))

/-! ## The text that is looked for -/

/-- The bytes of a character that is not ASCII are not ASCII. -/
theorem le_of_mem_encode {c : Nat} (hc : 0x80 ≤ c) (hlt : c < 0x110000) {b : UInt8}
    (hb : b ∈ Utf8.encode c) : 0x80 ≤ b := by
  have hle {n : Nat} (hn : 0x80 ≤ n) (hn' : n < 0x100) : 0x80 ≤ UInt8.ofNat n := by
    rw [UInt8.le_iff_toNat_le, UInt8.toNat_ofNat_of_lt' hn']
    exact hn
  unfold Utf8.encode at hb
  split_ifs at hb
  · omega
  all_goals
    simp only [List.mem_cons, List.not_mem_nil, or_false] at hb
    rcases hb with rfl | rfl | rfl | rfl <;> exact hle (by omega) (by omega)

/-- The replacement of a byte. -/
def escapedByte (b : UInt8) : UInt8 := if b = 0x25 ∨ b = 0x5F then 0x5C else b

theorem escapedByte_of_le {b : UInt8} (hb : 0x80 ≤ b) : escapedByte b = b := by
  refine if_neg ?_
  rintro (rfl | rfl) <;> exact absurd hb (by decide)

/-- An ASCII character is its byte. -/
theorem ofNat_toNat_inj {c d : Char} (hc : c.toNat < 0x80) (hd : d.toNat < 0x80) :
    UInt8.ofNat c.toNat = UInt8.ofNat d.toNat ↔ c = d := by
  have hsize : 0x80 < UInt8.size := by decide
  rw [← UInt8.toNat_inj, UInt8.toNat_ofNat_of_lt' (hc.trans hsize),
    UInt8.toNat_ofNat_of_lt' (hd.trans hsize), Char.toNat_inj]

theorem map_escapedByte_encode (c : Char) : (Utf8.encode c.toNat).map escapedByte =
    Utf8.encode (if c = '%' ∨ c = '_' then '\\' else c).toNat := by
  by_cases hascii : c.toNat < 0x80
  · have hmany : UInt8.ofNat c.toNat = 0x25 ↔ c = '%' :=
      ofNat_toNat_inj (d := '%') hascii (by decide)
    have hone : UInt8.ofNat c.toNat = 0x5F ↔ c = '_' :=
      ofNat_toNat_inj (d := '_') hascii (by decide)
    rw [Utf8.encode, if_pos hascii, List.map_singleton]
    simp only [escapedByte, hmany, hone]
    split_ifs
    · rfl
    · rw [Utf8.encode, if_pos hascii]
  · have hplain : ¬(c = '%' ∨ c = '_') := by
      rintro (rfl | rfl) <;> exact hascii (by decide)
    have hvalid : c.toNat < 0x110000 := by
      have : c.toNat.isValidChar := c.valid
      unfold Nat.isValidChar at this
      omega
    rw [if_neg hplain]
    refine (List.map_congr_left fun b hb => ?_).trans (List.map_id _)
    exact escapedByte_of_le (le_of_mem_encode (by omega) hvalid hb)

/-- The loop of `escaped` over the bytes is the one over the characters. -/
theorem map_escapedByte_utf8 (q : List Char) : (utf8 q).map escapedByte = utf8 (escaped q) := by
  rw [utf8, utf8, escaped, List.map_flatMap, List.flatMap_map]
  simp only [map_escapedByte_encode]

theorem escaped_not_wild : ∀ c ∈ escaped q, c ≠ wildcards.many ∧ c ≠ wildcards.one := by
  intro c hc
  obtain ⟨d, -, rfl⟩ := List.mem_map.1 hc
  split_ifs with hd
  · decide
  · exact not_or.1 hd

end

variable {ω : Type} {weight : Char → ω} {q : List Char}

theorem nameLike_iff [DecidableEq ω] {r : NamedRow} :
    nameLike weight (some q) r = true ↔ Sought weight q r.name := by
  rw [nameLike, Option.all_some, Bool.or_eq_true, List.isEmpty_iff, decide_eq_true_eq, Sought,
    ← isLike_surround_iff escaped_not_wild]
  exact or_iff_not_imp_left

/-- None of the characters has a meaning in a pattern. -/
def Plain (q : List Char) : Prop := ∀ c ∈ q, c ≠ '%' ∧ c ≠ '_' ∧ c ≠ '\\'

theorem plain_iff : Plain q ↔ wildcards.escape ∉ escaped q := by
  rw [escaped, List.mem_map]
  constructor
  · rintro h ⟨c, hc, heq⟩
    obtain ⟨hmany, hone, hescape⟩ := h c hc
    rw [if_neg (not_or.2 ⟨hmany, hone⟩)] at heq
    exact hescape heq
  · intro h c hc
    have hne : ¬(c = '%' ∨ c = '_') := fun hwild => h ⟨c, hc, if_pos hwild⟩
    exact ⟨(not_or.1 hne).1, (not_or.1 hne).2, fun heq => h ⟨c, hc, (if_neg hne).trans heq⟩⟩

theorem escaped_of_plain (hq : Plain q) : escaped q = q := by
  refine (List.map_congr_left fun c hc => ?_).trans (List.map_id q)
  exact if_neg (not_or.2 ⟨(hq c hc).1, (hq c hc).2.1⟩)

/-- A text without the three characters is looked for as it is. -/
theorem sought_of_plain (hq : Plain q) (name : List Char) :
    Sought weight q name ↔ q.map weight <:+: name.map weight := by
  rw [Sought, finds_of_notMem (plain_iff.1 hq), escaped_of_plain hq]
  constructor
  · intro h
    by_cases hnil : q = []
    · rw [hnil]
      exact List.nil_infix
    · exact h hnil
  · exact fun h _ => h

/-- For any other text there is a name that is found without it, or contains it and is not found. -/
theorem plain_of_forall_name {x : Char} (hx : weight x ≠ weight '%')
    (h : ∀ name, q.map weight <:+: name.map weight ↔ Sought weight q name) : Plain q := by
  rw [plain_iff]
  intro hescape
  have hne : q ≠ [] := by
    rintro rfl
    exact absurd hescape nofun
  by_cases hleft : (unescape wildcards (escaped q)).2 = true
  · -- an escape is left over, so that only names with a `%` at the end are found
    have hsought := (h (q ++ [x])).1 ⟨[], [weight x], by simp⟩ hne
    rw [Finds, if_pos hleft, List.map_append, List.map_append] at hsought
    have hlast := hsought.getLast (List.append_ne_nil_of_right_ne_nil _ (List.cons_ne_nil _ _))
    simp only [List.map_cons, List.map_nil, List.getLast_append_singleton] at hlast
    exact hx hlast.symm
  · -- what is looked for is too short to contain the text
    have hshort := length_unescape_lt hescape
    have hq := (h (unescape wildcards (escaped q)).1).2 fun _ => by
      rw [Finds, if_neg hleft]
    have hlength := hq.length_le
    rw [List.length_map, List.length_map] at hlength
    have : (escaped q).length = q.length := List.length_map _
    omega

section

variable [DecidableEq ω] {t : Users} {role : Option Role} {limit : Int}

/-! ## The pages -/

/-- The rows of a search, sorted. -/
def Users.found (weight : Char → ω) (t : Users) (role : Option Role) (q : List Char) :
    List NamedRow :=
  (t.selected weight { role, q := some q }).insertionSort IdLe

theorem mem_found {r : NamedRow} : r ∈ t.found weight role q ↔
    r ∈ t.rows ∧ hasRole role r = true ∧ Sought weight q r.name := by
  rw [Users.found, List.mem_insertionSort, Users.selected, List.mem_filter, Bool.and_eq_true,
    nameLike_iff]

theorem countUsers_eq : t.countUsers weight { role, q := some q, limit } =
    (t.found weight role q).length := by
  rw [Users.found, List.length_insertionSort]
  rfl

theorem pageSize_pos (limit : Int) : 0 < pageSize limit := by
  simp only [pageSize, clampUserListFilter]
  split_ifs <;> omega

/-- A page is a part of the rows. -/
theorem listUsers_eq (offset : Nat) :
    t.listUsers weight { role, q := some q, limit, offset } =
      (((t.found weight role q).drop offset).take (pageSize limit)).map t.listRow := by
  have hoffset : (if (offset : Int) < 0 then (0 : Int) else offset).toNat = offset := by
    split <;> omega
  simp only [Users.listUsers, clampUserListFilter, hoffset]
  rfl

/-- The pages together are all rows. -/
theorem flatten_pages :
    (t.pages weight role q limit).flatten = (t.found weight role q).map t.listRow := by
  have hcover : (t.found weight role q).length ≤
      ((t.found weight role q).length / pageSize limit + 1) * pageSize limit :=
    (Nat.lt_mul_of_div_lt (Nat.lt_succ_self _) (pageSize_pos limit)).le
  simp only [Users.pages, listUsers_eq, countUsers_eq]
  rw [← List.flatMap_def, ← List.map_flatMap, flatMap_pages, List.take_of_length_le hcover]

instance : Std.Total IdLe := ⟨fun _ _ => Int.le_total _ _⟩

instance : IsTrans NamedRow IdLe := ⟨fun _ _ _ => Int.le_trans⟩

theorem pairwise_found : (t.found weight role q).Pairwise fun a b => a.user.id < b.user.id := by
  exact pairwise_insertionSort_of_total (fun _ _ => lt_of_le_of_ne)
    (t.ids.sublist (List.filter_sublist.map _))

theorem eq_of_listRow {r r' : NamedRow} (hr : r ∈ t.rows) (hr' : r' ∈ t.rows)
    (h : t.listRow r = t.listRow r') : r = r' :=
  List.inj_on_of_nodup_map t.ids hr hr' (congrArg (fun row => row.user.id) h)

/-- A search is answered as it should be if every name of the role that contains the text is
    found, and every other one is not. -/
theorem searches_of (h : ∀ r ∈ t.rows, hasRole role r = true →
    (q.map weight <:+: r.name.map weight ↔ Sought weight q r.name)) :
    Searches weight t role q limit := by
  constructor
  · intro row
    rw [flatten_pages, List.mem_map]
    constructor
    · rintro ⟨r, hr, rfl⟩
      obtain ⟨hmem, hrole, hsought⟩ := mem_found.1 hr
      exact ⟨r, hmem, hrole, (h r hmem hrole).2 hsought, rfl⟩
    · rintro ⟨r, hmem, hrole, hq, rfl⟩
      exact ⟨r, mem_found.2 ⟨hmem, hrole, (h r hmem hrole).1 hq⟩, rfl⟩
  · rw [flatten_pages, List.pairwise_map]
    exact pairwise_found
  · rw [countUsers_eq, flatten_pages, List.length_map]

/-- A name of the role that is told apart is listed wrongly. -/
theorem Searches.contains_iff (h : Searches weight t role q limit) {r : NamedRow} (hr : r ∈ t.rows)
    (hrole : hasRole role r = true) :
    q.map weight <:+: r.name.map weight ↔ Sought weight q r.name := by
  have hrow := h.rows (t.listRow r)
  rw [flatten_pages, List.mem_map] at hrow
  constructor
  · intro hq
    obtain ⟨found, hfound, heq⟩ := hrow.2 ⟨r, hr, hrole, hq, rfl⟩
    obtain ⟨hmem, -, hsought⟩ := mem_found.1 hfound
    rwa [eq_of_listRow hmem hr heq] at hsought
  · intro hsought
    obtain ⟨listed, hlisted, -, hq, heq⟩ := hrow.1 ⟨r, mem_found.2 ⟨hr, hrole, hsought⟩, rfl⟩
    rwa [eq_of_listRow hlisted hr heq] at hq

end

/-- A search is answered as it should be if and only if no name of the role contains the text
    without being found, or is found without containing it. -/
theorem searches_iff [DecidableEq ω] (weight : Char → ω) (t : Users) (role : Option Role)
    (q : List Char) (limit : Int) : Searches weight t role q limit ↔
      ∀ r ∈ t.rows, hasRole role r = true →
        (q.map weight <:+: r.name.map weight ↔ Sought weight q r.name) :=
  ⟨fun h _ hr hrole => h.contains_iff hr hrole, searches_of⟩

/-- A table with one user. -/
def oneUser (name : List Char) : Users where
  rows := [⟨⟨1, utf8 name, [], .user, none, none⟩, name, rfl⟩]
  submissions := []
  ids := List.nodup_singleton _

/-- A name with an underscore is not found by it. -/
theorem underscore_lost : ¬Searches Char.toLower (oneUser ['a', '_', 'b']) none ['_'] 20 := by
  intro h
  exact absurd ((h.contains_iff (List.mem_singleton_self _) rfl).1 (by decide)) (by decide)

/-- The searches that are answered as they should be for every table are those without the three
    characters. -/
theorem forall_searches_iff_plain [DecidableEq ω] {x : Char} (hx : weight x ≠ weight '%')
    (limit : Int) : (∀ t, Searches weight t none q limit) ↔ Plain q := by
  constructor
  · intro h
    refine plain_of_forall_name hx fun name => ?_
    exact (h (oneUser name)).contains_iff (List.mem_singleton_self _) rfl
  · intro hq t
    exact searches_of fun r _ _ => (sought_of_plain hq r.name).symm

end LiteCode.UserRepo
