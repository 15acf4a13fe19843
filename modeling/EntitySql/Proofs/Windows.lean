/-
  Windows of the rows of a select: which are accepted, and which rows their statements answer.

  A window is accepted when it takes a row and its bounds, computed without a limit, have a signed
  form of 64 bits (`Window.IsAccepted`). `Cut` is the part of a statement that cuts the rows, in
  each of the four forms, with the names of its parameters where they stand in the text; what it
  answers is read off these places (`Cut.Answers`). All forms answer the rows of `Window.cut`
  (`Cut.answers_of`), and pages of one size that follow each other fill what lies between their
  ends (`Window.flatMap_cut_pages`).
-/
import EntitySql.Query

namespace EntitySql

/-! ## Accepted windows -/

/-- The greatest number that a bound of a window can be. -/
def Dialect.greatestBound : Nat := 0x7FFFFFFFFFFFFFFF

namespace Window

/-- How many rows the window leaves out. -/
def skip : Window → Nat
  | .page n rows => (n.toNat - 1) * rows.toNat
  | .set first _ => first.toNat

/-- How many rows the window takes at most. -/
def take : Window → Nat
  | .page _ rows => rows.toNat
  | .set _ count => count.toNat

/-- The rows of the window. -/
def cut {ρ : Type} (x : Window) (rows : List ρ) : List ρ := (rows.drop x.skip).take x.take

/-- The window takes a row, a page is counted from one, and the bounds have a signed form of 64
    bits. -/
def IsAccepted : Window → Prop
  | .page n rows =>
    1 ≤ n.toNat ∧ 1 ≤ rows.toNat ∧ rows.toNat ≤ Dialect.greatestBound ∧
      (n.toNat - 1) * rows.toNat ≤ Dialect.greatestBound
  | .set first count =>
    1 ≤ count.toNat ∧ count.toNat ≤ Dialect.greatestBound ∧ first.toNat ≤ Dialect.greatestBound

instance (x : Window) : Decidable x.IsAccepted := by
  cases x <;> unfold IsAccepted <;> infer_instance

/-- The select of the window. -/
def select (s : Setting) (e : EntityType) (p : Option Predicate) (terms : List OrderTerm) :
    Window → Work String
  | .page n rows => Work.selectPage s e p terms n rows
  | .set first count => Work.selectSet s e p terms first count

/-- The rows to leave out, as a bound. -/
def skipBound : Window → UInt64
  | .page n rows => UInt64.ofNat ((n.toNat - 1) * rows.toNat)
  | .set first _ => first

/-- The rows to take, as a bound. -/
def takeBound : Window → UInt64
  | .page _ rows => rows
  | .set _ count => count

/-- The same rows, as a number of them behind the first ones. -/
def asSet (x : Window) : Window := .set x.skipBound x.takeBound

theorem toNat_takeBound (x : Window) : x.takeBound.toNat = x.take := by
  cases x <;> rfl

namespace IsAccepted

variable {x : Window}

theorem take_pos (h : x.IsAccepted) : 1 ≤ x.takeBound.toNat := by
  cases x with
  | page n rows => exact h.2.1
  | set first count => exact h.1

theorem take_le (h : x.IsAccepted) : x.takeBound.toNat ≤ Dialect.greatestBound := by
  cases x with
  | page n rows => exact h.2.2.1
  | set first count => exact h.2.1

theorem skip_le (h : x.IsAccepted) : x.skip ≤ Dialect.greatestBound := by
  cases x with
  | page n rows => exact h.2.2.2
  | set first count => exact h.2.2

/-- The rows to leave out are not wrapped around. -/
theorem toNat_skipBound (h : x.IsAccepted) : x.skipBound.toNat = x.skip := by
  cases x with
  | set first count => rfl
  | page n rows =>
    have hle := h.skip_le
    refine UInt64.toNat_ofNat_of_lt' ?_
    change (n.toNat - 1) * rows.toNat ≤ 9223372036854775807 at hle
    change (n.toNat - 1) * rows.toNat < 18446744073709551616
    omega

theorem asSet (h : x.IsAccepted) : x.asSet.IsAccepted :=
  ⟨h.take_pos, h.take_le, h.toNat_skipBound ▸ h.skip_le⟩

end IsAccepted

end Window

/-! ## Cuts -/

/-- The part of a statement that cuts its rows to a window. The names of the parameters are in
    the order of their places in the text. -/
inductive Cut where
  /-- `LIMIT limit OFFSET offset`. -/
  | limitOffset (limit offset : String)
  /-- `LIMIT offset, limit`. -/
  | limitComma (offset limit : String)
  /-- `OFFSET offset ROWS FETCH NEXT fetch ROWS ONLY`. -/
  | offsetFetch (offset fetch : String)
  /-- `TOP(top)` of the rows whose number is greater than `above`. -/
  | rowNumber (top above : String)

namespace Cut

/-- The cut of a form with the names of its bounds. -/
def of (form : WindowForm) (skipName takeName : String) : Cut :=
  match form with
  | .limitOffset => .limitOffset takeName skipName
  | .limitComma => .limitComma skipName takeName
  | .offsetFetch => .offsetFetch skipName takeName
  | .rowNumber => .rowNumber takeName skipName

/-- A select with the cut. -/
def text (d : Dialect) (parts : SelectParts) : Cut → String
  | .limitOffset limit offset =>
    d.select parts ++ " LIMIT " ++ d.placeholder limit ++ " OFFSET " ++ d.placeholder offset
  | .limitComma offset limit =>
    d.select parts ++ " LIMIT " ++ d.placeholder offset ++ ", " ++ d.placeholder limit
  | .offsetFetch offset fetch =>
    d.select parts ++ " OFFSET " ++ d.placeholder offset ++ " ROWS FETCH NEXT " ++
      d.placeholder fetch ++ " ROWS ONLY"
  | .rowNumber top above =>
    "SELECT TOP(" ++ d.placeholder top ++
      ") [_proj].* FROM (SELECT ROW_NUMBER() OVER(ORDER BY " ++ parts.order ++
      ") AS [_row_number], " ++ parts.columns ++ " FROM " ++ d.tableName parts.mapping ++
      Dialect.whereClause parts.condition ++ ") [_proj] WHERE [_proj].[_row_number] > " ++
      d.placeholder above ++ " ORDER BY [_proj].[_row_number]"

/-- Whether the cut of ordered rows can answer the given ones, when `number` is what a name
    stands for. The numbered rows are a table without an order of its own: they are numbered in
    the order of the select, those with a greater number are put in the order of their numbers,
    and the first ones are taken. -/
def Answers {ρ : Type} (number : String → Option Nat) (rows answer : List ρ) : Cut → Prop
  | .limitOffset limit offset =>
    ∃ take skip, number limit = some take ∧ number offset = some skip ∧
      answer = (rows.drop skip).take take
  | .limitComma offset limit =>
    ∃ take skip, number limit = some take ∧ number offset = some skip ∧
      answer = (rows.drop skip).take take
  | .offsetFetch offset fetch =>
    ∃ take skip, number fetch = some take ∧ number offset = some skip ∧
      answer = (rows.drop skip).take take
  | .rowNumber top above =>
    ∃ take skip, number top = some take ∧ number above = some skip ∧
      ∃ numbered sorted : List (ρ × Nat), numbered.Perm (rows.zipIdx 1) ∧
        sorted.Perm (numbered.filter fun r => decide (skip < r.2)) ∧
        sorted.Pairwise (fun r r' => r.2 ≤ r'.2) ∧ answer = (sorted.take take).map (·.1)

/-- The rows behind the first ones are those with a greater number. -/
theorem filter_zipIdx {ρ : Type} (rows : List ρ) (i skip : Nat) :
    ((rows.zipIdx i).filter fun r => decide (i + skip ≤ r.2)) =
      (rows.drop skip).zipIdx (i + skip) := by
  induction rows generalizing i skip with
  | nil => rw [List.drop_nil, List.zipIdx_nil, List.zipIdx_nil, List.filter_nil]
  | cons row rows ih =>
    cases skip with
    | zero =>
      rw [List.drop_zero, Nat.add_zero, List.filter_eq_self]
      intro r hr
      exact decide_eq_true (List.le_snd_of_mem_zipIdx hr)
    | succ skip =>
      have hfirst : ¬ decide (i + (skip + 1) ≤ i) = true := by
        rw [decide_eq_true_eq]
        omega
      have hstart : i + (skip + 1) = i + 1 + skip := by omega
      rw [List.drop_succ_cons, List.zipIdx_cons, List.filter_cons, if_neg hfirst, hstart, ih]

theorem pairwise_zipIdx {ρ : Type} (rows : List ρ) (i : Nat) :
    (rows.zipIdx i).Pairwise fun r r' => r.2 ≤ r'.2 := by
  induction rows generalizing i with
  | nil => exact List.Pairwise.nil
  | cons row rows ih =>
    rw [List.zipIdx_cons, List.pairwise_cons]
    refine ⟨fun r hr => ?_, ih (i + 1)⟩
    have := List.le_snd_of_mem_zipIdx hr
    dsimp only
    omega

/-- Rows with one number are one row. -/
theorem eq_of_mem_zipIdx {ρ : Type} {rows : List ρ} {i : Nat} {r r' : ρ × Nat}
    (h : r ∈ rows.zipIdx i) (h' : r' ∈ rows.zipIdx i) (hnumber : r.2 = r'.2) : r = r' := by
  have hrow := (List.mem_zipIdx_iff_le_and_getElem?_sub.mp h).2
  have hrow' := (List.mem_zipIdx_iff_le_and_getElem?_sub.mp h').2
  rw [hnumber, hrow'] at hrow
  exact Prod.ext (Option.some.inj hrow).symm hnumber

/-- However the numbered rows come, in the order of their numbers they are the rows of the select
    behind the first ones. -/
theorem sorted_eq {ρ : Type} {rows : List ρ} {numbered sorted : List (ρ × Nat)} {skip : Nat}
    (hnumbered : numbered.Perm (rows.zipIdx 1))
    (hsorted : sorted.Perm (numbered.filter fun r => decide (skip < r.2)))
    (hpairwise : sorted.Pairwise fun r r' => r.2 ≤ r'.2) :
    sorted = (rows.drop skip).zipIdx (1 + skip) := by
  have hkept : ((rows.zipIdx 1).filter fun r => decide (skip < r.2)) =
      (rows.drop skip).zipIdx (1 + skip) := by
    rw [← filter_zipIdx]
    refine List.filter_congr fun r _ => decide_eq_decide.mpr ?_
    omega
  have hperm : sorted.Perm ((rows.drop skip).zipIdx (1 + skip)) := by
    rw [← hkept]
    exact hsorted.trans (hnumbered.filter _)
  refine hperm.eq_of_pairwise ?_ hpairwise (pairwise_zipIdx _ _)
  intro r r' hr hr' hle hle'
  exact eq_of_mem_zipIdx (hperm.mem_iff.mp hr) hr' (Nat.le_antisymm hle hle')

/-- Every form answers the rows behind the first ones, and no others. -/
theorem answers_of {ρ : Type} {number : String → Option Nat} {skipName takeName : String}
    {skip take : Nat} (hskip : number skipName = some skip) (htake : number takeName = some take)
    (form : WindowForm) (rows answer : List ρ) :
    (of form skipName takeName).Answers number rows answer ↔
      answer = (rows.drop skip).take take := by
  have hlimit : (∃ t k, number takeName = some t ∧ number skipName = some k ∧
      answer = (rows.drop k).take t) ↔ answer = (rows.drop skip).take take := by
    constructor
    · rintro ⟨t, k, ht, hk, h⟩
      obtain rfl := Option.some.inj (htake.symm.trans ht)
      obtain rfl := Option.some.inj (hskip.symm.trans hk)
      exact h
    · intro h
      exact ⟨take, skip, htake, hskip, h⟩
  cases form with
  | limitOffset => exact hlimit
  | limitComma => exact hlimit
  | offsetFetch => exact hlimit
  | rowNumber =>
    have hrows : (((rows.drop skip).zipIdx (1 + skip)).take take).map (·.1) =
        (rows.drop skip).take take := by
      rw [List.map_take, List.zipIdx_map_fst]
    constructor
    · rintro ⟨t, k, ht, hk, numbered, sorted, hnumbered, hsorted, hpairwise, h⟩
      obtain rfl := Option.some.inj (htake.symm.trans ht)
      obtain rfl := Option.some.inj (hskip.symm.trans hk)
      rw [h, sorted_eq hnumbered hsorted hpairwise, hrows]
    · intro h
      refine ⟨take, skip, htake, hskip, rows.zipIdx 1,
        (rows.zipIdx 1).filter fun r => decide (skip < r.2), .refl _, .refl _,
        (pairwise_zipIdx rows 1).filter _, ?_⟩
      rw [sorted_eq (.refl _) (.refl _) ((pairwise_zipIdx rows 1).filter _), hrows, h]

end Cut

namespace Window

/-- Pages of one size that follow each other answer what lies between their ends, in order and
    each row once. -/
theorem flatMap_cut_pages {ρ : Type} (rows : List ρ) (size : UInt64) {pages : List UInt64}
    {first : Nat} (h : pages.map (·.toNat) = List.range' first pages.length) (hfirst : 1 ≤ first) :
    (pages.flatMap fun n => (Window.page n size).cut rows) =
      (rows.drop ((first - 1) * size.toNat)).take (pages.length * size.toNat) := by
  induction pages generalizing first with
  | nil => simp
  | cons n pages ih =>
    rw [List.map_cons, List.length_cons, List.range'_succ, List.cons.injEq] at h
    obtain ⟨rfl, hpages⟩ := h
    have hnext : (n.toNat + 1 - 1) * size.toNat = (n.toNat - 1) * size.toNat + size.toNat := by
      rw [← Nat.succ_mul]
      congr 1
      omega
    have hlength : (pages.length + 1) * size.toNat = size.toNat + pages.length * size.toNat := by
      rw [Nat.succ_mul, Nat.add_comm]
    rw [List.flatMap_cons, ih hpages (Nat.le_add_left 1 _), hnext, List.length_cons, hlength,
      List.take_add, List.drop_drop]
    rfl

end Window

end EntitySql
