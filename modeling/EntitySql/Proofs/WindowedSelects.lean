/-
  The selects of windows: accepted windows are written, and no others.

  `AreBounds` says what the names of the two bounds of a window stand for. A window whose bounds
  can be bound is written with the cut of the dialect's form (`writeSet_of_le`), any other one is
  refused (`writeSet_of_not_le`); a page is computed without a wrap or not at all
  (`write_of_accepted`, `write_of_not_accepted`). `windows_select_their_rows` puts this together
  with what the cuts answer.
-/
import EntitySql.Proofs.Placeholders
import EntitySql.Proofs.Windows

namespace EntitySql

/-! ## Bounds -/

namespace Dialect

/-- `number` reads each number that the dialect binds for a bound. -/
def Reads (d : Dialect) (number : Value → Option Nat) : Prop :=
  ∀ i : Int64, 0 ≤ i.toInt → number (d.bindValue (.int64 i)) = some i.toInt.toNat

theorem windowValue_of_le {n : UInt64} (h : n.toNat ≤ greatestBound) :
    ∃ i : Int64, i.toInt = n.toNat ∧ windowValue n = .ok (.int64 i) := by
  unfold greatestBound at h
  refine ⟨Int64.ofNat n.toNat, Int64.toInt_ofNat_of_lt ?_, ?_⟩
  · omega
  · unfold windowValue
    rw [if_pos (by omega)]

theorem windowValue_of_gt {n : UInt64} (h : ¬ n.toNat ≤ greatestBound) :
    windowValue n = .error (.invalidWindow (.tooWide n)) := by
  unfold greatestBound at h
  unfold windowValue
  rw [if_neg (by omega)]

end Dialect

/-- The names of two bounds behind the parameters `ps`, and what they stand for among `ps'`. -/
structure AreBounds (d : Dialect) (ps ps' : Parameters) (skipName takeName : String)
    (skip take : Nat) : Prop where
  /-- The names are new, and they differ. -/
  isNew : ps.IsNew [skipName, takeName]
  /-- The first one has the value for the rows to leave out. -/
  skip : ∃ i : Int64, i.toInt = skip ∧ ps'.get? skipName = some (d.bindValue (.int64 i))
  /-- The second one has the value for the rows to take. -/
  take : ∃ i : Int64, i.toInt = take ∧ ps'.get? takeName = some (d.bindValue (.int64 i))

namespace AreBounds

variable {d : Dialect} {ps ps' : Parameters} {skipName takeName : String} {skip take : Nat}

/-- Whoever reads bound numbers reads the number of the name. -/
theorem number_skip (h : AreBounds d ps ps' skipName takeName skip take)
    {number : Value → Option Nat} (hn : d.Reads number) :
    (ps'.get? skipName).bind number = some skip := by
  obtain ⟨i, hi, hget⟩ := h.skip
  rw [hget, Option.bind_some, hn i (by omega), hi, Int.toNat_natCast]

theorem number_take (h : AreBounds d ps ps' skipName takeName skip take)
    {number : Value → Option Nat} (hn : d.Reads number) :
    (ps'.get? takeName).bind number = some take := by
  obtain ⟨i, hi, hget⟩ := h.take
  rw [hget, Option.bind_some, hn i (by omega), hi, Int.toNat_natCast]

end AreBounds

/-! ## The writing of a window -/

namespace Parameters

/-- Two bindings, one behind the other. -/
theorem get?_bind_bind (ps : Parameters) (base base' : String) (v v' : Value) :
    ps.IsNew [ps.freshName base, (ps.bind base v).freshName base'] ∧
      ((ps.bind base v).bind base' v').get? (ps.freshName base) = some v ∧
      ((ps.bind base v).bind base' v').get? ((ps.bind base v).freshName base') = some v' := by
  have hget {i : Nat} := ps.get?_newNames [(base, v), (base', v')] (i := i)
  exact ⟨ps.isNew_newNames [(base, v), (base', v')], hget Nat.zero_lt_two, hget Nat.one_lt_two⟩

theorem IsNew.swap {ps : Parameters} {n n' : String} (h : ps.IsNew [n, n']) :
    ps.IsNew [n', n] := by
  have hperm := List.Perm.swap n' n []
  exact ⟨hperm.nodup_iff.mp h.nodup, fun m hm => h.not_mem m (hperm.mem_iff.mpr hm)⟩

end Parameters

namespace AreBounds

variable {i j : Int64} {skip take : Nat}

theorem of_skip_take (d : Dialect) (ps : Parameters) (base base' : String)
    (hi : i.toInt = skip) (hj : j.toInt = take) :
    AreBounds d ps ((ps.bind base (d.bindValue (.int64 i))).bind base' (d.bindValue (.int64 j)))
      (ps.freshName base) ((ps.bind base (d.bindValue (.int64 i))).freshName base') skip take := by
  obtain ⟨hnew, hskip, htake⟩ := ps.get?_bind_bind base base' (d.bindValue (.int64 i))
    (d.bindValue (.int64 j))
  exact ⟨hnew, ⟨i, hi, hskip⟩, ⟨j, hj, htake⟩⟩

theorem of_take_skip (d : Dialect) (ps : Parameters) (base base' : String)
    (hi : i.toInt = skip) (hj : j.toInt = take) :
    AreBounds d ps ((ps.bind base (d.bindValue (.int64 j))).bind base' (d.bindValue (.int64 i)))
      ((ps.bind base (d.bindValue (.int64 j))).freshName base') (ps.freshName base) skip take := by
  obtain ⟨hnew, htake, hskip⟩ := ps.get?_bind_bind base base' (d.bindValue (.int64 j))
    (d.bindValue (.int64 i))
  exact ⟨hnew.swap, ⟨i, hi, hskip⟩, ⟨j, hj, htake⟩⟩

end AreBounds

namespace Dialect

/-- Bounds that can be bound are, and the select is written with the cut of the dialect. -/
theorem writeSet_of_le (d : Dialect) (parts : SelectParts) {skip take : UInt64}
    (hskip : skip.toNat ≤ greatestBound) (htake : take.toNat ≤ greatestBound)
    (ps : Parameters) :
    ∃ skipName takeName ps',
      d.writeSet parts skip take ⟨"", ps⟩ =
        (⟨(Cut.of d.windowForm skipName takeName).text d parts, ps'⟩, .ok ()) ∧
      AreBounds d ps ps' skipName takeName skip.toNat take.toNat := by
  obtain ⟨i, hi, hs⟩ := windowValue_of_le hskip
  obtain ⟨j, hj, ht⟩ := windowValue_of_le htake
  have htakeFirst := AreBounds.of_take_skip d ps takeBase skipBase hi hj
  have hskipFirst := AreBounds.of_skip_take d ps skipBase takeBase hi hj
  unfold writeSet window
  cases d.windowForm
  case limitOffset | rowNumber =>
    refine ⟨_, _, _, ?_, htakeFirst⟩
    simp only [writeWindow, hs, ht, bindParameter, String.empty_append]
    rfl
  case limitComma | offsetFetch =>
    refine ⟨_, _, _, ?_, hskipFirst⟩
    simp only [writeWindow, hs, ht, bindParameter, String.empty_append]
    rfl

/-- A bound that cannot be bound ends the writing. -/
theorem writeSet_of_not_le (d : Dialect) (parts : SelectParts) {skip take : UInt64}
    (h : ¬ (skip.toNat ≤ greatestBound ∧ take.toNat ≤ greatestBound)) (draft : Draft) :
    ∃ draft' n, d.writeSet parts skip take draft =
      (draft', .error (.invalidWindow (.tooWide n))) := by
  unfold writeSet window
  by_cases hskip : skip.toNat ≤ greatestBound
  · have htake : ¬ take.toNat ≤ greatestBound := fun htake => h ⟨hskip, htake⟩
    obtain ⟨i, -, hs⟩ := windowValue_of_le hskip
    have ht := windowValue_of_gt htake
    cases d.windowForm <;> simp [writeWindow, hs, ht]
  · have hs := windowValue_of_gt hskip
    by_cases htake : take.toNat ≤ greatestBound
    · obtain ⟨j, -, ht⟩ := windowValue_of_le htake
      cases d.windowForm <;> simp [writeWindow, hs, ht]
    · have ht := windowValue_of_gt htake
      cases d.windowForm <;> simp [writeWindow, hs, ht]

end Dialect

/-! ## Windows of a select -/

namespace OrderTerm

theorem text_ne_empty (d : Dialect) (ms : Mappings) (t : OrderTerm) : t.text d ms ≠ "" := by
  unfold text
  rw [ne_eq, String.append_eq_empty_iff, not_and]
  intro _
  cases t.ascending <;> decide

/-- An order has a text. -/
theorem allText_ne_empty (d : Dialect) (ms : Mappings) {terms : List OrderTerm}
    (h : terms ≠ []) : allText d ms terms ≠ "" := by
  unfold allText
  match terms, h with
  | [t], _ =>
    rw [List.map_singleton, String.intercalate_singleton]
    exact t.text_ne_empty d ms
  | t :: u :: terms, _ =>
    rw [List.map_cons, List.map_cons, String.intercalate_cons_cons, ne_eq,
      String.append_eq_empty_iff, String.append_eq_empty_iff]
    exact fun hempty => t.text_ne_empty d ms hempty.1.1

end OrderTerm

theorem SelectPlan.order_of {d : Dialect} {v : View} {e : EntityType} {p : Option Predicate}
    {terms : List OrderTerm} {x : SelectPlan} (h : of d v e p terms = .ok x) :
    x.order = OrderTerm.allText d v.mapping terms := by
  unfold of at h
  obtain ⟨m, -, h⟩ := bind_eq_ok_iff.mp h
  obtain ⟨columns, -, h⟩ := bind_eq_ok_iff.mp h
  obtain ⟨c, -, h⟩ := bind_eq_ok_iff.mp h
  obtain ⟨order, horder, h⟩ := bind_eq_ok_iff.mp h
  obtain rfl := Except.ok.inj h
  obtain ⟨u, -, rfl⟩ := map_eq_ok_iff.mp horder
  rfl

namespace Work

variable {s : Setting} {e : EntityType} {p : Option Predicate} {terms : List OrderTerm}
  {w w₁ : Workspace}

/-- The parts of the windows of a select that can be written are those of the select. -/
theorem windowParts_of_select {sql : String} (hterms : terms ≠ [])
    (h : select s e p terms w = .ok sql w₁) :
    ∃ parts, windowParts s e p terms w = .ok parts w₁ ∧ sql = s.dialect.select parts ∧
      parts.order ≠ "" := by
  rw [select_eq, bind_run] at h
  rw [windowParts_eq, bind_run]
  obtain ⟨w₀, hw₀, hv₀, -⟩ := answers_mapping s e w
  rw [hw₀] at h ⊢
  cases hm : (s.view w.catalog).mapping e with
  | error cause => rw [hm] at h; cases h
  | ok m =>
    rw [hm] at h
    have hne : terms.isEmpty = false := by
      rw [List.isEmpty_eq_false_iff]
      exact hterms
    dsimp only [ended] at h ⊢
    rw [bind_run] at h
    rw [hne]
    obtain ⟨w₂, hw₂, -, -⟩ := partsOf_writes s e p terms w₀ (hv₀ ▸ hm)
    cases hx : SelectPlan.of s.dialect (s.view w₀.catalog) e p terms with
    | error cause => rw [hw₂, hx] at h; cases h
    | ok x =>
      rw [hw₂, hx] at h
      obtain ⟨rfl, rfl⟩ := EStateM.Result.ok.inj h
      refine ⟨x.parts s.dialect w₀.parameters, ?_, rfl, ?_⟩
      · change partsOf s e m p terms w₀ = _
        rw [hw₂, hx]
        rfl
      · rw [SelectPlan.parts_order, SelectPlan.order_of hx]
        exact OrderTerm.allText_ne_empty s.dialect (s.view w₀.catalog).mapping hterms

end Work

namespace Window

/-- The window takes a row, and a page is counted from one. -/
def IsPositive : Window → Prop
  | .page n rows => n ≠ 0 ∧ rows ≠ 0
  | .set _ count => count ≠ 0

/-- The writing of a window. -/
def write (d : Dialect) (parts : SelectParts) :
    Window → Dialect.Draft → Dialect.Draft × Except QueryError Unit
  | .page n rows => d.writePage parts n rows
  | .set first count => d.writeSet parts first count

theorem toNat_pos_iff {n : UInt64} : 1 ≤ n.toNat ↔ n ≠ 0 := by
  constructor
  · rintro h rfl
    exact absurd h (by decide)
  · intro h
    have hne : n.toNat ≠ 0 := fun hz => h (UInt64.toNat_inj.mp hz)
    omega

theorem IsAccepted.isPositive {x : Window} (hx : x.IsAccepted) : x.IsPositive := by
  cases x with
  | page n rows => exact ⟨toNat_pos_iff.mp hx.1, toNat_pos_iff.mp hx.2.1⟩
  | set first count => exact toNat_pos_iff.mp hx.1

/-- The rows in front of an accepted page are computed without a wrap. -/
theorem IsAccepted.pageStart {n rows : UInt64} (hx : (page n rows).IsAccepted) :
    Dialect.pageStart n rows = .ok (page n rows).skipBound := by
  obtain ⟨hn, -, -, hskip⟩ := hx
  refine if_pos ⟨hn, ?_⟩
  change _ ≤ 9223372036854775807 at hskip
  change _ < 18446744073709551616
  omega

/-- A window that is accepted is written with its bounds. -/
theorem write_of_accepted (d : Dialect) (parts : SelectParts) {x : Window} (hx : x.IsAccepted) :
    x.write d parts = d.writeSet parts x.skipBound x.takeBound := by
  cases x with
  | set first count => rfl
  | page n rows =>
    funext draft
    change d.writePage parts n rows draft = _
    unfold Dialect.writePage
    rw [hx.pageStart]
    rfl

/-- The writing of a window that is not accepted fails. -/
theorem write_of_not_accepted (d : Dialect) (parts : SelectParts) {x : Window}
    (hpos : x.IsPositive) (hx : ¬ x.IsAccepted) (draft : Dialect.Draft) :
    ∃ draft' cause, x.write d parts draft = (draft', .error (.invalidWindow cause)) := by
  cases x with
  | set first count =>
    have hbounds : ¬ (first.toNat ≤ Dialect.greatestBound ∧
        count.toNat ≤ Dialect.greatestBound) := by
      intro hle
      exact hx ⟨toNat_pos_iff.mpr hpos, hle.2, hle.1⟩
    obtain ⟨draft', n, hwrite⟩ := d.writeSet_of_not_le parts hbounds draft
    exact ⟨draft', _, hwrite⟩
  | page n rows =>
    have hn : 1 ≤ n.toNat := toNat_pos_iff.mpr hpos.1
    have hrows : 1 ≤ rows.toNat := toNat_pos_iff.mpr hpos.2
    change ∃ draft' cause, d.writePage parts n rows draft = _
    unfold Dialect.writePage Dialect.pageStart
    by_cases hsize : 1 ≤ n.toNat ∧ (n.toNat - 1) * rows.toNat < UInt64.size
    · have hstart : (UInt64.ofNat ((n.toNat - 1) * rows.toNat)).toNat =
          (n.toNat - 1) * rows.toNat := UInt64.toNat_ofNat_of_lt' hsize.2
      have hbounds : ¬ ((UInt64.ofNat ((n.toNat - 1) * rows.toNat)).toNat ≤
          Dialect.greatestBound ∧ rows.toNat ≤ Dialect.greatestBound) := by
        rw [hstart]
        intro hle
        exact hx ⟨hn, hrows, hle.2, hle.1⟩
      obtain ⟨draft', m, hwrite⟩ := d.writeSet_of_not_le parts hbounds draft
      rw [if_pos hsize]
      exact ⟨draft', _, hwrite⟩
    · rw [if_neg hsize]
      exact ⟨draft, _, rfl⟩

variable {s : Setting} {e : EntityType} {p : Option Predicate} {terms : List OrderTerm}
  {w w₁ : Workspace} {parts : SelectParts}

/-- Behind the first check the parts are written as a window. -/
theorem select_of_isPositive {x : Window} (hx : x.IsPositive) :
    x.select s e p terms = (do
      let parts ← Work.windowParts s e p terms
      Work.draft (x.write s.dialect parts)) := by
  cases x with
  | page n rows =>
    change Work.selectPage s e p terms n rows = _
    unfold Work.selectPage
    rw [if_neg (not_or.mpr hx)]
    rfl
  | set first count =>
    change Work.selectSet s e p terms first count = _
    unfold Work.selectSet
    rw [if_neg hx]
    rfl

/-- The first check refuses a window without rows and a page in front of the first one. -/
theorem select_of_not_isPositive {x : Window} (hx : ¬ x.IsPositive) (w : Workspace) :
    ∃ cause, x.select s e p terms w = .error (.query (.invalidWindow cause)) w := by
  cases x with
  | page n rows =>
    have hzero : n = 0 ∨ rows = 0 := by
      refine Decidable.byContradiction fun hne => ?_
      exact hx (not_or.mp hne)
    change ∃ cause, Work.selectPage s e p terms n rows w = _
    unfold Work.selectPage
    rw [if_pos hzero]
    exact ⟨_, rfl⟩
  | set first count =>
    have hzero : count = 0 := Decidable.byContradiction hx
    change ∃ cause, Work.selectSet s e p terms first count w = _
    unfold Work.selectSet
    rw [if_pos hzero]
    exact ⟨_, rfl⟩

/-- The select of a window that is accepted. -/
theorem select_eq {x : Window} (hx : x.IsAccepted) :
    x.select s e p terms = (do
      let parts ← Work.windowParts s e p terms
      Work.draft (s.dialect.writeSet parts x.skipBound x.takeBound)) := by
  rw [select_of_isPositive hx.isPositive]
  simp only [write_of_accepted s.dialect _ hx]

/-- A page that is accepted is selected like the rows it holds. -/
theorem select_asSet {x : Window} (hx : x.IsAccepted) :
    x.select s e p terms = x.asSet.select s e p terms := by
  rw [select_eq hx, select_eq hx.asSet]
  rfl

/-- A window that is accepted is selected with its bounds bound behind the select. -/
theorem select_of_accepted (h : Work.windowParts s e p terms w = .ok parts w₁) {x : Window}
    (hx : x.IsAccepted) :
    ∃ skipName takeName w', x.select s e p terms w =
        .ok ((Cut.of s.dialect.windowForm skipName takeName).text s.dialect parts) w' ∧
      AreBounds s.dialect w₁.parameters w'.parameters skipName takeName x.skip x.take := by
  obtain ⟨skipName, takeName, ps, hwrite, hbounds⟩ := s.dialect.writeSet_of_le parts
    (hx.toNat_skipBound ▸ hx.skip_le) hx.take_le w₁.parameters
  rw [hx.toNat_skipBound, x.toNat_takeBound] at hbounds
  refine ⟨skipName, takeName, { w₁ with parameters := ps }, ?_, hbounds⟩
  rw [select_eq hx, bind_run, h]
  dsimp only
  unfold Work.draft
  rw [hwrite]

/-- A window that is not accepted is refused. -/
theorem select_of_not_accepted (h : Work.windowParts s e p terms w = .ok parts w₁) {x : Window}
    (hx : ¬ x.IsAccepted) :
    ∃ cause w', x.select s e p terms w = .error (.query (.invalidWindow cause)) w' := by
  by_cases hpos : x.IsPositive
  · obtain ⟨draft, cause, hwrite⟩ :=
      write_of_not_accepted s.dialect parts hpos hx ⟨"", w₁.parameters⟩
    refine ⟨cause, { w₁ with parameters := draft.parameters }, ?_⟩
    rw [select_of_isPositive hpos, bind_run, h]
    dsimp only
    unfold Work.draft
    rw [hwrite]
  · obtain ⟨cause, hrefused⟩ := select_of_not_isPositive (s := s) (e := e) (p := p) hpos w
    exact ⟨cause, w, hrefused⟩

end Window

/-! ## The windows of a select that can be written -/

/-- The number that a value holds, when it is one of the numbers from zero on. -/
def Value.natural? (v : Value) : Option Nat :=
  v.asInt64.bind fun i => if 0 ≤ i.toInt then some i.toInt.toNat else none

namespace Dialect

/-- The dialects bind numbers as they are. -/
theorem bindValue_int64 {d : Dialect} (h : d ∈ all.map (·.2)) (i : Int64) :
    d.bindValue (.int64 i) = .int64 i := by
  unfold all at h
  simp only [List.map_cons, List.map_nil, List.mem_cons, List.not_mem_nil, or_false] at h
  obtain rfl | rfl | rfl | rfl | rfl | rfl := h <;> rfl

theorem reads_natural {d : Dialect} (h : d ∈ all.map (·.2)) : d.Reads Value.natural? := by
  intro i hi
  rw [bindValue_int64 h]
  exact if_pos hi

end Dialect

/-- Of a select in an order, the accepted windows are written and no others; a page is written
    like the rows it holds; in each form the bounds stand for the rows to leave out and to take,
    whatever names are there, so that the window answers its rows; and pages follow each other. -/
theorem windows_select_their_rows (s : Setting) (e : EntityType) (p : Option Predicate)
    (terms : List OrderTerm) (w w₁ : Workspace) (sql : String) (hterms : terms ≠ [])
    (hselect : Work.select s e p terms w = .ok sql w₁) :
    (∀ x : Window, (∃ text w', x.select s e p terms w = .ok text w') ↔ x.IsAccepted) ∧
    (∀ x : Window, ¬ x.IsAccepted →
      ∃ cause w', x.select s e p terms w = .error (.query (.invalidWindow cause)) w') ∧
    (∀ n rows : UInt64, (Window.page n rows).IsAccepted →
      ∃ first : UInt64, first.toNat = (n.toNat - 1) * rows.toNat ∧
        (Window.set first rows).IsAccepted ∧
        Work.selectPage s e p terms n rows w = Work.selectSet s e p terms first rows w) ∧
    (∃ parts, Work.windowParts s e p terms w = .ok parts w₁ ∧ sql = s.dialect.select parts ∧
      parts.order ≠ "" ∧
      ∀ x : Window, x.IsAccepted → ∃ skipName takeName w',
        x.select s e p terms w =
          .ok ((Cut.of s.dialect.windowForm skipName takeName).text s.dialect parts) w' ∧
        AreBounds s.dialect w₁.parameters w'.parameters skipName takeName x.skip x.take ∧
        ∀ number, s.dialect.Reads number → ∀ (ρ : Type) (rows answer : List ρ),
          (Cut.of s.dialect.windowForm skipName takeName).Answers
              (fun name => (w'.parameters.get? name).bind number) rows answer ↔
            answer = x.cut rows) ∧
    (∀ d ∈ Dialect.all.map (·.2), (∀ i, d.bindValue (.int64 i) = .int64 i) ∧
      d.Reads Value.natural?) ∧
    ∀ (ρ : Type) (rows : List ρ) (size : UInt64) (pages : List UInt64) (first : Nat), 1 ≤ first →
      pages.map (·.toNat) = List.range' first pages.length →
        (pages.flatMap fun n => (Window.page n size).cut rows) =
          (rows.drop ((first - 1) * size.toNat)).take (pages.length * size.toNat) := by
  obtain ⟨parts, hparts, hsql, horder⟩ := Work.windowParts_of_select hterms hselect
  refine ⟨?_, ?_, ?_, ⟨parts, hparts, hsql, horder, ?_⟩, ?_, ?_⟩
  · intro x
    constructor
    · rintro ⟨text, w', hw'⟩
      refine Decidable.byContradiction fun hx => ?_
      obtain ⟨cause, w₂, hw₂⟩ := Window.select_of_not_accepted hparts hx
      rw [hw'] at hw₂
      cases hw₂
    · intro hx
      obtain ⟨skipName, takeName, w', hw', -⟩ := Window.select_of_accepted hparts hx
      exact ⟨_, w', hw'⟩
  · intro x hx
    exact Window.select_of_not_accepted hparts hx
  · intro n rows hx
    exact ⟨_, hx.toNat_skipBound, hx.asSet, congrFun (Window.select_asSet hx) w⟩
  · intro x hx
    obtain ⟨skipName, takeName, w', hw', hbounds⟩ := Window.select_of_accepted hparts hx
    refine ⟨skipName, takeName, w', hw', hbounds, fun number hn ρ rows answer => ?_⟩
    exact Cut.answers_of (hbounds.number_skip hn) (hbounds.number_take hn) _ rows answer
  · intro d hd
    exact ⟨Dialect.bindValue_int64 hd, Dialect.reads_natural hd⟩
  · intro ρ rows size pages first hfirst hpages
    exact Window.flatMap_cut_pages rows size hpages hfirst

/-- The third page of four rows in a database that numbers rows, where a name is taken; the
    widest page; and one that is a row too wide. -/
theorem windows_select_their_rows_people :
    ∃ sql w₁, Work.select Samples.people ⟨"Person"⟩ (some Samples.ages) [⟨Samples.age, true⟩]
        { parameters := ⟨[("_skip_0", .null)]⟩ } = .ok sql w₁ ∧
      (∃ skipName takeName text w', Work.selectPage Samples.people ⟨"Person"⟩ (some Samples.ages)
          [⟨Samples.age, true⟩] 3 4 { parameters := ⟨[("_skip_0", .null)]⟩ } = .ok text w' ∧
        AreBounds .mssqlRowNumber w₁.parameters w'.parameters skipName takeName 8 4 ∧
        ∀ answer : List Nat, (Cut.rowNumber takeName skipName).Answers
          (fun name => (w'.parameters.get? name).bind Value.natural?) (List.range 10) answer ↔
            answer = [8, 9]) ∧
      (∃ text w', Work.selectPage Samples.people ⟨"Person"⟩ (some Samples.ages)
          [⟨Samples.age, true⟩] 2 0x7FFFFFFFFFFFFFFF { parameters := ⟨[("_skip_0", .null)]⟩ } =
        .ok text w') ∧
      ∃ cause w', Work.selectPage Samples.people ⟨"Person"⟩ (some Samples.ages)
          [⟨Samples.age, true⟩] 3 0x4000000000000000 { parameters := ⟨[("_skip_0", .null)]⟩ } =
        .error (.query (.invalidWindow cause)) w' := by
  obtain ⟨sql, w₁, hselect⟩ := (Work.select_follows Samples.people ⟨"Person"⟩
    (some Samples.ages) [⟨Samples.age, true⟩] { parameters := ⟨[("_skip_0", .null)]⟩ }).succeeds
    (by decide +kernel)
  obtain ⟨haccepted, hrefused, -, ⟨parts, -, -, -, hwindow⟩, hshipped, -⟩ :=
    windows_select_their_rows Samples.people ⟨"Person"⟩ (some Samples.ages)
      [⟨Samples.age, true⟩] _ w₁ sql (by decide) hselect
  have hreads := (hshipped .mssqlRowNumber (List.mem_of_getElem? (i := 5) rfl)).2
  obtain ⟨skipName, takeName, w', hw', hbounds, hanswers⟩ := hwindow (.page 3 4) (by decide)
  exact ⟨sql, w₁, hselect,
    ⟨skipName, takeName, _, w', hw', hbounds, hanswers _ hreads Nat (List.range 10)⟩,
    (haccepted (.page 2 0x7FFFFFFFFFFFFFFF)).mpr (by decide),
    hrefused (.page 3 0x4000000000000000) (by decide)⟩

end EntitySql
