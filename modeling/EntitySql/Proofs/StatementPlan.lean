/-
  The plans of the statements of a condition: selects, windows of selects, counts and deletions.

  A plan is read off the view alone. In the plan of every statement each operand has one place
  (`Selection.isComplete_plan`, `isComplete_countPlan`, `isComplete_deletionPlan`), wherever the
  form of the window puts it.
-/
import EntitySql.Proofs.Rendering

namespace EntitySql

/-! ## Plans of conditions and orders -/

namespace Plan

/-- Each operand has one place, and there is no other place. -/
def IsComplete (p : Plan) : Prop := p.layout.places.Perm (List.range p.operands.length)

end Plan

namespace Predicate

/-- The plan of a condition that can be written. -/
def plan (d : Dialect) (ms : Mappings) (p : Predicate) : Plan := ⟨p.rendering d ms 0, p.operands⟩

/-- The plan of a condition, or the first reason why there is none. -/
def plan? (d : Dialect) (ms : Mappings) (p : Predicate) : Except Error Plan :=
  (Fragment.checkAll ms p.fragments).map fun _ => p.plan d ms

theorem plan?_eq_clausePlan (d : Dialect) (ms : Mappings) (p : Predicate) :
    Work.clausePlan d ms p.fragments = p.plan? d ms := by
  unfold Work.clausePlan plan?
  cases hc : Fragment.checkAll ms p.fragments with
  | error e => rfl
  | ok _ =>
    have h := (checkAll_fragments ms p).mp hc
    simp only [Except.map, Fragment.plan, plan, layout_fragments d 0 h, operands_fragments h]

theorem plan?_eq_ok_iff (d : Dialect) (ms : Mappings) (p : Predicate) (x : Plan) :
    p.plan? d ms = .ok x ↔ p.Compiles ms ∧ x = p.plan d ms := by
  rw [← checkAll_fragments, plan?]
  cases hc : Fragment.checkAll ms p.fragments with
  | error e => simp [Except.map]
  | ok _ => simp [Except.map, eq_comm]

theorem places_rendering (d : Dialect) {ms : Mappings} (i : Nat) {p : Predicate}
    (h : p.Compiles ms) : (p.rendering d ms i).places = List.range' i p.operands.length := by
  rw [← layout_fragments d i h, Fragment.places_layout, operands_fragments h]

theorem isComplete_plan (d : Dialect) {ms : Mappings} {p : Predicate} (h : p.Compiles ms) :
    (p.plan d ms).IsComplete := by
  unfold Plan.IsComplete plan
  rw [places_rendering d 0 h, List.range_eq_range']

end Predicate

namespace OrderTerm

/-- The text of a term. -/
def text (d : Dialect) (ms : Mappings) (t : OrderTerm) : String :=
  d.columnText ms t.column ++ (if t.ascending then " ASC" else " DESC")

/-- The text of an order. -/
def allText (d : Dialect) (ms : Mappings) (terms : List OrderTerm) : String :=
  ", ".intercalate (terms.map (text d ms))

/-- The text of an order, or the first reason why there is none. -/
def allText? (d : Dialect) (ms : Mappings) (terms : List OrderTerm) : Except Error String :=
  (Fragment.checkAll ms (allFragments terms)).map fun _ => allText d ms terms

theorem operands_allFragments (terms : List OrderTerm) :
    Fragment.operands (allFragments terms) = [] := by
  rw [allFragments, Fragment.operands_joined, List.flatMap_eq_nil_iff]
  intro fs hfs
  obtain ⟨t, -, rfl⟩ := List.mem_map.mp hfs
  rfl

theorem fill_layout_allFragments (d : Dialect) (ms : Mappings) (i : Nat) (terms : List OrderTerm)
    (content : Nat → String) :
    (Fragment.layout d ms i (allFragments terms)).fill content = allText d ms terms := by
  have hterm (j : Nat) (t : OrderTerm) :
      (Fragment.layout d ms j t.fragments).fill content = t.text d ms := by
    simp [fragments, Fragment.layout, Fragment.parts, text]
  have hterms (j : Nat) : (Fragment.layouts d ms j (terms.map fragments)).map
      (Layout.fill content) = terms.map (text d ms) := by
    induction terms generalizing j with
    | nil => rfl
    | cons t terms ih =>
      rw [List.map_cons, Fragment.layouts, List.map_cons, List.map_cons, hterm, ih]
  unfold allFragments allText
  rw [Fragment.layout_joined, Layout.fill_joined_eq_intercalate, hterms]

end OrderTerm

/-! ## Plans of selects -/

/-- A select before names are given to the operands of its condition. -/
structure SelectPlan where
  /-- The mapping of the table. -/
  mapping : Mapping
  /-- The columns, written out. -/
  columns : String
  /-- The plan of the condition. -/
  condition : Option Plan := none
  /-- The order, written out. -/
  order : String := ""

namespace SelectPlan

/-- The operands of the condition. -/
def operands (x : SelectPlan) : List (String × Value) := (x.condition.map (·.operands)).getD []

/-- The text of the condition. -/
def whereLayout (x : SelectPlan) : Layout :=
  match x.condition with
  | some p => .text " WHERE " :: p.layout
  | none => []

/-- The text of the select. -/
def layout (d : Dialect) (x : SelectPlan) : Layout :=
  [.text "SELECT ", .text x.columns, .text " FROM ", .text (d.tableName x.mapping)] ++
    x.whereLayout ++ (if x.order.isEmpty then [] else [.text " ORDER BY ", .text x.order])

/-- The plan of the select. -/
def plan (d : Dialect) (x : SelectPlan) : Plan := ⟨x.layout d, x.operands⟩

/-- The text of a window of the select. Its bounds follow the operands of the condition, in the
    order of their places. -/
def windowLayout (d : Dialect) (x : SelectPlan) : Layout :=
  let first := x.operands.length
  match d.windowForm with
  | .limitOffset =>
    x.layout d ++ [.text " LIMIT ", .place first, .text " OFFSET ", .place (first + 1)]
  | .limitComma =>
    x.layout d ++ [.text " LIMIT ", .place first, .text ", ", .place (first + 1)]
  | .offsetFetch =>
    x.layout d ++ [.text " OFFSET ", .place first, .text " ROWS FETCH NEXT ", .place (first + 1),
      .text " ROWS ONLY"]
  | .rowNumber =>
    [.text "SELECT TOP(", .place first,
     .text ") [_proj].* FROM (SELECT ROW_NUMBER() OVER(ORDER BY ", .text x.order,
     .text ") AS [_row_number], ", .text x.columns, .text " FROM ",
     .text (d.tableName x.mapping)] ++ x.whereLayout ++
    [.text ") [_proj] WHERE [_proj].[_row_number] > ", .place (first + 1),
     .text " ORDER BY [_proj].[_row_number]"]

/-- The bounds of a window in the order of their binding: the base of the name, and the bound. -/
def bounds (d : Dialect) (skip take : UInt64) : List (String × UInt64) :=
  match d.windowForm with
  | .limitOffset => [(Dialect.takeBase, take), (Dialect.skipBase, skip)]
  | .limitComma => [(Dialect.skipBase, skip), (Dialect.takeBase, take)]
  | .offsetFetch => [(Dialect.skipBase, skip), (Dialect.takeBase, take)]
  | .rowNumber => [(Dialect.takeBase, take), (Dialect.skipBase, skip)]

/-- The operands of bounds, or the first bound that has none. -/
def boundOperands : List (String × UInt64) → Except Error (List (String × Value))
  | [] => .ok []
  | (base, n) :: bounds =>
    match Dialect.windowValue n with
    | .error e => .error (.query e)
    | .ok v => (boundOperands bounds).map fun ops => (base, v) :: ops

/-- The plan of a window of the select, or the first bound that cannot be bound. -/
def windowPlan (d : Dialect) (x : SelectPlan) (skip take : UInt64) : Except Error Plan :=
  (boundOperands (bounds d skip take)).map fun ops => ⟨x.windowLayout d, x.operands ++ ops⟩

/-- The parts of the select behind the given parameters. -/
def parts (d : Dialect) (ps : Parameters) (x : SelectPlan) : SelectParts where
  mapping := x.mapping
  columns := x.columns
  condition := x.condition.map (·.text d ps)
  order := x.order

@[simp] theorem parts_mapping (d : Dialect) (ps : Parameters) (x : SelectPlan) :
    (x.parts d ps).mapping = x.mapping := rfl

@[simp] theorem parts_columns (d : Dialect) (ps : Parameters) (x : SelectPlan) :
    (x.parts d ps).columns = x.columns := rfl

@[simp] theorem parts_order (d : Dialect) (ps : Parameters) (x : SelectPlan) :
    (x.parts d ps).order = x.order := rfl

/-- The select of a condition in an order, or the first reason why there is none. -/
def of (d : Dialect) (v : View) (e : EntityType) (p : Option Predicate) (terms : List OrderTerm) :
    Except Error SelectPlan := do
  let mapping ← v.mapping e
  let columns ← v.columns e
  let condition ← p.mapM (Predicate.plan? d v.mapping)
  let order ← OrderTerm.allText? d v.mapping terms
  return { mapping, columns, condition, order }

/-- A select to be cut to a window, which needs an order. -/
def ofWindow (d : Dialect) (v : View) (e : EntityType) (p : Option Predicate)
    (terms : List OrderTerm) : Except Error SelectPlan := do
  let m ← v.mapping e
  if terms.isEmpty then throw (.query (.missingSort m.entity)) else of d v e p terms

end SelectPlan

/-- The plan of the select of a page, or the first reason why there is none. -/
def pagePlan (d : Dialect) (v : View) (e : EntityType) (p : Option Predicate)
    (terms : List OrderTerm) (page rows : UInt64) : Except Error Plan :=
  if page = 0 ∨ rows = 0 then .error (.query (.invalidWindow (.notPositive page rows)))
  else do
    let x ← SelectPlan.ofWindow d v e p terms
    let skip ← (Dialect.pageStart page rows).mapError .query
    x.windowPlan d skip rows

/-- The plan of the select of rows behind the first ones, or the first reason why there is
    none. -/
def setPlan (d : Dialect) (v : View) (e : EntityType) (p : Option Predicate)
    (terms : List OrderTerm) (first count : UInt64) : Except Error Plan :=
  if count = 0 then .error (.query (.invalidWindow .noRows))
  else do
    let x ← SelectPlan.ofWindow d v e p terms
    x.windowPlan d first count

/-- The plan of a selection, or the first reason why there is none. -/
def Selection.plan (d : Dialect) (v : View) (x : Selection) : Except Error Plan :=
  match x.window with
  | none => (SelectPlan.of d v x.entity x.condition x.order).map (·.plan d)
  | some (.page page rows) => pagePlan d v x.entity x.condition x.order page rows
  | some (.set first count) => setPlan d v x.entity x.condition x.order first count

/-- The plan of a count, or the first reason why there is none. -/
def countPlan (d : Dialect) (v : View) (e : EntityType) (p : Option Predicate) :
    Except Error Plan := do
  let mapping ← v.mapping e
  let condition ← p.mapM (Predicate.plan? d v.mapping)
  return { mapping, columns := "COUNT(*) AS " ++ d.quote "Total", condition : SelectPlan }.plan d

/-- The plan of a deletion, or the first reason why there is none. -/
def deletionPlan (d : Dialect) (v : View) (e : EntityType) (p : Option Predicate) :
    Except Error Plan := do
  let m ← v.mapping e
  match p.filter (!·.isEmpty) with
  | none => throw (.query (.emptyPredicate m.entity))
  | some p =>
    let plan ← p.plan? d v.mapping
    return ⟨[.text "DELETE FROM ", .text (d.tableName m), .text " WHERE "] ++ plan.layout,
      plan.operands⟩

/-! ## The texts of plans -/

namespace Plan

/-- The text of the first operands does not change when more are bound. -/
theorem fill_content_append (d : Dialect) (ps : Parameters) {p : Plan}
    (h : ∀ i ∈ p.layout.places, i < p.operands.length) (ops : List (String × Value)) :
    p.layout.fill (d.content ps (p.operands ++ ops)) = p.text d ps :=
  Layout.fill_congr fun i hi => d.content_append_left ps p.operands ops (h i hi)

end Plan

namespace SelectPlan

/-- The places of the condition are those of its operands. -/
def IsComplete (x : SelectPlan) : Prop := ∀ p, x.condition = some p → p.IsComplete

theorem isComplete_condition {d : Dialect} {ms : Mappings} {p : Option Predicate}
    {c : Option Plan} (h : p.mapM (Predicate.plan? d ms) = .ok c) {plan : Plan}
    (hplan : c = some plan) : plan.IsComplete := by
  subst hplan
  cases p with
  | none => cases h
  | some p =>
    rw [Option.mapM_some] at h
    cases hp : p.plan? d ms with
    | error e => rw [hp] at h; cases h
    | ok x =>
      rw [hp] at h
      cases h
      obtain ⟨hc, rfl⟩ := (p.plan?_eq_ok_iff d ms plan).mp hp
      exact p.isComplete_plan d hc

theorem fill_whereLayout (d : Dialect) (ps : Parameters) {x : SelectPlan} (h : x.IsComplete)
    (ops : List (String × Value)) :
    x.whereLayout.fill (d.content ps (x.operands ++ ops)) =
      Dialect.whereClause (x.parts d ps).condition := by
  unfold whereLayout operands parts
  cases hc : x.condition with
  | none => rfl
  | some p =>
    have hp : ∀ i ∈ p.layout.places, i < p.operands.length := by
      intro i hi
      exact List.mem_range.mp ((h p hc).mem_iff.mp hi)
    simp only [Option.map_some, Option.getD_some, Layout.fill_text,
      Plan.fill_content_append d ps hp ops, Dialect.whereClause]

theorem fill_layout (d : Dialect) (ps : Parameters) {x : SelectPlan} (h : x.IsComplete)
    (ops : List (String × Value)) :
    (x.layout d).fill (d.content ps (x.operands ++ ops)) = d.select (x.parts d ps) := by
  unfold layout Dialect.select
  rw [Layout.fill_append, Layout.fill_append, fill_whereLayout d ps h ops]
  have horder : Layout.fill (d.content ps (x.operands ++ ops))
      (if x.order.isEmpty then [] else [.text " ORDER BY ", .text x.order]) =
      if x.order.isEmpty then "" else " ORDER BY " ++ x.order := by
    cases x.order.isEmpty <;> simp
  rw [horder]
  simp only [Layout.fill_text, Layout.fill_nil, String.append_empty, parts, String.append_assoc]
  rfl

/-- The text of the plan is the select of its parts. -/
theorem text_plan (d : Dialect) (ps : Parameters) {x : SelectPlan} (h : x.IsComplete) :
    (x.plan d).text d ps = d.select (x.parts d ps) := by
  have htext := fill_layout d ps h []
  rw [List.append_nil] at htext
  exact htext

theorem isComplete_of {d : Dialect} {v : View} {e : EntityType} {p : Option Predicate}
    {terms : List OrderTerm} {x : SelectPlan} (h : of d v e p terms = .ok x) : x.IsComplete := by
  unfold of at h
  obtain ⟨m, -, h⟩ := bind_eq_ok_iff.mp h
  obtain ⟨columns, -, h⟩ := bind_eq_ok_iff.mp h
  obtain ⟨c, hc, h⟩ := bind_eq_ok_iff.mp h
  obtain ⟨order, -, h⟩ := bind_eq_ok_iff.mp h
  obtain rfl := Except.ok.inj h
  exact fun plan hplan => isComplete_condition hc hplan

theorem isComplete_ofWindow {d : Dialect} {v : View} {e : EntityType} {p : Option Predicate}
    {terms : List OrderTerm} {x : SelectPlan} (h : ofWindow d v e p terms = .ok x) :
    x.IsComplete := by
  unfold ofWindow at h
  obtain ⟨m, -, h⟩ := bind_eq_ok_iff.mp h
  cases terms with
  | nil => cases h
  | cons t terms => exact isComplete_of h

/-- The places of a window's bounds hold what is bound behind the condition. -/
theorem content_bounds (d : Dialect) (ps : Parameters) (x : SelectPlan)
    (ops : List (String × Value)) :
    d.content ps (x.operands ++ ops) x.operands.length =
        d.content (ps.bindAll (d.bound x.operands)) ops 0 ∧
      d.content ps (x.operands ++ ops) (x.operands.length + 1) =
        d.content (ps.bindAll (d.bound x.operands)) ops 1 :=
  ⟨d.content_append_right ps x.operands ops 0, d.content_append_right ps x.operands ops 1⟩

end SelectPlan

/-! ## Plans are complete -/

namespace SelectPlan

theorem places_whereLayout {x : SelectPlan} (h : x.IsComplete) :
    x.whereLayout.places.Perm (List.range x.operands.length) := by
  unfold whereLayout operands
  cases hc : x.condition with
  | none => exact List.Perm.refl []
  | some p => exact h p hc

theorem places_layout (d : Dialect) (x : SelectPlan) :
    (x.layout d).places = x.whereLayout.places := by
  unfold layout
  cases x.order.isEmpty <;> simp

theorem isComplete_plan (d : Dialect) {x : SelectPlan} (h : x.IsComplete) :
    (x.plan d).IsComplete := by
  unfold Plan.IsComplete plan
  rw [places_layout]
  exact places_whereLayout h

theorem length_boundOperands {bounds : List (String × UInt64)} {ops : List (String × Value)}
    (h : boundOperands bounds = .ok ops) : ops.length = bounds.length := by
  induction bounds generalizing ops with
  | nil => cases h; rfl
  | cons b bounds ih =>
    obtain ⟨base, n⟩ := b
    unfold boundOperands at h
    split at h
    · cases h
    · obtain ⟨ops', hops, rfl⟩ := map_eq_ok_iff.mp h
      rw [List.length_cons, List.length_cons, ih hops]

theorem length_bounds (d : Dialect) (skip take : UInt64) : (bounds d skip take).length = 2 := by
  unfold bounds
  cases d.windowForm <;> rfl

/-- In each form a window has the places of its condition and the two of its bounds. -/
theorem places_windowLayout (d : Dialect) {x : SelectPlan} (h : x.IsComplete) :
    (x.windowLayout d).places.Perm (List.range (x.operands.length + 2)) := by
  have hw := places_whereLayout h
  have hbehind : (x.whereLayout.places ++ [x.operands.length, x.operands.length + 1]).Perm
      (List.range (x.operands.length + 2)) := by
    rw [List.range_succ, List.range_succ, List.append_assoc]
    exact hw.append_right _
  unfold windowLayout
  cases d.windowForm
  case rowNumber =>
    simp only [Layout.places_append, Layout.places_text, Layout.places_place, Layout.places_nil]
    rw [List.append_cons] at hbehind
    exact (List.perm_append_comm.append_right _).trans hbehind
  all_goals
    simp only [Layout.places_append, Layout.places_text, Layout.places_place, Layout.places_nil,
      places_layout]
    exact hbehind

theorem isComplete_windowPlan (d : Dialect) {x : SelectPlan} (h : x.IsComplete)
    {skip take : UInt64} {plan : Plan} (hplan : x.windowPlan d skip take = .ok plan) :
    plan.IsComplete := by
  obtain ⟨ops, hops, rfl⟩ := map_eq_ok_iff.mp hplan
  unfold Plan.IsComplete
  rw [List.length_append, length_boundOperands hops, length_bounds]
  exact places_windowLayout d h

end SelectPlan

/-- Each operand of a selection has one place. -/
theorem Selection.isComplete_plan {d : Dialect} {v : View} {x : Selection} {plan : Plan}
    (h : x.plan d v = .ok plan) : plan.IsComplete := by
  unfold Selection.plan at h
  split at h
  · obtain ⟨parts, hparts, rfl⟩ := map_eq_ok_iff.mp h
    exact SelectPlan.isComplete_plan d (SelectPlan.isComplete_of hparts)
  · unfold pagePlan at h
    split at h
    · cases h
    · obtain ⟨parts, hparts, h⟩ := bind_eq_ok_iff.mp h
      obtain ⟨skip, -, h⟩ := bind_eq_ok_iff.mp h
      exact SelectPlan.isComplete_windowPlan d (SelectPlan.isComplete_ofWindow hparts) h
  · unfold setPlan at h
    split at h
    · cases h
    · obtain ⟨parts, hparts, h⟩ := bind_eq_ok_iff.mp h
      exact SelectPlan.isComplete_windowPlan d (SelectPlan.isComplete_ofWindow hparts) h

/-- Each operand of a count has one place. -/
theorem isComplete_countPlan {d : Dialect} {v : View} {e : EntityType} {p : Option Predicate}
    {plan : Plan} (h : countPlan d v e p = .ok plan) : plan.IsComplete := by
  unfold countPlan at h
  obtain ⟨m, -, h⟩ := bind_eq_ok_iff.mp h
  obtain ⟨c, hc, h⟩ := bind_eq_ok_iff.mp h
  obtain rfl := Except.ok.inj h
  exact SelectPlan.isComplete_plan d fun plan hplan => SelectPlan.isComplete_condition hc hplan

/-- Each operand of a deletion has one place. -/
theorem isComplete_deletionPlan {d : Dialect} {v : View} {e : EntityType} {p : Option Predicate}
    {plan : Plan} (h : deletionPlan d v e p = .ok plan) : plan.IsComplete := by
  unfold deletionPlan at h
  obtain ⟨m, -, h⟩ := bind_eq_ok_iff.mp h
  split at h
  · cases h
  · rename_i q hq
    obtain ⟨x, hx, h⟩ := bind_eq_ok_iff.mp h
    obtain rfl := Except.ok.inj h
    obtain ⟨hc, rfl⟩ := (q.plan?_eq_ok_iff d v.mapping x).mp hx
    unfold Plan.IsComplete
    rw [Layout.places_append]
    exact q.isComplete_plan d hc

end EntitySql
