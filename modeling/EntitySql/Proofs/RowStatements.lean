/-
  The statements about the rows that meet a condition, and how each is made from the condition.

  A select, a window of it, a count and a deletion (`RowCall`) are put together in different ways,
  but the plan of each is made from the plan of the condition, whose operands come first
  (`RowCall.plan_eq_map`), and in the text of each the condition stands behind the name of the table
  (`RowCall.isText_of_work`, `RowCall.IsText.exists_around`).
-/
import EntitySql.Proofs.WindowedSelects

namespace EntitySql

/-! ## Calls about rows -/

/-- A statement about the rows of an entity that meet a condition. -/
inductive RowCall where
  /-- The rows in an order, or a window of them. -/
  | select (terms : List OrderTerm) (window : Option Window)
  /-- The number of the rows. -/
  | count
  /-- The deletion of the rows. -/
  | delete

namespace RowCall

/-- The writing of the statement. -/
def work (s : Setting) (e : EntityType) (p : Predicate) : RowCall → Work String
  | .select terms none => Work.select s e (some p) terms
  | .select terms (some x) => x.select s e (some p) terms
  | .count => Work.count s e (some p)
  | .delete => Work.deleteWhere s e (some p)

/-- The order can be written, and a window is accepted and has an order. -/
def IsAccepted (s : Setting) (w : Workspace) : RowCall → Prop
  | .select terms window =>
    (∃ text w', Work.order s terms w = .ok text w') ∧
      ∀ x, window = some x → terms ≠ [] ∧ x.IsAccepted
  | _ => True

/-- How many parameters there are beside those of the condition: two for the bounds of a
    window. -/
def boundCount : RowCall → Nat
  | .select _ (some _) => 2
  | _ => 0

/-- The plan of the statement, or the first reason why there is none. -/
def plan (d : Dialect) (v : View) (e : EntityType) (p : Predicate) : RowCall → Except Error Plan
  | .select terms window => Selection.plan d v ⟨e, some p, terms, window⟩
  | .count => countPlan d v e (some p)
  | .delete => deletionPlan d v e (some p)

theorem work_follows (s : Setting) (e : EntityType) (p : Predicate) (call : RowCall)
    (w : Workspace) :
    Work.Follows s (call.work s e p) w (call.plan s.dialect (s.view w.catalog) e p) := by
  cases call with
  | select terms window =>
    have h := Work.selection_follows s ⟨e, some p, terms, window⟩ w
    cases window with
    | none => exact h
    | some x => cases x <;> exact h
  | count => exact Work.count_follows s e (some p) w
  | delete => exact Work.deleteWhere_follows s e (some p) w

end RowCall

/-! ## Plans made from the plan of a condition -/

section

variable {d : Dialect} {v : View} {e : EntityType} {m : Mapping} {columns : String} {p : Predicate}
  {terms : List OrderTerm} {order : String}

theorem SelectPlan.of_eq_map (hm : v.mapping e = .ok m) (hcolumns : v.columns e = .ok columns)
    (horder : OrderTerm.allText? d v.mapping terms = .ok order) :
    SelectPlan.of d v e (some p) terms =
      (p.plan? d v.mapping).map fun c => ⟨m, columns, some c, order⟩ := by
  unfold of
  rw [hm, hcolumns, Option.mapM_some, horder]
  cases p.plan? d v.mapping <;> rfl

/-- The select of a window with an order is that of its rows. -/
theorem SelectPlan.ofWindow_eq (hm : v.mapping e = .ok m) (hterms : terms ≠ []) :
    ofWindow d v e (some p) terms = of d v e (some p) terms := by
  have hne : terms.isEmpty = false := List.isEmpty_eq_false_iff.mpr hterms
  unfold ofWindow
  rw [hm, hne]
  rfl

/-- Bounds that can be bound are operands. -/
theorem SelectPlan.exists_boundOperands {bounds : List (String × UInt64)}
    (h : ∀ b ∈ bounds, b.2.toNat ≤ Dialect.greatestBound) :
    ∃ ops, boundOperands bounds = .ok ops := by
  induction bounds with
  | nil => exact ⟨[], rfl⟩
  | cons b bounds ih =>
    rw [List.forall_mem_cons] at h
    obtain ⟨i, -, hi⟩ := Dialect.windowValue_of_le h.1
    obtain ⟨ops, hops⟩ := ih h.2
    refine ⟨(b.1, .int64 i) :: ops, ?_⟩
    unfold boundOperands
    rw [hi, hops]
    rfl

/-- An accepted window adds two operands to those of the condition. -/
theorem SelectPlan.windowPlan_of_accepted (d : Dialect) {x : Window} (hx : x.IsAccepted) :
    ∃ ops, ops.length = 2 ∧ ∀ y : SelectPlan,
      y.windowPlan d x.skipBound x.takeBound = .ok ⟨y.windowLayout d, y.operands ++ ops⟩ := by
  have hskip : x.skipBound.toNat ≤ Dialect.greatestBound := hx.toNat_skipBound ▸ hx.skip_le
  have hbounds : ∀ b ∈ bounds d x.skipBound x.takeBound, b.2.toNat ≤ Dialect.greatestBound := by
    unfold bounds
    cases d.windowForm <;> simp [hskip, hx.take_le]
  obtain ⟨ops, hops⟩ := exists_boundOperands hbounds
  refine ⟨ops, (length_boundOperands hops).trans (length_bounds d _ _), fun y => ?_⟩
  unfold windowPlan
  rw [hops]
  rfl

/-- The plan of an accepted window is made from that of the select. -/
theorem Selection.plan_of_accepted (hm : v.mapping e = .ok m) (hterms : terms ≠ []) {x : Window}
    (hx : x.IsAccepted) :
    Selection.plan d v ⟨e, some p, terms, some x⟩ =
      SelectPlan.of d v e (some p) terms >>= fun y =>
        y.windowPlan d x.skipBound x.takeBound := by
  rw [← SelectPlan.ofWindow_eq hm hterms]
  have hpos := hx.isPositive
  cases x with
  | page n rows =>
    change pagePlan d v e (some p) terms n rows = _
    unfold pagePlan
    rw [if_neg (not_or.mpr hpos), hx.pageStart]
    rfl
  | set first count =>
    change setPlan d v e (some p) terms first count = _
    unfold setPlan
    rw [if_neg hpos]
    rfl

end

namespace RowCall

section

variable {d : Dialect} {v : View} {e : EntityType} {m : Mapping} {p : Predicate}

/-- A view has the order of a select, and a window is accepted and has an order. -/
def IsWritable (d : Dialect) (v : View) : RowCall → Prop
  | .select terms window =>
    (∃ order, OrderTerm.allText? d v.mapping terms = .ok order) ∧
      ∀ x, window = some x → terms ≠ [] ∧ x.IsAccepted
  | _ => True

theorem IsAccepted.isWritable {s : Setting} {w : Workspace} {call : RowCall}
    (h : call.IsAccepted s w) : call.IsWritable s.dialect (s.view w.catalog) := by
  cases call with
  | select terms window =>
    obtain ⟨⟨text, w', hw'⟩, hwindow⟩ := h
    refine ⟨?_, hwindow⟩
    obtain ⟨w₁, hw₁, -, -⟩ := Work.order_writes s terms w
    rw [hw'] at hw₁
    cases horder : OrderTerm.allText? s.dialect (s.view w.catalog).mapping terms with
    | error cause =>
      rw [horder] at hw₁
      cases hw₁
    | ok order => exact ⟨order, rfl⟩
  | count => trivial
  | delete => trivial

/-- Without a mapping there is no plan. -/
theorem plan_of_mapping_error {cause : Error} (hm : v.mapping e = .error cause) {call : RowCall}
    (h : call.IsWritable d v) : call.plan d v e p = .error cause := by
  cases call with
  | select terms window =>
    have hof : SelectPlan.of d v e (some p) terms = .error cause := by
      unfold SelectPlan.of
      rw [hm]
      rfl
    have hwindow : SelectPlan.ofWindow d v e (some p) terms = .error cause := by
      unfold SelectPlan.ofWindow
      rw [hm]
      rfl
    cases window with
    | none =>
      change (SelectPlan.of d v e (some p) terms).map _ = _
      rw [hof]
      rfl
    | some x =>
      have hpos := (h.2 x rfl).2.isPositive
      cases x with
      | page n rows =>
        change pagePlan d v e (some p) terms n rows = _
        unfold pagePlan
        rw [if_neg (not_or.mpr hpos), hwindow]
        rfl
      | set first count =>
        change setPlan d v e (some p) terms first count = _
        unfold setPlan
        rw [if_neg hpos, hwindow]
        rfl
  | count =>
    unfold plan countPlan
    rw [hm]
    rfl
  | delete =>
    unfold plan deletionPlan
    rw [hm]
    rfl

/-- The select of the rows that meet the condition of a plan. -/
def selectPlan (m : Mapping) (columns order : String) (c : Plan) : SelectPlan :=
  ⟨m, columns, some c, order⟩

/-- The select of their number. -/
def totalPlan (d : Dialect) (m : Mapping) : Plan → SelectPlan :=
  selectPlan m ("COUNT(*) AS " ++ d.quote "Total") ""

/-- The plan of their deletion. -/
def removalPlan (d : Dialect) (m : Mapping) (c : Plan) : Plan :=
  ⟨[.text "DELETE FROM ", .text (d.tableName m), .text " WHERE "] ++ c.layout, c.operands⟩

theorem plan_select (hm : v.mapping e = .ok m) {columns : String}
    (hcolumns : v.columns e = .ok columns) {terms : List OrderTerm} {order : String}
    (horder : OrderTerm.allText? d v.mapping terms = .ok order) :
    (select terms none).plan d v e p =
      (p.plan? d v.mapping).map fun c => (selectPlan m columns order c).plan d := by
  change (SelectPlan.of d v e (some p) terms).map _ = _
  rw [SelectPlan.of_eq_map hm hcolumns horder]
  cases p.plan? d v.mapping <;> rfl

theorem plan_window (hm : v.mapping e = .ok m) {columns : String}
    (hcolumns : v.columns e = .ok columns) {terms : List OrderTerm} {order : String}
    (horder : OrderTerm.allText? d v.mapping terms = .ok order) (hterms : terms ≠ []) {x : Window}
    (hx : x.IsAccepted) :
    ∃ ops, ops.length = 2 ∧ (select terms (some x)).plan d v e p =
      (p.plan? d v.mapping).map fun c =>
        ⟨(selectPlan m columns order c).windowLayout d, c.operands ++ ops⟩ := by
  obtain ⟨ops, hlength, hplan⟩ := SelectPlan.windowPlan_of_accepted d hx
  refine ⟨ops, hlength, ?_⟩
  change Selection.plan d v ⟨e, some p, terms, some x⟩ = _
  rw [Selection.plan_of_accepted hm hterms hx, SelectPlan.of_eq_map hm hcolumns horder]
  cases p.plan? d v.mapping with
  | error cause => rfl
  | ok c => exact hplan _

theorem plan_count (hm : v.mapping e = .ok m) :
    count.plan d v e p = (p.plan? d v.mapping).map fun c => (totalPlan d m c).plan d := by
  change countPlan d v e (some p) = _
  unfold countPlan
  rw [hm, Option.mapM_some]
  cases p.plan? d v.mapping <;> rfl

theorem plan_delete (hm : v.mapping e = .ok m) (hp : p.isEmpty = false) :
    delete.plan d v e p = (p.plan? d v.mapping).map (removalPlan d m) := by
  have hsome : (some p).filter (!·.isEmpty) = some p := by
    rw [Option.filter_some, hp]
    rfl
  change deletionPlan d v e (some p) = _
  unfold deletionPlan
  rw [hm, hsome]
  dsimp only [bind, Except.bind]
  cases p.plan? d v.mapping <;> rfl

/-- The plan is made from that of the condition, whose operands come first. -/
theorem plan_eq_map (hm : v.mapping e = .ok m) {columns : String}
    (hcolumns : v.columns e = .ok columns) (hp : p.isEmpty = false) {call : RowCall}
    (h : call.IsWritable d v) :
    ∃ f : Plan → Plan, call.plan d v e p = (p.plan? d v.mapping).map f ∧
      ∃ ops, ops.length = call.boundCount ∧ ∀ c, (f c).operands = c.operands ++ ops := by
  cases call with
  | select terms window =>
    obtain ⟨⟨order, horder⟩, hwindow⟩ := h
    cases window with
    | none =>
      exact ⟨_, plan_select hm hcolumns horder, [], rfl, fun c => (List.append_nil _).symm⟩
    | some x =>
      obtain ⟨hterms, hx⟩ := hwindow x rfl
      obtain ⟨ops, hlength, hplan⟩ := plan_window (p := p) hm hcolumns horder hterms hx
      exact ⟨_, hplan, ops, hlength, fun c => rfl⟩
  | count => exact ⟨_, plan_count hm, [], rfl, fun c => (List.append_nil _).symm⟩
  | delete => exact ⟨_, plan_delete hm hp, [], rfl, fun c => (List.append_nil _).symm⟩

end

/-! ## Texts with the condition -/

/-- What the statement says about the rows of the table that meet the condition. -/
inductive IsText (d : Dialect) (m : Mapping) (condition : String) : RowCall → String → Prop where
  /-- The select of some columns in an order. -/
  | select (terms : List OrderTerm) (columns order : String) :
      IsText d m condition (.select terms none) (d.select ⟨m, columns, some condition, order⟩)
  /-- The same select cut to a window, in the form of the dialect. -/
  | window (terms : List OrderTerm) (x : Window) (columns order skipName takeName : String) :
      IsText d m condition (.select terms (some x))
        ((Cut.of d.windowForm skipName takeName).text d ⟨m, columns, some condition, order⟩)
  /-- The select of the number of rows. -/
  | count :
      IsText d m condition .count
        (d.select
          { mapping := m, columns := "COUNT(*) AS " ++ d.quote "Total", condition := condition })
  /-- The deletion. -/
  | delete :
      IsText d m condition .delete ("DELETE FROM " ++ d.tableName m ++ " WHERE " ++ condition)

/-- In each of the texts the condition stands behind the name of the table. -/
theorem IsText.exists_around {d : Dialect} {m : Mapping} {condition text : String} {call : RowCall}
    (h : call.IsText d m condition text) :
    ∃ front back, text = front ++ (" FROM " ++ d.tableName m ++ " WHERE " ++ condition) ++ back := by
  have hselect (columns order : String) :
      d.select ⟨m, columns, some condition, order⟩ =
        "SELECT " ++ columns ++ (" FROM " ++ d.tableName m ++ " WHERE " ++ condition) ++
          (if order.isEmpty then "" else " ORDER BY " ++ order) := by
    simp only [Dialect.select, Dialect.whereClause, String.append_assoc]
  cases h with
  | select terms columns order => exact ⟨_, _, hselect columns order⟩
  | window terms x columns order skipName takeName =>
    have hlimit {text : String} (rest : String)
        (htext : text = d.select ⟨m, columns, some condition, order⟩ ++ rest) :
        ∃ front back, text =
          front ++ (" FROM " ++ d.tableName m ++ " WHERE " ++ condition) ++ back := by
      rw [hselect, String.append_assoc] at htext
      exact ⟨_, _, htext⟩
    unfold Cut.of Cut.text
    cases d.windowForm with
    | limitOffset =>
      refine hlimit (" LIMIT " ++ d.placeholder takeName ++ " OFFSET " ++ d.placeholder skipName) ?_
      simp only [String.append_assoc]
    | limitComma =>
      refine hlimit (" LIMIT " ++ d.placeholder skipName ++ ", " ++ d.placeholder takeName) ?_
      simp only [String.append_assoc]
    | offsetFetch =>
      refine hlimit (" OFFSET " ++ d.placeholder skipName ++ " ROWS FETCH NEXT " ++
        d.placeholder takeName ++ " ROWS ONLY") ?_
      simp only [String.append_assoc]
    | rowNumber =>
      -- here the condition is that of the table inside
      let front := "SELECT TOP(" ++ d.placeholder takeName ++
        ") [_proj].* FROM (SELECT ROW_NUMBER() OVER(ORDER BY " ++ order ++
        ") AS [_row_number], " ++ columns
      let back := ") [_proj] WHERE [_proj].[_row_number] > " ++ d.placeholder skipName ++
        " ORDER BY [_proj].[_row_number]"
      refine ⟨front, back, ?_⟩
      simp only [front, back, Dialect.whereClause, String.append_assoc]
  | count => exact ⟨_, _, hselect ("COUNT(*) AS " ++ d.quote "Total") ""⟩
  | delete =>
    have hfront : "DELETE FROM " = "DELETE" ++ " FROM " := rfl
    refine ⟨"DELETE", "", ?_⟩
    simp only [hfront, String.append_assoc, String.append_empty]

/-- The text of a statement that is written. -/
theorem isText_of_work {s : Setting} {e : EntityType} {p : Predicate} {w w' : Workspace}
    {m : Mapping} {text : String} (hm : (s.view w.catalog).mapping e = .ok m) {columns : String}
    (hcolumns : (s.view w.catalog).columns e = .ok columns) (hp : p.isEmpty = false)
    (hc : p.Compiles (s.view w.catalog).mapping) {call : RowCall} (h : call.IsAccepted s w)
    (hrun : call.work s e p w = .ok text w') :
    call.IsText s.dialect m
      ((p.plan s.dialect (s.view w.catalog).mapping).text s.dialect w.parameters) text := by
  have hplan := (p.plan?_eq_ok_iff s.dialect (s.view w.catalog).mapping _).mpr ⟨hc, rfl⟩
  have hcomplete (columns order : String) :
      (selectPlan m columns order (p.plan s.dialect (s.view w.catalog).mapping)).IsComplete := by
    intro plan hx
    obtain rfl := Option.some.inj hx
    exact p.isComplete_plan s.dialect hc
  have hfollows := call.work_follows s e p w
  cases call with
  | select terms window =>
    obtain ⟨⟨order, horder⟩, hwindow⟩ := h.isWritable
    cases window with
    | none =>
      rw [plan_select hm hcolumns horder, hplan] at hfollows
      obtain ⟨rfl, -⟩ := hfollows.of_ok rfl hrun
      rw [SelectPlan.text_plan _ _ (hcomplete columns order)]
      exact .select terms columns order
    | some x =>
      obtain ⟨hterms, hx⟩ := hwindow x rfl
      obtain ⟨w₁, hw₁, -, -⟩ := Work.windowParts_writes s e (some p) terms w
      rw [SelectPlan.ofWindow_eq hm hterms, SelectPlan.of_eq_map hm hcolumns horder, hplan] at hw₁
      obtain ⟨skipName, takeName, w₂, hw₂, -⟩ := Window.select_of_accepted hw₁ hx
      obtain ⟨rfl, rfl⟩ := EStateM.Result.ok.inj (hrun.symm.trans hw₂)
      exact .window terms x columns order skipName takeName
  | count =>
    rw [plan_count hm, hplan] at hfollows
    obtain ⟨rfl, -⟩ := hfollows.of_ok rfl hrun
    rw [totalPlan, SelectPlan.text_plan _ _ (hcomplete _ "")]
    exact .count
  | delete =>
    rw [plan_delete hm hp, hplan] at hfollows
    obtain ⟨rfl, -⟩ := hfollows.of_ok rfl hrun
    have htext (c : Plan) : (removalPlan s.dialect m c).text s.dialect w.parameters =
        "DELETE FROM " ++ s.dialect.tableName m ++ " WHERE " ++ c.text s.dialect w.parameters := by
      simp [removalPlan, Plan.text, String.append_assoc]
    rw [htext]
    exact .delete

end RowCall

end EntitySql
