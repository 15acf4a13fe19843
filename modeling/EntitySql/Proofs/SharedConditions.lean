/-
  The statements about the rows that meet a condition share the condition.

  A select, a window of it, a count and a deletion fail for the same reason, or else each of them has
  the text of the condition behind the name of the same table, and the same parameters in front of
  those of its own (`RowCall.Says`). With all of them the condition is true of the same rows, so that
  the rows that are selected are those that are counted, and those that a deletion does not leave
  (`RowCall.Makes.agree`).
-/
import EntitySql.Proofs.ReadBack
import EntitySql.Proofs.RowStatements

namespace EntitySql

open Sql

/-! ## What statements make of rows -/

/-- Whether a row of the table meets the condition. -/
def Sql.Expr.meets (W : World) (ps : Parameters) (scope : Scope) (t : TableName) (c : Expr)
    (row : Cells) : Bool := c.value W ps (scope.enter t row) == .yes

/-- What is made of the rows of a table. -/
inductive Outcome where
  /-- Some of them are answered. -/
  | rows (answer : List Cells)
  /-- A number of them is answered. -/
  | total (n : Nat)
  /-- Some of them are left. -/
  | left (rows : List Cells)

namespace RowCall

/-- What a statement makes of the rows of a table, with a condition on them. An order does not
    tell how rows with the same values come. -/
inductive Makes (W : World) (scope : Scope) (t : TableName) (c : Expr) (ps : Parameters) :
    RowCall → Outcome → Prop where
  /-- The rows that meet the condition are answered. -/
  | select (terms : List OrderTerm) {answer : List Cells}
      (h : answer.Perm ((W.rows t).filter (c.meets W ps scope t))) :
      Makes W scope t c ps (.select terms none) (.rows answer)
  /-- A window of them is answered. -/
  | window (terms : List OrderTerm) (x : Window) {ordered : List Cells}
      (h : ordered.Perm ((W.rows t).filter (c.meets W ps scope t))) :
      Makes W scope t c ps (.select terms (some x)) (.rows (x.cut ordered))
  /-- Their number is answered. -/
  | count : Makes W scope t c ps .count (.total ((W.rows t).filter (c.meets W ps scope t)).length)
  /-- The other rows are left. -/
  | delete :
      Makes W scope t c ps .delete (.left ((W.rows t).filter fun row => !c.meets W ps scope t row))

theorem Makes.congr {W : World} {scope : Scope} {t : TableName} {c : Expr} {ps ps' : Parameters}
    (hmeets : c.meets W ps' scope t = c.meets W ps scope t) {call : RowCall} {o : Outcome}
    (h : call.Makes W scope t c ps' o) : call.Makes W scope t c ps o := by
  cases h with
  | select terms hanswer => exact .select terms (hmeets ▸ hanswer)
  | window terms x hordered => exact .window terms x (hmeets ▸ hordered)
  | count => rw [hmeets]; exact .count
  | delete => rw [hmeets]; exact .delete

/-- With one condition, the rows that are selected are those that are counted, those that are not
    left, and those that a window is cut from. -/
theorem Makes.agree {W : World} {scope : Scope} {t : TableName} {c : Expr} {ps : Parameters}
    {terms : List OrderTerm} {answer : List Cells}
    (hanswer : Makes W scope t c ps (.select terms none) (.rows answer)) :
    (∀ n, Makes W scope t c ps .count (.total n) → n = answer.length) ∧
    (∀ left, Makes W scope t c ps .delete (.left left) → (answer ++ left).Perm (W.rows t)) ∧
    ∀ x cut, Makes W scope t c ps (.select terms (some x)) (.rows cut) →
      ∃ ordered : List Cells, ordered.Perm answer ∧ cut = x.cut ordered := by
  cases hanswer with
  | select _ hanswer =>
    refine ⟨fun n htotal => ?_, fun left hleft => ?_, fun x cut hcut => ?_⟩
    · cases htotal
      exact hanswer.length_eq.symm
    · cases hleft
      exact (hanswer.append_right _).trans (List.filter_append_perm _ _)
    · cases hcut with
      | window _ _ hordered => exact ⟨_, hordered.trans hanswer.symm, rfl⟩

end RowCall

/-! ## The condition that is shared -/

/-- A condition as it is written for statements about a table. -/
structure WrittenCondition where
  /-- The mapping of the table. -/
  mapping : Mapping
  /-- The text. -/
  text : String
  /-- The parameters with those of the condition. -/
  parameters : Parameters
  /-- What the text is read as. -/
  expression : Expr

/-- A predicate as it is written in a workspace about the table of a mapping. -/
def Predicate.written (p : Predicate) (s : Setting) (m : Mapping) (w : Workspace) :
    WrittenCondition where
  mapping := m
  text := (p.plan s.dialect (s.view w.catalog).mapping).text s.dialect w.parameters
  parameters := w.parameters.bindAll (s.dialect.bound p.operands)
  expression := p.expression s.dialect (s.view w.catalog).mapping w.parameters

/-- The condition is that of a predicate, written in the workspace. -/
structure WrittenCondition.IsOf (x : WrittenCondition) (s : Setting) (e : EntityType)
    (p : Predicate) (w : Workspace) : Prop where
  /-- The table is that of the entity. -/
  mapping : (s.view w.catalog).mapping e = .ok x.mapping
  /-- The text is what is written for the predicate. -/
  written : ∃ w', Work.condition s (some p) w = .ok (some x.text) w' ∧
    w'.parameters = x.parameters
  /-- The operands of the predicate are bound behind the parameters there. -/
  bound : x.parameters = w.parameters.bindAll (s.dialect.bound p.operands)
  /-- The dialects of databases read the text as the expression. -/
  read : s.dialect ∈ Dialect.all.map (·.2) →
    (p.plan s.dialect (s.view w.catalog).mapping).IsReadAs s.dialect w.parameters x.text
      x.expression

/-- The statement has the text and the parameters of the condition, and is about the rows that meet
    the predicate. -/
structure RowCall.Says (call : RowCall) (s : Setting) (e : EntityType) (p : Predicate)
    (w : Workspace) (x : WrittenCondition) (text : String) (w' : Workspace) : Prop where
  /-- The statement is written. -/
  run : call.work s e p w = .ok text w'
  /-- It says the condition about the table. -/
  isText : call.IsText s.dialect x.mapping x.text text
  /-- The condition stands behind the name of the table. -/
  around : ∃ front back, text =
    front ++ (" FROM " ++ s.dialect.tableName x.mapping ++ " WHERE " ++ x.text) ++ back
  /-- The bounds of a window are bound behind the parameters of the condition, and nothing else. -/
  bound : ∃ added, w'.parameters.entries = x.parameters.entries ++ added ∧
    added.length = call.boundCount ∧ x.parameters.IsNew (added.map (·.1))
  /-- With all of them the condition is true of the rows that meet the predicate. -/
  meets : ∀ (W : World) (scope : Scope),
    x.expression.meets W w'.parameters scope x.mapping.tableName = fun row =>
      p.truth W s.dialect (s.view w.catalog).mapping
        (scope.enter x.mapping.tableName row) == .yes

/-- The statement that says the condition can make this of the rows of the table. -/
def RowCall.Does (call : RowCall) (s : Setting) (e : EntityType) (p : Predicate) (w : Workspace)
    (x : WrittenCondition) (W : World) (scope : Scope) (o : Outcome) : Prop :=
  ∃ text w', call.Says s e p w x text w' ∧
    call.Makes W scope x.mapping.tableName x.expression w'.parameters o

namespace RowCall

variable {s : Setting} {e : EntityType} {p : Predicate} {w : Workspace} {m : Mapping}

/-- Whatever more is bound, the expression of a predicate is true of the rows that meet it. -/
theorem meets_expression (hc : p.Compiles (s.view w.catalog).mapping)
    (more : List (String × Value)) (W : World) (scope : Scope) (t : TableName) :
    (p.expression s.dialect (s.view w.catalog).mapping w.parameters).meets W
        ((w.parameters.bindAll (s.dialect.bound p.operands)).bindAll more) scope t =
      fun row => p.truth W s.dialect (s.view w.catalog).mapping (scope.enter t row) == .yes := by
  funext row
  unfold Sql.Expr.meets
  congr 1
  exact p.value_expr W (scope.enter t row) 0 hc
    ((w.parameters.hold_bindAll s.dialect p.operands).bindAll more)

/-- A predicate that can be written is shared by the statements. -/
theorem says_of_compiles (hm : (s.view w.catalog).mapping e = .ok m) {columns : String}
    (hcolumns : (s.view w.catalog).columns e = .ok columns) (hp : p.isEmpty = false)
    (hc : p.Compiles (s.view w.catalog).mapping) {call : RowCall} (h : call.IsAccepted s w) :
    ∃ text w', call.Says s e p w (p.written s m w) text w' := by
  have hplan := (p.plan?_eq_ok_iff s.dialect (s.view w.catalog).mapping _).mpr ⟨hc, rfl⟩
  obtain ⟨f, hf, ops, hlength, hops⟩ := plan_eq_map hm hcolumns hp h.isWritable
  rw [hplan] at hf
  have hfollows := call.work_follows s e p w
  obtain ⟨text, w', hrun⟩ := hfollows.succeeds (by rw [hf]; rfl)
  obtain ⟨-, hparameters⟩ := hfollows.of_ok hf hrun
  -- the operands of the statement are those of the condition, and then its own
  have hbound : w'.parameters =
      (p.written s m w).parameters.bindAll (s.dialect.bound ops) := by
    rw [hparameters, Plan.parameters, hops, s.dialect.bound_append, Parameters.bindAll_append]
    rfl
  have hentries := Parameters.entries_bindAll (p.written s m w).parameters (s.dialect.bound ops)
  rw [← hbound] at hentries
  have htext := isText_of_work hm hcolumns hp hc h hrun
  refine ⟨text, w', hrun, htext, htext.exists_around, ⟨_, hentries, ?_, ?_⟩, fun W scope => ?_⟩
  · simp [hlength]
  · rw [List.map_fst_zip (by simp)]
    exact Parameters.isNew_newNames _ _
  · rw [hbound]
    exact meets_expression hc _ W scope _

end RowCall

/-- A predicate that is not empty, written in any workspace for a select, a window of one, a count
    and a deletion, when the orders can be written and the windows are accepted: either all of them
    fail for one reason, or all of them have the same text behind the name of the same table and the
    same parameters for it, with two more for a window. The rows that meet the condition are the same
    for all of them, so that those that are selected are counted, and are the ones that a deletion
    does not leave. -/
theorem row_statements_share_their_condition (s : Setting) (e : EntityType) {p : Predicate}
    (hp : p.isEmpty = false) (w : Workspace) :
    (∃ cause, ∀ call : RowCall, call.IsAccepted s w → ∃ w', call.work s e p w = .error cause w') ∨
    ∃ x : WrittenCondition, x.IsOf s e p w ∧
      (∀ call : RowCall, call.IsAccepted s w → ∃ text w', call.Says s e p w x text w') ∧
      ∀ (W : World) (scope : Scope) terms answer,
        (RowCall.select terms none).Does s e p w x W scope (.rows answer) →
        (∀ n, RowCall.count.Does s e p w x W scope (.total n) → n = answer.length) ∧
        (∀ left, RowCall.delete.Does s e p w x W scope (.left left) →
          (answer ++ left).Perm (W.rows x.mapping.tableName)) ∧
        ∀ window cut, (RowCall.select terms (some window)).Does s e p w x W scope (.rows cut) →
          ∃ ordered : List Cells, ordered.Perm answer ∧ cut = window.cut ordered := by
  have hfails {cause : Error}
      (hplan : ∀ call : RowCall, call.IsAccepted s w →
        call.plan s.dialect (s.view w.catalog) e p = .error cause) :
      ∀ call : RowCall, call.IsAccepted s w → ∃ w', call.work s e p w = .error cause w' := by
    intro call hcall
    obtain ⟨w', hw', -, -⟩ := call.work_follows s e p w
    rw [hplan call hcall] at hw'
    exact ⟨w', hw'⟩
  cases hm : (s.view w.catalog).mapping e with
  | error cause =>
    exact .inl ⟨cause, hfails fun call hcall => RowCall.plan_of_mapping_error hm hcall.isWritable⟩
  | ok m =>
    have hcolumns := Work.columnLists_eq s w.catalog e
    rw [hm] at hcolumns
    cases hplan : p.plan? s.dialect (s.view w.catalog).mapping with
    | error cause =>
      refine .inl ⟨cause, hfails fun call hcall => ?_⟩
      obtain ⟨f, hf, -⟩ := RowCall.plan_eq_map hm hcolumns hp hcall.isWritable
      rw [hf, hplan]
      rfl
    | ok plan =>
      obtain ⟨hc, -⟩ := (p.plan?_eq_ok_iff s.dialect _ plan).mp hplan
      refine .inr ⟨p.written s m w, ⟨hm, ?_, rfl, fun hd => ?_⟩,
        fun call hcall => RowCall.says_of_compiles hm hcolumns hp hc hcall, ?_⟩
      · obtain ⟨w', hw', hparameters⟩ := Work.clause_of_compiles s hc
        refine ⟨w', ?_, hparameters⟩
        rw [Work.condition, bind_run, hw']
        rfl
      · exact p.isReadAs_expression (isReadable_of_mem_all hd) hc w.parameters
      · rintro W scope terms answer ⟨text, w₁, hselect, hanswer⟩
        -- all statements meet the rows that the select meets
        have hsame {call : RowCall} {o : Outcome}
            (h : call.Does s e p w (p.written s m w) W scope o) :
            call.Makes W scope m.tableName (p.written s m w).expression w₁.parameters o := by
          obtain ⟨text, w₂, hshared, hmakes⟩ := h
          exact hmakes.congr ((hshared.meets W scope).trans (hselect.meets W scope).symm)
        obtain ⟨htotal, hleft, hcut⟩ := hanswer.agree
        exact ⟨fun n h => htotal n (hsame h), fun left h => hleft left (hsame h),
          fun window cut h => hcut window cut (hsame h)⟩

/-! ## A sample -/

/-- The select of a page and the deletion of the people of some ages, where a name is taken, have
    one condition, and the page binds two values more. -/
theorem row_statements_share_their_condition_people :
    ∃ x : WrittenCondition,
      x.IsOf Samples.people ⟨"Person"⟩ Samples.ages { parameters := ⟨[("age_0", .null)]⟩ } ∧
      (∃ text w', (RowCall.select [⟨Samples.age, true⟩] (some (.page 3 4))).Says Samples.people
        ⟨"Person"⟩ Samples.ages { parameters := ⟨[("age_0", .null)]⟩ } x text w') ∧
      ∃ text w', RowCall.delete.Says Samples.people ⟨"Person"⟩ Samples.ages
        { parameters := ⟨[("age_0", .null)]⟩ } x text w' := by
  have horder : ∃ text w', Work.order Samples.people [⟨Samples.age, true⟩]
      { parameters := ⟨[("age_0", .null)]⟩ } = .ok text w' := ⟨_, _, rfl⟩
  have hpage : (RowCall.select [⟨Samples.age, true⟩] (some (.page 3 4))).IsAccepted Samples.people
      { parameters := ⟨[("age_0", .null)]⟩ } := by
    refine ⟨horder, fun x hx => ?_⟩
    obtain rfl := Option.some.inj hx
    decide
  obtain ⟨cause, hfails⟩ | ⟨x, hx, hshared, -⟩ := row_statements_share_their_condition Samples.people
    ⟨"Person"⟩ (p := Samples.ages) rfl { parameters := ⟨[("age_0", .null)]⟩ }
  · obtain ⟨w', hw'⟩ := hfails .delete trivial
    obtain ⟨text, w₁, hw₁⟩ := (RowCall.delete.work_follows Samples.people ⟨"Person"⟩ Samples.ages
      { parameters := ⟨[("age_0", .null)]⟩ }).succeeds (by decide +kernel)
    rw [hw'] at hw₁
    cases hw₁
  · exact ⟨x, hx, hshared _ hpage, hshared .delete trivial⟩

end EntitySql
