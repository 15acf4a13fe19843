/-
  What the operations bind in a database that has no type for identifiers.

  `Supply` is what the parameters of a statement are bound from, and `Operation.Supplies` tells
  what an operation supplies its statements with: the values of a key or an entity by property, or
  the operands of its conditions and the bounds of its windows in order. `Supply.Fills` compares the
  parameters with that value by value. Each way of binding has a lemma (`fills_of_areValues`,
  `fills_plan`), and `HandsOnly` says of an operation that every statement it hands over is bound in
  one of these ways.
-/
import EntitySql.Proofs.IdentifierText
import EntitySql.Proofs.PropertyParameters
import EntitySql.Proofs.SessionRuns
import EntitySql.Proofs.SeveralAnswers
import EntitySql.Samples

namespace EntitySql

/-! ## What is supplied -/

/-- What the parameters of a statement are bound from. -/
inductive Supply where
  /-- The values of properties; the parameters are called like them. -/
  | properties (value : String → Option Value)
  /-- Operands in order, each with the base of the name of its parameter. -/
  | operands (ops : List (String × Value))

namespace Supply

/-- Each parameter is the value supplied for it, with texts in place of identifiers. -/
def Fills (ps : Parameters) : Supply → Prop
  | .properties value =>
    ∀ entry ∈ ps.entries, ((value entry.1).getD .null).InText entry.2
  | .operands ops =>
    List.Forall₂ (fun op entry => (∃ i, entry.1 = Parameters.numbered op.1 i) ∧
      op.2.InText entry.2) ops ps.entries

end Supply

/-- The operands of a condition, if there is one. -/
def Predicate.operandsOf (p : Option Predicate) : List (String × Value) :=
  (p.map Predicate.operands).getD []

/-- The operands of the condition of a select, and then the bounds of its window, if there is one
    that can be bound. -/
def Selection.operands (d : Dialect) (x : Selection) : Except Error (List (String × Value)) :=
  let behind (skip take : UInt64) : Except Error (List (String × Value)) :=
    (SelectPlan.boundOperands (SelectPlan.bounds d skip take)).map
      (Predicate.operandsOf x.condition ++ ·)
  match x.window with
  | none => .ok (Predicate.operandsOf x.condition)
  | some (.page page rows) => do behind (← (Dialect.pageStart page rows).mapError .query) rows
  | some (.set first count) => behind first count

/-- What an operation supplies its statements with, by the catalog at its start. -/
inductive Operation.Supplies {ε : Type} (s : Setting) (ids : IdentifierSource) (c : Catalog)
    (E : Entity ε) : Operation ε → Supply → Prop
  /-- The key is supplied to its select. -/
  | get (key : Key) : Supplies s ids c E (.get key) (.properties key.valueOf?)
  /-- The entity is supplied to its update. -/
  | update (e : ε) (excludeAssigned : Bool) :
    Supplies s ids c E (.update e excludeAssigned) (.properties (E.get? e))
  /-- The entity is supplied to its deletion. -/
  | delete (e : ε) : Supplies s ids c E (.delete e) (.properties (E.get? e))
  /-- An entity is supplied to its insertion, with identifiers drawn for its keys. -/
  | insert {es : List ε} {e e' : ε} {m : Mapping} {n n' : Nat} (he : e ∈ es)
      (hm : s.mappings c E.type = .ok m)
      (hfilled : Inserting.filled ids E (m.keys.filter (·.key == .guid)) n e = (.ok (), n', e')) :
    Supplies s ids c E (.insert es) (.properties (E.get? e'))
  /-- Nothing is supplied to the query of a generated key. -/
  | identity (es : List ε) : Supplies s ids c E (.insert es) (.operands [])
  /-- The condition is supplied to the deletion of rows. -/
  | deleteWhere (e : EntityType) (p : Option Predicate) :
    Supplies s ids c E (.deleteWhere e p) (.operands (Predicate.operandsOf p))
  /-- The condition is supplied to the count of rows. -/
  | count (e : EntityType) (p : Option Predicate) :
    Supplies s ids c E (.count e p) (.operands (Predicate.operandsOf p))
  /-- The condition and the window are supplied to a select. -/
  | entities {x : Selection} {ops : List (String × Value)} (h : x.operands s.dialect = .ok ops) :
    Supplies s ids c E (.entities x) (.operands ops)
  /-- The conditions and windows of several selects are supplied to their batch. -/
  | batch {xs : List Selection} {opss : List (List (String × Value))}
      (h : xs.mapM (Selection.operands s.dialect) = .ok opss) :
    Supplies s ids c E (.multiple xs) (.operands opss.flatten)
  /-- The condition and the window of one of several selects are supplied to it. -/
  | alone {xs : List Selection} {x : Selection} {ops : List (String × Value)} (hx : x ∈ xs)
      (h : x.operands s.dialect = .ok ops) : Supplies s ids c E (.multiple xs) (.operands ops)

/-! ## Parameters that are filled -/

namespace Supply

variable {d : Dialect}

theorem fills_of_areValues (hd : d.bindValue = Dialect.uuidsAsText) {value : String → Option Value}
    {ps : Parameters} (h : ps.AreValues d value) : (properties value).Fills ps := by
  intro entry hentry
  rw [h.value_of_mem hentry, hd]
  exact Dialect.inText_uuidsAsText _

/-- Operands that are bound under fresh names, behind those that are there. -/
theorem forall₂_newNames (hd : d.bindValue = Dialect.uuidsAsText) (ps : Parameters)
    (ops : List (String × Value)) :
    List.Forall₂ (fun op entry => (∃ i, entry.1 = Parameters.numbered op.1 i) ∧
        op.2.InText entry.2) ops
      ((ps.newNames (d.bound ops)).zip ((d.bound ops).map (·.2))) := by
  induction ops generalizing ps with
  | nil => exact .nil
  | cons op ops ih =>
    refine .cons ⟨⟨ps.freshIndex op.1, rfl⟩, ?_⟩ (ih _)
    dsimp only
    rw [hd]
    exact Dialect.inText_uuidsAsText op.2

theorem fills_bindAll (hd : d.bindValue = Dialect.uuidsAsText) (ops : List (String × Value)) :
    (operands ops).Fills (({} : Parameters).bindAll (d.bound ops)) := by
  unfold Fills
  rw [Parameters.entries_bindAll]
  exact forall₂_newNames hd {} ops

end Supply

/-! ## Operands of plans -/

theorem Predicate.operands_of_plan? {d : Dialect} {ms : Mappings} {p : Predicate} {x : Plan}
    (h : p.plan? d ms = .ok x) : x.operands = p.operands := by
  obtain ⟨-, rfl⟩ := (p.plan?_eq_ok_iff d ms x).mp h
  rfl

theorem SelectPlan.operands_of_condition {d : Dialect} {ms : Mappings} {p : Option Predicate}
    {x : SelectPlan} (h : p.mapM (Predicate.plan? d ms) = .ok x.condition) :
    x.operands = Predicate.operandsOf p := by
  unfold operands
  cases p with
  | none =>
    cases hc : x.condition with
    | none => rfl
    | some plan =>
      rw [hc] at h
      cases h
  | some p =>
    rw [Option.mapM_some] at h
    obtain ⟨plan, hplan, hsome⟩ := map_eq_ok_iff.mp h
    rw [← hsome]
    exact Predicate.operands_of_plan? hplan

theorem SelectPlan.operands_of {d : Dialect} {v : View} {e : EntityType} {p : Option Predicate}
    {terms : List OrderTerm} {x : SelectPlan} (h : of d v e p terms = .ok x) :
    x.operands = Predicate.operandsOf p := by
  obtain ⟨m, -, h⟩ := bind_eq_ok_iff.mp h
  obtain ⟨columns, -, h⟩ := bind_eq_ok_iff.mp h
  obtain ⟨c, hc, h⟩ := bind_eq_ok_iff.mp h
  obtain ⟨order, -, h⟩ := bind_eq_ok_iff.mp h
  cases h
  exact operands_of_condition hc

theorem SelectPlan.operands_ofWindow {d : Dialect} {v : View} {e : EntityType}
    {p : Option Predicate} {terms : List OrderTerm} {x : SelectPlan}
    (h : ofWindow d v e p terms = .ok x) : x.operands = Predicate.operandsOf p := by
  obtain ⟨m, -, h⟩ := bind_eq_ok_iff.mp h
  split at h
  · cases h
  · exact operands_of h

theorem SelectPlan.operands_windowPlan {d : Dialect} {x : SelectPlan} {skip take : UInt64}
    {plan : Plan} (h : x.windowPlan d skip take = .ok plan) :
    (boundOperands (bounds d skip take)).map (x.operands ++ ·) = .ok plan.operands := by
  obtain ⟨ops, hops, rfl⟩ := map_eq_ok_iff.mp h
  rw [hops]
  rfl

/-- The operands of a select are those that are told without its mapping. -/
theorem Selection.operands_of_plan {d : Dialect} {v : View} {x : Selection} {plan : Plan}
    (h : x.plan d v = .ok plan) : x.operands d = .ok plan.operands := by
  obtain ⟨entity, condition, terms, window⟩ := x
  cases window with
  | none =>
    obtain ⟨parts, hparts, rfl⟩ := map_eq_ok_iff.mp h
    exact congrArg Except.ok (SelectPlan.operands_of hparts).symm
  | some window =>
    cases window with
    | page page rows =>
      change pagePlan d v entity condition terms page rows = .ok plan at h
      unfold pagePlan at h
      split at h
      · cases h
      · obtain ⟨parts, hparts, h⟩ := bind_eq_ok_iff.mp h
        obtain ⟨skip, hskip, h⟩ := bind_eq_ok_iff.mp h
        have hops := SelectPlan.operands_windowPlan h
        rw [SelectPlan.operands_ofWindow hparts] at hops
        exact bind_eq_ok_iff.mpr ⟨skip, hskip, hops⟩
    | set first count =>
      change setPlan d v entity condition terms first count = .ok plan at h
      unfold setPlan at h
      split at h
      · cases h
      · obtain ⟨parts, hparts, h⟩ := bind_eq_ok_iff.mp h
        have hops := SelectPlan.operands_windowPlan h
        rw [SelectPlan.operands_ofWindow hparts] at hops
        exact hops

theorem operands_countPlan {d : Dialect} {v : View} {e : EntityType} {p : Option Predicate}
    {plan : Plan} (h : countPlan d v e p = .ok plan) : plan.operands = Predicate.operandsOf p := by
  obtain ⟨m, -, h⟩ := bind_eq_ok_iff.mp h
  obtain ⟨c, hc, h⟩ := bind_eq_ok_iff.mp h
  cases h
  exact SelectPlan.operands_of_condition
    (x := { mapping := m, columns := "COUNT(*) AS " ++ d.quote "Total", condition := c }) hc

theorem operands_deletionPlan {d : Dialect} {v : View} {e : EntityType} {p : Option Predicate}
    {plan : Plan} (h : deletionPlan d v e p = .ok plan) :
    plan.operands = Predicate.operandsOf p := by
  obtain ⟨m, -, h⟩ := bind_eq_ok_iff.mp h
  cases p with
  | none => cases h
  | some p =>
    cases hp : (some p).filter (!·.isEmpty) with
    | none =>
      rw [hp] at h
      cases h
    | some q =>
      obtain ⟨hq, -⟩ := Option.filter_eq_some_iff.mp hp
      cases hq
      rw [hp] at h
      obtain ⟨x, hx, h⟩ := bind_eq_ok_iff.mp h
      cases h
      have hoperands := Predicate.operands_of_plan? hx
      exact hoperands

/-- The operands of several selects are those of their plans. -/
theorem Work.operands_of_plans {d : Dialect} {v : View} {xs : List Selection} {ps : List Plan}
    (h : plans d v xs = .ok ps) :
    xs.mapM (Selection.operands d) = .ok (ps.map (·.operands)) := by
  induction xs generalizing ps with
  | nil =>
    cases h
    rfl
  | cons x xs ih =>
    rw [plans_cons] at h
    obtain ⟨p, hp, h⟩ := bind_eq_ok_iff.mp h
    obtain ⟨rest, hrest, h⟩ := bind_eq_ok_iff.mp h
    cases h
    rw [List.mapM_cons, Selection.operands_of_plan hp, ih hrest]
    rfl

/-! ## Requests of a part of a session -/

namespace Session

variable {σ : Type} {P Q : Request → Prop} {a b c : Session (σ × List Request)}

/-- From one session to a later one, the executor is handed such requests and no others. -/
def HandsOnly (P : Request → Prop) (a b : Session (σ × List Request)) : Prop :=
  ∃ requests, b.executor.2 = a.executor.2 ++ requests ∧ ∀ r ∈ requests, P r

theorem handsOnly_of_eq (h : b.executor.2 = a.executor.2) : HandsOnly P a b :=
  ⟨[], by rw [h, List.append_nil], nofun⟩

theorem HandsOnly.trans (h : HandsOnly P a b) (h' : HandsOnly P b c) : HandsOnly P a c := by
  obtain ⟨requests, hb, hP⟩ := h
  obtain ⟨requests', hc, hP'⟩ := h'
  refine ⟨requests ++ requests', by rw [hc, hb, List.append_assoc], fun r hr => ?_⟩
  rcases List.mem_append.mp hr with hr | hr
  · exact hP r hr
  · exact hP' r hr

theorem HandsOnly.mono (h : HandsOnly P a b) (hPQ : ∀ r, P r → Q r) : HandsOnly Q a b := by
  obtain ⟨requests, hb, hP⟩ := h
  exact ⟨requests, hb, fun r hr => hPQ r (hP r hr)⟩

end Session

open Session (HandsOnly handsOnly_of_eq)

variable {σ ε : Type} {P : Request → Prop}

/-- A call that sends once hands over what it exchanges. -/
theorem Act.HandsOver.handsOnly {α : Type} {x : Executor σ} {call : Act (σ × List Request) α}
    {a : Session (σ × List Request)} {checked : Except Error (Exchange α)}
    (h : HandsOver x call a checked) (hP : ∀ ex, checked = .ok ex → P ex.request) :
    HandsOnly P a (lastState (call a)) := by
  cases hchecked : checked with
  | error cause =>
    obtain ⟨-, w, hw⟩ := h.refused cause hchecked
    rw [hw]
    exact handsOnly_of_eq rfl
  | ok ex =>
    obtain ⟨w, hw⟩ := h.sent ex hchecked
    rw [hw, lastState_ended]
    refine ⟨[ex.request], rfl, fun r hr => ?_⟩
    rw [List.mem_singleton.mp hr]
    exact hP ex hchecked

/-! ## Requests of several selects -/

namespace Database

variable (db : Database σ) {a : Session (σ × List Request)}

/-- Several selects hand over their batch, when each of them has a plan, and selects with plans. -/
theorem getMultiple_handsOnly {xs : List Selection} {v : View}
    (hv : v = db.setting.view a.workspace.catalog)
    (hbatch : ∀ ps sql, Work.plans db.setting.dialect v xs = .ok ps →
      P (.batch ⟨sql, ({} : Parameters).bindAll
        (db.setting.dialect.bound (ps.flatMap (·.operands)))⟩))
    (halone : ∀ x ∈ xs, ∀ p, x.plan db.setting.dialect v = .ok p →
      P (.rows (p.statement db.setting.dialect))) :
    HandsOnly P a (lastState (db.watched.getMultiple xs a)) := by
  subst hv
  cases hplans : Work.plans db.setting.dialect (db.setting.view a.workspace.catalog) xs with
  | ok ps =>
    obtain ⟨w, hw, -, hparameters⟩ :=
      Work.selections_write db.setting xs { a.workspace with parameters := {} }
    rw [hplans] at hw
    obtain ⟨w', requests, answer, s, hseveral, hrun⟩ := db.getMultiple_of_plans hplans hw rfl
    rw [hrun, lastState_ended]
    refine ⟨requests, rfl, fun r hr => ?_⟩
    rcases hseveral.mem_requests hr with rfl | ⟨st, hst, rfl⟩
    · rw [hparameters ps hplans]
      exact hbatch ps _ hplans
    · obtain ⟨p, hp, rfl⟩ := List.mem_map.mp hst
      rw [← Work.plansInFront_of_plans hplans] at hp
      obtain ⟨x, hx, hplan⟩ := Work.mem_plansInFront hp
      exact halone x hx p hplan
  | error cause =>
    have hne : xs.isEmpty = false := by
      cases xs with
      | nil => cases hplans
      | cons x xs => rfl
    cases hb : db.setting.dialect.batches with
    | true =>
      obtain ⟨w, hw⟩ := db.watched.fetchAtOnce_refused (a := a) hplans
      rw [db.watched.getMultiple_of_batches hne hb, bind_run, hw]
      exact handsOnly_of_eq rfl
    | false =>
      obtain ⟨w, hw⟩ := db.watched.fetchOneByOne_run xs a rfl rfl
      obtain ⟨requests, heach, hlist⟩ := Executor.answersEach_rowsOfAll db.executor
        ((Work.plansInFront db.setting.dialect (db.setting.view a.workspace.catalog) xs).map
          (·.statement db.setting.dialect)) a.executor
      rw [db.executor_watched, db.setting_watched, hlist, hplans] at hw
      have hlast : (lastState (db.watched.getMultiple xs a)).executor.2 =
          a.executor.2 ++ requests := by
        rw [db.watched.getMultiple_of_not_batches hne hb, bind_run, hw]
        cases (db.executor.rowsOfAll _ a.executor.1).1 <;> rfl
      refine ⟨requests, hlast, fun r hr => ?_⟩
      obtain ⟨st, hst, rfl⟩ := heach.mem_requests hr
      obtain ⟨p, hp, rfl⟩ := List.mem_map.mp hst
      obtain ⟨x, hx, hplan⟩ := Work.mem_plansInFront hp
      exact halone x hx p hplan

end Database

/-! ## Requests of insertions -/

/-- The requests of an insertion have its parameters, or none. -/
theorem PreparedInsertion.parameters_of_mem_requests {d : Dialect} {p : PreparedInsertion}
    {r : Request} (hr : r ∈ p.requests d) :
    r.statement.parameters = p.insert.parameters ∨ r.statement.parameters = {} := by
  unfold requests at hr
  split at hr
  · rw [List.mem_singleton.mp hr]
    exact .inl rfl
  · split at hr
    · rw [List.mem_singleton.mp hr]
      exact .inl rfl
    · rcases List.mem_cons.mp hr with rfl | hr
      · exact .inl rfl
      · rw [List.mem_singleton.mp hr]
        exact .inr rfl

namespace Database

variable (db : Database σ) {E : Entity ε} {a : Session (σ × List Request)}

/-- The insertion of an entity hands over requests of what is prepared for it, and no others. -/
theorem insertOne_handsOnly {e : ε}
    (h : ∀ p n e', db.prepared E a.workspace.catalog a.drawn e = (.ok p, n, e') →
      ∀ r ∈ p.requests db.setting.dialect, P r) :
    HandsOnly P a (db.watched.insertOne E e a).2.2 := by
  unfold insertOne
  cases hp : db.prepared E a.workspace.catalog a.drawn e with
  | mk r rest =>
    obtain ⟨n, e'⟩ := rest
    cases r with
    | error cause =>
      obtain ⟨w, hw⟩ := Inserting.insert_of_unprepared db.watched E hp
      rw [hw]
      exact handsOnly_of_eq rfl
    | ok p =>
      obtain ⟨w, hw⟩ := Inserting.insert_of_prepared db.watched E hp
      obtain ⟨made, -, -, hlist⟩ := p.sent_watched db.setting.dialect db.executor a.executor
      rw [db.setting_watched, db.executor_watched, hlist] at hw
      dsimp only at hw
      rw [hw]
      refine ⟨(p.requests db.setting.dialect).take made, ?_, fun r hr => ?_⟩
      · cases (p.outcome E (p.sent db.setting.dialect db.executor a.executor.1).1 e').1 <;> rfl
      · exact h p n e' hp r (List.mem_of_mem_take hr)

end Database

/-! ## Requests of operations -/

/-- The parameters of a request are what an operation supplies, with texts in place of
    identifiers. -/
def Operation.BindsInText (op : Operation ε) (s : Setting) (ids : IdentifierSource) (c : Catalog)
    (E : Entity ε) (r : Request) : Prop :=
  ∃ supply, op.Supplies s ids c E supply ∧ supply.Fills r.statement.parameters

namespace Database

variable (db : Database σ) {E : Entity ε} {c : Catalog}

theorem insertMany_bindsInText (hd : db.setting.dialect.bindValue = Dialect.uuidsAsText)
    {all es : List ε} (hes : es ⊆ all) {a : Session (σ × List Request)}
    (hg : db.setting.Grows c a.workspace.catalog) :
    HandsOnly ((Operation.insert all).BindsInText db.setting db.identifiers c E) a
      (db.watched.insertMany E es a).2.2 := by
  induction es generalizing a with
  | nil => exact handsOnly_of_eq rfl
  | cons e es ih =>
    have hone : HandsOnly ((Operation.insert all).BindsInText db.setting db.identifiers c E) a
        (db.watched.insertOne E e a).2.2 := by
      refine db.insertOne_handsOnly fun p n e' hp r hr => ?_
      cases hm : db.setting.mappings a.workspace.catalog E.type with
      | error cause =>
        unfold prepared at hp
        rw [hm] at hp
        cases hp
      | ok m =>
        obtain ⟨-, hfilled, hof⟩ := of_prepared hm hp
        rcases PreparedInsertion.parameters_of_mem_requests hr with hr | hr
        · refine ⟨_, .insert (hes List.mem_cons_self) ?_ hfilled, ?_⟩
          · rw [← Setting.mappings_of_grows hg, hm]
          · rw [hr, (PreparedInsertion.fields_of hof).2]
            exact Supply.fills_of_areValues hd (Parameters.areValues_ofProperties _ _ _).1
        · refine ⟨_, .identity all, ?_⟩
          rw [hr]
          exact .nil
    have hgrows := db.watched.grows_insertOne E e a
    unfold insertMany
    generalize db.watched.insertOne E e a = answer at hone hgrows
    obtain ⟨r, e', a'⟩ := answer
    cases r with
    | error cause => exact hone
    | ok key =>
      exact hone.trans (ih (fun x hx => hes (List.mem_cons_of_mem e hx)) (hg.trans hgrows))

end Database

theorem Plan.bindsInText {op : Operation ε} {s : Setting} {ids : IdentifierSource} {c : Catalog}
    {E : Entity ε} {p : Plan} (hd : s.dialect.bindValue = Dialect.uuidsAsText)
    (h : op.Supplies s ids c E (.operands p.operands)) {r : Request}
    (hr : r.statement = p.statement s.dialect) : op.BindsInText s ids c E r := by
  refine ⟨_, h, ?_⟩
  rw [hr]
  exact Supply.fills_bindAll hd p.operands

/-- The parameters of a whole key are values of it. -/
theorem Mapping.BindsKey.areValues {m : Mapping} {d : Dialect} {value : String → Option Value}
    {ps : Parameters} (h : m.BindsKey d value ps) : ps.AreValues d value := by
  rw [h.bound]
  exact (Parameters.areValues_ofProperties d value m.keys).1

/-- An operation binds what it supplies, and hands nothing else over. -/
theorem Operation.handsOnly_after (db : Database σ)
    (hd : db.setting.dialect.bindValue = Dialect.uuidsAsText) (E : Entity ε)
    (a : Session (σ × List Request)) (op : Operation ε) :
    HandsOnly (op.BindsInText db.setting db.identifiers a.workspace.catalog E) a
      (op.after db.watched E a) := by
  cases op with
  | insert es => exact db.insertMany_bindsInText hd (List.Subset.refl es) .refl
  | get key =>
    refine (db.watched.sendsOnce_get E a key).handsOver.handsOnly fun ex hex => ?_
    obtain ⟨m, -, hex⟩ := bind_eq_ok_iff.mp hex
    obtain ⟨ps, hps, hex⟩ := bind_eq_ok_iff.mp hex
    obtain ⟨sql, -, hex⟩ := bind_eq_ok_iff.mp hex
    cases hex
    exact ⟨_, .get key, Supply.fills_of_areValues hd
      (Mapping.bindsKey_given (mapError_eq_ok_iff.mp hps)).areValues⟩
  | update e excludeAssigned =>
    refine (db.watched.sendsOnce_update E a e excludeAssigned).handsOver.handsOnly
      fun ex hex => ?_
    obtain ⟨m, -, hex⟩ := bind_eq_ok_iff.mp hex
    obtain ⟨sql, -, hex⟩ := bind_eq_ok_iff.mp hex
    obtain ⟨keys, hkeys, hex⟩ := bind_eq_ok_iff.mp hex
    cases hex
    have hassigned := (Parameters.areValues_ofProperties db.setting.dialect (E.get? e)
      (m.updatable excludeAssigned)).1
    have hkey := (Mapping.bindsKey_entity (mapError_eq_ok_iff.mp hkeys)).areValues
    exact ⟨_, .update e excludeAssigned,
      Supply.fills_of_areValues hd (hassigned.extend hkey).1⟩
  | delete e =>
    refine (db.watched.sendsOnce_delete E a e).handsOver.handsOnly fun ex hex => ?_
    obtain ⟨m, -, hex⟩ := bind_eq_ok_iff.mp hex
    obtain ⟨sql, -, hex⟩ := bind_eq_ok_iff.mp hex
    obtain ⟨keys, hkeys, hex⟩ := bind_eq_ok_iff.mp hex
    cases hex
    exact ⟨_, .delete e, Supply.fills_of_areValues hd
      (Mapping.bindsKey_entity (mapError_eq_ok_iff.mp hkeys)).areValues⟩
  | deleteWhere e p =>
    refine (db.watched.sendsOnce_deleteWhere a e p).handsOver.handsOnly fun ex hex => ?_
    obtain ⟨plan, hplan, hex⟩ := bind_eq_ok_iff.mp hex
    cases hex
    refine plan.bindsInText hd ?_ rfl
    rw [operands_deletionPlan hplan]
    exact .deleteWhere e p
  | entities x =>
    refine (db.watched.sendsOnce_fetchEntities E a (Work.selection_follows _ x _)
      (Work.extends_selection _ x)
      (.selectionPlan (db.setting.refuses_view _) x)).handsOver.handsOnly fun ex hex => ?_
    obtain ⟨plan, hplan, hex⟩ := bind_eq_ok_iff.mp hex
    obtain ⟨m, -, hex⟩ := bind_eq_ok_iff.mp hex
    cases hex
    exact plan.bindsInText hd (.entities (x.operands_of_plan hplan)) rfl
  | count e p =>
    refine (db.watched.sendsOnce_count a e p).handsOver.handsOnly fun ex hex => ?_
    obtain ⟨plan, hplan, hex⟩ := bind_eq_ok_iff.mp hex
    cases hex
    refine plan.bindsInText hd ?_ rfl
    rw [operands_countPlan hplan]
    exact .count e p
  | multiple xs =>
    refine db.getMultiple_handsOnly rfl (fun ps sql hps => ?_) fun x hx p hp => ?_
    · refine ⟨_, .batch (Work.operands_of_plans hps), ?_⟩
      rw [← List.flatMap_def]
      exact Supply.fills_bindAll hd _
    · exact p.bindsInText hd (.alone hx (x.operands_of_plan hp)) rfl

/-! ## Several operations -/

/-- What is filled has no identifier. -/
theorem Supply.Fills.not_holds {ps : Parameters} {supply : Supply} (h : supply.Fills ps)
    {entry : String × Value} (hentry : entry ∈ ps.entries) (u : Uuid) : ¬ entry.2.Holds u := by
  cases supply with
  | properties value => exact (h entry hentry).not_holds u
  | operands ops =>
    obtain ⟨op, -, -, htext⟩ := Value.exists_of_mem_forall₂ h hentry
    exact htext.not_holds u

/-- An operation, with the entity type that it is for. -/
structure EntityOperation : Type 1 where
  /-- The values of the entity type. -/
  ε : Type
  /-- The entity type. -/
  entity : Entity ε
  /-- The operation. -/
  operation : Operation ε

/-- The session in which several operations have ended, one after the other. -/
def Database.afterAll (db : Database σ) (a : Session σ) (ops : List EntityOperation) : Session σ :=
  ops.foldl (fun a op => op.operation.after db op.entity a) a

/-- The dialects of databases without a type for identifiers bind their texts. -/
theorem Dialect.bindValue_of_textual {d : Dialect} (h : d = .sqlite ∨ d = .mysql) :
    d.bindValue = uuidsAsText := by
  rcases h with rfl | rfl <;> rfl

/-- In a database without a type for identifiers, over any operations on any entities: no
    statement that the executor is handed has an identifier among its parameters, not in a list
    either. The parameters of each statement are what the operation supplies for it, and differ
    from that in nothing but the texts of identifiers. -/
theorem identifiers_are_bound_as_text (db : Database σ)
    (h : db.setting.dialect = .sqlite ∨ db.setting.dialect = .mysql)
    (a : Session (σ × List Request)) (ops : List EntityOperation) :
    HandsOnly (fun r => ∀ entry ∈ r.statement.parameters.entries, ∀ u, ¬ entry.2.Holds u) a
      (db.watched.afterAll a ops) ∧
    ∀ before op rest, ops = before ++ op :: rest →
      HandsOnly
        (op.operation.BindsInText db.setting db.identifiers
          (db.watched.afterAll a before).workspace.catalog op.entity)
        (db.watched.afterAll a before) (db.watched.afterAll a (before ++ [op])) := by
  have hd := Dialect.bindValue_of_textual h
  have hstep (op : EntityOperation) (a : Session (σ × List Request)) :=
    op.operation.handsOnly_after db hd op.entity a
  constructor
  · induction ops generalizing a with
    | nil => exact handsOnly_of_eq rfl
    | cons op ops ih =>
      refine .trans (.mono (hstep op a) ?_) (ih _)
      rintro r ⟨supply, -, hfills⟩ entry hentry u
      exact hfills.not_holds hentry u
  · intro before op rest _
    have hlast : db.watched.afterAll a (before ++ [op]) =
        op.operation.after db.watched op.entity (db.watched.afterAll a before) := by
      unfold Database.afterAll
      rw [List.foldl_append]
      rfl
    rw [hlast]
    exact hstep op _

/-! ## A sample -/

namespace Samples

/-- Animals in a database that has no type for identifiers. -/
def textAnimals : Database Recorder where
  setting := { dialect := .sqlite, model := fun _ => animal.mapping }
  identifiers := .counted ⟨0xABC⟩
  executor := Recorder.executor

/-- The type of animals. -/
def animalType : Entity Record := animal.entityOf ⟨"Animal"⟩

/-- An animal is inserted, and another one is looked for by its key. -/
def insertedAndSought : List EntityOperation :=
  [⟨Record, animalType, .insert [animal.fresh]⟩, ⟨Record, animalType, .get (.uuid ⟨0xDEF⟩)⟩]

end Samples

/-- The identifier that is drawn for an animal is bound as its text, and so is the key that is
    looked for. -/
theorem identifiers_are_bound_as_text_animals :
    (Samples.textAnimals.setting.dialect = .sqlite ∨
      Samples.textAnimals.setting.dialect = .mysql) ∧
    HandsOnly (fun r => ∀ entry ∈ r.statement.parameters.entries, ∀ u, ¬ entry.2.Holds u)
      Samples.fresh (Samples.textAnimals.watched.afterAll Samples.fresh
        Samples.insertedAndSought) ∧
    (Samples.textAnimals.watched.afterAll Samples.fresh Samples.insertedAndSought).executor.2.map
        (·.statement.parameters.entries) =
      [[("id", .text "00000000-0000-0000-0000-000000000abc"), ("name", .text "")],
       [("id", .text "00000000-0000-0000-0000-000000000def")]] := by
  have hd : Samples.textAnimals.setting.dialect = .sqlite ∨
      Samples.textAnimals.setting.dialect = .mysql := .inl rfl
  exact ⟨hd, (identifiers_are_bound_as_text Samples.textAnimals hd Samples.fresh
    Samples.insertedAndSought).1, rfl⟩

end EntitySql
