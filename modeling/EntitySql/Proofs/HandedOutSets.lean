/-
  What a reader of result sets hands out, over any calls.

  A call takes the next set or leaves the reader as it is (`ReaderCall.taken?`), and the reader has
  what was not taken (`sets_after`). So the sets that were handed out and those that are left are
  the declared ones, at any time and in their order (`handed_append_sets`). `Reads` tells the
  reading of a set case by case; which case it is depends on the next set and on the mapping of the
  entity alone, and not on the rows.
-/
import EntitySql.Proofs.View
import EntitySql.ResultReader
import Mathlib.Data.List.Forall2

namespace EntitySql

/-! ## Entities of several rows -/

namespace Entity

variable {ε : Type} {E : Entity ε} {m : Mapping}

/-- One entity for each row, in the order of the rows. -/
def AreOfRows (E : Entity ε) (m : Mapping) (rows : RowSet) (es : List ε) : Prop :=
  List.Forall₂ (fun row e => (E.ofRow m row).2 = .ok e) rows es

theorem ofRows_cons (row : Row) (rows : List Row) :
    (E.ofRows m (row :: rows)).2 = do
      let e ← (E.ofRow m row).2
      let es ← (E.ofRows m rows).2
      return e :: es := by
  rw [ofRows]
  rcases E.ofRow m row with ⟨records, answer⟩
  cases answer with
  | error cause => rfl
  | ok e =>
    dsimp only
    cases (E.ofRows m rows).2 <;> rfl

/-- Rows are answered by one entity for each of them. -/
theorem areOfRows_of_ok {rows : RowSet} {es : List ε} (h : (E.ofRows m rows).2 = .ok es) :
    AreOfRows E m rows es := by
  induction rows generalizing es with
  | nil =>
    cases h
    exact .nil
  | cons row rows ih =>
    rw [ofRows_cons] at h
    obtain ⟨e, he, h⟩ := bind_eq_ok_iff.mp h
    obtain ⟨rest, hrest, h⟩ := bind_eq_ok_iff.mp h
    cases h
    exact .cons he (ih hrest)

/-- Rows are refused for the first row that is. -/
theorem areOfRows_of_error {rows : RowSet} {cause : Error}
    (h : (E.ofRows m rows).2 = .error cause) :
    ∃ before row rest es, rows = before ++ row :: rest ∧ AreOfRows E m before es ∧
      (E.ofRow m row).2 = .error cause := by
  induction rows with
  | nil => cases h
  | cons row rows ih =>
    rw [ofRows_cons] at h
    cases he : (E.ofRow m row).2 with
    | error cause' =>
      rw [he] at h
      cases h
      exact ⟨[], row, rows, [], rfl, .nil, he⟩
    | ok e =>
      cases hrest : (E.ofRows m rows).2 with
      | ok es =>
        rw [he, hrest] at h
        cases h
      | error cause' =>
        rw [he, hrest] at h
        cases h
        obtain ⟨before, row', rest, es, rfl, hes, hrow⟩ := ih hrest
        exact ⟨row :: before, row', rest, e :: es, rfl, .cons he hes, hrow⟩

end Entity

/-! ## One reading -/

namespace ResultReader

variable {ε : Type}

/-- The reading of the next set, by the sets that are left: the answer, and the sets that are left
    then. -/
inductive Reads (s : Setting) (c : Catalog) (E : Entity ε) :
    List (EntityType × RowSet) → Except Error (List ε) → List (EntityType × RowSet) → Prop
  /-- Nothing is left. -/
  | exhausted : Reads s c E [] (.error (.query .noMoreResults)) []
  /-- The next set is one of another entity and stays. -/
  | mismatch {declared : EntityType} {rows : RowSet} {sets : List (EntityType × RowSet)}
      (h : declared ≠ E.type) :
      Reads s c E ((declared, rows) :: sets)
        (.error (.query (.resultSetMismatch declared.name E.type.name))) ((declared, rows) :: sets)
  /-- The entity has no mapping, and the set stays. -/
  | unresolved {rows : RowSet} {sets : List (EntityType × RowSet)}
      (h : s.mappings c E.type = .error (.query (.unknownEntity E.type.name))) :
      Reads s c E ((E.type, rows) :: sets) (.error (.query (.unknownEntity E.type.name)))
        ((E.type, rows) :: sets)
  /-- Each row is an entity. -/
  | entities {rows : RowSet} {sets : List (EntityType × RowSet)} {m : Mapping} {es : List ε}
      (h : s.mappings c E.type = .ok m) (hrows : E.AreOfRows m rows es) :
      Reads s c E ((E.type, rows) :: sets) (.ok es) sets
  /-- A row is no entity, and the set is gone all the same. -/
  | refused {before rest : RowSet} {row : Row} {sets : List (EntityType × RowSet)} {m : Mapping}
      {es : List ε} {cause : Error} (h : s.mappings c E.type = .ok m)
      (hbefore : E.AreOfRows m before es) (hrow : (E.ofRow m row).2 = .error cause) :
      Reads s c E ((E.type, before ++ row :: rest) :: sets) (.error cause) sets

/-- An entity has no mapping for one reason only. -/
theorem unknownEntity_of_mappings {s : Setting} {c : Catalog} {e : EntityType} {cause : Error}
    (h : s.mappings c e = .error cause) : cause = .query (.unknownEntity e.name) := by
  unfold Setting.mappings at h
  split at h
  · cases h
  · split at h
    · cases h
      rfl
    · cases h

theorem read_of_resolved {s : Setting} {E : Entity ε} {rows : RowSet}
    {sets : List (EntityType × RowSet)} {w w' : Workspace} {m : Mapping}
    (h : Work.mapping s E.type w = .ok m w') :
    read s E ⟨(E.type, rows) :: sets⟩ w =
      ((E.ofRows m rows).2, ⟨sets⟩, { w' with log := w'.log ++ (E.ofRows m rows).1 }) := by
  unfold read
  dsimp only
  rw [if_pos rfl, h]

theorem read_of_unresolved {s : Setting} {E : Entity ε} {rows : RowSet}
    {sets : List (EntityType × RowSet)} {w w' : Workspace} {cause : Error}
    (h : Work.mapping s E.type w = .error cause w') :
    read s E ⟨(E.type, rows) :: sets⟩ w = (.error cause, ⟨(E.type, rows) :: sets⟩, w') := by
  unfold read
  dsimp only
  rw [if_pos rfl, h]

/-- Every reading is one of those cases. -/
theorem reads_read (s : Setting) (E : Entity ε) (r : ResultReader) (w : Workspace) :
    Reads s w.catalog E r.sets (r.read s E w).1 (r.read s E w).2.1.sets := by
  obtain ⟨sets⟩ := r
  cases sets with
  | nil => exact .exhausted
  | cons set sets =>
    obtain ⟨declared, rows⟩ := set
    by_cases hdeclared : declared = E.type
    · subst hdeclared
      obtain ⟨w', hw', -, -⟩ := Work.answers_mapping s E.type w
      change Work.mapping s E.type w = ended (s.mappings w.catalog E.type) w' at hw'
      cases hm : s.mappings w.catalog E.type with
      | error cause =>
        rw [hm] at hw'
        rw [read_of_unresolved hw']
        obtain rfl := unknownEntity_of_mappings hm
        exact .unresolved hm
      | ok m =>
        rw [hm] at hw'
        rw [read_of_resolved hw']
        cases hrows : (E.ofRows m rows).2 with
        | ok es => exact .entities hm (Entity.areOfRows_of_ok hrows)
        | error cause =>
          obtain ⟨before, row, rest, es, rfl, hbefore, hrow⟩ := Entity.areOfRows_of_error hrows
          exact .refused hm hbefore hrow
    · have hread : read s E ⟨(declared, rows) :: sets⟩ w =
          (.error (.query (.resultSetMismatch declared.name E.type.name)),
            ⟨(declared, rows) :: sets⟩, w) := if_neg hdeclared
      rw [hread]
      exact .mismatch hdeclared

end ResultReader

/-! ## Calls -/

/-- A call of a reader of result sets, or what else happens in the meantime. -/
inductive ReaderCall : Type 1 where
  /-- The next set is read as entities. -/
  | read {ε : Type} (E : Entity ε)
  /-- The next set is taken as it is. -/
  | next
  /-- The entity of the next set is looked at. -/
  | peek
  /-- The sets that are left are counted. -/
  | remaining
  /-- Something else is done in the workspace. -/
  | elsewhere (change : Workspace → Workspace)

namespace ReaderCall

/-- The reader and the workspace after a call. -/
def after (s : Setting) (r : ResultReader) (w : Workspace) : ReaderCall → ResultReader × Workspace
  | .read E => (r.read s E w).2
  | .next => (r.next.2, w)
  | .peek => (r, w)
  | .remaining => (r, w)
  | .elsewhere change => (r, change w)

/-- The set that a call hands out. A reading hands out the next set when the set is one of the
    entity asked for and the entity has a mapping. -/
def taken? (s : Setting) (r : ResultReader) (w : Workspace) :
    ReaderCall → Option (EntityType × RowSet)
  | .read E => r.sets.head?.filter fun set =>
      set.1 = E.type && (s.mappings w.catalog E.type).isOk
  | .next => r.next.1
  | .peek => none
  | .remaining => none
  | .elsewhere _ => none

/-- A call leaves what it does not hand out. -/
theorem sets_after (s : Setting) (r : ResultReader) (w : Workspace) (call : ReaderCall) :
    (call.taken? s r w).toList ++ (call.after s r w).1.sets = r.sets := by
  cases call with
  | read E =>
    have hreads := r.reads_read s E w
    change (r.sets.head?.filter _).toList ++ (r.read s E w).2.1.sets = _
    generalize (r.read s E w).1 = answer at hreads
    generalize (r.read s E w).2.1.sets = left at hreads ⊢
    generalize r.sets = sets at hreads ⊢
    cases hreads with
    | exhausted => rfl
    | mismatch hdeclared => simp [hdeclared]
    | unresolved hm => simp [hm, Except.isOk, Except.toBool]
    | entities hm => simp [hm, Except.isOk, Except.toBool, Option.filter]
    | refused hm => simp [hm, Except.isOk, Except.toBool, Option.filter]
  | next =>
    obtain ⟨sets⟩ := r
    cases sets <;> rfl
  | peek => rfl
  | remaining => rfl
  | elsewhere change => rfl

end ReaderCall

/-- A reader, the workspace that it works in, and what was handed out so far. -/
structure ReaderRun where
  /-- The reader. -/
  reader : ResultReader
  /-- The workspace. -/
  workspace : Workspace
  /-- The sets that were handed out, the first one first. -/
  handed : List (EntityType × RowSet) := []

namespace ReaderRun

/-- One call more. -/
def step (s : Setting) (run : ReaderRun) (call : ReaderCall) : ReaderRun where
  reader := (call.after s run.reader run.workspace).1
  workspace := (call.after s run.reader run.workspace).2
  handed := run.handed ++ (call.taken? s run.reader run.workspace).toList

/-- A call hands sets out from those that are left. -/
theorem step_handed_append_sets (s : Setting) (run : ReaderRun) (call : ReaderCall) :
    (run.step s call).handed ++ (run.step s call).reader.sets = run.handed ++ run.reader.sets := by
  unfold step
  rw [List.append_assoc, ReaderCall.sets_after]

/-- What was handed out and what is left are the declared sets. -/
theorem handed_append_sets (s : Setting) (run : ReaderRun) (calls : List ReaderCall) :
    (calls.foldl (step s) run).handed ++ (calls.foldl (step s) run).reader.sets =
      run.handed ++ run.reader.sets := by
  induction calls generalizing run with
  | nil => rfl
  | cons call calls ih => rw [List.foldl_cons, ih, step_handed_append_sets]

/-- What a reader does next, when some of the declared sets were handed out. -/
structure GoesOn (s : Setting) (declared : List (EntityType × RowSet)) (run : ReaderRun) :
    Prop where
  /-- Sets are handed out in the order in which they were declared, and none of them again. -/
  order : run.handed ++ run.reader.sets = declared
  /-- Those that were not handed out are left. -/
  remaining : run.handed.length + run.reader.remaining = declared.length
  /-- The entity of the set behind those that were handed out. -/
  peek : run.reader.peek = declared[run.handed.length]?.map (·.1)
  /-- The set behind those that were handed out, and the reader without it. -/
  next : run.reader.next =
    (declared[run.handed.length]?, ⟨declared.drop (run.handed.length + 1)⟩)
  /-- The reading of the set behind those that were handed out. -/
  read : ∀ {ε : Type} (E : Entity ε),
    ResultReader.Reads s run.workspace.catalog E (declared.drop run.handed.length)
      (run.reader.read s E run.workspace).1 (run.reader.read s E run.workspace).2.1.sets

theorem goesOn_of_order {s : Setting} {declared : List (EntityType × RowSet)} {run : ReaderRun}
    (h : run.handed ++ run.reader.sets = declared) : run.GoesOn s declared := by
  have hdrop : declared.drop run.handed.length = run.reader.sets := by
    rw [← h, List.drop_left]
  have hhead : declared[run.handed.length]? = run.reader.sets.head? := by
    rw [← hdrop, List.head?_drop]
  refine ⟨h, ?_, ?_, ?_, fun E => ?_⟩
  · rw [← h, List.length_append]
    rfl
  · rw [hhead]
    rfl
  · rw [hhead, ← List.drop_drop, hdrop]
    unfold ResultReader.next
    cases run.reader with
    | mk sets => cases sets <;> rfl
  · rw [hdrop]
    exact run.reader.reads_read s E run.workspace

/-- After any calls, and whatever else was done in the meantime, the sets that were handed out are
    the first of the declared ones, and the reader goes on with those behind them. -/
theorem sets_are_handed_out_in_order (s : Setting) (declared : List (EntityType × RowSet))
    (w : Workspace) (calls : List ReaderCall) :
    (calls.foldl (step s) ⟨⟨declared⟩, w, []⟩).GoesOn s declared :=
  goesOn_of_order (handed_append_sets s ⟨⟨declared⟩, w, []⟩ calls)

end ReaderRun

end EntitySql
