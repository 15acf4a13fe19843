/-
  The result sets of several selects, handed out in the order of the selects.
-/
import EntitySql.Workspace

namespace EntitySql

/-- The result sets that were not handed out yet, each with the entity of its rows. -/
structure ResultReader where
  /-- The sets, the next one first. -/
  sets : List (EntityType × RowSet) := []

namespace ResultReader

/-- Number of sets that were not handed out yet. -/
def remaining (r : ResultReader) : Nat := r.sets.length

/-- The entity of the next set. -/
def peek (r : ResultReader) : Option EntityType := r.sets.head?.map (·.1)

/-- The next set, and the reader without it. -/
def next (r : ResultReader) : Option (EntityType × RowSet) × ResultReader :=
  match r.sets with
  | [] => (none, r)
  | set :: sets => (some set, ⟨sets⟩)

/-- The entities of the next set, which has to be one of the entity asked for. A set of another
    entity stays where it is, and so does one whose entity has no mapping. -/
def read {ε : Type} (s : Setting) (E : Entity ε) (r : ResultReader) (w : Workspace) :
    Except Error (List ε) × ResultReader × Workspace :=
  match r.sets with
  | [] => (.error (.query .noMoreResults), r, w)
  | (expected, rows) :: sets =>
    if expected = E.type then
      match Work.mapping s E.type w with
      | .error e w => (.error e, r, w)
      | .ok m w =>
        let (records, entities) := E.ofRows m rows
        (entities, ⟨sets⟩, { w with log := w.log ++ records })
    else (.error (.query (.resultSetMismatch expected.name E.type.name)), r, w)

end ResultReader

end EntitySql
