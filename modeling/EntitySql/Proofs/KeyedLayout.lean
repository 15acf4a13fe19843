/-
  The layouts of the statements by key.

  A statement by key has a place for each property that it writes or compares, in order
  (`Layout.each`). With the placeholders of the properties in its places the layout is the text of
  the statement (`insertStatement_eq_fill` and its like), so the text names the parameters of these
  properties and of no others.
-/
import EntitySql.KeyedStatements
import EntitySql.Proofs.BuiltMappings
import EntitySql.Proofs.Rendering
import EntitySql.Proofs.Sql.Command

namespace EntitySql

namespace Layout

/-! ## Layouts of properties -/

/-- A layout for each property; `i` is the number of the first of their places. -/
def each (part : Nat → PropertyMapping → Layout) (i : Nat) : List PropertyMapping → List Layout
  | [] => []
  | p :: ps => part i p :: each part (i + 1) ps

/-- The names by number are those of the properties, from number `i` on. -/
def Numbers (names : Nat → String) (i : Nat) : List PropertyMapping → Prop
  | [] => True
  | p :: ps => names i = p.name ∧ Numbers names (i + 1) ps

/-- Properties are numbered by where their names stand. -/
theorem numbers_getD (front : List String) (ps : List PropertyMapping) (rest : List String) :
    Numbers (fun i => (front ++ (Mapping.namesOf ps ++ rest)).getD i "") front.length ps := by
  induction ps generalizing front with
  | nil => trivial
  | cons p ps ih =>
    refine ⟨by simp, ?_⟩
    have hnext := ih (front ++ [p.name])
    rw [List.length_append, List.length_singleton] at hnext
    simpa using hnext

/-- What is made of the layout of each property, by its name. -/
theorem map_each {β : Type} {read : Layout → β} {names : Nat → String}
    {part : Nat → PropertyMapping → Layout} {of : PropertyMapping → β}
    (hpart : ∀ i p, names i = p.name → read (part i p) = of p) {i : Nat}
    {ps : List PropertyMapping} (h : Numbers names i ps) :
    (each part i ps).map read = ps.map of := by
  induction ps generalizing i with
  | nil => rfl
  | cons p ps ih => rw [each, List.map_cons, List.map_cons, hpart i p h.1, ih h.2]

theorem mem_each {part : Nat → PropertyMapping → Layout} {i : Nat} {ps : List PropertyMapping}
    {l : Layout} (h : l ∈ each part i ps) : ∃ j, ∃ p ∈ ps, l = part j p := by
  induction ps generalizing i with
  | nil => cases h
  | cons p ps ih =>
    rcases List.mem_cons.mp h with rfl | h
    · exact ⟨i, p, List.mem_cons_self, rfl⟩
    · obtain ⟨j, q, hq, hl⟩ := ih h
      exact ⟨j, q, List.mem_cons_of_mem p hq, hl⟩

/-! ## Joined layouts -/

theorem joined_cons (separator : String) (l : Layout) (ls : List Layout) :
    joined separator (l :: ls) = l ++ ls.flatMap fun l => .text separator :: l :=
  Sql.intercalate_cons _ l ls

theorem places_joined (separator : String) (ls : List Layout) :
    (joined separator ls).places = ls.flatMap places := by
  cases ls with
  | nil => rfl
  | cons l ls =>
    rw [joined_cons, places_append, List.flatMap_cons]
    congr 1
    induction ls with
    | nil => rfl
    | cons l ls ih => rw [List.flatMap_cons, places_append, places_text, ih, List.flatMap_cons]

theorem places_joined_each (part : Nat → PropertyMapping → Layout)
    (hpart : ∀ i p, (part i p).places = [i]) (separator : String) (i : Nat)
    (ps : List PropertyMapping) :
    (joined separator (each part i ps)).places = List.range' i ps.length := by
  rw [places_joined]
  induction ps generalizing i with
  | nil => rfl
  | cons p ps ih =>
    rw [each, List.flatMap_cons, hpart, ih, List.length_cons, List.range'_succ]
    rfl

theorem interspersed_go_fill (content : Nat → String) (separator out : String) (ls : List Layout) :
    Text.interspersed.go separator out (ls.map (fill content)) =
      out ++ fill content (ls.flatMap fun l => .text separator :: l) := by
  induction ls generalizing out with
  | nil => simp [Text.interspersed.go]
  | cons l ls ih =>
    rw [List.map_cons, Text.interspersed.go, ih, List.flatMap_cons, fill_append, fill_text]
    simp [String.append_assoc]

/-- Texts that are joined are a joined layout, when none of them is empty. -/
theorem fill_joined {content : Nat → String} (separator : String) {ls : List Layout}
    {items : List String} (hls : ls.map (fill content) = items)
    (hitems : ∀ item ∈ items, item.isEmpty = false) :
    (joined separator ls).fill content = Text.separated separator "" items := by
  subst hls
  rw [Text.separated_eq_interspersed _ _ _ hitems]
  cases ls with
  | nil => rfl
  | cons l ls =>
    rw [joined_cons, fill_append, List.map_cons, Text.interspersed, interspersed_go_fill]
    simp

/-- A text for each property, joined. -/
theorem fill_joined_each {content : Nat → String} {names : Nat → String}
    (part : Nat → PropertyMapping → Layout) (text : PropertyMapping → String)
    (hpart : ∀ i p, names i = p.name → (part i p).fill content = text p)
    (htext : ∀ p, (text p).isEmpty = false) (separator : String) {i : Nat}
    {ps : List PropertyMapping} (h : Numbers names i ps) :
    (joined separator (each part i ps)).fill content =
      Text.separated separator "" (ps.map text) := by
  refine fill_joined separator (map_each hpart h) fun item hitem => ?_
  obtain ⟨p, -, rfl⟩ := List.mem_map.mp hitem
  exact htext p

end Layout

/-! ## Statements by key -/

namespace Mapping

open Layout

/-- The comparison of a key property with a place. -/
def equationLayout (d : Dialect) (m : Mapping) (i : Nat) (p : PropertyMapping) : Layout :=
  [.text "(", .text (d.qualifiedName m p), .text " = ", .place i, .text ")"]

/-- The condition on the key; `i` is the number of its first place. -/
def keyLayout (d : Dialect) (m : Mapping) (i : Nat) : Layout :=
  match each (equationLayout d m) i m.keys with
  | [l] => l
  | ls => [.text "("] ++ joined " AND " ls ++ [.text ")"]

/-- The assignment of a place to a column. -/
def assignmentLayout (d : Dialect) (i : Nat) (p : PropertyMapping) : Layout :=
  [.text (d.columnName p), .text " = ", .place i]

/-- A selected column, with its label. -/
def selectedLayout (d : Dialect) (m : Mapping) (p : PropertyMapping) : Layout :=
  .text (d.qualifiedName m p) ::
    if p.column = p.name then [] else [.text " AS ", .text (d.quote p.name)]

/-- An insertion, but for its end. -/
def insertFront (d : Dialect) (m : Mapping) : Layout :=
  match m.insertable with
  | [] => [.text "INSERT INTO ", .text (d.tableName m)]
  | ps =>
    [.text "INSERT INTO ", .text (d.tableName m), .text " ("] ++
      joined ", " (ps.map fun p => [.text (d.columnName p)]) ++ [.text ") VALUES ("] ++
      joined ", " (each (fun i _ => [.place i]) 0 ps)

/-- The end of an insertion. -/
def insertEnd (d : Dialect) (m : Mapping) : String :=
  match m.insertable with
  | [] => d.defaultValues
  | _ => ")"

/-- An insertion. -/
def insertLayout (d : Dialect) (m : Mapping) : Layout :=
  m.insertFront d ++ [.text (m.insertEnd d)]

/-- The update of the row with a key. -/
def updateLayout (d : Dialect) (m : Mapping) (excludeAssigned : Bool) : Layout :=
  [.text "UPDATE ", .text (d.tableName m), .text " SET "] ++
    joined ", " (each (assignmentLayout d) 0 (m.updatable excludeAssigned)) ++ [.text " WHERE "] ++
    m.keyLayout d (m.updatable excludeAssigned).length

/-- The deletion of the row with a key. -/
def deleteLayout (d : Dialect) (m : Mapping) : Layout :=
  [.text "DELETE FROM ", .text (d.tableName m), .text " WHERE "] ++ m.keyLayout d 0

/-- The select of the row with a key. -/
def getLayout (d : Dialect) (m : Mapping) : Layout :=
  [.text "SELECT "] ++ joined ", " (m.columns.map (selectedLayout d m)) ++
    [.text " FROM ", .text (d.tableName m), .text " WHERE "] ++ m.keyLayout d 0

/-! ## Places -/

theorem places_equationLayout (d : Dialect) (m : Mapping) (i : Nat) (p : PropertyMapping) :
    (equationLayout d m i p).places = [i] := rfl

theorem places_keyLayout (d : Dialect) (m : Mapping) (i : Nat) :
    (m.keyLayout d i).places = List.range' i m.keys.length := by
  have hjoined := places_joined_each _ (places_equationLayout d m) " AND " i m.keys
  unfold keyLayout
  split
  · rename_i l hl
    rw [hl, places_joined] at hjoined
    simpa using hjoined
  · simpa using hjoined

theorem places_insertLayout (d : Dialect) (m : Mapping) :
    (m.insertLayout d).places = List.range m.insertable.length := by
  unfold insertLayout insertFront
  split
  · rename_i h
    rw [h]
    rfl
  · have hcolumns : (joined ", " (m.insertable.map fun p => [.text (d.columnName p)])).places =
        [] := by
      rw [places_joined, List.flatMap_map]
      simp
    have hvalues := places_joined_each (fun i _ => [.place i]) (fun _ _ => rfl) ", " 0 m.insertable
    simp [hcolumns, hvalues, List.range_eq_range']

theorem places_updateLayout (d : Dialect) (m : Mapping) (excludeAssigned : Bool) :
    (m.updateLayout d excludeAssigned).places =
      List.range ((m.updatable excludeAssigned).length + m.keys.length) := by
  have hassignments := places_joined_each (assignmentLayout d) (fun _ _ => rfl) ", " 0
    (m.updatable excludeAssigned)
  unfold updateLayout
  rw [List.range_eq_range', ← List.range'_append_1]
  simp [hassignments, places_keyLayout]

theorem places_deleteLayout (d : Dialect) (m : Mapping) :
    (m.deleteLayout d).places = List.range m.keys.length := by
  unfold deleteLayout
  simp [places_keyLayout, List.range_eq_range']

theorem places_getLayout (d : Dialect) (m : Mapping) :
    (m.getLayout d).places = List.range m.keys.length := by
  have hcolumns : (joined ", " (m.columns.map (selectedLayout d m))).places = [] := by
    rw [places_joined, List.flatMap_eq_nil_iff]
    intro l hl
    obtain ⟨p, -, rfl⟩ := List.mem_map.mp hl
    unfold selectedLayout
    split <;> rfl
  unfold getLayout
  simp [hcolumns, places_keyLayout, List.range_eq_range']

/-! ## Texts -/

/-- The names by number. -/
abbrev nameAt (names : List String) (i : Nat) : String := names.getD i ""

theorem numbers_append (ps qs : List PropertyMapping) :
    Numbers (nameAt (namesOf ps ++ namesOf qs)) 0 ps ∧
      Numbers (nameAt (namesOf ps ++ namesOf qs)) ps.length qs := by
  have hfront := numbers_getD [] ps (namesOf qs)
  have hback := numbers_getD (namesOf ps) qs []
  rw [List.append_nil, List.length_map] at hback
  exact ⟨hfront, hback⟩

theorem numbers_namesOf (ps : List PropertyMapping) : Numbers (nameAt (namesOf ps)) 0 ps := by
  have hall := numbers_getD [] ps []
  rw [List.append_nil] at hall
  exact hall

variable {d : Dialect} {m : Mapping} {names : List String}

theorem fill_equationLayout {i : Nat} {p : PropertyMapping} (h : nameAt names i = p.name) :
    (equationLayout d m i p).fill (d.placeholders names) = keyEquation d m p := by
  unfold equationLayout keyEquation propertyPlaceholder Dialect.placeholders
  rw [← h]
  simp [String.append_assoc]

theorem fill_assignmentLayout {i : Nat} {p : PropertyMapping} (h : nameAt names i = p.name) :
    (assignmentLayout d i p).fill (d.placeholders names) = assignment d p := by
  unfold assignmentLayout assignment propertyPlaceholder Dialect.placeholders
  rw [← h]
  simp [String.append_assoc]

theorem fill_selectedLayout (content : Nat → String) (p : PropertyMapping) :
    (selectedLayout d m p).fill content = d.selectedColumn m p := by
  unfold selectedLayout Dialect.selectedColumn Dialect.columnAlias
  by_cases hp : p.column = p.name
  · simp [hp]
  · simp [hp]

/-- The condition on the key is its layout. -/
theorem keyCondition_eq_fill {i : Nat} (h : Numbers (nameAt names) i m.keys) (hkeys : m.keys ≠ []) :
    m.keyCondition d = .ok ((m.keyLayout d i).fill (d.placeholders names)) := by
  have htext (p : PropertyMapping) : (keyEquation d m p).isEmpty = false := by
    unfold keyEquation
    simp
  have hjoined := fill_joined_each _ _ (fun _ _ => fill_equationLayout (d := d)) htext " AND " h
  unfold keyCondition keyLayout
  generalize m.keys = keys at h hkeys hjoined
  cases keys with
  | nil => exact absurd rfl hkeys
  | cons k keys =>
    cases keys with
    | nil =>
      have hequation : (equationLayout d m i k).fill (d.placeholders names) = keyEquation d m k :=
        fill_equationLayout h.1
      rw [each, each, hequation]
    | cons k' keys =>
      change Except.ok _ =
        Except.ok (fill _ (_ ++ joined " AND " (each _ i (k :: k' :: keys)) ++ _))
      rw [fill_append, fill_append, hjoined]
      rfl

theorem insertStatement_eq_fill (h : Numbers (nameAt names) 0 m.insertable) :
    m.insertStatement d = (m.insertLayout d).fill (d.placeholders names) := by
  have hcolumns : (joined ", " (m.insertable.map fun p => [.text (d.columnName p)])).fill
      (d.placeholders names) = Text.separated ", " "" (m.insertable.map d.columnName) := by
    refine fill_joined ", " ?_ ?_
    · rw [List.map_map]
      congr 1
      funext p
      simp
    · intro item hitem
      obtain ⟨p, -, rfl⟩ := List.mem_map.mp hitem
      simp [Dialect.columnName, Dialect.quote, Text.enclosed]
  have hplace (i : Nat) (p : PropertyMapping) (hp : nameAt names i = p.name) :
      Layout.fill (d.placeholders names) [.place i] = propertyPlaceholder d p := by
    simp [Dialect.placeholders, propertyPlaceholder, ← hp]
  have hvalues := fill_joined_each (fun i _ => [.place i]) (propertyPlaceholder d) hplace
    (fun p => by simp [propertyPlaceholder, Dialect.placeholder]) ", " h
  unfold insertStatement insertLayout insertFront insertEnd
  cases hps : m.insertable with
  | nil => simp [String.append_assoc]
  | cons p ps =>
    rw [hps] at hcolumns hvalues
    dsimp only
    rw [fill_append, fill_append, fill_append, fill_append, hcolumns, hvalues]
    simp [String.append_assoc]

theorem updateStatement_eq_fill {excludeAssigned : Bool}
    (h : Numbers (nameAt names) 0 (m.updatable excludeAssigned))
    (hk : Numbers (nameAt names) (m.updatable excludeAssigned).length m.keys)
    (hkeys : m.keys ≠ []) (hupdatable : m.updatable excludeAssigned ≠ []) :
    m.updateStatement d excludeAssigned =
      .ok ((m.updateLayout d excludeAssigned).fill (d.placeholders names)) := by
  have htext (p : PropertyMapping) : (assignment d p).isEmpty = false := by
    unfold assignment
    simp
  have hassignments := fill_joined_each _ _ (fun _ _ => fill_assignmentLayout (d := d)) htext ", " h
  unfold updateStatement updateLayout
  rw [keyCondition_eq_fill hk hkeys]
  split
  · rename_i hnone
    exact absurd hnone hupdatable
  · rw [fill_append, fill_append, fill_append, hassignments]
    simp [Except.map, String.append_assoc]

theorem deleteStatement_eq_fill (h : Numbers (nameAt names) 0 m.keys) (hkeys : m.keys ≠ []) :
    m.deleteStatement d = .ok ((m.deleteLayout d).fill (d.placeholders names)) := by
  unfold deleteStatement deleteLayout
  rw [keyCondition_eq_fill h hkeys, fill_append]
  simp [Except.map, String.append_assoc]

theorem getStatement_eq_fill (h : Numbers (nameAt names) 0 m.keys) (hkeys : m.keys ≠ []) :
    m.getStatement d (d.selectedColumns m) =
      .ok ((m.getLayout d).fill (d.placeholders names)) := by
  have hcolumns : (joined ", " (m.columns.map (selectedLayout d m))).fill (d.placeholders names) =
      d.selectedColumns m := by
    refine fill_joined ", " ?_ ?_
    · rw [List.map_map]
      exact List.map_congr_left fun p _ => fill_selectedLayout _ p
    · intro item hitem
      obtain ⟨p, -, rfl⟩ := List.mem_map.mp hitem
      simp [Dialect.selectedColumn, Dialect.qualifiedName]
  unfold getStatement getLayout Dialect.select Dialect.whereClause
  rw [keyCondition_eq_fill h hkeys, fill_append, fill_append, fill_append, hcolumns]
  simp [Except.map, String.append_assoc]

end Mapping

end EntitySql
