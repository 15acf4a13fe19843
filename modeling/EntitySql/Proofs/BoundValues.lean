/-
  Values that are bound, and what they are read back as.

  What is bound for a value differs from it in the texts of identifiers only, at any depth. The text
  of an identifier is parsed as this identifier (`Uuid.parse_of_isHyphenated`), and each type that takes an
  identifier takes its text for the same thing. So a type reads what is bound for a value as it reads
  the value (`ValueType.ofValue_uuidsAsText`), by induction on the type. A property with a type is
  then unchanged by a way through the database: bound as a parameter, stored, and read from the row
  (`Entity.TypedProperty`). For a whole row this is the reading of an entity that stores values as
  they are bound (`Entity.binding`).
-/
import EntitySql.Proofs.Conversions
import EntitySql.Proofs.IdentifierText
import EntitySql.Proofs.RowsReadBack

namespace EntitySql

/-! ## Identifiers -/

namespace Uuid

/-- The digits in the five groups of a text. -/
def groups (cs : List Char) : List Char :=
  cs.take 8 ++ ((cs.drop 9).take 4 ++ ((cs.drop 14).take 4 ++ ((cs.drop 19).take 4 ++ cs.drop 24)))

theorem length_hyphenate {ds : List Char} (h : ds.length = 32) : (hyphenate ds).length = 36 := by
  simp [hyphenate, h]

theorem groups_append {a b c d e : List Char} (ha : a.length = 8) (hb : b.length = 4)
    (hc : c.length = 4) (hd : d.length = 4) :
    groups (a ++ '-' :: (b ++ '-' :: (c ++ '-' :: (d ++ '-' :: e)))) =
      a ++ (b ++ (c ++ (d ++ e))) := by
  simp [groups, List.drop_append, List.drop_eq_nil_of_le, ha, hb, hc, hd]

theorem groups_hyphenate {ds : List Char} (h : ds.length = 32) : groups (hyphenate ds) = ds := by
  have hdrop (i : Nat) : (ds.drop i).take 4 ++ ds.drop (i + 4) = ds.drop i := by
    rw [← List.drop_drop, List.take_append_drop]
  unfold hyphenate
  rw [groups_append (by simp [h]) (by simp [h]) (by simp [h]) (by simp [h]), hdrop 16, hdrop 12,
    hdrop 8, List.take_append_drop]

/-- The text of an identifier is parsed as the identifier. -/
theorem parse_of_isHyphenated {u : Uuid} {text : String} (h : u.IsHyphenated text) :
    parse text = some u := by
  obtain ⟨ds, hlength, htext, -, hdigits⟩ := h
  have hparsed : parseDigits ds = some u := by
    unfold parseDigits
    rw [if_pos hlength, hdigits, Option.map_some, BitVec.ofNat_toNat, BitVec.setWidth_eq]
  have hgroups : parseGroups (hyphenate ds) = parseDigits ds := by
    have hds := groups_hyphenate hlength
    unfold groups at hds
    unfold parseGroups
    dsimp only
    rw [hds, if_pos ⟨length_hyphenate hlength, rfl⟩]
  unfold parse
  rw [htext]
  dsimp only
  rw [length_hyphenate hlength]
  exact hgroups.trans hparsed

end Uuid

/-! ## Bound values -/

namespace Dialect

theorem allUuidsAsText_eq_map (vs : List Value) : allUuidsAsText vs = vs.map uuidsAsText := by
  induction vs with
  | nil => rfl
  | cons v vs ih => rw [allUuidsAsText, ih, List.map_cons]

mutual

theorem uuidsAsText_idem : ∀ v : Value, uuidsAsText (uuidsAsText v) = uuidsAsText v
  | .uuid _ => rfl
  | .list items => congrArg Value.list (allUuidsAsText_idem items)
  | .null | .boolean _ | .int32 _ | .int64 _ | .float64 _ | .decimal _ | .text _ | .bytes _
  | .date _ | .time _ | .timestamp _ => rfl

theorem allUuidsAsText_idem : ∀ vs : List Value,
    allUuidsAsText (allUuidsAsText vs) = allUuidsAsText vs
  | [] => rfl
  | v :: vs => congrArg₂ List.cons (uuidsAsText_idem v) (allUuidsAsText_idem vs)

end

variable {d : Dialect}

/-- What is bound is bound as it is. -/
theorem bindValue_bindValue (hd : d ∈ Dialect.all.map (·.2)) (v : Value) :
    d.bindValue (d.bindValue v) = d.bindValue v := by
  rcases bindValue_eq hd with hbind | hbind
  · rw [hbind]
    rfl
  · rw [hbind]
    exact uuidsAsText_idem v

end Dialect

namespace ValueType

open Dialect (uuidsAsText)

theorem uuidsAsText_ne_null {v : Value} (h : v ≠ .null) : uuidsAsText v ≠ .null := by
  cases v with
  | null => exact absurd rfl h
  | _ => exact nofun

/-- A type that takes an identifier takes its text for the same thing. -/
theorem ofValue_text_of_uuid {t : ValueType} {u : Uuid} {x : t.Carrier}
    (h : t.ofValue (.uuid u) = .ok x) : t.ofValue (.text u.text) = .ok x := by
  induction t with
  | uuid =>
    change orUnreadable u.text .uuid .uuid (Uuid.parse u.text) = .ok x
    rw [Uuid.parse_of_isHyphenated u.isHyphenated_text]
    exact h
  | text => exact h
  | sharedText => exact h
  | option t ih =>
    obtain ⟨y, hy, rfl⟩ := map_eq_ok_iff.mp h
    exact map_eq_ok_iff.mpr ⟨y, ih hy, rfl⟩
  | _ => cases h

theorem mapM_ofValue_uuidsAsText {t : ValueType}
    (h : ∀ {v : Value} {x : t.Carrier}, t.ofValue v = .ok x → t.ofValue (uuidsAsText v) = .ok x)
    {items : List Value} {xs : List t.Carrier} (hitems : items.mapM t.ofValue = .ok xs) :
    (Dialect.allUuidsAsText items).mapM t.ofValue = .ok xs := by
  rw [Dialect.allUuidsAsText_eq_map, mapM_eq_ok_iff, List.forall₂_map_left_iff]
  exact (mapM_eq_ok_iff.mp hitems).imp fun v x hv => h hv

/-- A value is read as the same thing when its identifiers are texts. -/
theorem ofValue_uuidsAsText {t : ValueType} {v : Value} {x : t.Carrier}
    (h : t.ofValue v = .ok x) : t.ofValue (uuidsAsText v) = .ok x := by
  induction t generalizing v with
  | option t ih =>
    by_cases hnull : v = .null
    · rw [hnull] at h ⊢
      exact h
    · rw [ofValue_option hnull] at h
      obtain ⟨y, hy, rfl⟩ := map_eq_ok_iff.mp h
      rw [ofValue_option (uuidsAsText_ne_null hnull)]
      exact map_eq_ok_iff.mpr ⟨y, ih hy, rfl⟩
  | list t ih =>
    cases v with
    | uuid u => exact ofValue_text_of_uuid h
    | list items => exact mapM_ofValue_uuidsAsText ih h
    | _ => exact h
  | _ =>
    cases v with
    | uuid u => exact ofValue_text_of_uuid h
    | list items => cases h
    | _ => exact h

variable {d : Dialect} {t : ValueType} {v : Value}

/-- What is bound for a value is read as the value is. -/
theorem ofValue_bindValue (hd : d ∈ Dialect.all.map (·.2)) {x : t.Carrier}
    (h : t.ofValue v = .ok x) : t.ofValue (d.bindValue v) = .ok x := by
  rcases Dialect.bindValue_eq hd with hbind | hbind
  · rw [hbind]
    exact h
  · rw [hbind]
    exact ofValue_uuidsAsText h

/-- What is bound for a value is converted as the value is. -/
theorem convert_bindValue (hd : d ∈ Dialect.all.map (·.2)) {w : Value}
    (h : t.convert v = .ok w) : t.convert (d.bindValue v) = .ok w := by
  obtain ⟨x, hx, rfl⟩ := map_eq_ok_iff.mp h
  exact map_eq_ok_iff.mpr ⟨x, ofValue_bindValue hd hx, rfl⟩

end ValueType

/-! ## Rows -/

namespace Entity

variable {ε : Type} {E : Entity ε} {d : Dialect} {m : Mapping}

/-- The entity type whose properties are given what is bound for a value. -/
def binding (E : Entity ε) (d : Dialect) : Entity ε :=
  { E with set := fun e name v => E.set e name (d.bindValue v) }

/-- Cells are stored by it as the bound cells are by the entity type itself. -/
theorem ofCells_binding (e : ε) (cells : List (String × Value)) :
    (E.binding d).ofCells m e cells =
      E.ofCells m e (cells.map fun cell => (cell.1, d.bindValue cell.2)) := by
  induction cells generalizing e with
  | nil => rfl
  | cons cell cells ih =>
    obtain ⟨label, v⟩ := cell
    rw [List.map_cons, ofCells, ofCells]
    cases m.ofLabel? label with
    | none =>
      dsimp only
      rw [ih]
    | some p =>
      have hset : (E.binding d).set e p.name v = E.set e p.name (d.bindValue v) := rfl
      dsimp only
      rw [hset]
      cases E.set e p.name (d.bindValue v) with
      | error cause => rfl
      | ok e' => exact ih e'

/-- What is bound for the value of a typed property is stored as this value in any entity. -/
theorem TypedProperty.set_bindValue {name : String} {t : ValueType} (p : E.TypedProperty name t)
    (hd : d ∈ Dialect.all.map (·.2)) (e e₀ : ε) :
    ∃ e', E.set e₀ name (d.bindValue (t.toValue (p.read e))) = .ok e' ∧
      E.get? e' name = E.get? e name ∧ ∀ other, other ≠ name → E.get? e' other = E.get? e₀ other := by
  have hconvert := ValueType.convert_bindValue hd (t.convert_toValue (p.read e))
  obtain ⟨e', he', hown, hothers⟩ := p.set_of_convert e₀ hconvert
  exact ⟨e', he', hown.trans (p.get?_eq e).symm, hothers⟩

theorem takesBack_binding (hd : d ∈ Dialect.all.map (·.2)) {names : List String}
    (htyped : ∀ n ∈ names, ∃ t, Nonempty (E.TypedProperty n t)) :
    (E.binding d).TakesBack names := by
  intro x y n v hn hv
  obtain ⟨t, ⟨p⟩⟩ := htyped n hn
  have hvalue : t.toValue (p.read y) = v := Option.some.inj ((p.get?_eq y).symm.trans hv)
  obtain ⟨x', hx', hown, hothers⟩ := p.set_bindValue hd y x
  rw [hvalue] at hx'
  exact ⟨x', hx', hown.trans hv, hothers⟩

/-- A row of the parameters that are bound for an entity is read as the entity, with the ignored
    properties fresh. -/
theorem ofRow_entityParameters (hd : d ∈ Dialect.all.map (·.2)) (hm : m.IsBuilt)
    (htyped : ∀ n ∈ Mapping.namesOf m.columns, ∃ t, Nonempty (E.TypedProperty n t)) (e : ε)
    {row : Row} (hrow : row.cells = (Mapping.entityParameters d E e m.columns).entries) :
    ∃ e', (E.ofRow m row).2 = .ok e' ∧ E.IsReadOf m e e' := by
  have hvalues : (m.columns.map fun p => (E.get? e p.name).getD .null).map some =
      m.columns.map fun p => (E.binding d).get? e p.name := by
    rw [List.map_map]
    refine List.map_congr_left fun p hp => ?_
    obtain ⟨t, ⟨field⟩⟩ := htyped p.name (List.mem_map_of_mem hp)
    change some ((E.get? e p.name).getD .null) = E.get? e p.name
    rw [field.get?_eq, Option.getD_some]
  obtain ⟨e', he', hselected, hothers⟩ := ofCells_selected hm (takesBack_binding hd htyped) e
    (List.Subset.refl m.columns) hm.nodup_columns hvalues E.fresh
  have hcells : ((Mapping.namesOf m.columns).zip
      (m.columns.map fun p => (E.get? e p.name).getD .null)).map
        (fun cell => (cell.1, d.bindValue cell.2)) = row.cells := by
    have hentries := Parameters.entries_ofProperties d (E.get? e) hm.nodup_columns
    rw [hrow]
    refine Eq.trans ?_ hentries.symm
    rw [List.zip_map', List.map_map]
    rfl
  rw [ofCells_binding, hcells] at he'
  refine ⟨e', he', fun p hp hcolumn => ?_, fun p hp hignored => ?_⟩
  · exact hselected p (List.mem_filter.mpr ⟨hp, by simp [hcolumn]⟩)
  · exact hothers p.name (hm.not_mem_columns hp hignored)

end Entity

/-- What a dialect of a database binds for a value is read as the value is, by every type that reads
    it, and is bound as it is. So a property that is a field of a type gets its value back when what
    was bound for it is stored in whichever entity, and in its own entity it changes nothing unless
    options are nested; a typed field of a typed record stays as it is; and a row of what was bound
    for the columns of an entity is read as this entity. -/
theorem bound_values_read_back {d : Dialect} (hd : d ∈ Dialect.all.map (·.2)) :
    (∀ (t : ValueType) (v : Value) (x : t.Carrier),
      t.ofValue v = .ok x → t.ofValue (d.bindValue v) = .ok x) ∧
    (∀ v : Value, d.bindValue (d.bindValue v) = d.bindValue v) ∧
    (∀ {ε : Type} {E : Entity ε} {name : String} {t : ValueType} (_ : E.TypedProperty name t)
      (e e₀ : ε), ∃ v, E.get? e name = some v ∧
        (∃ e', E.set e₀ name (d.bindValue v) = .ok e' ∧ E.get? e' name = some v ∧
          ∀ other, other ≠ name → E.get? e' other = E.get? e₀ other) ∧
        (t.nestsOptions = false → E.set e name (d.bindValue v) = .ok e)) ∧
    (∀ (t : RecordType) (type : EntityType) (r : Record), t.IsTyped r →
      ∀ name v, t.typeOf name ≠ none → (t.entityOf type).get? r name = some v →
        (t.entityOf type).set r name (d.bindValue v) = .ok r) ∧
    ∀ {ε : Type} (E : Entity ε) (m : Mapping), m.IsBuilt →
      (∀ n ∈ Mapping.namesOf m.columns, ∃ t, Nonempty (E.TypedProperty n t)) →
      ∀ (e : ε) (row : Row), row.cells = (Mapping.entityParameters d E e m.columns).entries →
        ∃ e', (E.ofRow m row).2 = .ok e' ∧ E.IsReadOf m e e' := by
  refine ⟨fun t v x h => ValueType.ofValue_bindValue hd h, Dialect.bindValue_bindValue hd, ?_, ?_,
    fun E m hm htyped e row hrow => Entity.ofRow_entityParameters hd hm htyped e hrow⟩
  · intro ε E name t p e e₀
    obtain ⟨e', he', hown, hothers⟩ := p.set_bindValue hd e e₀
    refine ⟨_, p.get?_eq e, ⟨e', he', hown.trans (p.get?_eq e), hothers⟩, fun h => ?_⟩
    exact p.set_of_ofValue
      (ValueType.ofValue_bindValue hd (ValueType.ofValue_toValue_of_not_nests h (p.read e)))
  · intro t type r hr name v htype hget
    obtain ⟨f, hf, hheld⟩ := RecordType.field_of_lookup hr hget
    refine RecordType.set_of_stored hget hf ?_ type.name
    cases hft : f.type with
    | none =>
      rw [RecordType.typeOf, hf, Option.bind_some, hft] at htype
      exact absurd rfl htype
    | some τ =>
      obtain ⟨x, rfl⟩ := hheld τ hft
      exact ValueType.convert_bindValue hd (τ.convert_toValue x)

namespace Samples

/-- A table of cells. -/
def cells : Mapping := (Mapping.ofTable "cell").insert { name := "content" }

theorem typed_cells (t : ValueType) (x : t.Carrier) :
    ∀ n ∈ Mapping.namesOf cells.columns, ∃ t', Nonempty ((cell t x).TypedProperty n t') := by
  have hnames : Mapping.namesOf cells.columns = ["content"] := rfl
  rw [hnames]
  intro n hn
  obtain rfl := List.mem_singleton.mp hn
  exact ⟨t, ⟨content t x⟩⟩

/-- The row of a cell with an identifier, in a database that has no type for identifiers. -/
def cellRow : Row where
  labels := ["content"]
  values := [.text Uuid.nil.text]

end Samples

/-- In a database without a type for identifiers: a list of identifiers, of which some are missing,
    and a row with an identifier. -/
theorem bound_values_read_back_sqlite :
    (ValueType.list (.option .uuid)).ofValue (.list [.text Uuid.nil.text, .null]) =
      .ok [some Uuid.nil, none] ∧
    ∃ e', ((Samples.cell (.option .uuid) none).ofRow Samples.cells Samples.cellRow).2 = .ok e' ∧
      (Samples.cell (.option .uuid) none).get? e' "content" = some (.uuid .nil) := by
  obtain ⟨hread, -, -, -, hrow⟩ := bound_values_read_back (List.mem_of_getElem? (i := 2) rfl)
  refine ⟨hread _ (.list [.uuid .nil, .null]) _ rfl, ?_⟩
  obtain ⟨e', he', hsame⟩ := hrow (Samples.cell (.option .uuid) none) Samples.cells
    (.insert (.ofTable "cell") _) (Samples.typed_cells (.option .uuid) none) (some Uuid.nil)
    Samples.cellRow rfl
  exact ⟨e', he', hsame.selected { name := "content" } List.mem_cons_self rfl⟩

end EntitySql
