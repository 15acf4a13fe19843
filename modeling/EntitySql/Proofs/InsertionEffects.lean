/-
  What an insertion does to the entity, the supply of identifiers and the executor, wherever it
  ends.

  Identifiers are drawn for the keys without a value, one for each in the order of the keys
  (`drawings`), up to the first one that the entity does not take (`filled_eq`). Then the insertion
  is sent (`AnswersInsertion`), and no identifier is drawn any more. The entity is changed in these
  keys and in the one that the database generates, and nowhere else, since its properties are
  stored apart (`Entity.Stores`).
-/
import EntitySql.Proofs.KeyedCommands
import EntitySql.Proofs.KeysOfEntities

namespace EntitySql

/-! ## Properties that are stored -/

theorem Entity.setAll_cons {ε : Type} (E : Entity ε) (e : ε) (change : String × Value)
    (changes : List (String × Value)) :
    E.setAll e (change :: changes) =
      E.set e change.1 change.2 >>= fun e => E.setAll e changes := List.foldlM_cons

/-- A change of one of these properties leaves the other properties as they are. -/
def Entity.KeepsOthers {ε : Type} (E : Entity ε) (P : String → Prop) : Prop :=
  ∀ ⦃e e' : ε⦄ ⦃name : String⦄ ⦃v : Value⦄, P name → E.set e name v = .ok e' →
    ∀ other, other ≠ name → E.get? e' other = E.get? e other

namespace Entity.KeepsOthers

variable {ε : Type} {E : Entity ε} {P : String → Prop}

/-- Several changes leave the other properties as they are. -/
theorem unchanged_setAll (hE : E.KeepsOthers P) {changes : List (String × Value)}
    (hchanges : ∀ change ∈ changes, P change.1) {e e' : ε} (h : E.setAll e changes = .ok e')
    {name : String} (hname : name ∉ changes.map (·.1)) : E.get? e' name = E.get? e name := by
  induction changes generalizing e with
  | nil =>
    cases h
    rfl
  | cons change changes ih =>
    rw [List.forall_mem_cons] at hchanges
    rw [List.map_cons, List.mem_cons, not_or] at hname
    rw [setAll_cons] at h
    obtain ⟨e₁, he₁, h⟩ := bind_eq_ok_iff.mp h
    rw [ih hchanges.2 h hname.2, hE hchanges.1 he₁ name hname.1]

/-- Several changes of different properties are all there in the end. -/
theorem changed_setAll (hE : E.KeepsOthers P) {changes : List (String × Value)}
    (hchanges : ∀ change ∈ changes, P change.1) {e e' : ε} (h : E.setAll e changes = .ok e')
    (hnodup : (changes.map (·.1)).Nodup) {change : String × Value} (hchange : change ∈ changes) :
    ∃ e₁ e₂, E.set e₁ change.1 change.2 = .ok e₂ ∧ E.get? e' change.1 = E.get? e₂ change.1 := by
  induction changes generalizing e with
  | nil => cases hchange
  | cons first changes ih =>
    rw [List.forall_mem_cons] at hchanges
    rw [List.map_cons, List.nodup_cons] at hnodup
    rw [setAll_cons] at h
    obtain ⟨e₁, he₁, hrest⟩ := bind_eq_ok_iff.mp h
    rcases List.mem_cons.mp hchange with rfl | hchange
    · exact ⟨e, e₁, he₁, hE.unchanged_setAll hchanges.2 hrest hnodup.1⟩
    · exact ih hchanges.2 hrest hnodup.2 hchange

end Entity.KeepsOthers

/-- A change of a property stores the value in it, converted to its type if it has one, and leaves
    the other properties as they are. -/
structure Entity.Stores {ε : Type} (E : Entity ε) (types : String → Option ValueType) : Prop where
  /-- The property has the converted value. -/
  changed : ∀ {e e' : ε} {name : String} {v : Value}, E.set e name v = .ok e' →
    ∃ v', Field.stored (types name) v = .ok v' ∧ E.get? e' name = some v'
  /-- Another property has the value that it had. -/
  unchanged : ∀ {e e' : ε} {name : String} {v : Value}, E.set e name v = .ok e' →
    ∀ other, other ≠ name → E.get? e' other = E.get? e other

namespace Entity.Stores

variable {ε : Type} {E : Entity ε} {types : String → Option ValueType}

theorem keepsOthers (hE : E.Stores types) : E.KeepsOthers fun _ => True :=
  fun _ _ _ _ _ h => hE.unchanged h

theorem unchanged_setAll (hE : E.Stores types) {changes : List (String × Value)} {e e' : ε}
    (h : E.setAll e changes = .ok e') {name : String} (hname : name ∉ changes.map (·.1)) :
    E.get? e' name = E.get? e name :=
  hE.keepsOthers.unchanged_setAll (fun _ _ => trivial) h hname

/-- What is stored in different properties is there in the end. -/
theorem changed_setAll (hE : E.Stores types) {changes : List (String × Value)} {e e' : ε}
    (h : E.setAll e changes = .ok e') (hnodup : (changes.map (·.1)).Nodup)
    {change : String × Value} (hchange : change ∈ changes) :
    ∃ v, Field.stored (types change.1) change.2 = .ok v ∧ E.get? e' change.1 = some v := by
  obtain ⟨e₁, e₂, hset, hget⟩ :=
    hE.keepsOthers.changed_setAll (fun _ _ => trivial) h hnodup hchange
  rw [hget]
  exact hE.changed hset

end Entity.Stores

/-! ## Identifiers that are drawn -/

section

variable {ε : Type} (ids : IdentifierSource) (E : Entity ε) (e : ε)

/-- The identifiers that are drawn for those of the given keys that have no value, in order. -/
def drawings (ks : List PropertyMapping) (n : Nat) : List (String × Value) :=
  (ks.filter fun k => Inserting.isUnset (E.get? e k.name)).mapIdx fun i k =>
    (k.name, .uuid (ids (n + i)))

theorem drawings_cons_of_unset {k : PropertyMapping}
    (h : Inserting.isUnset (E.get? e k.name) = true) (ks : List PropertyMapping) (n : Nat) :
    drawings ids E e (k :: ks) n = (k.name, .uuid (ids n)) :: drawings ids E e ks (n + 1) := by
  unfold drawings
  rw [List.filter_cons, if_pos h, List.mapIdx_cons]
  simp only [Nat.add_zero, Nat.add_assoc, Nat.add_comm 1]

theorem drawings_cons_of_set {k : PropertyMapping}
    (h : Inserting.isUnset (E.get? e k.name) = false) (ks : List PropertyMapping) (n : Nat) :
    drawings ids E e (k :: ks) n = drawings ids E e ks n := by
  unfold drawings
  rw [List.filter_cons, h, if_neg Bool.false_ne_true]

theorem map_fst_drawings (ks : List PropertyMapping) (n : Nat) :
    (drawings ids E e ks n).map (·.1) =
      Mapping.namesOf (ks.filter fun k => Inserting.isUnset (E.get? e k.name)) := by
  induction ks generalizing n with
  | nil => rfl
  | cons k ks ih =>
    cases h : Inserting.isUnset (E.get? e k.name) with
    | false =>
      rw [drawings_cons_of_set ids E e h, ih, List.filter_cons, h, if_neg Bool.false_ne_true]
    | true =>
      rw [drawings_cons_of_unset ids E e h, List.map_cons, ih, List.filter_cons, h, if_pos rfl]
      rfl

/-- What is drawn depends on the given keys alone. -/
theorem drawings_congr {e e' : ε} {ks : List PropertyMapping}
    (h : ∀ k ∈ ks, E.get? e' k.name = E.get? e k.name) (n : Nat) :
    drawings ids E e' ks n = drawings ids E e ks n := by
  unfold drawings
  congr 1
  exact List.filter_congr fun k hk => by rw [h k hk]

end

namespace Inserting

variable {ε : Type} {E : Entity ε} {P : String → Prop}

/-- Keys with different names are filled with what is drawn for them, or up to the first
    identifier that the entity does not take. -/
theorem filled_eq (hE : E.KeepsOthers P) (ids : IdentifierSource) {ks : List PropertyMapping}
    (hks : ∀ k ∈ ks, P k.name) (hnodup : (Mapping.namesOf ks).Nodup) (n : Nat) (e : ε) :
    (∃ e', E.setAll e (drawings ids E e ks n) = .ok e' ∧
      filled ids E ks n e = (.ok (), n + (drawings ids E e ks n).length, e')) ∨
    ∃ before change rest e' cause, drawings ids E e ks n = before ++ change :: rest ∧
      E.setAll e before = .ok e' ∧ E.set e' change.1 change.2 = .error cause ∧
      filled ids E ks n e = (.error cause, n + before.length + 1, e') := by
  induction ks generalizing n e with
  | nil => exact .inl ⟨e, rfl, rfl⟩
  | cons k ks ih =>
    rw [List.forall_mem_cons] at hks
    rw [Mapping.namesOf, List.map_cons, List.nodup_cons] at hnodup
    unfold filled
    cases hunset : isUnset (E.get? e k.name) with
    | false =>
      rw [drawings_cons_of_set ids E e hunset]
      exact ih hks.2 hnodup.2 n e
    | true =>
      rw [drawings_cons_of_unset ids E e hunset, if_pos rfl]
      unfold assigned
      cases hset : E.set e k.name (.uuid (ids n)) with
      | error cause =>
        exact .inr ⟨[], (k.name, .uuid (ids n)), _, e, cause, rfl, rfl, hset, rfl⟩
      | ok e₁ =>
        -- the other keys are as they were, and so is what is drawn for them
        have hrest : drawings ids E e₁ ks (n + 1) = drawings ids E e ks (n + 1) := by
          refine drawings_congr ids E (fun k' hk' => hE hks.1 hset _ ?_) _
          intro hname
          exact hnodup.1 (hname ▸ List.mem_map_of_mem hk')
        have hih := ih hks.2 hnodup.2 (n + 1) e₁
        rw [hrest] at hih
        dsimp only [andThen]
        rcases hih with ⟨e', hall, hfilled⟩ | ⟨before, change, rest, e', cause, heq, hall, hfail,
          hfilled⟩
        · refine .inl ⟨e', ?_, ?_⟩
          · rw [Entity.setAll_cons]
            exact bind_eq_ok_iff.mpr ⟨e₁, hset, hall⟩
          rw [hfilled, List.length_cons]
          congr 2
          omega
        · refine .inr ⟨(k.name, .uuid (ids n)) :: before, change, rest, e', cause, ?_, ?_,
            hfail, ?_⟩
          · rw [heq, List.cons_append]
          · rw [Entity.setAll_cons]
            exact bind_eq_ok_iff.mpr ⟨e₁, hset, hall⟩
          · rw [hfilled, List.length_cons]
            congr 2
            omega

end Inserting

/-! ## Numbers that are stored -/

theorem Decimal.signed_ofInt64 (i : Int64) : (Decimal.ofInt64 i).signed = i.toInt := by
  unfold signed ofInt64
  dsimp only
  rw [Int.ofNat_eq_natCast]
  by_cases h : i.toInt < 0
  · rw [decide_eq_true h, if_pos rfl]
    omega
  · rw [decide_eq_false h, if_neg Bool.false_ne_true]
    omega

theorem Decimal.asInt64_ofInt64 (i : Int64) : (Value.decimal (.ofInt64 i)).asInt64 = some i := by
  have hwhole : (Decimal.ofInt64 i).isWhole = true := by
    simp [isWhole, ofInt64, Nat.mod_one]
  have htruncate : (Decimal.ofInt64 i).truncate = i.toInt := by
    have hsigned := Decimal.signed_of_isWhole hwhole
    rw [signed_ofInt64] at hsigned
    have hscale : (Decimal.ofInt64 i).scale = 0 := rfl
    rw [hscale, Int.pow_zero, Int.mul_one] at hsigned
    exact hsigned.symm
  have hint : int64? i.toInt = some i := by
    have hleast := i.le_toInt
    have hgreatest := i.toInt_lt
    unfold int64?
    rw [if_pos ⟨by omega, by omega⟩, Int64.ofInt_toInt]
  simp only [Value.asInt64, hwhole, htruncate, hint, if_true]

/-- An integer that a type takes is the same integer as a key. -/
theorem IntegerType.ofValue?_toValue (t : IntegerType) {i : Int64}
    (h : t.least ≤ i.toInt ∧ i.toInt ≤ t.greatest) :
    Key.ofValue? (ValueType.toValue (.integer t) ⟨i.toInt, h⟩) = some (.int64 i) := by
  change Key.ofValue? (if t.isWide then .int64 (Int64.ofInt i.toInt)
    else .int32 (Int32.ofInt i.toInt)) = _
  cases hwide : t.isWide with
  | true =>
    rw [if_pos rfl, Int64.ofInt_toInt]
    rfl
  | false =>
    have hbounds := int32_bounds hwide
    have hint : (Int32.ofInt i.toInt).toInt = i.toInt :=
      Int32.toInt_ofInt_of_le (by omega) (by omega)
    have hkey : (Int32.ofInt i.toInt).toInt64 = i := by
      rw [← Int64.toInt_inj, Int32.toInt_toInt64, hint]
    rw [if_neg Bool.false_ne_true]
    exact congrArg (some ∘ Key.int64) hkey

/-- An integer that is converted is no key any more, or still the same one. -/
theorem ValueType.ofValue?_of_convert {t : ValueType} {i : Int64} {v : Value}
    (h : t.convert (.int64 i) = .ok v) :
    Key.ofValue? v = none ∨ Key.ofValue? v = some (.int64 i) := by
  unfold convert at h
  induction t with
  | integer t =>
    obtain ⟨x, hx, rfl⟩ := map_eq_ok_iff.mp h
    right
    change t.ofInt i.toInt = .ok x at hx
    unfold IntegerType.ofInt at hx
    split at hx
    · cases hx
      exact t.ofValue?_toValue _
    · cases hx
  | boolean =>
    cases h
    exact .inl rfl
  | float64 =>
    cases h
    exact .inl rfl
  | decimal =>
    cases h
    right
    change (Value.decimal (.ofInt64 i)).asInt64.map Key.int64 = _
    rw [Decimal.asInt64_ofInt64]
    rfl
  | option t ih =>
    obtain ⟨x, hx, rfl⟩ := map_eq_ok_iff.mp h
    obtain ⟨y, hy, rfl⟩ := map_eq_ok_iff.mp hx
    exact ih (map_eq_ok_iff.mpr ⟨y, hy, rfl⟩)
  | _ => cases h

theorem Field.ofValue?_of_stored {type : Option ValueType} {i : Int64} {v : Value}
    (h : Field.stored type (.int64 i) = .ok v) :
    Key.ofValue? v = none ∨ Key.ofValue? v = some (.int64 i) := by
  cases type with
  | none =>
    cases h
    exact .inr rfl
  | some t => exact ValueType.ofValue?_of_convert h

/-! ## Requests of an insertion -/

/-- The requests for an insertion, the answer to them and the executor then. With a query of the
    generated key, the answer is that to the query. -/
inductive Executor.AnswersInsertion {σ : Type} (x : Executor σ) (d : Dialect) (insert : Statement)
    (s : σ) : Option String → Except Error RowSet → List Request → σ → Prop where
  /-- Without a query, the insertion is sent alone. -/
  | alone : AnswersInsertion x d insert s none ((x.count insert s).1.map fun _ => [])
      [.count insert] (x.count insert s).2
  /-- Both are sent as one statement, if the dialect has such statements. -/
  | joined {query : String} {st : Statement} (hd : d.batches = true)
      (hst : st = ⟨insert.sql ++ d.separator ++ query, insert.parameters⟩) :
      AnswersInsertion x d insert s (some query) (x.rows st s).1 [.rows st] (x.rows st s).2
  /-- Otherwise the insertion is sent first, and its failure is the end. -/
  | failed {query : String} {cause : Error} {s' : σ} (hd : d.batches = false)
      (hcount : x.count insert s = (.error cause, s')) :
      AnswersInsertion x d insert s (some query) (.error cause) [.count insert] s'
  /-- The query is sent after it. -/
  | apart {query : String} {affected : UInt64} {s' : σ} (hd : d.batches = false)
      (hcount : x.count insert s = (.ok affected, s')) :
      AnswersInsertion x d insert s (some query) (x.rows ⟨query, {}⟩ s').1
        [.count insert, .rows ⟨query, {}⟩] (x.rows ⟨query, {}⟩ s').2

theorem PreparedInsertion.answersInsertion {σ : Type} (p : PreparedInsertion) (d : Dialect)
    (x : Executor σ) (s : σ × List Request) :
    ∃ requests, x.AnswersInsertion d p.insert s.1 (p.identity.map (·.2)) (p.sent d x s.1).1
        requests (p.sent d x s.1).2 ∧
      p.sent d x.watched s =
        ((p.sent d x s.1).1, ((p.sent d x s.1).2, s.2 ++ requests)) := by
  unfold sent
  cases p.identity with
  | none => exact ⟨_, .alone, rfl⟩
  | some identity =>
    cases hd : d.batches with
    | true => exact ⟨_, .joined hd rfl, rfl⟩
    | false =>
      simp only [Bool.false_eq_true, if_false, Option.map_some]
      rw [Executor.count_watched]
      unfold Executor.listing
      cases hcount : x.count p.insert s.1 with
      | mk answer s' =>
        cases answer with
        | error cause => exact ⟨_, .failed hd hcount, rfl⟩
        | ok affected =>
          refine ⟨_, .apart hd hcount, ?_⟩
          dsimp only
          rw [Executor.rows_watched]
          unfold Executor.listing
          dsimp only
          rw [List.append_assoc]
          rfl

/-! ## The generated key -/

/-- The value of the first column with a name, in any case, or else the first value. -/
inductive Row.Tells (row : Row) (name : String) : Value → Prop where
  /-- There is such a column. -/
  | column {i : Nat} {v : Value} (hi : i < row.labels.length)
      (hname : Text.equalIgnoringCase row.labels[i] name = true)
      (hfirst : ∀ j, (hj : j < i) → Text.equalIgnoringCase row.labels[j] name = false)
      (hv : row.values[i]? = some v) : Tells row name v
  /-- There is none. -/
  | first {v : Value} {vs : List Value}
      (hnone : ∀ label ∈ row.labels, Text.equalIgnoringCase label name = false)
      (hv : row.values = v :: vs) : Tells row name v

theorem Row.tells_of_columnOrFirst {row : Row} {name : String} {v : Value}
    (h : row.columnOrFirst name = .ok (some v)) : row.Tells name v := by
  unfold columnOrFirst column at h
  cases hfind : row.labels.findIdx? (Text.equalIgnoringCase · name) with
  | none =>
    rw [hfind] at h
    obtain ⟨vs, hvs⟩ := List.head?_eq_some_iff.mp (Except.ok.inj h)
    exact .first (List.findIdx?_eq_none_iff.mp hfind) hvs
  | some i =>
    rw [hfind] at h
    obtain ⟨hi, hname, hfirst⟩ := List.findIdx?_eq_some_iff_getElem.mp hfind
    cases hv : row.values[i]? with
    | none =>
      simp only [hv] at h
      cases h
    | some v' =>
      simp only [hv] at h
      cases h
      exact .column hi hname (fun j hj => Bool.eq_false_iff.mpr (hfirst j hj)) hv

/-- The key is the number that the last row tells, and the entity has that number. -/
inductive Entity.HasGenerated {ε : Type} (E : Entity ε) (e : ε) (k : PropertyMapping) :
    RowSet → Key → Prop where
  /-- The number is in a column called `Id`, or else it is the first value. -/
  | number {rows : RowSet} {row : Row} {v v' : Value} {id : Int64}
      (hlast : rows.getLast? = some row) (htells : row.Tells "Id" v) (hid : v.asInt64 = some id)
      (hget : E.get? e k.name = some v') (hkeyed : v'.IsKeyedAs (.int64 id)) :
      HasGenerated E e k rows (.int64 id)

theorem Inserting.tells_of_identityOf {rows : RowSet} {id : Int64}
    (h : identityOf rows = .ok (some id)) :
    ∃ row v, rows.getLast? = some row ∧ row.Tells "Id" v ∧ v.asInt64 = some id := by
  unfold identityOf at h
  cases hlast : rows.getLast? with
  | none =>
    rw [hlast] at h
    cases h
  | some row =>
    rw [hlast] at h
    obtain ⟨v, hv, hid⟩ := map_eq_ok_iff.mp h
    obtain ⟨v, rfl, hid⟩ := Option.bind_eq_some_iff.mp hid
    exact ⟨row, v, rfl, Row.tells_of_columnOrFirst hv, hid⟩

/-! ## The end of an insertion -/

/-- What becomes of an entity whose insertion was sent: the result, and the entity then. -/
inductive Mapping.EndsInsertion {ε : Type} (m : Mapping) (E : Entity ε) (e : ε) :
    Except Error RowSet → Except Error Key → ε → Prop where
  /-- The executor fails. -/
  | failed (cause : Error) : EndsInsertion m E e (.error cause) (.error cause) e
  /-- No key is generated. -/
  | complete (rows : RowSet) (hnone : m.identity? = none) :
      EndsInsertion m E e (.ok rows) (m.keyOf E e) e
  /-- The answer does not tell the generated key. -/
  | untold {rows : RowSet} {k : PropertyMapping} {cause : Error} (hk : m.identity? = some k)
      (huntold : Inserting.identityOf rows = .error cause ∨
        Inserting.identityOf rows = .ok none ∧ cause = .identityMissing m.entity) :
      EndsInsertion m E e (.ok rows) (.error cause) e
  /-- The entity does not take the generated key. -/
  | refused {rows : RowSet} {k : PropertyMapping} {id : Int64} {cause : Error}
      (hk : m.identity? = some k) (hid : Inserting.identityOf rows = .ok (some id))
      (hset : E.set e k.name (.int64 id) = .error cause) :
      EndsInsertion m E e (.ok rows) (.error cause) e
  /-- The entity takes it. -/
  | taken {rows : RowSet} {k : PropertyMapping} {id : Int64} {e' : ε}
      (hk : m.identity? = some k) (hid : Inserting.identityOf rows = .ok (some id))
      (hset : E.set e k.name (.int64 id) = .ok e') :
      EndsInsertion m E e (.ok rows) (m.keyOf E e') e'

theorem PreparedInsertion.endsInsertion {ε : Type} (E : Entity ε) (m : Mapping)
    (insert : Statement) (query : String) (answer : Except Error RowSet) (e : ε) :
    let p : PreparedInsertion := ⟨m, insert, m.identity?.map (·, query)⟩
    m.EndsInsertion E e answer (p.outcome E answer e).1 (p.outcome E answer e).2 := by
  intro p
  cases answer with
  | error cause => exact .failed cause
  | ok rows =>
    rw [p.outcome_ok]
    unfold stored
    cases hk : m.identity? with
    | none =>
      have hp : p.identity = none := congrArg (Option.map (·, query)) hk
      rw [hp]
      exact .complete rows hk
    | some k =>
      have hp : p.identity = some (k, query) := congrArg (Option.map (·, query)) hk
      rw [hp]
      dsimp only
      cases hid : Inserting.identityOf rows with
      | error cause => exact .untold hk (.inl hid)
      | ok id =>
        cases id with
        | none => exact .untold hk (.inr ⟨hid, rfl⟩)
        | some id =>
          dsimp only
          cases hset : E.set e k.name (.int64 id) with
          | error cause => exact .refused hk hid hset
          | ok e' => exact .taken hk hid hset

/-- An insertion that succeeds has been prepared and sent, and it is the answer that ended it. -/
theorem Database.prepared_of_insert {σ ε : Type} (db : Database σ) {E : Entity ε} {a : Session σ}
    {m : Mapping} (hc : a.workspace.catalog.IsCoherent db.setting.dialect)
    (hm : db.setting.mappings a.workspace.catalog E.type = .ok m) {e : ε} {key : Key}
    {x : Insertion σ ε} (hrun : db.insert E ⟨a, e⟩ = .ok key x) :
    ∃ p e₁, db.prepared E a.workspace.catalog a.drawn e = (.ok p, x.session.drawn, e₁) ∧
      p = ⟨m, ⟨m.insertStatement db.setting.dialect,
        .ofProperties db.setting.dialect (E.get? e₁) m.insertable⟩,
        m.identity?.map (·, db.setting.dialect.identitySelect)⟩ ∧
      (p.sent db.setting.dialect db.executor a.executor).2 = x.session.executor ∧
      m.EndsInsertion E e₁ (p.sent db.setting.dialect db.executor a.executor).1 (.ok key)
        x.entity := by
  rcases hprepared : db.prepared E a.workspace.catalog a.drawn e with ⟨_ | p, n, e₁⟩
  · obtain ⟨w, hw⟩ := Inserting.insert_of_unprepared db E hprepared
    rw [hrun] at hw
    cases hw
  · obtain ⟨-, -, hof⟩ := Database.of_prepared hm hprepared
    rw [PreparedInsertion.of_eq hc hm] at hof
    obtain ⟨w, hw⟩ := Inserting.insert_of_prepared db E hprepared
    dsimp only at hw
    generalize hanswer : p.sent db.setting.dialect db.executor a.executor = answer at hw
    have hends := PreparedInsertion.endsInsertion E m p.insert db.setting.dialect.identitySelect
      answer.1 e₁
    cases Except.ok.inj hof
    dsimp only at hends
    rw [hrun] at hw
    cases houtcome : PreparedInsertion.outcome _ E answer.1 e₁ with
    | mk result e' =>
      rw [houtcome] at hw hends
      cases result with
      | error cause => cases hw
      | ok key' =>
        cases hw
        rw [← hanswer] at hends
        exact ⟨_, e₁, rfl, rfl, congrArg Prod.snd hanswer, hends⟩

/-- A key that has the value of an integer is that integer. -/
theorem Key.eq_of_toValue? {key : Key} {i : Int64} (h : key.toValue? = some (.int64 i)) :
    key = .int64 i := by
  cases key with
  | int64 j =>
    cases h
    rfl
  | _ => cases h

/-- The only key property has the key of the entity. -/
theorem Mapping.keyPart_of_keyOf {ε : Type} {m : Mapping} {E : Entity ε} {e : ε} {key : Key}
    {k : PropertyMapping} (hkeys : m.keys = [k]) (h : m.keyOf E e = .ok key) :
    ∃ part, m.keyPart E e k = .ok part ∧ part.2 = key := by
  obtain ⟨parts, hparts, h⟩ := bind_eq_ok_iff.mp h
  rw [hkeys, List.mapM_cons] at hparts
  obtain ⟨part, hpart, hparts⟩ := bind_eq_ok_iff.mp hparts
  cases hparts
  exact ⟨part, hpart, Except.ok.inj h⟩

namespace Mapping.EndsInsertion

variable {ε : Type} {m : Mapping} {E : Entity ε} {types : String → Option ValueType} {e e' : ε}
  {answer : Except Error RowSet}

/-- Sending an insertion changes the generated key at most. -/
theorem unchanged (hE : E.Stores types) {result : Except Error Key}
    (h : m.EndsInsertion E e answer result e') {name : String}
    (hname : ∀ k, m.identity? = some k → name ≠ k.name) : E.get? e' name = E.get? e name := by
  cases h with
  | failed | complete | untold | refused => rfl
  | taken hk _ hset => exact hE.unchanged hset name (hname _ hk)

/-- When an insertion succeeds and a key is generated, the answer tells it, the entity takes it, and
    the key of the insertion is that of the entity then. -/
theorem generated_of_ok {result : Except Error Key} (h : m.EndsInsertion E e answer result e')
    {key : Key} (hok : result = .ok key) {k : PropertyMapping} (hk : m.identity? = some k) :
    ∃ rows id, answer = .ok rows ∧ Inserting.identityOf rows = .ok (some id) ∧
      E.set e k.name (.int64 id) = .ok e' ∧ m.keyOf E e' = .ok key := by
  cases h with
  | failed | untold | refused => cases hok
  | complete _ hnone =>
    rw [hk] at hnone
    cases hnone
  | taken hk' hid hset =>
    cases hk.symm.trans hk'
    exact ⟨_, _, rfl, hid, hset, hok⟩

/-- When the generated key is the only one, it is the key of the insertion. -/
theorem hasGenerated (hE : E.Stores types) {key : Key} {result : Except Error Key}
    (h : m.EndsInsertion E e answer result e') (hok : result = .ok key) {k : PropertyMapping}
    (hkeys : m.keys = [k]) (hk : k.key = .identity) :
    ∃ rows, answer = .ok rows ∧ E.HasGenerated e' k rows key := by
  have hidentity : m.identity? = some k := by
    unfold identity?
    rw [hkeys, List.find?_cons, hk]
    rfl
  obtain ⟨rows, id, rfl, hid, hset, hkeyOf⟩ := h.generated_of_ok hok hidentity
  obtain ⟨row, v, hlast, htells, hv⟩ := Inserting.tells_of_identityOf hid
  obtain ⟨v', hstored, hget⟩ := hE.changed hset
  obtain ⟨part, hpart, rfl⟩ := keyPart_of_keyOf hkeys hkeyOf
  obtain ⟨-, v₁, v₂, hget₁, -, hkeyed, hkey, hvalue⟩ := keyedValue_of_keyPart hpart
  obtain rfl := Option.some.inj (hget.symm.trans hget₁)
  rw [keyedValue, hget, Option.bind_some] at hvalue
  rcases Field.ofValue?_of_stored hstored with hnone | hsome
  · rw [hnone] at hvalue
    cases hvalue
  · rw [hsome] at hvalue
    cases hvalue
    rw [Key.eq_of_toValue? hkey]
    exact ⟨rows, rfl, .number hlast htells hv hget hkeyed⟩

end Mapping.EndsInsertion

/-! ## The course of an insertion -/

section

variable {σ ε : Type} (db : Database σ) (E : Entity ε) (m : Mapping)

/-- What an insertion draws: an identifier for each of the keys to be drawn that has no value, with
    the name of the key. -/
def Database.drawnKeys (n : Nat) (e : ε) : List (String × Value) :=
  drawings db.identifiers E e (m.keys.filter (·.key == .guid)) n

/-- The course of an insertion with a watched executor, to its result and what is left then. The
    properties have these types. -/
inductive Database.InsertionCourse (types : String → Option ValueType)
    (a : Session (σ × List Request)) (e : ε) :
    Except Error Key → Insertion (σ × List Request) ε → Prop where
  /-- An identifier is not stored. Those in front of it are, it is the last one that is drawn, and
      nothing is sent. -/
  | stopped {before rest : List (String × Value)} {change : String × Value} {e' : ε}
      {cause : Error} {w : Workspace}
      (hdrawn : db.drawnKeys E m a.drawn e = before ++ change :: rest)
      (hstored : E.setAll e before = .ok e')
      (hrefused : E.set e' change.1 change.2 = .error cause) :
      InsertionCourse types a e (.error cause)
        ⟨⟨w, a.drawn + before.length + 1, a.executor⟩, e'⟩
  /-- All identifiers are drawn and stored, and then the insertion is sent with what the entity
      has. If the only key is generated, it is the key of the insertion. -/
  | sent {e₁ e' : ε} {answer : Except Error RowSet} {requests : List Request} {s : σ}
      {result : Except Error Key} {w : Workspace}
      (hstored : E.setAll e (db.drawnKeys E m a.drawn e) = .ok e₁)
      (hkept : ∀ change ∈ db.drawnKeys E m a.drawn e,
        ∃ v, Field.stored (types change.1) change.2 = .ok v ∧ E.get? e₁ change.1 = some v)
      (hanswer : db.executor.AnswersInsertion db.setting.dialect
        ⟨m.insertStatement db.setting.dialect,
          .ofProperties db.setting.dialect (E.get? e₁) m.insertable⟩ a.executor.1
        (m.identity?.map fun _ => db.setting.dialect.identitySelect) answer requests s)
      (hends : m.EndsInsertion E e₁ answer result e')
      (hgenerated : ∀ k key, m.keys = [k] → k.key = .identity → result = .ok key →
        ∃ rows, answer = .ok rows ∧ E.HasGenerated e' k rows key) :
      InsertionCourse types a e result
        ⟨⟨w, a.drawn + (db.drawnKeys E m a.drawn e).length,
          (s, a.executor.2 ++ requests)⟩, e'⟩

variable {db E m} {types : String → Option ValueType}

theorem Database.nodup_drawnKeys (hbuilt : m.IsBuilt) (n : Nat) (e : ε) :
    ((db.drawnKeys E m n e).map (·.1)).Nodup := by
  unfold drawnKeys
  rw [map_fst_drawings]
  exact hbuilt.nodup_keys.sublist ((List.filter_sublist.trans List.filter_sublist).map _)

/-- The keys are drawn, up to the first one that is not stored, and then the statements are
    written. -/
theorem Database.prepared_eq (hE : E.Stores types) {c : Catalog}
    (hc : c.IsCoherent db.setting.dialect) (hm : db.setting.mappings c E.type = .ok m)
    (hbuilt : m.IsBuilt) (hkeys : m.keys ≠ []) (n : Nat) (e : ε) :
    (∃ e', E.setAll e (db.drawnKeys E m n e) = .ok e' ∧
      db.prepared E c n e =
        (.ok ⟨m, ⟨m.insertStatement db.setting.dialect,
            .ofProperties db.setting.dialect (E.get? e') m.insertable⟩,
            m.identity?.map (·, db.setting.dialect.identitySelect)⟩,
          n + (db.drawnKeys E m n e).length, e')) ∨
    ∃ before change rest e' cause, db.drawnKeys E m n e = before ++ change :: rest ∧
      E.setAll e before = .ok e' ∧ E.set e' change.1 change.2 = .error cause ∧
      db.prepared E c n e = (.error cause, n + before.length + 1, e') := by
  have hnames : (Mapping.namesOf (m.keys.filter (·.key == .guid))).Nodup :=
    hbuilt.nodup_keys.sublist (List.filter_sublist.map _)
  unfold prepared
  rw [hm]
  dsimp only [Inserting.andThen]
  rw [List.isEmpty_eq_false_iff.mpr hkeys, if_neg Bool.false_ne_true]
  rcases Inserting.filled_eq hE.keepsOthers db.identifiers (fun _ _ => trivial) hnames n e with
    ⟨e', hstored, hfilled⟩ |
    ⟨before, change, rest, e', cause, hdrawn, hstored, hrefused, hfilled⟩
  · refine .inl ⟨e', hstored, ?_⟩
    rw [hfilled]
    dsimp only
    rw [PreparedInsertion.of_eq hc hm]
    rfl
  · exact .inr ⟨before, change, rest, e', cause, hdrawn, hstored, hrefused, by rw [hfilled]⟩

/-- Whatever the course, only the keys that are drawn and the generated one are changed. -/
theorem Database.InsertionCourse.unchanged (hE : E.Stores types)
    {a : Session (σ × List Request)} {e : ε} {result : Except Error Key}
    {x : Insertion (σ × List Request) ε} (h : db.InsertionCourse E m types a e result x)
    {name : String} (hdrawn : name ∉ (db.drawnKeys E m a.drawn e).map (·.1))
    (hidentity : ∀ k, m.identity? = some k → name ≠ k.name) :
    E.get? x.entity name = E.get? e name := by
  cases h with
  | stopped hkeys hstored =>
    refine hE.unchanged_setAll hstored fun hname => hdrawn ?_
    rw [hkeys, List.map_append]
    exact List.mem_append_left _ hname
  | sent hstored _ _ hends =>
    rw [hends.unchanged hE hidentity, hE.unchanged_setAll hstored hdrawn]

end

/-- For every dialect, every catalog that can be reached, every mapping that is built and has a
    key, and every entity that stores its properties apart: an insertion draws an identifier for
    each of the keys to be drawn that has no value, in their order, and stops at the first one that
    is not stored, with nothing sent. Otherwise it is sent, with the query of the generated key if
    there is one: as one statement, or as two of which the second one follows the success of the
    first one. However it ends, the entity is changed in the keys that were drawn and in the
    generated one, and nowhere else. If the generated key is the only one, a successful insertion
    answers the number that the last row tells, and the entity has that number. -/
theorem insertion_changes_keys_only {σ ε : Type} (db : Database σ) (E : Entity ε)
    {types : String → Option ValueType} (hE : E.Stores types) (a : Session (σ × List Request))
    (hreached : a.workspace.catalog.IsReached db.setting.dialect) {m : Mapping}
    (hm : db.setting.mappings a.workspace.catalog E.type = .ok m) (hbuilt : m.IsBuilt)
    (hkeys : m.keys ≠ []) (e : ε) :
    ∃ result x, db.watched.insert E ⟨a, e⟩ = ended result x ∧
      db.InsertionCourse E m types a e result x ∧
      ∀ name, name ∉ (db.drawnKeys E m a.drawn e).map (·.1) →
        (∀ k, m.identity? = some k → name ≠ k.name) →
        E.get? x.entity name = E.get? e name := by
  have hdrawnNodup := db.nodup_drawnKeys (E := E) hbuilt a.drawn e
  rcases db.prepared_eq hE hreached.isCoherent hm hbuilt hkeys a.drawn e with
    ⟨e₁, hstored, hprepared⟩ |
    ⟨before, change, rest, e₁, cause, hdrawn, hstored, hrefused, hprepared⟩
  · obtain ⟨w, hw⟩ := Inserting.insert_of_prepared db.watched E hprepared
    generalize hp : PreparedInsertion.mk m _ _ = p at hw
    obtain ⟨requests, hanswer, hlist⟩ :=
      p.answersInsertion db.setting.dialect db.executor a.executor
    rw [db.setting_watched, db.executor_watched, hlist] at hw
    have hends := PreparedInsertion.endsInsertion E m p.insert db.setting.dialect.identitySelect
      (p.sent db.setting.dialect db.executor a.executor.1).1 e₁
    subst hp
    rw [Option.map_map] at hanswer
    have hcourse := Database.InsertionCourse.sent (w := w) hstored
      (fun change => hE.changed_setAll hstored hdrawnNodup) hanswer hends
      (fun k key hone hk hok => hends.hasGenerated hE hok hone hk)
    exact ⟨_, _, hw, hcourse, fun name => hcourse.unchanged hE⟩
  · obtain ⟨w, hw⟩ := Inserting.insert_of_unprepared db.watched E hprepared
    have hcourse : db.InsertionCourse E m types a e (.error cause)
        ⟨⟨w, a.drawn + before.length + 1, a.executor⟩, e₁⟩ := .stopped hdrawn hstored hrefused
    exact ⟨.error cause, _, hw, hcourse, fun name => hcourse.unchanged hE⟩

/-! ## A sample -/

namespace Samples

/-- Values by name, of which some are properties with a type or without one. -/
def typed (types : List (String × Option ValueType)) : Entity (String → Value) where
  type := ⟨"Shipment"⟩
  fresh _ := .null
  get? x n := (types.lookup n).map fun _ => x n
  set x n v :=
    match types.lookup n with
    | none => .error (.noProperty "Shipment" n)
    | some type => (Field.stored type v).map (Function.update x n)

theorem set_typed {types : List (String × Option ValueType)} {x x' : String → Value} {n : String}
    {v : Value} (h : (typed types).set x n v = .ok x') :
    ∃ type v', types.lookup n = some type ∧ Field.stored type v = .ok v' ∧
      x' = Function.update x n v' := by
  unfold typed at h
  dsimp only at h
  cases htype : types.lookup n with
  | none =>
    rw [htype] at h
    cases h
  | some type =>
    rw [htype] at h
    obtain ⟨v', hv', rfl⟩ := map_eq_ok_iff.mp h
    exact ⟨type, v', rfl, hv', rfl⟩

/-- The type of a property, if it has one. -/
def typeIn (types : List (String × Option ValueType)) (n : String) : Option ValueType :=
  (types.lookup n).join

theorem stores_typed (types : List (String × Option ValueType)) :
    (typed types).Stores (typeIn types) := by
  refine ⟨fun {x x' n v} h => ?_, fun {x x' n v} h other hother => ?_⟩
  · obtain ⟨type, v', htype, hv', rfl⟩ := set_typed h
    refine ⟨v', by rw [typeIn, htype]; exact hv', ?_⟩
    change (types.lookup n).map (fun _ => Function.update x n v' n) = some v'
    rw [htype, Function.update_self]
    rfl
  · obtain ⟨type, v', -, -, rfl⟩ := set_typed h
    change (types.lookup other).map (fun _ => Function.update x n v' other) = _
    rw [Function.update_of_ne hother]
    rfl

/-- Shipments, with two keys to be drawn and one that the database generates. -/
def shipment : Mapping :=
  [{ name := "token", key := .guid }, { name := "number", key := .identity },
   { name := "batch", key := .guid }, { name := "note" }].foldl Mapping.insert
     (.ofTable "shipment")

/-- The types of their properties. -/
def shipmentTypes : List (String × Option ValueType) :=
  [("token", some .uuid), ("number", some (.integer .int32)), ("batch", some (.option .uuid)),
    ("note", none)]

/-- The type of shipments. -/
def shipmentType : Entity (String → Value) := typed shipmentTypes

/-- A shipment whose batch is known. -/
def unsent (n : String) : Value := if n = "batch" then .uuid ⟨7⟩ else .null

/-- A database that numbers shipments. -/
def shipments : Database Recorder where
  setting := { dialect := .mssql, model := fun _ => shipment }
  identifiers := .counted ⟨0xABC⟩
  executor := Recorder.executor

/-- Its session, with the answer to the first insertion. -/
def unnumbered : Session (Recorder × List Request) where
  workspace := {}
  drawn := 0
  executor :=
    (({} : Recorder).respond (.items [.row ⟨["ID"], [.decimal (.ofInt64 12)]⟩]), [])

/-- The key of the shipment when it is inserted. -/
def shipmentKey : Key :=
  .composite [("token", .uuid ⟨0xABC⟩), ("number", .int64 12), ("batch", .uuid ⟨7⟩)]

theorem isBuilt_shipment : shipment.IsBuilt :=
  List.foldlRecOn _ _ (.ofTable "shipment") fun _ h p _ => h.insert p

end Samples

/-- A token is drawn for the shipment, and its number is read from the answer; its batch and its
    note stay as they are. -/
theorem insertion_changes_keys_only_shipment :
    Samples.shipmentType.Stores (Samples.typeIn Samples.shipmentTypes) ∧
      Samples.shipment.keys ≠ [] ∧
      Samples.shipments.drawnKeys Samples.shipmentType Samples.shipment 0 Samples.unsent =
        [("token", .uuid ⟨0xABC⟩)] ∧
      ∃ x, Samples.shipments.watched.insert Samples.shipmentType
          ⟨Samples.unnumbered, Samples.unsent⟩ = .ok Samples.shipmentKey x ∧
        Samples.shipments.InsertionCourse Samples.shipmentType Samples.shipment
          (Samples.typeIn Samples.shipmentTypes) Samples.unnumbered Samples.unsent
          (.ok Samples.shipmentKey) x ∧
        Samples.shipmentType.get? x.entity "number" = some (.int32 12) ∧
        ∀ name, name ≠ "token" → name ≠ "number" →
          Samples.shipmentType.get? x.entity name =
            Samples.shipmentType.get? Samples.unsent name := by
  have hkeys : Samples.shipment.keys ≠ [] := by decide
  have hdrawn : Samples.shipments.drawnKeys Samples.shipmentType Samples.shipment 0
      Samples.unsent = [("token", .uuid ⟨0xABC⟩)] := rfl
  have hstores := Samples.stores_typed Samples.shipmentTypes
  obtain ⟨result, x, hrun, hcourse, hframe⟩ := insertion_changes_keys_only Samples.shipments
    Samples.shipmentType hstores Samples.unnumbered .empty (m := Samples.shipment) rfl
    Samples.isBuilt_shipment hkeys Samples.unsent
  obtain ⟨x', hx', hnumber⟩ : ∃ x', Samples.shipments.watched.insert Samples.shipmentType
      ⟨Samples.unnumbered, Samples.unsent⟩ = .ok Samples.shipmentKey x' ∧
      Samples.shipmentType.get? x'.entity "number" = some (.int32 12) := ⟨_, rfl, rfl⟩
  rw [hx'] at hrun
  cases result with
  | error cause => cases hrun
  | ok key =>
    cases hrun
    refine ⟨hstores, hkeys, hdrawn, x, hx', hcourse, hnumber, fun name htoken hother => ?_⟩
    refine hframe name ?_ fun k hk => ?_
    · rw [show Samples.unnumbered.drawn = 0 from rfl, hdrawn]
      simpa using htoken
    · cases hk
      exact hother

end EntitySql
