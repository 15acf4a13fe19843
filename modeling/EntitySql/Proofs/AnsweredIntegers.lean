/-
  Integers that a database answers: the number of rows that a count returns, and the generated key
  that an insertion stores.

  Both are read by `Value.asInt64`. A value is read as exactly the integer that it is
  (`Value.readsAs_iff_isExactly`), but for one kind of value: a whole binary number beyond 64 bits
  is read as the integer at that end of the range (`Value.ReadsAs`). The calls answer what is read
  from the value that the executor tells, and nothing else (`Database.count_eq_ok_iff`,
  `Database.stored_of_insert`).
-/
import EntitySql.Proofs.ExactIntegers
import EntitySql.Proofs.InsertionEffects
import EntitySql.Proofs.SingleExchange

namespace EntitySql

/-! ## Values -/

namespace Value

/-- The value is the integer, or a binary number that is. -/
inductive IsExactly : Value → Int → Prop where
  /-- It is the integer. -/
  | integer {v : Value} {i : Int} (h : v.IsInteger i) : IsExactly v i
  /-- It is a binary number with this value. -/
  | float64 {x : Binary64} {i : Int} (h : x.value? = some (i : Rat)) : IsExactly (.float64 x) i

/-- The value is a whole binary number beyond 64 bits. -/
inductive IsWideFloat : Value → Prop where
  /-- A binary number with such a value. -/
  | float64 {x : Binary64} {i : Int} (h : x.value? = some (i : Rat)) (hi : ¬ IsInt64 i) :
      IsWideFloat (.float64 x)

/-- What a value is read as: the integer that it is, or for a whole binary number beyond 64 bits
    the integer at that end of the range. -/
inductive ReadsAs : Value → Int64 → Prop where
  /-- The integer that it is. -/
  | exactly {v : Value} {n : Int64} (h : v.IsExactly n.toInt) : ReadsAs v n
  /-- The greatest integer for a number above the range. -/
  | greatest {x : Binary64} {i : Int} (h : x.value? = some (i : Rat))
      (hi : 0x8000000000000000 ≤ i) : ReadsAs (.float64 x) 0x7FFFFFFFFFFFFFFF
  /-- The least integer for a number below the range. -/
  | least {x : Binary64} {i : Int} (h : x.value? = some (i : Rat))
      (hi : i < -0x8000000000000000) : ReadsAs (.float64 x) (-0x8000000000000000)

variable {v : Value} {n : Int64}

theorem IsExactly.unique {i j : Int} (hi : v.IsExactly i) (hj : v.IsExactly j) : i = j := by
  cases hi with
  | integer hi =>
    cases hj with
    | integer hj => exact hi.unique hj
    | float64 => cases hi
  | float64 hi =>
    cases hj with
    | integer hj => cases hj
    | float64 hj =>
      rw [hi, Option.some.injEq] at hj
      exact_mod_cast hj

/-- A value that is no binary number is read as the integer that it is. -/
theorem asInt64_eq_some_iff_isInteger (hfloat : ∀ x, v ≠ .float64 x) :
    v.asInt64 = some n ↔ v.IsInteger n.toInt := by
  unfold asInt64
  cases v with
  | int32 i =>
    rw [isInteger_int32_iff, Option.some.injEq, ← Int64.toInt_inj, Int32.toInt_toInt64]
  | int64 i => rw [isInteger_int64_iff, Option.some.injEq, ← Int64.toInt_inj]
  | decimal d =>
    rw [isInteger_decimal_iff, Option.ite_none_right_eq_some, int64?_eq_some_iff]
    exact and_congr_right fun _ => eq_comm
  | text s =>
    have hspells := IntegerText.parseTrimmed_eq_ok_iff (s := s) (i := n.toInt)
    have hrange := isInt64_of_int64 n
    rw [and_iff_left hrange] at hspells
    rw [isInteger_text_iff, ← hspells]
    cases hparse : IntegerText.parseTrimmed s with
    | ok i =>
      simp only [hparse]
      rw [int64?_eq_some_iff, Except.ok.injEq, eq_comm]
    | error fault => simp [hparse]
  | float64 x => exact absurd rfl (hfloat x)
  | _ =>
    constructor
    · intro h
      cases h
    · intro h
      cases h

/-- The integer of 64 bits that is nearest to an integer. -/
def nearestInt64 (i : Int) : Int64 :=
  Int64.ofInt (max (-0x8000000000000000) (min 0x7FFFFFFFFFFFFFFF i))

theorem toInt_nearestInt64 (i : Int) :
    (nearestInt64 i).toInt = max (-0x8000000000000000) (min 0x7FFFFFFFFFFFFFFF i) :=
  Int64.toInt_ofInt_of_le (by omega) (by omega)

/-- A binary number is read as the integer that it is, or as the end of the range that it is
    beyond. -/
theorem asInt64_float64_eq_some_iff {x : Binary64} :
    (float64 x).asInt64 = some n ↔ (float64 x).ReadsAs n := by
  show x.toInt?.map nearestInt64 = some n ↔ _
  rw [Option.map_eq_some_iff]
  constructor
  · rintro ⟨i, hi, rfl⟩
    have hvalue := Binary64.toInt?_eq_some_iff.mp hi
    have hnearest := toInt_nearestInt64 i
    by_cases habove : 0x8000000000000000 ≤ i
    · have hgreatest : nearestInt64 i = 0x7FFFFFFFFFFFFFFF := by
        apply Int64.toInt_inj.mp
        show (nearestInt64 i).toInt = (0x7FFFFFFFFFFFFFFF : Int)
        omega
      rw [hgreatest]
      exact .greatest hvalue habove
    by_cases hbelow : i < -0x8000000000000000
    · have hleast : nearestInt64 i = -0x8000000000000000 := by
        apply Int64.toInt_inj.mp
        show (nearestInt64 i).toInt = (-0x8000000000000000 : Int)
        omega
      rw [hleast]
      exact .least hvalue hbelow
    · have hexact : (nearestInt64 i).toInt = i := by omega
      exact .exactly (.float64 (by rw [hexact]; exact hvalue))
  · intro h
    cases h with
    | exactly h =>
      cases h with
      | integer h => cases h
      | float64 hvalue =>
        refine ⟨n.toInt, Binary64.toInt?_eq_some_iff.mpr hvalue, Int64.toInt_inj.mp ?_⟩
        have hrange := isInt64_of_int64 n
        unfold IsInt64 at hrange
        rw [toInt_nearestInt64]
        omega
    | @greatest _ i hvalue hi =>
      refine ⟨i, Binary64.toInt?_eq_some_iff.mpr hvalue, Int64.toInt_inj.mp ?_⟩
      rw [toInt_nearestInt64]
      show _ = (0x7FFFFFFFFFFFFFFF : Int)
      omega
    | @least _ i hvalue hi =>
      refine ⟨i, Binary64.toInt?_eq_some_iff.mpr hvalue, Int64.toInt_inj.mp ?_⟩
      rw [toInt_nearestInt64]
      show _ = (-0x8000000000000000 : Int)
      omega

theorem readsAs_iff_isInteger (hfloat : ∀ x, v ≠ .float64 x) :
    v.ReadsAs n ↔ v.IsInteger n.toInt := by
  constructor
  · intro h
    cases h with
    | exactly h =>
      cases h with
      | integer h => exact h
      | @float64 x _ => exact absurd rfl (hfloat x)
    | @greatest x | @least x => exact absurd rfl (hfloat x)
  · exact fun h => .exactly (.integer h)

/-- A value is read as described. -/
theorem asInt64_eq_some_iff : v.asInt64 = some n ↔ v.ReadsAs n := by
  by_cases hfloat : ∃ x, v = .float64 x
  · obtain ⟨x, rfl⟩ := hfloat
    exact asInt64_float64_eq_some_iff
  · have hother : ∀ x, v ≠ .float64 x := fun x hx => hfloat ⟨x, hx⟩
    rw [asInt64_eq_some_iff_isInteger hother, readsAs_iff_isInteger hother]

/-- Every value but a wide binary number is read as exactly the integer that it is. -/
theorem readsAs_iff_isExactly (hwide : ¬ v.IsWideFloat) : v.ReadsAs n ↔ v.IsExactly n.toInt := by
  constructor
  · intro h
    cases h with
    | exactly h => exact h
    | greatest hvalue hi | least hvalue hi =>
      refine absurd (.float64 hvalue ?_) hwide
      unfold IsInt64
      omega
  · exact .exactly

/-- An integer beyond 64 bits is not read. -/
theorem asInt64_eq_none {i : Int} (hwide : ¬ v.IsWideFloat) (h : v.IsExactly i)
    (hi : ¬ IsInt64 i) : v.asInt64 = none := by
  rw [Option.eq_none_iff_forall_ne_some]
  intro n hread
  have hexactly := (readsAs_iff_isExactly hwide).mp (asInt64_eq_some_iff.mp hread)
  have heq := h.unique hexactly
  exact hi (heq ▸ isInt64_of_int64 n)

end Value

/-! ## Rows -/

/-- The row tells a value that is read as the integer. -/
def Row.TellsInteger (row : Row) (name : String) (n : Int64) : Prop :=
  ∃ v, row.Tells name v ∧ v.ReadsAs n

theorem Row.columnOrFirst_eq_ok_some_iff {row : Row} {name : String} {v : Value} :
    row.columnOrFirst name = .ok (some v) ↔ row.Tells name v := by
  constructor
  · exact tells_of_columnOrFirst
  · intro h
    unfold columnOrFirst column
    cases h with
    | @column i _ hi hname hfirst hv =>
      have hfind : row.labels.findIdx? (Text.equalIgnoringCase · name) = some i :=
        List.findIdx?_eq_some_iff_getElem.mpr ⟨hi, hname, fun j hj => by simp [hfirst j hj]⟩
      simp only [hfind, hv]
    | first hnone hv =>
      have hfind : row.labels.findIdx? (Text.equalIgnoringCase · name) = none :=
        List.findIdx?_eq_none_iff.mpr hnone
      simp only [hfind, hv, List.head?_cons]

/-- The integer that is read from a row is that of the value that the row tells. -/
theorem Row.read_eq_ok_some_iff {row : Row} {name : String} {n : Int64} :
    (row.columnOrFirst name).map (·.bind Value.asInt64) = .ok (some n) ↔
      row.TellsInteger name n := by
  rw [map_eq_ok_iff]
  constructor
  · rintro ⟨v, hcolumn, hread⟩
    obtain ⟨v, rfl, hn⟩ := Option.bind_eq_some_iff.mp hread
    exact ⟨v, columnOrFirst_eq_ok_some_iff.mp hcolumn, Value.asInt64_eq_some_iff.mp hn⟩
  · rintro ⟨v, htells, hreads⟩
    exact ⟨some v, columnOrFirst_eq_ok_some_iff.mpr htells, Value.asInt64_eq_some_iff.mpr hreads⟩

/-- The generated key is told by the last row. -/
theorem Inserting.identityOf_eq_ok_some_iff {rows : RowSet} {id : Int64} :
    identityOf rows = .ok (some id) ↔
      ∃ row, rows.getLast? = some row ∧ row.TellsInteger "Id" id := by
  unfold identityOf
  cases rows.getLast? with
  | none => simp
  | some row =>
    dsimp only
    rw [Row.read_eq_ok_some_iff]
    simp

namespace Database

theorem totalOf_cons_eq_ok_iff {row : Row} {rows : RowSet} {total : Nat} :
    totalOf (row :: rows) = .ok total ↔
      ∃ n, (row.columnOrFirst "Total").map (·.bind Value.asInt64) = .ok (some n) ∧
        n.toInt = total := by
  unfold totalOf
  dsimp only
  cases row.columnOrFirst "Total" with
  | error cause => simp [Except.map]
  | ok v =>
    simp only [Except.map, Except.ok.injEq]
    cases v.bind Value.asInt64 with
    | none => simp
    | some n =>
      simp only [Option.some.injEq, exists_eq_left']
      by_cases hnonneg : 0 ≤ n.toInt
      · rw [if_pos hnonneg, Except.ok.injEq]
        omega
      · rw [if_neg hnonneg]
        constructor
        · intro h
          cases h
        · intro h
          omega

/-- The number of rows is told by the first row, and is not negative. -/
theorem totalOf_eq_ok_iff {rows : RowSet} {total : Nat} :
    totalOf rows = .ok total ↔
      ∃ row n, rows.head? = some row ∧ row.TellsInteger "Total" n ∧ n.toInt = total := by
  cases rows with
  | nil =>
    constructor
    · intro h
      cases h
    · rintro ⟨row, n, hhead, -⟩
      cases hhead
  | cons row rows =>
    rw [totalOf_cons_eq_ok_iff]
    constructor
    · rintro ⟨n, hread, htotal⟩
      exact ⟨row, n, rfl, Row.read_eq_ok_some_iff.mp hread, htotal⟩
    · rintro ⟨row, n, hhead, htells, htotal⟩
      cases hhead
      exact ⟨n, Row.read_eq_ok_some_iff.mpr htells, htotal⟩

variable {σ ε : Type} (db : Database σ)

/-- A count succeeds when its statement is written, the executor answers it, and the answer tells
    the number. -/
theorem count_eq_ok_iff (e : EntityType) (p : Option Predicate) (a : Session σ) {total : Nat} :
    (∃ a', db.count e p a = .ok total a') ↔
      ∃ plan rows,
        countPlan db.setting.dialect (db.setting.view a.workspace.catalog) e p = .ok plan ∧
        (db.executor.rows (plan.statement db.setting.dialect) a.executor).1 = .ok rows ∧
        totalOf rows = .ok total := by
  have hsends := db.sendsOnce_count a e p
  unfold Exchange.total at hsends
  cases hplan : countPlan db.setting.dialect (db.setting.view a.workspace.catalog) e p with
  | error cause =>
    rw [hplan] at hsends
    obtain ⟨-, w, hw⟩ := hsends
    rw [hw]
    simp
  | ok plan =>
    rw [hplan] at hsends
    obtain ⟨w, hw⟩ := hsends
    have hanswer : (∃ a', db.count e p a = .ok total a') ↔
        (db.executor.rows (plan.statement db.setting.dialect) a.executor).1 >>= totalOf =
          .ok total := by
      rw [hw]
      show (∃ a', ended ((db.executor.rows _ a.executor).1 >>= totalOf) _ = .ok total a') ↔ _
      cases (db.executor.rows (plan.statement db.setting.dialect) a.executor).1 >>= totalOf with
      | error cause => simp [ended]
      | ok total' => simp [ended]
    rw [hanswer, bind_eq_ok_iff]
    constructor
    · rintro ⟨rows, hrows, htotal⟩
      exact ⟨plan, rows, rfl, hrows, htotal⟩
    · rintro ⟨plan', rows, hplan', hrows, htotal⟩
      cases hplan'
      exact ⟨rows, hrows, htotal⟩

variable {db} {E : Entity ε}

/-- An insertion that succeeds has stored the generated key that the answer tells. -/
theorem stored_of_insert {a : Session σ} {m : Mapping}
    (hc : a.workspace.catalog.IsCoherent db.setting.dialect)
    (hm : db.setting.mappings a.workspace.catalog E.type = .ok m) {k : PropertyMapping}
    (hk : m.identity? = some k) {e : ε} {key : Key} {x : Insertion σ ε}
    (hrun : db.insert E ⟨a, e⟩ = .ok key x) :
    ∃ e₁ requests rows id,
      db.executor.AnswersInsertion db.setting.dialect
        ⟨m.insertStatement db.setting.dialect,
          .ofProperties db.setting.dialect (E.get? e₁) m.insertable⟩
        a.executor (some db.setting.dialect.identitySelect) (.ok rows) requests
        x.session.executor ∧
      Inserting.identityOf rows = .ok (some id) ∧
      E.set e₁ k.name (.int64 id) = .ok x.entity := by
  obtain ⟨p, e₁, -, rfl, hexecutor, hends⟩ := db.prepared_of_insert hc hm hrun
  obtain ⟨rows, id, hrows, hid, hset, -⟩ := hends.generated_of_ok rfl hk
  obtain ⟨requests, hanswers, -⟩ := PreparedInsertion.answersInsertion
    ⟨m, ⟨m.insertStatement db.setting.dialect,
      .ofProperties db.setting.dialect (E.get? e₁) m.insertable⟩,
      m.identity?.map (·, db.setting.dialect.identitySelect)⟩
    db.setting.dialect db.executor (a.executor, [])
  rw [hrows, hexecutor, Option.map_map, hk] at hanswers
  exact ⟨e₁, requests, rows, id, hanswers, hid, hset⟩

end Database

/-- Every value but a whole binary number beyond 64 bits is read as exactly the integer that it is,
    and it is not read when that has more than 64 bits; a whole binary number beyond 64 bits is read
    as the end of the range. For every database, a count succeeds just when its statement is
    written, the executor answers it and the first row tells an integer that is not negative, and it
    answers that integer. For every catalog that can be reached and every mapping, when an insertion
    succeeds, the generated key that the entity takes is the integer that the last row tells. -/
theorem answered_integers_are_told {σ ε : Type} (db : Database σ) (E : Entity ε) :
    (∀ (v : Value) (n : Int64), v.asInt64 = some n ↔ v.ReadsAs n) ∧
    (∀ v : Value, ¬ v.IsWideFloat →
      (∀ n, v.asInt64 = some n ↔ v.IsExactly n.toInt) ∧
      ∀ i, v.IsExactly i → ¬ IsInt64 i → v.asInt64 = none) ∧
    (∀ (e : EntityType) (p : Option Predicate) (a : Session σ) (total : Nat),
      (∃ a', db.count e p a = .ok total a') ↔
        ∃ plan rows row n,
          countPlan db.setting.dialect (db.setting.view a.workspace.catalog) e p = .ok plan ∧
          (db.executor.rows (plan.statement db.setting.dialect) a.executor).1 = .ok rows ∧
          rows.head? = some row ∧ row.TellsInteger "Total" n ∧ n.toInt = total) ∧
    ∀ (a : Session σ) (m : Mapping), a.workspace.catalog.IsReached db.setting.dialect →
      db.setting.mappings a.workspace.catalog E.type = .ok m →
      ∀ k, m.identity? = some k → ∀ (e : ε) (key : Key) (x : Insertion σ ε),
        db.insert E ⟨a, e⟩ = .ok key x →
        ∃ e₁ requests rows row id,
          db.executor.AnswersInsertion db.setting.dialect
            ⟨m.insertStatement db.setting.dialect,
              .ofProperties db.setting.dialect (E.get? e₁) m.insertable⟩
            a.executor (some db.setting.dialect.identitySelect) (.ok rows) requests
            x.session.executor ∧
          rows.getLast? = some row ∧ row.TellsInteger "Id" id ∧
          E.set e₁ k.name (.int64 id) = .ok x.entity := by
  refine ⟨fun v n => Value.asInt64_eq_some_iff, ?_, ?_, ?_⟩
  · intro v hwide
    refine ⟨fun n => ?_, fun i => Value.asInt64_eq_none hwide⟩
    rw [Value.asInt64_eq_some_iff, Value.readsAs_iff_isExactly hwide]
  · intro e p a total
    rw [db.count_eq_ok_iff]
    constructor
    · rintro ⟨plan, rows, hplan, hrows, htotal⟩
      obtain ⟨row, n, hhead, htells, hn⟩ := Database.totalOf_eq_ok_iff.mp htotal
      exact ⟨plan, rows, row, n, hplan, hrows, hhead, htells, hn⟩
    · rintro ⟨plan, rows, row, n, hplan, hrows, hhead, htells, hn⟩
      have htotal := Database.totalOf_eq_ok_iff.mpr ⟨row, n, hhead, htells, hn⟩
      exact ⟨plan, rows, hplan, hrows, htotal⟩
  · intro a m hreached hm k hk e key x hrun
    obtain ⟨e₁, requests, rows, id, hanswers, hid, hset⟩ :=
      Database.stored_of_insert hreached.isCoherent hm hk hrun
    obtain ⟨row, hlast, htells⟩ := Inserting.identityOf_eq_ok_some_iff.mp hid
    exact ⟨e₁, requests, rows, row, id, hanswers, hlast, htells, hset⟩

/-- The number of a shipment is told by the last row. -/
theorem answered_integers_are_told_shipment :
    Samples.unnumbered.workspace.catalog.IsReached Samples.shipments.watched.setting.dialect ∧
      Samples.shipment.identity? = some { name := "number", key := .identity } ∧
      ¬ (Value.decimal (.ofInt64 12)).IsWideFloat ∧
      ∃ key x, Samples.shipments.watched.insert Samples.shipmentType
          ⟨Samples.unnumbered, Samples.unsent⟩ = .ok key x ∧
        ∃ e₁ row id, Row.TellsInteger row "Id" id ∧
          Samples.shipmentType.set e₁ "number" (.int64 id) = .ok x.entity := by
  have hwide : ¬ (Value.decimal (.ofInt64 12)).IsWideFloat := by
    intro h
    cases h
  obtain ⟨-, -, -, htold⟩ :=
    answered_integers_are_told Samples.shipments.watched Samples.shipmentType
  obtain ⟨x, hrun⟩ : ∃ x, Samples.shipments.watched.insert Samples.shipmentType
      ⟨Samples.unnumbered, Samples.unsent⟩ = .ok Samples.shipmentKey x := ⟨_, rfl⟩
  obtain ⟨e₁, -, -, row, id, -, -, htells, hset⟩ :=
    htold Samples.unnumbered Samples.shipment .empty rfl _ rfl Samples.unsent _ x hrun
  exact ⟨.empty, rfl, hwide, _, x, hrun, e₁, row, id, htells, hset⟩

/-- The binary number 2⁶³ is read as the integer below it. -/
theorem wide_float_is_read_as_another_integer :
    (Value.float64 ⟨0x43E0000000000000⟩).IsExactly 0x8000000000000000 ∧
      (Value.float64 ⟨0x43E0000000000000⟩).asInt64 = some 0x7FFFFFFFFFFFFFFF ∧
      ¬ (Value.float64 ⟨0x43E0000000000000⟩).IsExactly (0x7FFFFFFFFFFFFFFF : Int64).toInt := by
  have hexactly : (Value.float64 ⟨0x43E0000000000000⟩).IsExactly 0x8000000000000000 :=
    .float64 (Binary64.toInt?_eq_some_iff.mp (by decide +kernel))
  refine ⟨hexactly, by decide +kernel, fun hother => ?_⟩
  have heq := hexactly.unique hother
  exact absurd heq (by decide)

end EntitySql
