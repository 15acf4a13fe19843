/-
  The key of an entity and the entity itself address the same row.

  A key that an insertion answers is that of the entity it leaves (`Database.keyOf_of_insert`). When
  it is looked up, the select has the names and the values that the deletion of the entity has, so
  the condition on the key is true of the same rows wherever a number compares like the integer that
  it is in the key (`BindsAlike.value_keyExpr`).
-/
import EntitySql.Proofs.KeyedCommands
import EntitySql.Proofs.KeysOfEntities
import Mathlib.Algebra.Order.Ring.Int

namespace EntitySql

open Mapping
open Sql (Scope World)

/-! ## The same rows -/

/-- A world in which a number compares like the integer of 64 bits that it is as a part of a
    key. -/
def Sql.World.ComparesNumbers (W : World) : Prop :=
  ∀ a v v' : Value, v.IsKeyedAs v' → W.compare a v = W.compare a v'

theorem Sql.World.ComparesNumbers.compared {W : World} (hW : W.ComparesNumbers) (a : Value)
    {v v' : Value} (h : v.IsKeyedAs v') : W.compared .eq a v' = W.compared .eq a v := by
  have hnull : v'.isNull = v.isNull := by cases h <;> rfl
  unfold World.compared World.test
  dsimp only
  rw [hnull, hW a v v' h]

/-- The condition on the key is true of the same rows. -/
theorem Mapping.BindsAlike.value_keyExpr {ε : Type} {m : Mapping} {d : Dialect} {E : Entity ε}
    {e : ε} {own given : Parameters} (h : m.BindsAlike d E e own given)
    (hd : d ∈ Dialect.all.map (·.2)) {W : World} (hW : W.ComparesNumbers) (scope : Scope) :
    m.keyExpr.value W given scope = .yes ↔ m.keyExpr.value W own scope = .yes := by
  rw [Mapping.value_keyExpr, Mapping.value_keyExpr]
  refine forall₂_congr fun k hk => ?_
  obtain ⟨v, v', -, -, hown, hgiven, hkeyed⟩ := h.values k hk
  rw [hown, hgiven, Option.getD_some, Option.getD_some, hW.compared _ (hkeyed hd)]

/-! ## Calls by key -/

namespace Exchange

variable {ε : Type} {s : Setting} {c : Catalog} {E : Entity ε} {m : Mapping}

/-- A key that is accepted is looked up. -/
theorem get_of_keyParameters (hm : s.mappings c E.type = .ok m) {key : Key} {ps : Parameters}
    (h : m.keyParameters s.dialect key = .ok ps) :
    ∃ ex, ex.statement.parameters = ps ∧ get s c E key = .ok ex := by
  have hne := (bindsKey_given h).nonempty
  obtain ⟨sql, hsql⟩ : ∃ sql, s.statement c E.type .get = .ok sql := by
    rw [Setting.statement_of_mappings hm]
    cases c.statement? E.type .get with
    | some sql => exact ⟨sql, rfl⟩
    | none =>
      have hcondition := keyCondition_eq_fill (d := s.dialect) (numbers_namesOf m.keys) hne
      dsimp only [Mapping.statement, getStatement]
      rw [hcondition]
      exact ⟨_, rfl⟩
  unfold get
  rw [hm]
  dsimp only [bind, Except.bind]
  rw [h]
  dsimp only [Except.mapError]
  rw [hsql]
  exact ⟨_, rfl, rfl⟩

/-- Keys that become the same parameters are looked up in the same way. -/
theorem get_congr (hm : s.mappings c E.type = .ok m) {key key' : Key}
    (h : m.keyParameters s.dialect key = m.keyParameters s.dialect key') :
    get s c E key = get s c E key' := by
  unfold get
  rw [hm]
  dsimp only [bind, Except.bind]
  rw [h]

/-- An entity with a key is deleted. -/
theorem delete_of_entityKeyParameters (hc : c.IsCoherent s.dialect)
    (hm : s.mappings c E.type = .ok m) {e : ε} {ps : Parameters}
    (h : m.entityKeyParameters s.dialect E e = .ok ps) :
    ∃ ex, ex.statement.parameters = ps ∧ delete s c E e = .ok ex := by
  have hne := (bindsKey_entity h).nonempty
  have hsql : s.statement c E.type .delete =
      .ok ((m.deleteLayout s.dialect).fill (s.dialect.placeholders (namesOf m.keys))) := by
    rw [hc.statement hm]
    exact mapError_eq_ok_iff.mpr (deleteStatement_eq_fill (numbers_namesOf m.keys) hne)
  unfold delete
  rw [hm]
  dsimp only [bind, Except.bind]
  rw [hsql, h]
  exact ⟨_, rfl, rfl⟩

end Exchange

/-- The key of an entity addresses the row that the entity does: both are accepted, and so is the
    key with its parts in another order; they bind the same names to the same values; and the
    condition of both statements is true of the same rows. -/
structure Database.AddressesAlike {σ ε : Type} (db : Database σ) (E : Entity ε)
    (a : Session (σ × List Request)) (m : Mapping) (e : ε) (key : Key)
    (found : Exchange (Option ε)) (deleted : Exchange Bool) : Prop where
  /-- The key is looked up. -/
  get : Act.HandsOver db.executor (db.watched.get E key) a (.ok found)
  /-- With its parts in another order, it is looked up with the same statement. -/
  reordered : ∀ parts parts', key = .composite parts → parts'.Perm parts →
    Act.HandsOver db.executor (db.watched.get E (.composite parts')) a (.ok found)
  /-- The entity is deleted. -/
  delete : Act.HandsOver db.executor (db.watched.delete E e) a (.ok deleted)
  /-- The key becomes the parameters of the select. -/
  given : m.keyParameters db.setting.dialect key = .ok found.statement.parameters
  /-- The entity becomes the parameters of the deletion. -/
  own : m.entityKeyParameters db.setting.dialect E e = .ok deleted.statement.parameters
  /-- An update puts the same parameters on those of its assignments. -/
  update : ∀ excludeAssigned ex,
    Exchange.update db.setting a.workspace.catalog E e excludeAssigned = .ok ex →
    ex.statement.parameters = (entityParameters db.setting.dialect E e
      (m.updatable excludeAssigned)).extend deleted.statement.parameters ∧
    ∀ k ∈ m.keys, ex.statement.parameters.get? k.name = deleted.statement.parameters.get? k.name
  /-- Both have the same names and the same values. -/
  alike : m.BindsAlike db.setting.dialect E e deleted.statement.parameters
    found.statement.parameters
  /-- The select is that of the rows with the key. -/
  selection : found.statement.IsKeyed db.setting.dialect m key.valueOf?
    (m.getLayout db.setting.dialect) (namesOf m.keys) m.selection
  /-- The deletion is that of the rows with the key of the entity. -/
  deletion : deleted.statement.IsKeyed db.setting.dialect m (E.get? e)
    (m.deleteLayout db.setting.dialect) (namesOf m.keys) m.deletion
  /-- These are the same rows. -/
  rows : db.setting.dialect ∈ Dialect.all.map (·.2) → ∀ W : World, W.ComparesNumbers →
    ∀ scope : Scope, m.keyExpr.value W found.statement.parameters scope = .yes ↔
      m.keyExpr.value W deleted.statement.parameters scope = .yes

theorem Database.addressesAlike {σ ε : Type} (db : Database σ) {E : Entity ε}
    {a : Session (σ × List Request)} {m : Mapping}
    (hc : a.workspace.catalog.IsCoherent db.setting.dialect)
    (hm : db.setting.mappings a.workspace.catalog E.type = .ok m) (hbuilt : m.IsBuilt) {e : ε}
    {key : Key} (h : m.keyOf E e = .ok key) :
    ∃ found deleted, db.AddressesAlike E a m e key found deleted := by
  obtain ⟨hgiven, hreordered⟩ := keyParameters_of_keyOf db.setting.dialect hbuilt h
  have hown := entityKeyParameters_of_keyOf db.setting.dialect h
  have halike := bindsAlike_of_keyOf db.setting.dialect hbuilt h
  obtain ⟨found, hgivenParameters, hfound⟩ := Exchange.get_of_keyParameters hm hgiven
  obtain ⟨deleted, hownParameters, hdelete⟩ := Exchange.delete_of_entityKeyParameters hc hm hown
  have hturned (parts parts' : List (String × Key)) (hkey : key = .composite parts)
      (hperm : parts'.Perm parts) :
      Exchange.get db.setting a.workspace.catalog E (.composite parts') = .ok found := by
    rw [← hfound]
    exact Exchange.get_congr hm ((hreordered parts parts' hkey hperm).trans hgiven.symm)
  rw [← hgivenParameters] at hgiven halike
  rw [← hownParameters] at hown halike
  refine ⟨found, deleted, ?_, ?_, ?_, hgiven, hown, ?_, halike, Exchange.isKeyed_get hc hm hfound,
    Exchange.isKeyed_delete hc hm hdelete, fun hd W hW scope => halike.value_keyExpr hd hW scope⟩
  · rw [← hfound]
    exact (db.watched.sendsOnce_get E a key).handsOver
  · intro parts parts' hkey hperm
    rw [← hturned parts parts' hkey hperm]
    exact (db.watched.sendsOnce_get E a (.composite parts')).handsOver
  · rw [← hdelete]
    exact (db.watched.sendsOnce_delete E a e).handsOver
  · intro excludeAssigned ex hex
    refine ⟨?_, fun k hk => ?_⟩
    · obtain ⟨m', hm', hex⟩ := bind_eq_ok_iff.mp hex
      obtain rfl := Except.ok.inj (hm.symm.trans hm')
      obtain ⟨sql, -, hex⟩ := bind_eq_ok_iff.mp hex
      obtain ⟨keys, hkeys, hex⟩ := bind_eq_ok_iff.mp hex
      rw [hown] at hkeys
      cases hkeys
      cases hex
      rfl
    · -- wherever a key property stands in an update, it stands for the value of the entity
      have hkeyed := Exchange.isKeyed_update hc hm hex
      have hname : k.name ∈ ex.statement.parameters.names := by
        rw [← hkeyed.fits.closed]
        exact List.mem_append_right _ (List.mem_map_of_mem hk)
      obtain ⟨v, -, hget, -, hbound, -⟩ := halike.values k hk
      rw [hkeyed.values.get? k.name hname, hget, Option.getD_some]
      exact hbound.symm

/-! ## Keys of insertions -/

/-- The key that an insertion answers is that of the entity as it leaves it. -/
theorem Database.keyOf_of_insert {σ ε : Type} (db : Database σ) {E : Entity ε}
    {x x' : Insertion σ ε} {key : Key} (h : db.insert E x = .ok key x') {m : Mapping}
    (hm : db.setting.mappings x.session.workspace.catalog E.type = .ok m) :
    m.keyOf E x'.entity = .ok key ∧
      db.setting.Grows x.session.workspace.catalog x'.session.workspace.catalog := by
  obtain ⟨w, hgrows, hrun⟩ := Inserting.insert_run db E x
  rw [h] at hrun
  cases hprepared : db.prepared E x.session.workspace.catalog x.session.drawn x.entity with
  | mk r rest =>
    obtain ⟨n, e⟩ := rest
    rw [hprepared] at hrun
    cases r with
    | error cause => cases hrun
    | ok p =>
      obtain ⟨-, -, hof⟩ := Database.of_prepared hm hprepared
      dsimp only at hrun
      generalize p.sent db.setting.dialect db.executor x.session.executor = answer at hrun
      cases houtcome : p.outcome E answer.1 e with
      | mk r e' =>
        rw [houtcome] at hrun
        cases r with
        | error cause => cases hrun
        | ok key' =>
          cases hrun
          refine ⟨?_, hgrows⟩
          unfold PreparedInsertion.outcome at houtcome
          split at houtcome
          · cases houtcome
          · obtain ⟨hkey, rfl⟩ := Prod.mk.inj houtcome
            rw [← (PreparedInsertion.fields_of hof).1]
            exact hkey

/-- For every dialect, every catalog that can be reached and every mapping that is built: the key
    of an entity is accepted when it is looked up, and its parameters have the names of those that
    an update and a deletion of the entity collect, in the same order, and their values, but for
    numbers, which are integers of 64 bits in a key. The parts of a key may come in any order. So
    the key and the entity address the same rows. The keys that insertions answer are such keys, of
    the entities that they leave. -/
theorem returned_keys_address_the_entity {σ ε : Type} (db : Database σ) (E : Entity ε)
    (a : Session (σ × List Request))
    (hreached : a.workspace.catalog.IsReached db.setting.dialect) {m : Mapping}
    (hm : db.setting.mappings a.workspace.catalog E.type = .ok m) (hbuilt : m.IsBuilt) :
    (∀ e key, m.keyOf E e = .ok key →
      ∃ found deleted, db.AddressesAlike E a m e key found deleted) ∧
    ∀ e key x, db.watched.insert E ⟨a, e⟩ = .ok key x →
      m.keyOf E x.entity = .ok key ∧
      ∃ found deleted, db.AddressesAlike E x.session m x.entity key found deleted := by
  have hc := hreached.isCoherent
  refine ⟨fun e key hkey => db.addressesAlike hc hm hbuilt hkey, fun e key x hinsert => ?_⟩
  obtain ⟨hkey, hgrows⟩ := db.watched.keyOf_of_insert hinsert hm
  have hm' : db.setting.mappings x.session.workspace.catalog E.type = .ok m :=
    (congrFun (Setting.mappings_of_grows hgrows) E.type).trans hm
  exact ⟨hkey, db.addressesAlike (hc.of_grows hgrows) hm' hbuilt hkey⟩

/-! ## A sample -/

/-- The number that a value is, and how many of its digits are fraction digits. -/
def Value.number? : Value → Option (Int × Nat)
  | .int32 i => some (i.toInt, 0)
  | .int64 i => some (i.toInt, 0)
  | .decimal x => some (x.signed, x.scale)
  | _ => none

/-- Numbers in their order and texts in theirs, and the numbers first. -/
def Value.order (a b : Value) : Ordering :=
  match a.number?, b.number? with
  | some (i, n), some (j, k) => compare (i * 10 ^ k) (j * 10 ^ n)
  | some _, none => .lt
  | none, some _ => .gt
  | none, none =>
    match a, b with
    | .text s, .text t => compare s t
    | _, _ => .eq

theorem Value.order_of_number? {v : Value} {j : Int} {k : Nat} (h : v.number? = some (j, k))
    (a : Value) :
    order a v = match a.number? with
      | some (i, n) => compare (i * 10 ^ k) (j * 10 ^ n)
      | none => .gt := by
  unfold order
  rw [h]
  cases a.number? <;> rfl

namespace Samples

/-- A world without rows, in which numbers are ordered as such. -/
def numbers : World where
  rows _ := []
  compare := Value.order
  compare_int64 i j := by simp [Value.order, Value.number?]
  like _ _ := false

theorem comparesNumbers_numbers : numbers.ComparesNumbers := by
  intro a v v' h
  change Value.order a v = Value.order a v'
  cases h with
  | int64 i => rfl
  | text s => rfl
  | uuid u => rfl
  | int32 h =>
    rw [Value.order_of_number? rfl, Value.order_of_number? rfl, h]
  | decimal h =>
    rw [Value.order_of_number? rfl, Value.order_of_number? rfl]
    cases a.number? with
    | none => rfl
    | some number =>
      -- the fraction digits of the decimal are taken off both sides
      have hpos (k : Nat) : (0 : Int) < 10 ^ k := Int.pow_pos (by decide)
      dsimp only
      rw [h, Int.pow_zero, Int.mul_one, Int.mul_right_comm, ← cmp_eq_compare, ← cmp_eq_compare]
      exact cmp_mul_pos_right (hpos _) _ _

/-- Parcels, with a key of three parts. -/
def parcel : RecordType where
  table := "parcel"
  fields :=
    [⟨"shop", some (.integer .int32), none⟩, ⟨"number", some .decimal, none⟩,
     ⟨"token", some .uuid, none⟩]
  steps :=
    [.insert { name := "shop", key := .assigned }, .insert { name := "number", key := .assigned },
     .insert { name := "token", key := .assigned }]

/-- The parcels of a database that takes identifiers as texts. -/
def parcels : Database Recorder where
  setting := { dialect := .sqlite, model := fun _ => parcel.mapping }
  identifiers _ := Uuid.nil
  executor := Recorder.executor

/-- The type of parcels. -/
def parcelType : Entity Record := parcel.entityOf ⟨"Parcel"⟩

/-- Seventy, with a fraction digit. -/
def seventy : Decimal := ⟨false, 700, 1, by decide, by decide⟩

/-- A parcel. -/
def sentParcel : Record := [("shop", .int32 4), ("number", .decimal seventy), ("token", .uuid .nil)]

/-- Its key. -/
def parcelKey : Key :=
  .composite [("shop", .int64 4), ("number", .int64 70), ("token", .uuid .nil)]

/-- The key with its parts in another order. -/
def turnedKey : Key :=
  .composite [("token", .uuid .nil), ("shop", .int64 4), ("number", .int64 70)]

/-- The row of the parcel, in a table without fraction digits. -/
def parcelRow (_ : Sql.TableName) (column : String) : Value :=
  match column with
  | "shop" => .int64 4
  | "number" => .int64 70
  | _ => .text Uuid.nil.text

theorem mappings_parcel : parcels.setting.mappings {} parcelType.type = .ok parcel.mapping := rfl

theorem insert_sentParcel :
    ∃ a, parcels.watched.insert parcelType ⟨fresh, sentParcel⟩ =
      .ok parcelKey ⟨a, sentParcel⟩ := ⟨_, rfl⟩

end Samples

/-- The parcel is inserted and looked up by the key that is answered, which has numbers of 64 bits
    where the parcel has others. Its parts may be turned, and the row that is found is the one that
    is deleted. -/
theorem returned_keys_address_the_entity_parcel :
    ∃ a found deleted,
      Samples.parcels.watched.insert Samples.parcelType ⟨Samples.fresh, Samples.sentParcel⟩ =
        .ok Samples.parcelKey ⟨a, Samples.sentParcel⟩ ∧
      Samples.parcels.AddressesAlike Samples.parcelType a Samples.parcel.mapping
        Samples.sentParcel Samples.parcelKey found deleted ∧
      found.statement.parameters =
        ⟨[("shop", .int64 4), ("number", .int64 70), ("token", .text Uuid.nil.text)]⟩ ∧
      deleted.statement.parameters =
        ⟨[("shop", .int32 4), ("number", .decimal Samples.seventy),
          ("token", .text Uuid.nil.text)]⟩ ∧
      Act.HandsOver Samples.parcels.executor
        (Samples.parcels.watched.get Samples.parcelType Samples.turnedKey) a (.ok found) ∧
      Samples.parcel.mapping.keyExpr.value Samples.numbers deleted.statement.parameters
        Samples.parcelRow = .yes := by
  obtain ⟨-, hinserted⟩ := returned_keys_address_the_entity Samples.parcels Samples.parcelType
    Samples.fresh .empty Samples.mappings_parcel Samples.parcel.isBuilt_mapping
  obtain ⟨a, hinsert⟩ := Samples.insert_sentParcel
  obtain ⟨-, found, deleted, h⟩ := hinserted _ _ _ hinsert
  have hgiven : found.statement.parameters =
      ⟨[("shop", .int64 4), ("number", .int64 70), ("token", .text Uuid.nil.text)]⟩ :=
    (Except.ok.inj h.given).symm
  have hown : deleted.statement.parameters =
      ⟨[("shop", .int32 4), ("number", .decimal Samples.seventy),
        ("token", .text Uuid.nil.text)]⟩ := (Except.ok.inj h.own).symm
  refine ⟨a, found, deleted, hinsert, h, hgiven, hown, ?_, ?_⟩
  · exact h.reordered _ _ rfl (List.perm_append_singleton _ [_, _]).symm
  · have hrows := h.rows (List.mem_of_getElem? (i := 2) rfl) Samples.numbers
      Samples.comparesNumbers_numbers Samples.parcelRow
    rw [← hrows, hgiven]
    rfl

end EntitySql
