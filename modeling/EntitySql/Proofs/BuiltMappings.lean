/-
  Mappings that are built: their properties have different names.

  Building adds a name unless it is there (`withName`), or keeps the names as they are, so they stay
  distinct (`IsBuilt.nodup`).
-/
import EntitySql.Record
import Mathlib.Data.List.Induction

namespace EntitySql

/-! ## Building -/

namespace Mapping

/-- A mapping that is built step by step. -/
inductive IsBuilt : Mapping → Prop
  /-- Without properties. -/
  | ofTable (table : String) : IsBuilt (ofTable table)
  /-- With a schema. -/
  | withSchema {m : Mapping} (h : IsBuilt m) (schema : String) : IsBuilt (m.withSchema schema)
  /-- With a name for messages. -/
  | withEntity {m : Mapping} (h : IsBuilt m) (entity : String) : IsBuilt (m.withEntity entity)
  /-- With one more property, or another one of that name. -/
  | insert {m : Mapping} (h : IsBuilt m) (p : PropertyMapping) : IsBuilt (m.insert p)
  /-- With properties and a key by convention. -/
  | addConventional {m : Mapping} (h : IsBuilt m) (names : List String)
      (prototype : String → Option Value) : IsBuilt (m.addConventional names prototype)

/-- The names of properties. -/
abbrev namesOf (ps : List PropertyMapping) : List String := ps.map (·.name)

/-- Names with one more, unless it is there. -/
def withName (ns : List String) (n : String) : List String := if n ∈ ns then ns else ns ++ [n]

theorem nodup_withName {ns : List String} (h : ns.Nodup) (n : String) : (withName ns n).Nodup := by
  unfold withName
  by_cases hn : n ∈ ns
  · rwa [if_pos hn]
  · rw [if_neg hn]
    rw [List.nodup_append]
    refine ⟨h, by simp, fun m hm m' hm' => ?_⟩
    rw [List.mem_singleton] at hm'
    rintro rfl
    exact hn (hm' ▸ hm)

theorem mem_withName {m n : String} {ns : List String} : m ∈ withName ns n ↔ m ∈ ns ∨ m = n := by
  unfold withName
  by_cases hn : n ∈ ns
  · rw [if_pos hn]
    refine ⟨.inl, ?_⟩
    rintro (hm | rfl)
    · exact hm
    · exact hn
  · rw [if_neg hn, List.mem_append, List.mem_singleton]

theorem withName_head (n : String) (ns : List String) : withName (n :: ns) n = n :: ns :=
  if_pos List.mem_cons_self

theorem withName_cons {m n : String} (h : m ≠ n) (ns : List String) :
    withName (m :: ns) n = m :: withName ns n := by
  unfold withName
  by_cases hn : n ∈ ns
  · rw [if_pos hn, if_pos (List.mem_cons_of_mem m hn)]
  · have hnot : n ∉ m :: ns := by simpa [Ne.symm h] using hn
    rw [if_neg hn, if_neg hnot, List.cons_append]

theorem eraseDups_append_singleton (ns : List String) (n : String) :
    (ns ++ [n]).eraseDups = withName ns.eraseDups n := by
  unfold withName
  rw [List.eraseDups_append]
  by_cases hn : n ∈ ns
  · have hnone : [n].removeAll ns = [] := by simp [List.removeAll, hn]
    rw [hnone, if_pos (List.mem_eraseDups.mpr hn)]
    exact List.append_nil _
  · have hone : [n].removeAll ns = [n] := by simp [List.removeAll, hn]
    rw [hone, if_neg (fun h => hn (List.mem_eraseDups.mp h))]
    rfl

/-- Names that are added one by one stand in the order of their first mention. -/
theorem foldl_withName (ns : List String) : ns.foldl withName [] = ns.eraseDups := by
  induction ns using List.reverseRecOn with
  | nil => rfl
  | append_singleton ns n ih =>
    rw [List.foldl_append, ih, eraseDups_append_singleton]
    rfl

theorem nodup_eraseDups (ns : List String) : ns.eraseDups.Nodup := by
  rw [← foldl_withName]
  exact List.foldlRecOn ns _ List.nodup_nil fun _ h n _ => nodup_withName h n

theorem namesOf_put (p : PropertyMapping) (ps : List PropertyMapping) :
    namesOf (put p ps) = withName (namesOf ps) p.name := by
  induction ps with
  | nil => rfl
  | cons q qs ih =>
    have hcons : namesOf (q :: qs) = q.name :: namesOf qs := rfl
    unfold put
    rw [hcons]
    by_cases hq : q.name = p.name
    · rw [if_pos hq, hq, withName_head]
      rfl
    · rw [if_neg hq, withName_cons hq, ← ih]
      rfl

theorem namesOf_mention (ps : List PropertyMapping) (name : String) :
    namesOf (mention ps name) = withName (namesOf ps) name := by
  unfold mention withName
  by_cases hmem : name ∈ namesOf ps
  · have hany : ps.any (·.name == name) = true := by simpa using hmem
    rw [if_pos hmem, if_pos hany]
  · have hany : ¬ ps.any (·.name == name) = true := by simpa using hmem
    rw [if_neg hmem, if_neg hany]
    simp

theorem namesOf_mentions (ps : List PropertyMapping) (names : List String) :
    namesOf (names.foldl mention ps) = names.foldl withName (namesOf ps) := by
  induction names generalizing ps with
  | nil => rfl
  | cons name names ih => rw [List.foldl_cons, ih, namesOf_mention, List.foldl_cons]

/-- A change of a kind of key changes no name. -/
theorem namesOf_modify (ps : List PropertyMapping) (i : Nat) (kind : String → KeyKind) :
    namesOf (ps.modify i fun p => { p with key := kind p.name }) = namesOf ps := by
  induction ps generalizing i with
  | nil => cases i <;> rfl
  | cons p ps ih =>
    cases i with
    | zero => rfl
    | succ i => exact congrArg (p.name :: ·) (ih i)

/-- Mapping by convention adds the names in order, unless they are there. -/
theorem namesOf_addConventional (m : Mapping) (names : List String)
    (prototype : String → Option Value) :
    namesOf (m.addConventional names prototype).properties =
      names.foldl withName (namesOf m.properties) := by
  rw [← namesOf_mentions]
  unfold addConventional
  dsimp only
  split
  · rfl
  · split
    · rfl
    · exact namesOf_modify _ _ fun name => conventionalKind (prototype name)

/-- No two properties of a mapping that is built have the same name. -/
theorem IsBuilt.nodup {m : Mapping} (h : m.IsBuilt) : (namesOf m.properties).Nodup := by
  induction h with
  | ofTable table => exact List.nodup_nil
  | withSchema _ schema ih => exact ih
  | withEntity _ entity ih => exact ih
  | insert _ p ih =>
    have hput := nodup_withName ih p.name
    rwa [← namesOf_put] at hput
  | addConventional _ names prototype ih =>
    rw [namesOf_addConventional]
    exact List.foldlRecOn names _ ih fun _ h name _ => nodup_withName h name

theorem IsBuilt.nodup_columns {m : Mapping} (h : m.IsBuilt) : (namesOf m.columns).Nodup :=
  h.nodup.sublist (List.filter_sublist.map _)

theorem IsBuilt.nodup_keys {m : Mapping} (h : m.IsBuilt) : (namesOf m.keys).Nodup :=
  h.nodup_columns.sublist (List.filter_sublist.map _)

theorem IsBuilt.nodup_insertable {m : Mapping} (h : m.IsBuilt) : (namesOf m.insertable).Nodup :=
  h.nodup_columns.sublist (List.filter_sublist.map _)

theorem mem_insertable_iff {m : Mapping} {p : PropertyMapping} :
    p ∈ m.insertable ↔ p ∈ m.columns ∧ p.readOnly = false ∧ p.key ≠ .identity := by
  unfold insertable
  rw [List.mem_filter, Bool.and_eq_true, Bool.not_eq_true', bne_iff_ne]

/-- Where names differ, the first property of a name is the only one. -/
theorem find?_name {ps : List PropertyMapping} (h : (namesOf ps).Nodup) {p : PropertyMapping}
    (hp : p ∈ ps) : ps.find? (·.name == p.name) = some p := by
  induction ps with
  | nil => cases hp
  | cons q ps ih =>
    obtain ⟨hq, hps⟩ := List.nodup_cons.mp h
    rcases List.mem_cons.mp hp with rfl | hp
    · simp
    · have hne : q.name ≠ p.name := fun hname => hq (List.mem_map.mpr ⟨p, hp, hname.symm⟩)
      simpa [hne] using ih hps hp

end Mapping

/-- The mapping of a type of records is built by its steps. -/
theorem RecordType.isBuilt_mapping (t : RecordType) : t.mapping.IsBuilt := by
  have htable := Mapping.IsBuilt.ofTable t.table
  unfold mapping
  refine List.foldlRecOn t.steps _ ?_ fun m h step _ => ?_
  · cases t.schema <;> cases t.entity
    · exact htable
    · exact htable.withEntity _
    · exact htable.withSchema _
    · exact (htable.withSchema _).withEntity _
  · cases step with
    | insert p => exact h.insert p
    | addConventional names => exact h.addConventional names _

end EntitySql
