/-
  Keys that are found by convention, and properties without a column.

  The key by convention is looked for among all properties, and it is not looked for at all when
  some property is a key already; statements only know the keys that have a column. So a property
  without a column can hold the key: it was declared one, or it is the first one by its name
  (`HoldsKey`). Then the mapping has no key that a statement can use, whatever the other properties
  are called. Where no property holds the key in this way, it is the first one by its name among
  those that have a column (`IsFirstId.among_columns`).
-/
import EntitySql.Proofs.MappingSteps

namespace EntitySql

namespace Mapping

/-! ## The first property by its name -/

theorem findIdx?_of_split {P : PropertyMapping → Bool} {Q : PropertyMapping → Prop}
    (hP : ∀ p, P p = true ↔ Q p) {front : List PropertyMapping} {p : PropertyMapping}
    (hfront : ∀ q ∈ front, ¬ Q q) (hp : Q p) (back : List PropertyMapping) :
    (front ++ p :: back).findIdx? P = some front.length := by
  have hnone : front.findIdx? P = none :=
    List.findIdx?_eq_none_iff.mpr fun q hq =>
      Bool.eq_false_iff.mpr fun hq' => hfront q hq ((hP q).mp hq')
  have hsome : P p = true := (hP p).mpr hp
  rw [List.findIdx?_append, hnone, List.findIdx?_cons, hsome]
  simp

namespace IsFirstId

variable {front back : List PropertyMapping} {p : PropertyMapping}

/-- The search by convention finds the first property by its name. -/
theorem conventionalKey? (h : IsFirstId front p back) :
    Mapping.conventionalKey? (front ++ p :: back) = some front.length := by
  have hcalled (q : PropertyMapping) : isIdName q.name = true ↔ AreId q.name.toList := isIdName_iff
  have hending (q : PropertyMapping) : endsWithId q.name = true ↔ EndsWithId q.name :=
    endsWithId_iff
  unfold Mapping.conventionalKey?
  cases h with
  | called hp hfront => rw [findIdx?_of_split hcalled hfront hp]
  | ending hnone hp hfront =>
    have hnot : (front ++ p :: back).findIdx? (fun q => isIdName q.name) = none :=
      List.findIdx?_eq_none_iff.mpr fun q hq =>
        Bool.eq_false_iff.mpr fun hq' => hnone q hq ((hcalled q).mp hq')
    rw [hnot]
    exact findIdx?_of_split hending hfront hp back

/-- There is one first property by its name. -/
theorem unique (h : IsFirstId front p back) {front' back' : List PropertyMapping}
    {p' : PropertyMapping} (h' : IsFirstId front' p' back')
    (hps : front ++ p :: back = front' ++ p' :: back') : p = p' := by
  have hfound := h.conventionalKey?
  rw [hps, h'.conventionalKey?] at hfound
  have hlength : front.length = front'.length := (Option.some.inj hfound).symm
  have hbehind := (List.append_inj hps hlength).2
  exact (List.cons.inj hbehind).1

/-- Where the first property by its name has a column, it is the first one among the columns. -/
theorem among_columns (h : IsFirstId front p back) :
    IsFirstId (front.filter (!·.ignored)) p (back.filter (!·.ignored)) := by
  cases h with
  | called hp hfront => exact .called hp fun q hq => hfront q (List.mem_of_mem_filter hq)
  | ending hnone hp hfront =>
    refine .ending (fun q hq => hnone q ?_) hp fun q hq => hfront q (List.mem_of_mem_filter hq)
    have hsublist := (List.filter_sublist (p := fun q => !q.ignored) (l := front)).append
      ((List.filter_sublist (p := fun q => !q.ignored) (l := back)).cons_cons p)
    exact hsublist.subset hq

end IsFirstId

/-! ## Keys with a column -/

theorem mem_columns_iff {m : Mapping} {p : PropertyMapping} :
    p ∈ m.columns ↔ p ∈ m.properties ∧ p.ignored = false := by
  unfold columns
  rw [List.mem_filter, Bool.not_eq_true']

theorem keys_eq_nil_iff {m : Mapping} : m.keys = [] ↔ ∀ p ∈ m.columns, p.key = .notKey := by
  unfold keys
  rw [List.filter_eq_nil_iff]
  simp [PropertyMapping.isKey, KeyKind.isKey]

/-- The columns around a property with a column. -/
theorem filter_columns {p : PropertyMapping} (hcolumn : p.ignored = false)
    (front back : List PropertyMapping) :
    (front ++ p :: back).filter (!·.ignored) =
      front.filter (!·.ignored) ++ p :: back.filter (!·.ignored) := by
  rw [List.filter_append, List.filter_cons_of_pos (by simpa using hcolumn)]

/-- Where all other properties are no keys, a key with a column is the only one. -/
theorem keys_of_single {m : Mapping} {front back : List PropertyMapping} {p : PropertyMapping}
    (hproperties : m.properties = front ++ p :: back)
    (hothers : ∀ q ∈ front ++ back, q.key = .notKey) (hkey : p.key ≠ .notKey)
    (hcolumn : p.ignored = false) : m.keys = [p] := by
  have hnone {qs : List PropertyMapping} (hqs : ∀ q ∈ qs, q.key = .notKey) :
      (qs.filter (!·.ignored)).filter PropertyMapping.isKey = [] := by
    rw [List.filter_eq_nil_iff]
    intro q hq
    simp [PropertyMapping.isKey, KeyKind.isKey, hqs q (List.mem_of_mem_filter hq)]
  have hfront := hnone fun q hq => hothers q (List.mem_append_left back hq)
  have hback := hnone fun q hq => hothers q (List.mem_append_right front hq)
  have hp : p.isKey = true := by simpa [PropertyMapping.isKey, KeyKind.isKey] using hkey
  unfold keys columns
  rw [hproperties, filter_columns hcolumn, List.filter_append, hfront,
    List.filter_cons_of_pos hp, hback, List.nil_append]

theorem key_of_mem_newcomers {ps : List PropertyMapping} {names : List String}
    {p : PropertyMapping} (h : p ∈ newcomers ps names) : p.key = .notKey := by
  obtain ⟨name, -, rfl⟩ := List.mem_map.mp h
  rfl

/-- A property without a column that holds the key when names are mapped by convention. -/
inductive HoldsKey (ps : List PropertyMapping) (names : List String) (p : PropertyMapping) :
    Prop where
  /-- It was declared a key. -/
  | declared (hignored : p.ignored = true) (hp : p ∈ ps) (hkey : p.key ≠ .notKey)
  /-- It is the first one by its name. -/
  | first {front back : List PropertyMapping} (hignored : p.ignored = true)
      (hps : ps ++ newcomers ps names = front ++ p :: back) (hfirst : IsFirstId front p back)

/-- A key without a column holds the key. -/
theorem held_of_declared {m m' : Mapping} {names : List String}
    (hproperties : m'.properties = m.properties ++ newcomers m.properties names)
    (hkeyless : ∀ p ∈ m.columns, p.key = .notKey) {p : PropertyMapping} (hp : p ∈ m.properties)
    (hkey : p.key ≠ .notKey) : m'.keys = [] ∧ HoldsKey m.properties names p := by
  have hignored : p.ignored = true := by
    by_contra hnot
    exact hkey (hkeyless p (mem_columns_iff.mpr ⟨hp, Bool.eq_false_iff.mpr hnot⟩))
  refine ⟨keys_eq_nil_iff.mpr fun q hq => ?_, .declared hignored hp hkey⟩
  obtain ⟨hq, hcolumn⟩ := mem_columns_iff.mp hq
  rw [hproperties] at hq
  rcases List.mem_append.mp hq with hq | hq
  · exact hkeyless q (mem_columns_iff.mpr ⟨hq, hcolumn⟩)
  · exact key_of_mem_newcomers hq

section

variable {m m' : Mapping} {names : List String} {front back : List PropertyMapping}
  {p : PropertyMapping} {kind : KeyKind}

theorem keyless_of_split (hkeyless : ∀ q ∈ m.properties, q.key = .notKey)
    (hps : m.properties ++ newcomers m.properties names = front ++ p :: back) :
    ∀ q ∈ front ++ p :: back, q.key = .notKey := by
  intro q hq
  rw [← hps] at hq
  rcases List.mem_append.mp hq with hq | hq
  · exact hkeyless q hq
  · exact key_of_mem_newcomers hq

/-- The first property by its name holds the key when it has no column. -/
theorem held_of_first (hproperties : m'.properties = front ++ { p with key := kind } :: back)
    (hkeyless : ∀ q ∈ m.properties, q.key = .notKey)
    (hps : m.properties ++ newcomers m.properties names = front ++ p :: back)
    (hfirst : IsFirstId front p back) (hignored : p.ignored = true) :
    m'.keys = [] ∧ HoldsKey m.properties names p := by
  refine ⟨keys_eq_nil_iff.mpr fun q hq => ?_, .first hignored hps hfirst⟩
  obtain ⟨hq, hcolumn⟩ := mem_columns_iff.mp hq
  rw [hproperties, List.mem_append, List.mem_cons] at hq
  have hothers := keyless_of_split hkeyless hps
  rcases hq with hq | rfl | hq
  · exact hothers q (List.mem_append_left _ hq)
  · exact absurd hignored (Bool.eq_false_iff.mp hcolumn)
  · exact hothers q (List.mem_append_right _ (List.mem_cons_of_mem p hq))

/-- The first property by its name is the key when it has a column, and no property holds the
    key. -/
theorem key_of_first (hproperties : m'.properties = front ++ { p with key := kind } :: back)
    (hkeyless : ∀ q ∈ m.properties, q.key = .notKey)
    (hps : m.properties ++ newcomers m.properties names = front ++ p :: back)
    (hfirst : IsFirstId front p back) (hkey : kind ≠ .notKey) (hcolumn : p.ignored = false) :
    m'.keys = [{ p with key := kind }] ∧ ∀ q, ¬ HoldsKey m.properties names q := by
  have hothers := keyless_of_split hkeyless hps
  refine ⟨keys_of_single hproperties (fun q hq => hothers q ?_) hkey hcolumn, fun q hq => ?_⟩
  · rw [List.mem_append, List.mem_cons]
    rcases List.mem_append.mp hq with hq | hq
    · exact .inl hq
    · exact .inr (.inr hq)
  · cases hq with
    | declared _ hq hkey => exact hkey (hkeyless q hq)
    | first hignored hps' hfirst' =>
      have hsame := hfirst.unique hfirst' (hps.symm.trans hps')
      rw [← hsame, hcolumn] at hignored
      cases hignored

end

/-- For every mapping, every list of names and whatever a fresh entity holds: let no property with
    a column be a key, and let one of them be called `id` in any case, or end so, when the names
    are mapped by convention. Then the mapping has no key with a column just when a property
    without one holds the key. Otherwise it has one key, the first property by its name among
    those that have a column. -/
theorem key_is_held_or_first (m : Mapping) (names : List String)
    (prototype : String → Option Value) (hkeyless : ∀ p ∈ m.columns, p.key = .notKey)
    (hcolumn : ∃ p ∈ (m.addConventional names prototype).columns, EndsWithId p.name) :
    ((m.addConventional names prototype).keys = [] ↔ ∃ p, HoldsKey m.properties names p) ∧
      ((∀ p, ¬ HoldsKey m.properties names p) →
        ∃ front p back,
          (m.properties ++ newcomers m.properties names).filter (!·.ignored) =
            front ++ p :: back ∧
          IsFirstId front p back ∧
          (m.addConventional names prototype).keys =
            [{ p with key := conventionalKind (prototype p.name) }]) := by
  have hadds := m.addsConventional names prototype
  generalize m.addConventional names prototype = m' at hadds hcolumn ⊢
  generalize hproperties : m'.properties = ps' at hadds
  cases hadds with
  | keyed hkey =>
    obtain ⟨p, hp, hkey⟩ := hkey
    obtain ⟨hkeys, hholds⟩ := held_of_declared hproperties hkeyless hp hkey
    exact ⟨⟨fun _ => ⟨p, hholds⟩, fun _ => hkeys⟩, fun hnone => absurd hholds (hnone p)⟩
  | keyless _ hnone =>
    obtain ⟨p, hp, hends⟩ := hcolumn
    have hmem := (mem_columns_iff.mp hp).1
    rw [hproperties] at hmem
    exact absurd hends (hnone p hmem)
  | @chosen front back p kind hkeyless' hps hfirst hkind hkey =>
    subst hkind
    cases hignored : p.ignored with
    | true =>
      obtain ⟨hkeys, hholds⟩ := held_of_first hproperties hkeyless' hps hfirst hignored
      exact ⟨⟨fun _ => ⟨p, hholds⟩, fun _ => hkeys⟩, fun hnone => absurd hholds (hnone p)⟩
    | false =>
      obtain ⟨hkeys, hnone⟩ := key_of_first hproperties hkeyless' hps hfirst hkey hignored
      refine ⟨⟨fun h => ?_, fun ⟨q, hq⟩ => absurd hq (hnone q)⟩, fun _ => ?_⟩
      · rw [hkeys] at h
        cases h
      · refine ⟨_, p, _, ?_, hfirst.among_columns, hkeys⟩
        rw [hps, filter_columns hignored]

end Mapping

/-- The mapping of invoices, so far with a property of that name that has no column. -/
def Samples.invoiceIgnoring (name : String) : Mapping :=
  (Mapping.ofTable "invoice").insert { name := name, ignored := true }

/-- The name `void` ends like that of a key, and does not come before `ID`. -/
theorem key_is_held_or_first_void :
    (∀ p ∈ (Samples.invoiceIgnoring "void").columns, p.key = .notKey) ∧
      (∃ p ∈ ((Samples.invoiceIgnoring "void").addConventional ["ID", "amount"]
        fun _ => some (.uuid .nil)).columns, Mapping.EndsWithId p.name) ∧
      (∀ p, ¬ Mapping.HoldsKey (Samples.invoiceIgnoring "void").properties ["ID", "amount"] p) ∧
      ((Samples.invoiceIgnoring "void").addConventional ["ID", "amount"]
        fun _ => some (.uuid .nil)).keys = [{ name := "ID", key := .guid }] := by
  have hkeyless : ∀ p ∈ (Samples.invoiceIgnoring "void").columns, p.key = .notKey := by decide
  have hcolumn : ∃ p ∈ ((Samples.invoiceIgnoring "void").addConventional ["ID", "amount"]
      fun _ => some (.uuid .nil)).columns, Mapping.EndsWithId p.name :=
    ⟨{ name := "ID", key := .guid }, by decide +kernel, Mapping.endsWithId_iff.mp (by decide)⟩
  have hkeys : ((Samples.invoiceIgnoring "void").addConventional ["ID", "amount"]
      fun _ => some (.uuid .nil)).keys = [{ name := "ID", key := .guid }] := by decide +kernel
  obtain ⟨hheld, -⟩ := Mapping.key_is_held_or_first _ _ _ hkeyless hcolumn
  refine ⟨hkeyless, hcolumn, fun p hp => ?_, hkeys⟩
  have hnone := hheld.mpr ⟨p, hp⟩
  rw [hkeys] at hnone
  cases hnone

/-- A property `paid` without a column keeps the key away from `invoice_id`. -/
theorem ignored_property_takes_key :
    (∀ p ∈ (Samples.invoiceIgnoring "paid").columns, p.key = .notKey) ∧
      (∃ p ∈ ((Samples.invoiceIgnoring "paid").addConventional ["invoice_id", "amount"]
        fun _ => some (.int64 0)).columns, Mapping.EndsWithId p.name) ∧
      ((Samples.invoiceIgnoring "paid").addConventional ["invoice_id", "amount"]
        fun _ => some (.int64 0)).keys = [] := by
  have hcolumn : ∃ p ∈ ((Samples.invoiceIgnoring "paid").addConventional
      ["invoice_id", "amount"] fun _ => some (.int64 0)).columns, Mapping.EndsWithId p.name :=
    ⟨{ name := "invoice_id" }, by decide +kernel, Mapping.endsWithId_iff.mp (by decide)⟩
  exact ⟨by decide, hcolumn, by decide +kernel⟩

end EntitySql
