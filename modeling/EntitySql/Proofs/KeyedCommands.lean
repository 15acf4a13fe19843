/-
  The statements by key, as they are handed over: closed, exact, and about the row with the key.

  A statement is written once for a mapping and kept, while its parameters are collected anew from
  an entity or a key. `Statement.Fits` says that the two fit: the text is one command, each name in
  it is that of a parameter and each parameter is named. An insertion binds the insertable
  properties in order (`Statement.Inserts`); the other statements are about the rows whose key
  columns equal the values of the key (`Statement.IsKeyed`). `keyed_statements_fit` says so of every
  statement that is handed over, with every catalog that can be reached.
-/
import EntitySql.Proofs.KeyedReading
import EntitySql.Proofs.PropertyParameters
import EntitySql.Proofs.SessionRuns
import EntitySql.Samples

namespace EntitySql

open Sql Layout Mapping

/-! ## Statements that fit their parameters -/

/-- The text of a statement is one command, in front of a text without parameters. -/
structure Statement.IsReadAs (st : Statement) (d : Dialect) (l : Layout) (names : List String)
    (tail : String) (command : Command) : Prop where
  /-- The layout is the command. -/
  spelled : command.IsSpelled (l.lexemes d (nameAt names))
  /-- It is no other command. -/
  unique : ∀ c, c.IsSpelled (l.lexemes d (nameAt names)) → c = command
  /-- When the names are words, the text is read so. -/
  read : (∀ n ∈ names, IsWord n) →
    lex d st.sql.toList = l.lexemes d (nameAt names) ++ lex d tail.toList
  /-- What is named in the text is then what is bound. -/
  named : (∀ n ∈ names, IsWord n) →
    ∀ n, .parameter n ∈ lex d st.sql.toList ↔ n ∈ st.parameters.names

/-- A statement whose parameters are those that it names. -/
structure Statement.Fits (st : Statement) (d : Dialect) (l : Layout) (names : List String)
    (tail : String) (command : Command) : Prop where
  /-- The text is the layout with the placeholders of the names. -/
  written : st.sql = l.fill (d.placeholders names) ++ tail
  /-- Each name has one place, in order. -/
  places : l.places = List.range names.length
  /-- The names are those of the parameters. -/
  closed : ∀ n, n ∈ names ↔ n ∈ st.parameters.names
  /-- No name is bound twice. -/
  nodup : st.parameters.names.Nodup
  /-- The dialects of databases read the text as the command. -/
  isReadAs : d ∈ Dialect.all.map (·.2) → st.IsReadAs d l names tail command

/-- The insertion of the properties of an entity, each with its value. -/
structure Statement.Inserts (st : Statement) (d : Dialect) (m : Mapping)
    (value : String → Option Value) (tail : String) : Prop where
  /-- The statement lists the insertable properties, each with its parameter. -/
  fits : st.Fits d (m.insertLayout d) (namesOf m.insertable) tail m.insertion
  /-- The parameters are the insertable properties in order. -/
  bound : st.parameters.entries =
    m.insertable.map fun p => (p.name, d.bindValue ((value p.name).getD .null))

/-- The query of the generated key, which has no parameters. -/
structure Statement.AsksIdentity (st : Statement) (d : Dialect) : Prop where
  /-- The text is the query. -/
  written : st.sql = d.identitySelect
  /-- Nothing is bound. -/
  bound : st.parameters.entries = []
  /-- Nothing is named. -/
  named : d ∈ Dialect.all.map (·.2) → parametersOf (lex d st.sql.toList) = []

/-- The condition on the key is true of the rows that agree with all values of the key, none of
    which is missing. -/
structure Mapping.TellsKey (m : Mapping) (d : Dialect) (value : String → Option Value)
    (ps : Parameters) : Prop where
  /-- There is a key property. -/
  nonempty : m.keys ≠ []
  /-- Each key property has a value, and something is bound for it. -/
  bound : ∀ k ∈ m.keys, ∃ v, value k.name = some v ∧ v.isNull = false ∧
    ps.get? k.name = some (d.bindValue v) ∧
    (d ∈ Dialect.all.map (·.2) → (d.bindValue v).isNull = false)
  /-- The condition is true of the rows that agree with all of them. -/
  rows : ∀ (W : World) (scope : Scope) (row : Cells),
    m.keyExpr.value W ps (scope.enter m.tableName row) = .yes ↔
      ∀ k ∈ m.keys, ∃ v, value k.name = some v ∧
        W.compared .eq (row k.column) (d.bindValue v) = .yes

/-- A statement about the rows with a key. -/
structure Statement.IsKeyed (st : Statement) (d : Dialect) (m : Mapping)
    (value : String → Option Value) (l : Layout) (names : List String) (command : Command) :
    Prop where
  /-- The statement is the command, with all of its parameters. -/
  fits : st.Fits d l names "" command
  /-- Wherever a name stands, it stands for the value that is bound for that property. -/
  values : st.parameters.AreValues d value
  /-- The condition of the command finds the rows with the key. -/
  tells : m.TellsKey d value st.parameters

/-! ## Parts that fit -/

/-- No dialect of a database binds nothing for something. -/
theorem Dialect.isNull_bindValue {d : Dialect} (hd : d ∈ Dialect.all.map (·.2)) (v : Value) :
    (d.bindValue v).isNull = v.isNull := by
  rcases bindValue_eq hd with hbind | hbind
  · rw [hbind, id_eq]
  · rw [hbind]
    cases v <;> rfl

/-- What is read part by part names what the places are for. -/
theorem Statement.isReadAs_of_splits {st : Statement} {d : Dialect} {l : Layout}
    {names : List String} {tail : String} {command : Command}
    (hsql : st.sql = l.fill (d.placeholders names) ++ tail)
    (hplaces : l.places = List.range names.length)
    (hclosed : ∀ n, n ∈ names ↔ n ∈ st.parameters.names)
    (hspelled : command.IsSpelled (l.lexemes d (nameAt names)))
    (hparameters : command.parameters = names) (htail : parametersOf (lex d tail.toList) = [])
    (hsplits : (∀ i ∈ l.places, IsWord (nameAt names i)) →
      lex d (l.characters d (nameAt names) ++ tail.toList) =
        l.lexemes d (nameAt names) ++ lex d tail.toList) :
    st.IsReadAs d l names tail command := by
  have hread : (∀ n ∈ names, IsWord n) →
      lex d st.sql.toList = l.lexemes d (nameAt names) ++ lex d tail.toList := by
    intro hwords
    have hplace : ∀ i ∈ l.places, IsWord (nameAt names i) := by
      intro i hi
      rw [hplaces, List.mem_range] at hi
      have hname : nameAt names i = names[i] := by
        unfold nameAt
        rw [List.getD_eq_getElem?_getD, List.getElem?_eq_getElem hi, Option.getD_some]
      rw [hname]
      exact hwords _ (List.getElem_mem hi)
    rw [hsql, String.toList_append]
    exact hsplits hplace
  refine ⟨hspelled, fun c hc => isSpelled_unique hc hspelled, hread, fun hwords n => ?_⟩
  rw [hread hwords, ← mem_parametersOf, parametersOf_append, htail, List.append_nil,
    parametersOf_of_isSpelled hspelled, hparameters, hclosed]

/-- The condition on the key finds the row when each key is bound to its value. -/
theorem Mapping.BindsKey.tellsKey {d : Dialect} {m : Mapping} {value : String → Option Value}
    {keys ps : Parameters} (h : m.BindsKey d value keys) (hvalues : ps.AreValues d value)
    (hnames : ∀ k ∈ m.keys, k.name ∈ ps.names) : m.TellsKey d value ps := by
  have hget : ∀ k ∈ m.keys, ∃ v, value k.name = some v ∧ v.isNull = false ∧
      ps.get? k.name = some (d.bindValue v) := by
    intro k hk
    obtain ⟨v, hv, hnull⟩ := h.value k hk
    have hbound := hvalues.get? k.name (hnames k hk)
    rw [hv, Option.getD_some] at hbound
    exact ⟨v, hv, hnull, hbound⟩
  refine ⟨h.nonempty, fun k hk => ?_, fun W scope row => ?_⟩
  · obtain ⟨v, hv, hnull, hbound⟩ := hget k hk
    exact ⟨v, hv, hnull, hbound, fun hd => (Dialect.isNull_bindValue hd v).trans hnull⟩
  · have hrow : scope.enter m.tableName row m.tableName = row := if_pos rfl
    rw [value_keyExpr, hrow]
    refine forall₂_congr fun k hk => ?_
    obtain ⟨v, hv, -, hbound⟩ := hget k hk
    rw [hbound, Option.getD_some, hv]
    simp

/-- A statement about the rows with a key, from its layout and its parameters. -/
theorem Statement.isKeyed {st : Statement} {d : Dialect} {m : Mapping}
    {value : String → Option Value} {l : Layout} {names : List String} {command : Command}
    {keys : Parameters} (hkeys : m.BindsKey d value keys)
    (hvalues : st.parameters.AreValues d value)
    (hnames : ∀ n, n ∈ names ↔ n ∈ st.parameters.names) (hsubset : namesOf m.keys ⊆ names)
    (hsql : st.sql = l.fill (d.placeholders names)) (hplaces : l.places = List.range names.length)
    (hspelled : IsReadable d → command.IsSpelled (l.lexemes d (nameAt names)))
    (hparameters : command.parameters = names)
    (hsplits : IsReadable d → Splits d (nameAt names) l) :
    st.IsKeyed d m value l names command := by
  have hwritten : st.sql = l.fill (d.placeholders names) ++ "" := by rw [hsql, String.append_empty]
  refine ⟨⟨hwritten, hplaces, hnames, hvalues.nodup, fun hd => ?_⟩, hvalues,
    hkeys.tellsKey hvalues fun k hk => ?_⟩
  · have hreadable := isReadable_of_mem_all hd
    exact Statement.isReadAs_of_splits hwritten hplaces hnames (hspelled hreadable) hparameters rfl
      fun hwords => hsplits hreadable hwords [] isDelimited_nil
  · rw [← hnames]
    exact hsubset (List.mem_map_of_mem hk)

/-- A statement whose only parameters are those of a key. -/
theorem Statement.isKeyed_of_key {st : Statement} {d : Dialect} {m : Mapping}
    {value : String → Option Value} {l : Layout} {command : Command}
    (hkey : m.BindsKey d value st.parameters)
    (hsql : st.sql = l.fill (d.placeholders (namesOf m.keys)))
    (hplaces : l.places = List.range m.keys.length)
    (hspelled : IsReadable d → command.IsSpelled (l.lexemes d (nameAt (namesOf m.keys))))
    (hparameters : command.parameters = namesOf m.keys)
    (hsplits : IsReadable d → Splits d (nameAt (namesOf m.keys)) l) :
    st.IsKeyed d m value l (namesOf m.keys) command := by
  obtain ⟨hvalues, hnames⟩ := Parameters.areValues_ofProperties d value m.keys
  rw [← hkey.bound] at hvalues hnames
  refine Statement.isKeyed hkey hvalues (fun n => (hnames n).symm) (List.Subset.refl _) hsql ?_
    hspelled hparameters hsplits
  rw [hplaces, List.length_map]

/-! ## Statements that are handed over -/

namespace Exchange

variable {ε : Type} {s : Setting} {c : Catalog} {E : Entity ε} {m : Mapping}

theorem isKeyed_update (hc : c.IsCoherent s.dialect) (hm : s.mappings c E.type = .ok m) {e : ε}
    {excludeAssigned : Bool} {ex : Exchange Bool} (h : update s c E e excludeAssigned = .ok ex) :
    ex.statement.IsKeyed s.dialect m (E.get? e) (m.updateLayout s.dialect excludeAssigned)
      (namesOf (m.updatable excludeAssigned) ++ namesOf m.keys) (m.updating excludeAssigned) := by
  obtain ⟨m', hm', h⟩ := bind_eq_ok_iff.mp h
  obtain rfl := Except.ok.inj (hm.symm.trans hm')
  obtain ⟨sql, hsql, h⟩ := bind_eq_ok_iff.mp h
  obtain ⟨keys, hkeys, h⟩ := bind_eq_ok_iff.mp h
  cases h
  have hkey := bindsKey_entity (mapError_eq_ok_iff.mp hkeys)
  rw [hc.statement hm] at hsql
  have hupdate : m.updateStatement s.dialect excludeAssigned = .ok sql := mapError_eq_ok_iff.mp hsql
  have hne : m.updatable excludeAssigned ≠ [] := by
    intro hnone
    unfold updateStatement at hupdate
    rw [hnone] at hupdate
    cases hupdate
  obtain ⟨hfront, hback⟩ := numbers_append (m.updatable excludeAssigned) m.keys
  rw [updateStatement_eq_fill hfront hback hkey.nonempty hne] at hupdate
  -- the parameters are those of the update with those of the key on top
  obtain ⟨hassigned, hassignedNames⟩ :=
    Parameters.areValues_ofProperties s.dialect (E.get? e) (m.updatable excludeAssigned)
  obtain ⟨hkeyValues, hkeyNames⟩ := Parameters.areValues_ofProperties s.dialect (E.get? e) m.keys
  rw [← hkey.bound] at hkeyValues hkeyNames
  obtain ⟨hvalues, hnames⟩ := hassigned.extend hkeyValues
  refine Statement.isKeyed hkey hvalues (fun n => ?_) (List.subset_append_right _ _)
    (Except.ok.inj hupdate).symm ?_
    (fun hd => isSpelled_updateLayout hd hfront hback hkey.nonempty)
    (m.parameters_updating excludeAssigned) (splits_updateLayout · excludeAssigned)
  · rw [List.mem_append, ← hassignedNames, ← hkeyNames]
    exact (hnames n).symm
  · rw [places_updateLayout, List.length_append, List.length_map, List.length_map]

theorem isKeyed_delete (hc : c.IsCoherent s.dialect) (hm : s.mappings c E.type = .ok m) {e : ε}
    {ex : Exchange Bool} (h : delete s c E e = .ok ex) :
    ex.statement.IsKeyed s.dialect m (E.get? e) (m.deleteLayout s.dialect) (namesOf m.keys)
      m.deletion := by
  obtain ⟨m', hm', h⟩ := bind_eq_ok_iff.mp h
  obtain rfl := Except.ok.inj (hm.symm.trans hm')
  obtain ⟨sql, hsql, h⟩ := bind_eq_ok_iff.mp h
  obtain ⟨keys, hkeys, h⟩ := bind_eq_ok_iff.mp h
  cases h
  have hkey := bindsKey_entity (mapError_eq_ok_iff.mp hkeys)
  rw [hc.statement hm] at hsql
  have hdelete : m.deleteStatement s.dialect = .ok sql := mapError_eq_ok_iff.mp hsql
  have hnumbers := numbers_namesOf m.keys
  rw [deleteStatement_eq_fill hnumbers hkey.nonempty] at hdelete
  exact Statement.isKeyed_of_key hkey (Except.ok.inj hdelete).symm (m.places_deleteLayout _)
    (fun hd => isSpelled_deleteLayout hd hnumbers hkey.nonempty) m.parameters_deletion
    splits_deleteLayout

theorem isKeyed_get (hc : c.IsCoherent s.dialect) (hm : s.mappings c E.type = .ok m) {key : Key}
    {ex : Exchange (Option ε)} (h : get s c E key = .ok ex) :
    ex.statement.IsKeyed s.dialect m key.valueOf? (m.getLayout s.dialect) (namesOf m.keys)
      m.selection := by
  obtain ⟨m', hm', h⟩ := bind_eq_ok_iff.mp h
  obtain rfl := Except.ok.inj (hm.symm.trans hm')
  obtain ⟨keys, hkeys, h⟩ := bind_eq_ok_iff.mp h
  obtain ⟨sql, hsql, h⟩ := bind_eq_ok_iff.mp h
  cases h
  have hkey := bindsKey_given (mapError_eq_ok_iff.mp hkeys)
  rw [hc.statement hm] at hsql
  have hget : m.getStatement s.dialect (s.dialect.selectedColumns m) = .ok sql :=
    mapError_eq_ok_iff.mp hsql
  have hnumbers := numbers_namesOf m.keys
  rw [getStatement_eq_fill hnumbers hkey.nonempty] at hget
  exact Statement.isKeyed_of_key hkey (Except.ok.inj hget).symm (m.places_getLayout _)
    (fun hd => isSpelled_getLayout hd hnumbers hkey.nonempty) m.parameters_selection
    splits_getLayout

end Exchange

/-! ## Insertions that are handed over -/

/-- What stands behind an insertion in the same statement: the query of the generated key, where
    there is one and several statements can be sent at once. -/
def Mapping.identityTail (d : Dialect) (m : Mapping) : String :=
  if m.identity?.isSome && d.batches then d.separator ++ d.identitySelect else ""

/-- The insertion of the properties, and what may stand behind it. -/
theorem Statement.inserts (d : Dialect) {m : Mapping} (hbuilt : m.IsBuilt)
    (value : String → Option Value) (tail : String)
    (htail : tail = "" ∨ tail = d.separator ++ d.identitySelect) :
    Statement.Inserts ⟨m.insertStatement d ++ tail, .ofProperties d value m.insertable⟩ d m value
      tail := by
  obtain ⟨hvalues, hnames⟩ := Parameters.areValues_ofProperties d value m.insertable
  have hnumbers := numbers_namesOf m.insertable
  have hwritten := congrArg (· ++ tail) (insertStatement_eq_fill (d := d) hnumbers)
  have hplaces : (m.insertLayout d).places = List.range (namesOf m.insertable).length := by
    rw [places_insertLayout, List.length_map]
  refine ⟨⟨hwritten, hplaces, fun n => (hnames n).symm, hvalues.nodup, fun hd => ?_⟩,
    Parameters.entries_ofProperties d value hbuilt.nodup_insertable⟩
  have hends := endsReadably_of_mem_all hd
  have hreadable := isReadable_of_mem_all hd
  have hend : lex d ((m.insertEnd d).toList ++ tail.toList) =
      lex d (m.insertEnd d).toList ++ lex d tail.toList := by
    rcases htail with rfl | rfl
    · simp
    · rw [String.toList_append]
      exact lex_insertEnd hends m _
  have hunnamed : parametersOf (lex d tail.toList) = [] := by
    rcases htail with rfl | rfl
    · rfl
    · rw [String.toList_append, lex_separator hends]
      exact parametersOf_identitySelect hreadable hends
  refine Statement.isReadAs_of_splits hwritten hplaces (fun n => (hnames n).symm)
    (isSpelled_insertLayout hd hnumbers) m.parameters_insertion hunnamed fun hwords => ?_
  -- the end belongs to the insertion, and the dialect tells it from what follows
  have hfront : Splits d (nameAt (namesOf m.insertable)) (m.insertFront d) :=
    splits_insertFront hreadable
  unfold insertLayout at hwords ⊢
  rw [places_append] at hwords
  rw [characters_append, characters_text, lexemes_append, lexemes_text]
  have hread := hfront (fun i hi => hwords i (List.mem_append_left _ hi)) _
    (isDelimited_insertEnd hends m tail.toList)
  rw [hend] at hread
  simpa [characters] using hread

theorem Statement.asksIdentity (d : Dialect) : Statement.AsksIdentity ⟨d.identitySelect, {}⟩ d :=
  ⟨rfl, rfl, fun hd =>
    parametersOf_identitySelect (isReadable_of_mem_all hd) (endsReadably_of_mem_all hd)⟩

namespace PreparedInsertion

theorem of_eq {ε : Type} {s : Setting} {c : Catalog} {E : Entity ε} {m : Mapping}
    (hc : c.IsCoherent s.dialect) (hm : s.mappings c E.type = .ok m) (e : ε) :
    PreparedInsertion.of s c E m e = .ok
      ⟨m, ⟨m.insertStatement s.dialect, .ofProperties s.dialect (E.get? e) m.insertable⟩,
        m.identity?.map (·, s.dialect.identitySelect)⟩ := by
  have hinsert := hc.statement hm .insert
  have hquery := hc.statement hm .identity
  unfold Mapping.statement at hinsert hquery
  unfold PreparedInsertion.of
  rw [hinsert, hquery]
  cases m.identity? <;> rfl

/-- The requests of an insertion: first the insertion, and then the query of the generated key, if
    it is not sent with it. -/
theorem requests_eq (d : Dialect) {m : Mapping} (hbuilt : m.IsBuilt)
    (value : String → Option Value) :
    ∃ r rest, requests
        ⟨m, ⟨m.insertStatement d, .ofProperties d value m.insertable⟩,
          m.identity?.map (·, d.identitySelect)⟩ d = r :: rest ∧
      r.statement.Inserts d m value (m.identityTail d) ∧
      ∀ r' ∈ rest, r'.statement.AsksIdentity d := by
  have hplain := Statement.inserts d hbuilt value "" (.inl rfl)
  have hjoined := Statement.inserts d hbuilt value _ (.inr rfl)
  rw [String.append_empty] at hplain
  rw [← String.append_assoc] at hjoined
  unfold requests identityTail
  cases m.identity? with
  | none => exact ⟨_, _, rfl, hplain, by simp⟩
  | some identity =>
    cases hb : d.batches with
    | true => exact ⟨_, _, rfl, hjoined, by simp⟩
    | false =>
      refine ⟨_, _, rfl, hplain, fun r' hr' => ?_⟩
      rw [List.mem_singleton.mp hr']
      exact Statement.asksIdentity d

end PreparedInsertion

/-- An insertion hands nothing over when its preparation fails. Otherwise it hands over the
    insertion of the entity with its keys drawn, and then at most queries of the generated key. -/
structure Database.InsertsInto {σ ε : Type} (db : Database σ) (E : Entity ε)
    (a : Session (σ × List Request)) (e : ε) (m : Mapping) : Prop where
  /-- A failure in front of the sending keeps the insertion back. -/
  refused : ∀ cause n e₁, db.prepared E a.workspace.catalog a.drawn e = (.error cause, n, e₁) →
    (lastState (db.watched.insert E ⟨a, e⟩)).session.executor.2 = a.executor.2
  /-- Otherwise the keys are drawn and the insertion is handed over. -/
  sent : ∀ p n e₁, db.prepared E a.workspace.catalog a.drawn e = (.ok p, n, e₁) →
    Inserting.filled db.identifiers E (m.keys.filter (·.key == .guid)) a.drawn e =
        (.ok (), n, e₁) ∧
      ∃ r rest, (lastState (db.watched.insert E ⟨a, e⟩)).session.executor.2 =
          a.executor.2 ++ r :: rest ∧
        r.statement.Inserts db.setting.dialect m (E.get? e₁)
          (m.identityTail db.setting.dialect) ∧
        ∀ r' ∈ rest, r'.statement.AsksIdentity db.setting.dialect

theorem Database.insertsInto {σ ε : Type} {db : Database σ} {E : Entity ε}
    {a : Session (σ × List Request)} {m : Mapping}
    (hc : a.workspace.catalog.IsCoherent db.setting.dialect)
    (hm : db.setting.mappings a.workspace.catalog E.type = .ok m) (hbuilt : m.IsBuilt) (e : ε) :
    db.InsertsInto E a e m := by
  refine ⟨fun cause n e₁ h => ?_, fun p n e₁ h => ?_⟩
  · obtain ⟨w, hw⟩ := Inserting.insert_of_unprepared db.watched E h
    rw [hw]
    rfl
  · obtain ⟨-, hfilled, hof⟩ := Database.of_prepared hm h
    rw [PreparedInsertion.of_eq hc hm] at hof
    obtain ⟨r, rest, hrequests, hinserts, hasks⟩ :=
      PreparedInsertion.requests_eq db.setting.dialect hbuilt (E.get? e₁)
    rw [Except.ok.inj hof] at hrequests
    obtain ⟨made, hmade, -, hlist⟩ := p.sent_watched db.setting.dialect db.executor a.executor
    obtain ⟨made, rfl⟩ : ∃ k, made = k + 1 := ⟨made - 1, by omega⟩
    obtain ⟨w, hw⟩ := Inserting.insert_of_prepared db.watched E h
    rw [db.setting_watched, db.executor_watched, hlist, hrequests, List.take_succ_cons] at hw
    refine ⟨hfilled, r, rest.take made, ?_, hinserts, fun r' hr' => hasks r' ?_⟩
    · rw [hw, lastState_ended]
    · exact List.mem_of_mem_take hr'

/-- For every dialect, every catalog that can be reached and every mapping that is built: an
    insertion, an update, a deletion and a select by key hand over only statements that name their
    parameters and no others. The insertion binds the insertable properties in order. The others
    are about the rows that agree with all values of the key, none of which is missing, and the
    update has one assignment for each property that it may assign, to the parameter of that
    property. -/
theorem keyed_statements_fit {σ ε : Type} (db : Database σ) (E : Entity ε)
    (a : Session (σ × List Request))
    (hreached : a.workspace.catalog.IsReached db.setting.dialect) {m : Mapping}
    (hm : db.setting.mappings a.workspace.catalog E.type = .ok m) (hbuilt : m.IsBuilt) :
    (∀ e, db.InsertsInto E a e m) ∧
    (∀ e excludeAssigned, Act.HandsOverWritten db.executor
      (db.watched.update E e excludeAssigned) a
      (Exchange.update db.setting a.workspace.catalog E e excludeAssigned)
      (·.statement.IsKeyed db.setting.dialect m (E.get? e)
        (m.updateLayout db.setting.dialect excludeAssigned)
        (namesOf (m.updatable excludeAssigned) ++ namesOf m.keys) (m.updating excludeAssigned))) ∧
    (∀ e, Act.HandsOverWritten db.executor (db.watched.delete E e) a
      (Exchange.delete db.setting a.workspace.catalog E e)
      (·.statement.IsKeyed db.setting.dialect m (E.get? e) (m.deleteLayout db.setting.dialect)
        (namesOf m.keys) m.deletion)) ∧
    ∀ key, Act.HandsOverWritten db.executor (db.watched.get E key) a
      (Exchange.get db.setting a.workspace.catalog E key)
      (·.statement.IsKeyed db.setting.dialect m key.valueOf? (m.getLayout db.setting.dialect)
        (namesOf m.keys) m.selection) := by
  have hc := hreached.isCoherent
  refine ⟨fun e => Database.insertsInto hc hm hbuilt e, ?_, ?_, ?_⟩
  · intro e excludeAssigned
    exact ⟨(db.watched.sendsOnce_update E a e excludeAssigned).handsOver,
      fun ex hex => Exchange.isKeyed_update hc hm hex⟩
  · intro e
    exact ⟨(db.watched.sendsOnce_delete E a e).handsOver,
      fun ex hex => Exchange.isKeyed_delete hc hm hex⟩
  · intro key
    exact ⟨(db.watched.sendsOnce_get E a key).handsOver,
      fun ex hex => Exchange.isKeyed_get hc hm hex⟩

/-! ## A sample -/

namespace Samples

/-- Entities with two assigned keys. -/
def multikeys : Database Recorder where
  setting := { dialect := .generic, model := fun _ => multikey.mapping }
  identifiers _ := Uuid.nil
  executor := Recorder.executor

/-- The type of entities with two keys. -/
def multikeyType : Entity Record := multikey.entityOf ⟨"Multikey"⟩

/-- An entity with both keys. -/
def withKeys : Record := [("key1", .int64 7), ("key2", .text "b"), ("value", .text "x")]

/-- The update of the entity. Its keys are assigned and compared, and bound once. -/
def updateWithKeys : Statement where
  sql := "UPDATE \"multikey\" SET \"key1\" = @key1, \"key2\" = @key2, \"value\" = @value WHERE " ++
    "((\"multikey\".\"key1\" = @key1) AND (\"multikey\".\"key2\" = @key2))"
  parameters := ⟨withKeys⟩

end Samples

/-- The insertion of an entity with two keys, and its update with the keys assigned as well. -/
theorem keyed_statements_fit_multikey :
    Samples.multikeys.InsertsInto Samples.multikeyType Samples.fresh Samples.withKeys
      Samples.multikey.mapping ∧
    ∃ ex, Exchange.update Samples.multikeys.setting {} Samples.multikeyType Samples.withKeys false =
        .ok ex ∧
      ex.statement = Samples.updateWithKeys ∧
      ex.statement.IsKeyed .generic Samples.multikey.mapping
        (Samples.multikeyType.get? Samples.withKeys)
        (Samples.multikey.mapping.updateLayout .generic false)
        ["key1", "key2", "value", "key1", "key2"] (Samples.multikey.mapping.updating false) := by
  obtain ⟨hinsert, hupdate, -, -⟩ := keyed_statements_fit Samples.multikeys
    Samples.multikeyType Samples.fresh .empty rfl Samples.multikey.isBuilt_mapping
  exact ⟨hinsert Samples.withKeys, _, rfl, rfl, (hupdate Samples.withKeys false).written _ rfl⟩

end EntitySql
