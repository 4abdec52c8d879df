import MiniLakehouse.Catalog.Tables

/-!
# Migrations of tables

What `apply_table` leaves of a table that exists.  It raises before it has changed anything, or
it brings the table to its contract, so that nothing drifts and applying it again changes
nothing; except where the contract gives the appended columns other ids than the catalog does.
These are committed before they are compared, and the error is raised with the columns in place.
-/

namespace MiniLakehouse.Catalog

/-! ## Compatible schemas -/

/-- A column and what it may become. -/
structure Keeps (current expected : NestedField) : Prop where
  fieldId : current.fieldId = expected.fieldId
  name : current.name = expected.name
  fieldType : current.fieldType = expected.fieldType
  relaxed : expected.required = true → current.required = true

/-- A column that may be added. -/
def IsOptional (field : NestedField) : Prop := field.required = false

theorem Keeps.refl (field : NestedField) : Keeps field field := ⟨rfl, rfl, rfl, id⟩

theorem Keeps.trans {first second third : NestedField} (h : Keeps first second)
    (h' : Keeps second third) : Keeps first third where
  fieldId := h.fieldId.trans h'.fieldId
  name := h.name.trans h'.name
  fieldType := h.fieldType.trans h'.fieldType
  relaxed := fun hrequired => h.relaxed (h'.relaxed hrequired)

/-- An optional column stays optional. -/
theorem Keeps.optional {current expected : NestedField} (h : Keeps current expected)
    (hcurrent : IsOptional current) : IsOptional expected := by
  by_contra hrequired
  have hcontradiction := h.relaxed (by simpa [IsOptional] using hrequired)
  rw [hcurrent] at hcontradiction
  cases hcontradiction

/-- A check of the pairs of two lists, the first of which is not longer. -/
theorem all_zip_iff {α β : Type} {p : α × β → Bool} {xs : List α} {ys : List β}
    (h : xs.length ≤ ys.length) : (xs.zip ys).all p = true ↔
      List.Forall₂ (fun x y => p (x, y) = true) xs (ys.take xs.length) := by
  induction xs generalizing ys with
  | nil => simp
  | cons x xs ih =>
      cases ys with
      | nil => simp at h
      | cons y ys =>
          have hrest : xs.length ≤ ys.length := by simpa using h
          simp [ih hrest]

/-- **A compatible update keeps every column in its place and appends optional ones.** -/
theorem compatibleSchemaUpdate_iff {current expected : IcebergSchema} :
    compatibleSchemaUpdate current expected = true ↔
      Evolves Keeps IsOptional current.fields expected.fields := by
  by_cases hlength : expected.fields.length < current.fields.length
  · have hshort : compatibleSchemaUpdate current expected = false := by
      rw [compatibleSchemaUpdate, if_pos hlength]
    rw [hshort]
    exact iff_of_false Bool.false_ne_true fun h => absurd h.length_le (not_le.mpr hlength)
  · have hfits : current.fields.length ≤ expected.fields.length := not_lt.mp hlength
    have hkeeps : ∀ currentField expectedField : NestedField,
        (decide (currentField.fieldId = expectedField.fieldId) &&
          decide (currentField.name = expectedField.name) &&
          decide (currentField.fieldType = expectedField.fieldType) &&
          !(!currentField.required && expectedField.required)) = true ↔
        Keeps currentField expectedField := by
      intro currentField expectedField
      simp only [Bool.and_eq_true, decide_eq_true_eq, Bool.not_eq_true', Bool.and_eq_false_iff,
        Bool.not_eq_false']
      constructor
      · intro h
        refine ⟨h.1.1.1, h.1.1.2, h.1.2, ?_⟩
        intro hrequired
        rcases h.2 with hcurrent | hoptional
        · exact hcurrent
        · rw [hrequired] at hoptional
          cases hoptional
      · intro h
        refine ⟨⟨⟨h.fieldId, h.name⟩, h.fieldType⟩, ?_⟩
        by_cases hrequired : expectedField.required = true
        · exact .inl (h.relaxed hrequired)
        · exact .inr (by simpa using hrequired)
    have hadded : ((expected.fields.drop current.fields.length).all fun field => !field.required) =
        true ↔ ∀ field ∈ expected.fields.drop current.fields.length, IsOptional field := by
      simp only [List.all_eq_true, Bool.not_eq_true', IsOptional]
    rw [compatibleSchemaUpdate, if_neg hlength, Bool.and_eq_true, all_zip_iff hfits, hadded,
      evolves_iff]
    simp only [hkeeps]

/-- The relation is reflexive. -/
theorem compatibleSchemaUpdate_refl (schema : IcebergSchema) :
    compatibleSchemaUpdate schema schema = true :=
  compatibleSchemaUpdate_iff.mpr (Evolves.refl Keeps.refl _)

/-- The relation is transitive. -/
theorem compatibleSchemaUpdate_trans {first second third : IcebergSchema}
    (h : compatibleSchemaUpdate first second = true)
    (h' : compatibleSchemaUpdate second third = true) :
    compatibleSchemaUpdate first third = true := by
  have hfirst := compatibleSchemaUpdate_iff.mp h
  have hsecond := compatibleSchemaUpdate_iff.mp h'
  exact compatibleSchemaUpdate_iff.mpr
    (Evolves.trans (fun _ _ _ hxy hyz => hxy.trans hyz) (fun _ _ hxy hx => hxy.optional hx)
      hfirst hsecond)

/-! ## Contracts and their schemas -/

/-- The columns of a contract, as fields. -/
theorem schemaFields [PyIceberg] {columns : List ColumnContract} {primaryKey : List String}
    {expected : IcebergSchema} (h : icebergSchema columns primaryKey = .ok expected) :
    List.Forall₂ (fun column field => nestedField column = .ok field) columns expected.fields := by
  unfold icebergSchema at h
  simp only [bind_eq_ok, pure_eq_ok] at h
  obtain ⟨fields, hfields, identifiers, -, checked, -, rfl⟩ := h
  exact mapM_eq_ok.mp hfields

theorem nestedField_ok {column : ColumnContract} {field : NestedField}
    (h : nestedField column = .ok field) : field.fieldId = column.fieldId ∧
      field.name = column.name ∧ field.required = column.required := by
  unfold nestedField at h
  simp only [bind_eq_ok, pure_eq_ok] at h
  obtain ⟨fieldType, -, rfl⟩ := h
  exact ⟨rfl, rfl, rfl⟩

/-- What fields have in common with their columns. -/
theorem map_fields {β : Type} {columns : List ColumnContract} {fields : List NestedField}
    {ofField : NestedField → β} {ofColumn : ColumnContract → β}
    (h : List.Forall₂ (fun column field => nestedField column = .ok field) columns fields)
    (hsame : ∀ column field, nestedField column = .ok field → ofField field = ofColumn column) :
    fields.map ofField = columns.map ofColumn := by
  induction h with
  | nil => rfl
  | cons hfirst _ ih => rw [List.map_cons, List.map_cons, hsame _ _ hfirst, ih]

/-- The validator keeps names and ids apart, and the primary key in required columns. -/
theorem ManagedIcebergTableContract.accepted (contract : ManagedIcebergTableContract) :
    (contract.columns.map fun column => column.name).Nodup ∧
      (contract.columns.map fun column => column.fieldId).Nodup ∧
      ∀ key ∈ contract.primaryKey, ∃ column ∈ contract.columns, column.required = true ∧
        column.name = key := by
  have hvalid := contract.valid
  simp only [TableFields.checks, allHold_append, allHold_cons, decide_eq_true_eq,
    Bool.and_eq_true, List.filter_eq_nil_iff] at hvalid
  obtain ⟨⟨-, -, -, -, hnames, ⟨hids, -⟩, -, -, hrequired, -⟩, -⟩ := hvalid
  refine ⟨hnames, hids, ?_⟩
  intro key hkey
  have hcontained := hrequired key hkey
  simpa [and_assoc] using hcontained

/-! ## Ids -/

theorem idsFrom_add (first : Int) (left right : Nat) :
    idsFrom first (left + right) = idsFrom first left ++ idsFrom (first + left) right := by
  induction left generalizing first with
  | zero => simp [idsFrom]
  | succ left ih =>
      have hcount : left + 1 + right = (left + right) + 1 := by omega
      have hnext : first + ((left + 1 : Nat) : Int) = first + 1 + left := by omega
      rw [hcount, idsFrom, ih, idsFrom, hnext, List.cons_append]

theorem length_numbered (first : Int) (fields : List NestedField) :
    (numbered first fields).length = fields.length := by
  induction fields generalizing first with
  | nil => rfl
  | cons field fields ih => rw [numbered, List.length_cons, List.length_cons, ih]

/-- Numbering changes nothing exactly where the ids are those that come next. -/
theorem numbered_eq_iff (first : Int) (fields : List NestedField) : numbered first fields = fields ↔
    (fields.map fun field => field.fieldId) = idsFrom first fields.length := by
  induction fields generalizing first with
  | nil => simp [numbered, idsFrom]
  | cons field fields ih =>
      rw [numbered, List.map_cons, List.length_cons, idsFrom, List.cons.injEq, List.cons.injEq, ih]
      apply and_congr_left
      intro _
      constructor
      · intro hsame
        rw [← hsame]
      · intro hsame
        rw [← hsame]

/-! ## What the union leaves -/

/-- A column is relaxed to the one that it becomes. -/
theorem relaxed_keeps {expected : IcebergSchema} {field kept : NestedField}
    (hnames : (expected.fields.map fun field => field.name).Nodup) (hmem : kept ∈ expected.fields)
    (h : Keeps field kept) : relaxed expected field = kept := by
  have hfind : expected.fields.find? (·.name = field.name) = some kept :=
    (find?_key_eq_some (fun field => field.name) hnames).mpr ⟨hmem, h.name.symm⟩
  have hrequired : (field.required && kept.required) = kept.required := by
    by_cases hkept : kept.required = true
    · rw [h.relaxed hkept, Bool.true_and]
    · have hoptional : kept.required = false := by simpa using hkept
      rw [hoptional, Bool.and_false]
  obtain ⟨fieldId, name, fieldType, required⟩ := field
  obtain ⟨hid, hname, htype, -⟩ := h
  rw [relaxed, hfind, Option.all_some, hrequired]
  dsimp only at hid hname htype ⊢
  rw [hid, hname, htype]

theorem map_relaxed {expected : IcebergSchema} {fields kept : List NestedField}
    (hnames : (expected.fields.map fun field => field.name).Nodup)
    (hmem : ∀ field ∈ kept, field ∈ expected.fields) (h : List.Forall₂ Keeps fields kept) :
    fields.map (relaxed expected) = kept := by
  induction h with
  | nil => rfl
  | cons hfirst _ ih =>
      rw [List.map_cons, relaxed_keeps hnames (hmem _ List.mem_cons_self) hfirst,
        ih fun field hfield => hmem field (List.mem_cons_of_mem _ hfield)]

theorem map_name_keeps {fields kept : List NestedField} (h : List.Forall₂ Keeps fields kept) :
    (fields.map fun field => field.name) = kept.map fun field => field.name := by
  induction h with
  | nil => rfl
  | cons hfirst _ ih => rw [List.map_cons, List.map_cons, hfirst.name, ih]

/-- The table's columns become those of the schema in their places, and the others are missing. -/
theorem union_columns {current expected : IcebergSchema}
    (hnames : (expected.fields.map fun field => field.name).Nodup)
    (h : Evolves Keeps IsOptional current.fields expected.fields) :
    current.fields.map (relaxed expected) = expected.fields.take current.fields.length ∧
      missingColumns current expected = expected.fields.drop current.fields.length := by
  obtain ⟨kept, added, hfields, hkept, -⟩ := h
  have hsplit := hnames
  rw [hfields, List.map_append] at hsplit
  have happart := List.disjoint_of_nodup_append hsplit
  rw [hkept.length_eq, hfields, List.take_left, List.drop_left]
  constructor
  · apply map_relaxed hnames ?_ hkept
    intro field hfield
    rw [hfields]
    exact List.mem_append_left _ hfield
  · have hnone : kept.filter (fun new =>
        !(current.fields.map fun field => field.name).contains new.name) = [] := by
      apply List.filter_eq_nil_iff.mpr
      intro field hfield
      rw [map_name_keeps hkept, List.contains_iff_mem.mpr (List.mem_map_of_mem hfield)]
      simp
    have hall : added.filter (fun new =>
        !(current.fields.map fun field => field.name).contains new.name) = added := by
      apply List.filter_eq_self.mpr
      intro field hfield
      rw [map_name_keeps hkept]
      have hnew : field.name ∉ kept.map fun field => field.name := fun hmem =>
        happart hmem (List.mem_map_of_mem hfield)
      simpa using hnew
    rw [missingColumns, hfields, List.filter_append, hnone, hall, List.nil_append]

/-! ## Drift -/

section Apply

variable [PyIceberg] {identifier : TableIdentifier} {table : IcebergTable} {location : String}
  {contract : ManagedIcebergTableContract} {expected : IcebergSchema} {spec : List PartitionField}

/-- What no update changes is as the contract has it. -/
structure InPlace (table : IcebergTable) (location : String) (contract : ManagedIcebergTableContract)
    (spec : List PartitionField) : Prop where
  location : rstripSlash table.location = rstripSlash location
  format : table.formatVersion = formatVersion
  spec : table.spec = spec
  identifiers : table.schema.identifierFieldIds.toFinset = (identifierFields contract).toFinset

/-- The contract compiles to a schema and a partition spec. -/
structure Compiles (contract : ManagedIcebergTableContract) (expected : IcebergSchema)
    (spec : List PartitionField) : Prop where
  schema : icebergSchema contract.columns contract.primaryKey = .ok expected
  spec : partitionSpec contract.columns contract.partitioning = .ok spec

/-- What drifts: nothing needs a migration exactly where the table is in place, and the schema is
reported exactly where the columns differ. -/
theorem tableDrift_cases (h : Compiles contract expected spec) (table : IcebergTable)
    (location : String) : ∃ drift, tableDrift table location contract = .ok drift ∧
      (drift.filter DriftItem.needsMigration = [] ↔ InPlace table location contract spec) ∧
      (.schema ∈ drift ↔ table.schema.fields ≠ expected.fields) ∧
      (InPlace table location contract spec → table.schema.fields = expected.fields →
        propertyUpdates table = [] → drift = []) := by
  unfold tableDrift
  rw [h.schema, ok_bind, h.spec, ok_bind]
  have hitem : ∀ (p : Prop) [Decidable p] (item : DriftItem),
      (if p then [item] else []).filter DriftItem.needsMigration = [] ↔
        (item.needsMigration = true → ¬p) := by
    intro p _ item
    by_cases hp : p
    · simp [hp]
    · simp [hp]
  have hproperties : ((propertyUpdates table).map fun entry => DriftItem.property entry.1).filter
      DriftItem.needsMigration = [] := by
    apply List.filter_eq_nil_iff.mpr
    intro item hmem
    obtain ⟨entry, -, rfl⟩ := List.mem_map.mp hmem
    exact Bool.false_ne_true
  refine ⟨_, rfl, ?_, ?_, ?_⟩
  · simp only [List.filter_append, List.append_eq_nil_iff, hitem, hproperties,
      DriftItem.needsMigration, forall_const, not_not, Bool.false_eq_true, false_implies, and_true]
    constructor
    · exact fun hdrift => ⟨hdrift.1.1.1, hdrift.1.1.2, hdrift.1.2, hdrift.2⟩
    · exact fun hplace => ⟨⟨⟨hplace.location, hplace.format⟩, hplace.spec⟩, hplace.identifiers⟩
  · simp
  · intro hplace hfields hproperties
    simp [hplace.location, hplace.format, hplace.spec, hplace.identifiers, hfields, hproperties]

/-- The names and the ids of the fields are those of the columns. -/
theorem Compiles.columns (h : Compiles contract expected spec) :
    (expected.fields.map fun field => field.name) = contract.columns.map (fun column => column.name) ∧
      (expected.fields.map fun field => field.fieldId) =
        contract.columns.map fun column => column.fieldId := by
  have hfields := schemaFields h.schema
  exact ⟨map_fields hfields fun _ _ hfield => (nestedField_ok hfield).2.1,
    map_fields hfields fun _ _ hfield => (nestedField_ok hfield).1⟩

/-- A field with the id of an identifier is required. -/
theorem Compiles.required (h : Compiles contract expected spec) {field : NestedField}
    (hfield : field ∈ expected.fields) (hidentifier : field.fieldId ∈ identifierFields contract) :
    field.required = true := by
  obtain ⟨column, hcolumn, hnested⟩ := exists_of_mem_forall₂ (schemaFields h.schema) hfield
  obtain ⟨hid, -, hrequired⟩ := nestedField_ok hnested
  obtain ⟨hnames, hids, hkeys⟩ := contract.accepted
  obtain ⟨named, hnamed, hsame⟩ := List.mem_map.mp hidentifier
  obtain ⟨hmem, hkey⟩ := List.mem_filter.mp hnamed
  obtain ⟨owner, howner, howned, hname⟩ := hkeys named.name (List.contains_iff_mem.mp hkey)
  have hcolumnNamed : named = column := eq_of_key_eq (fun column => column.fieldId) hids hmem hcolumn
    (hsame.trans hid)
  have hownerNamed : owner = named := eq_of_key_eq (fun column => column.name) hnames howner hmem hname
  rw [hrequired, ← hcolumnNamed, ← hownerNamed, howned]

/-- A compatible update of a table that is in place is one that the SDK takes. -/
theorem additive_of_compatible (h : Compiles contract expected spec)
    (hplace : InPlace table location contract spec)
    (hcompatible : compatibleSchemaUpdate table.schema expected = true) :
    Additive table.schema expected := by
  have hevolves := compatibleSchemaUpdate_iff.mp hcompatible
  have hnames : (expected.fields.map fun field => field.name).Nodup := by
    rw [h.columns.1]
    exact contract.accepted.1
  obtain ⟨hkept, hmissing⟩ := union_columns hnames hevolves
  -- a field of the same name is the one that the column becomes
  have hpartner : ∀ field ∈ table.schema.fields, ∀ new ∈ expected.fields, new.name = field.name →
      Keeps field new := by
    intro field hfield new hnew hname
    obtain ⟨kept, hmem, hkeeps⟩ := exists_of_mem_forall₂ hevolves.split.1.flip hfield
    have hsame : new = kept := eq_of_key_eq (fun field => field.name) hnames hnew
      (List.mem_of_mem_take hmem) (hname.trans hkeeps.name)
    rw [hsame]
    exact hkeeps
  refine ⟨hnames, ?_, ?_, ?_⟩
  · intro field hfield new hnew hname
    exact (hpartner field hfield new hnew hname).fieldType.symm
  · intro new hnew
    rw [hmissing] at hnew
    exact hevolves.split.2 new hnew
  · intro field hfield hidentifier new hnew hname
    have hkeeps := hpartner field hfield new hnew hname
    have hmem : field.fieldId ∈ (identifierFields contract).toFinset := by
      rw [← hplace.identifiers]
      exact List.mem_toFinset.mpr hidentifier
    rw [hkeeps.fieldId] at hmem
    exact h.required hnew (List.mem_toFinset.mp hmem)

/-! ## What is left -/

/-- Nothing is refused before the columns are updated. -/
structure Reconciles (table : IcebergTable) (location : String)
    (contract : ManagedIcebergTableContract) (expected : IcebergSchema)
    (spec : List PartitionField) : Prop where
  compiles : Compiles contract expected spec
  place : InPlace table location contract spec
  compatible : compatibleSchemaUpdate table.schema expected = true

/-- The contract gives the columns behind those of the table the ids that come next. -/
def Numbered (table : IcebergTable) (contract : ManagedIcebergTableContract) : Prop :=
  ((contract.columns.drop table.schema.fields.length).map fun column => column.fieldId) =
    idsFrom (table.lastColumnId + 1) (contract.columns.length - table.schema.fields.length)

/-- The table with the columns of the schema. -/
def withColumns (table : IcebergTable) (expected : IcebergSchema) : IcebergTable :=
  { table with
    schema := { table.schema with fields := expected.fields }
    lastColumnId := table.lastColumnId +
      ((expected.fields.length - table.schema.fields.length : Nat) : Int) }

/-- The table that is brought to its contract. -/
def settled (table : IcebergTable) (expected : IcebergSchema) : IcebergTable :=
  (withColumns table expected).setProperties (propertyUpdates table)

/-- The appended fields keep their ids exactly where these are the ones that come next. -/
theorem Reconciles.numbered_iff (h : Reconciles table location contract expected spec) :
    numbered (table.lastColumnId + 1) (expected.fields.drop table.schema.fields.length) =
      expected.fields.drop table.schema.fields.length ↔ Numbered table contract := by
  have hids := h.compiles.columns.2
  have hlength : expected.fields.length = contract.columns.length := by
    have hmapped := congrArg List.length hids
    rwa [List.length_map, List.length_map] at hmapped
  rw [numbered_eq_iff, List.map_drop, hids, List.length_drop, hlength, Numbered, List.map_drop]

/-- What the union leaves is what was expected, up to the ids of the appended columns. -/
theorem Reconciles.union (h : Reconciles table location contract expected spec) :
    table.union expected = { withColumns table expected with
      schema := { table.schema with
        fields := expected.fields.take table.schema.fields.length ++
          numbered (table.lastColumnId + 1) (expected.fields.drop table.schema.fields.length) } } := by
  have hnames : (expected.fields.map fun field => field.name).Nodup := by
    rw [h.compiles.columns.1]
    exact contract.accepted.1
  obtain ⟨hkept, hmissing⟩ := union_columns hnames (compatibleSchemaUpdate_iff.mp h.compatible)
  rw [IcebergTable.union, hkept, hmissing, List.length_drop]
  rfl

/-- A table whose appended columns have the next ids becomes what was expected. -/
theorem Reconciles.union_numbered (h : Reconciles table location contract expected spec)
    (hnumbered : Numbered table contract) : table.union expected = withColumns table expected := by
  rw [h.union, h.numbered_iff.mpr hnumbered, List.take_append_drop]
  rfl

omit [PyIceberg] in
/-- The updated table is in place. -/
theorem InPlace.union (h : InPlace table location contract spec) (expected : IcebergSchema) :
    InPlace (table.union expected) location contract spec :=
  ⟨h.location, h.format, h.spec, h.identifiers⟩

omit [PyIceberg] in
/-- A table of the same columns needs none. -/
theorem withColumns_same (h : table.schema.fields = expected.fields) :
    withColumns table expected = table := by
  unfold withColumns
  rw [← h, Nat.sub_self, Nat.cast_zero, add_zero]

/-- **A contract with the next ids is applied.** -/
theorem applyTable_settled (h : Reconciles table location contract expected spec)
    (hnumbered : Numbered table contract) :
    applyTable identifier (some table) location contract = (.ok (), some (settled table expected)) := by
  obtain ⟨drift, hdrift, hmigration, hschema, -⟩ := tableDrift_cases h.compiles table location
  have hnone := hmigration.mpr h.place
  have happlied : reconcile identifier table location contract expected =
      (.ok (), settled table expected) := by
    unfold reconcile
    rw [hdrift]
    dsimp only
    rw [if_neg (not_not.mpr hnone)]
    by_cases hsame : table.schema.fields = expected.fields
    · rw [if_neg fun hmem => hschema.mp hmem hsame]
      dsimp only
      rw [settled, withColumns_same hsame]
    · have hunion := h.union_numbered hnumbered
      have hupdated := h.place.union expected
      rw [hunion] at hupdated
      obtain ⟨after, hafter, -, hleft, -⟩ :=
        tableDrift_cases h.compiles (withColumns table expected) location
      have hgone : DriftItem.schema ∉ after := fun hmem => hleft.mp hmem rfl
      rw [if_pos (hschema.mpr hsame), reconcileSchema, h.compatible,
        PyIceberg.unionByName_additive table expected
          (additive_of_compatible h.compiles h.place h.compatible), hunion]
      simp only [Bool.not_true, Bool.false_eq_true, if_false, hafter, if_neg hgone]
      rfl
  unfold applyTable
  rw [h.compiles.schema]
  simp only [Option.elim_some, happlied, Prod.map_apply, id_eq]

/-- The columns that are left with other ids are not those that were expected. -/
theorem Reconciles.union_differs (h : Reconciles table location contract expected spec)
    (hnumbered : ¬Numbered table contract) : (table.union expected).schema.fields ≠ expected.fields := by
  intro hsame
  rw [h.union] at hsame
  have hsplit := hsame.trans (List.take_append_drop table.schema.fields.length expected.fields).symm
  exact hnumbered (h.numbered_iff.mp (List.append_cancel_left hsplit))

/-- A union that leaves the schema as it is had nothing to leave. -/
theorem Reconciles.same_of_union (h : Reconciles table location contract expected spec)
    (hschema : (table.union expected).schema = table.schema) :
    (table.union expected).schema.fields = expected.fields := by
  have hlengths := congrArg (fun schema => schema.fields.length) hschema
  have hshort := (compatibleSchemaUpdate_iff.mp h.compatible).length_le
  rw [h.union] at hlengths ⊢
  dsimp only at hlengths ⊢
  rw [List.length_append, length_numbered, List.length_take, List.length_drop] at hlengths
  have hall : expected.fields.drop table.schema.fields.length = [] := by
    apply List.drop_eq_nil_of_le
    omega
  have htaken : expected.fields.take table.schema.fields.length = expected.fields := by
    apply List.take_of_length_le
    omega
  rw [hall, htaken, numbered, List.append_nil]

/-- **With other ids the columns are appended, and the error is raised.** -/
theorem applyTable_halfway (identifier : TableIdentifier)
    (h : Reconciles table location contract expected spec)
    (hnumbered : ¬Numbered table contract) :
    applyTable identifier (some table) location contract =
      (.error (remainsIncompatible identifier), some (table.union expected)) := by
  have hother : table.schema.fields ≠ expected.fields := by
    intro hsame
    apply hnumbered
    rw [← h.numbered_iff, ← hsame, List.drop_length]
    rfl
  obtain ⟨drift, hdrift, hmigration, hschema, -⟩ := tableDrift_cases h.compiles table location
  obtain ⟨after, hafter, -, hleft, -⟩ := tableDrift_cases h.compiles (table.union expected) location
  have hremains : DriftItem.schema ∈ after := hleft.mpr (h.union_differs hnumbered)
  have hnone := hmigration.mpr h.place
  have hraised : reconcile identifier table location contract expected =
      (.error (remainsIncompatible identifier), table.union expected) := by
    unfold reconcile
    rw [hdrift]
    dsimp only
    rw [if_neg (not_not.mpr hnone), if_pos (hschema.mpr hother), reconcileSchema, h.compatible,
      PyIceberg.unionByName_additive table expected
        (additive_of_compatible h.compiles h.place h.compatible)]
    simp only [Bool.not_true, Bool.false_eq_true, if_false, hafter, if_pos hremains]
  unfold applyTable
  rw [h.compiles.schema]
  simp only [Option.elim_some, hraised, Prod.map_apply, id_eq]

/-- **Otherwise nothing is changed.** -/
theorem applyTable_refused (identifier : TableIdentifier)
    (h : ∀ expected spec, ¬Reconciles table location contract expected spec) :
    ∃ error, applyTable identifier (some table) location contract = (.error error, some table) := by
  unfold applyTable
  cases hcompiled : icebergSchema contract.columns contract.primaryKey with
  | error error => exact ⟨error, rfl⟩
  | ok expected =>
      suffices hraised : ∃ error, reconcile identifier table location contract expected =
          (.error error, table) by
        obtain ⟨error, hraised⟩ := hraised
        exact ⟨error, by simp only [Option.elim_some, hraised, Prod.map_apply, id_eq]⟩
      unfold reconcile
      cases hspec : partitionSpec contract.columns contract.partitioning with
      | error error =>
          have hdrift : tableDrift table location contract = .error error := by
            unfold tableDrift
            rw [hcompiled, ok_bind, hspec]
            rfl
          rw [hdrift]
          exact ⟨error, rfl⟩
      | ok spec =>
          have hcompiles : Compiles contract expected spec := ⟨hcompiled, hspec⟩
          obtain ⟨drift, hdrift, hmigration, hschema, -⟩ := tableDrift_cases hcompiles table location
          rw [hdrift]
          dsimp only
          by_cases hplace : InPlace table location contract spec
          · have hincompatible : ¬compatibleSchemaUpdate table.schema expected = true :=
              fun hcompatible => h expected spec ⟨hcompiles, hplace, hcompatible⟩
            have hother : table.schema.fields ≠ expected.fields := by
              intro hsame
              apply hincompatible
              rw [compatibleSchemaUpdate_iff, ← hsame]
              exact Evolves.refl Keeps.refl _
            rw [if_neg (not_not.mpr (hmigration.mpr hplace)), if_pos (hschema.mpr hother),
              reconcileSchema, if_pos (by simpa using hincompatible)]
            exact ⟨_, rfl⟩
          · rw [if_pos fun hnone => hplace (hmigration.mp hnone)]
            exact ⟨_, rfl⟩

/-! ## Settling -/

omit [PyIceberg] in
theorem setProperties_properties (table : IcebergTable) (updates : List (String × String))
    (key : String) : (table.setProperties updates).properties key =
      ((updates.find? (·.1 = key)).map Prod.snd).or (table.properties key) := rfl

omit [PyIceberg] in
/-- Properties that were set need no update. -/
theorem propertyUpdates_set (table : IcebergTable) :
    propertyUpdates (table.setProperties (propertyUpdates table)) = [] := by
  apply List.filter_eq_nil_iff.mpr
  intro entry hentry hdiffers
  apply of_decide_eq_true hdiffers
  rw [setProperties_properties]
  cases hfound : (propertyUpdates table).find? (·.1 = entry.1) with
  | none =>
      by_contra hother
      have hmem : entry ∈ propertyUpdates table :=
        List.mem_filter.mpr ⟨hentry, decide_eq_true hother⟩
      have hnone := List.find?_eq_none.mp hfound entry hmem
      exact hnone (decide_eq_true rfl)
  | some other =>
      have hkey : other.1 = entry.1 := by simpa using List.find?_some hfound
      have hmem := (List.mem_filter.mp (List.mem_of_find?_eq_some hfound)).1
      have hsame : other = entry :=
        eq_of_key_eq Prod.fst tableProperties_distinct hmem hentry hkey
      rw [hsame]
      exact tableProperties_lower entry hentry

/-- A settled table reconciles with the contract, and needs no column. -/
theorem Reconciles.settled (h : Reconciles table location contract expected spec) :
    Reconciles (Catalog.settled table expected) location contract expected spec ∧
      Numbered (Catalog.settled table expected) contract := by
  have hlength : expected.fields.length = contract.columns.length := by
    have hmapped := congrArg List.length h.compiles.columns.2
    rwa [List.length_map, List.length_map] at hmapped
  have hfields : (Catalog.settled table expected).schema.fields = expected.fields := rfl
  refine ⟨⟨h.compiles, ⟨h.place.location, h.place.format, h.place.spec, h.place.identifiers⟩, ?_⟩, ?_⟩
  · rw [compatibleSchemaUpdate_iff, hfields]
    exact Evolves.refl Keeps.refl _
  · rw [Numbered, hfields, hlength, List.drop_length, Nat.sub_self]
    rfl

omit [PyIceberg] in
/-- What is settled stays as it is. -/
theorem settled_settled (table : IcebergTable) (expected : IcebergSchema) :
    Catalog.settled (Catalog.settled table expected) expected = Catalog.settled table expected := by
  have hnone : propertyUpdates (Catalog.settled table expected) = [] :=
    propertyUpdates_set (withColumns table expected)
  have hfields : (Catalog.settled table expected).schema.fields = expected.fields := rfl
  rw [Catalog.settled, hnone, withColumns_same hfields]
  rfl

/-- Nothing drifts of a settled table. -/
theorem tableDrift_settled (h : Reconciles table location contract expected spec) :
    tableDrift (Catalog.settled table expected) location contract = .ok [] := by
  obtain ⟨drift, hdrift, -, -, hempty⟩ :=
    tableDrift_cases h.compiles (Catalog.settled table expected) location
  rw [hdrift, hempty h.settled.1.place rfl (propertyUpdates_set (withColumns table expected))]

/-- It raises, and the schema and the properties are as they were; or nothing drifts, and
applying the contract again changes nothing. -/
def Settles (identifier : TableIdentifier) (table : IcebergTable) (location : String)
    (contract : ManagedIcebergTableContract) : Prop :=
  (∃ error after, applyTable identifier (some table) location contract = (.error error, some after) ∧
    after.schema = table.schema ∧ after.properties = table.properties) ∨
  ∃ after, applyTable identifier (some table) location contract = (.ok (), some after) ∧
    tableDrift after location contract = .ok [] ∧
    applyTable identifier (some after) location contract = (.ok (), some after)

/-- **A contract settles exactly where the columns that it appends have the next ids, or nothing
is appended.** -/
theorem settles_iff : Settles identifier table location contract ↔
    ∀ expected spec, Reconciles table location contract expected spec → Numbered table contract := by
  constructor
  · intro hsettles expected spec h
    by_contra hnumbered
    have hhalf := applyTable_halfway identifier h hnumbered
    rcases hsettles with ⟨error, after, happlied, hschema, -⟩ | ⟨after, happlied, -⟩
    · rw [hhalf] at happlied
      obtain rfl : table.union expected = after := Option.some.inj (Prod.mk.inj happlied).2
      exact h.union_differs hnumbered (h.same_of_union hschema)
    · rw [hhalf] at happlied
      cases (Prod.mk.inj happlied).1
  · intro hnumbered
    by_cases h : ∃ expected spec, Reconciles table location contract expected spec
    · obtain ⟨expected, spec, h⟩ := h
      refine .inr ⟨_, applyTable_settled h (hnumbered expected spec h), tableDrift_settled h, ?_⟩
      rw [applyTable_settled h.settled.1 h.settled.2, settled_settled]
    · push Not at h
      obtain ⟨error, hraised⟩ := applyTable_refused identifier h
      exact .inl ⟨error, table, hraised, rfl, rfl⟩

/-! ## Versions of a contract -/

/-- A contract that is applied reconciles with the table. -/
theorem applyTable_ok {after : IcebergTable} :
    applyTable identifier (some table) location contract = (.ok (), some after) ↔
      ∃ expected spec, Reconciles table location contract expected spec ∧ Numbered table contract ∧
        after = Catalog.settled table expected := by
  constructor
  · intro happlied
    by_cases h : ∃ expected spec, Reconciles table location contract expected spec
    · obtain ⟨expected, spec, h⟩ := h
      by_cases hnumbered : Numbered table contract
      · rw [applyTable_settled h hnumbered] at happlied
        exact ⟨expected, spec, h, hnumbered, (Option.some.inj (Prod.mk.inj happlied).2).symm⟩
      · rw [applyTable_halfway identifier h hnumbered] at happlied
        cases (Prod.mk.inj happlied).1
    · push Not at h
      obtain ⟨error, hraised⟩ := applyTable_refused identifier h
      rw [hraised] at happlied
      cases (Prod.mk.inj happlied).1
  · intro h
    obtain ⟨expected, spec, h, hnumbered, rfl⟩ := h
    exact applyTable_settled h hnumbered

omit [PyIceberg] in
theorem map_fieldId_keeps {fields kept : List NestedField} (h : List.Forall₂ Keeps fields kept) :
    (kept.map fun field => field.fieldId) = fields.map fun field => field.fieldId := by
  induction h with
  | nil => rfl
  | cons hfirst _ ih => rw [List.map_cons, List.map_cons, hfirst.fieldId, ih]

omit [PyIceberg] in
/-- Settling in two steps is settling in one. -/
theorem settled_skip {first second : IcebergSchema}
    (hfirst : table.schema.fields.length ≤ first.fields.length)
    (hsecond : first.fields.length ≤ second.fields.length) :
    Catalog.settled (Catalog.settled table first) second = Catalog.settled table second := by
  have hnone : propertyUpdates (Catalog.settled table first) = [] :=
    propertyUpdates_set (withColumns table first)
  have hlast : table.lastColumnId + ((first.fields.length - table.schema.fields.length : Nat) : Int) +
      ((second.fields.length - first.fields.length : Nat) : Int) =
        table.lastColumnId + ((second.fields.length - table.schema.fields.length : Nat) : Int) := by
    omega
  rw [Catalog.settled, hnone]
  unfold Catalog.settled withColumns
  simp only [IcebergTable.setProperties]
  rw [hlast]
  rfl

/-- A version that is applied after another can be applied without it. -/
theorem applyTable_skip {first second : ManagedIcebergTableContract} {middle after : IcebergTable}
    (hfirst : applyTable identifier (some table) location first = (.ok (), some middle))
    (hsecond : applyTable identifier (some middle) location second = (.ok (), some after)) :
    applyTable identifier (some table) location second = (.ok (), some after) := by
  obtain ⟨expected, spec, h, hnumbered, rfl⟩ := applyTable_ok.mp hfirst
  obtain ⟨expected', spec', h', hnumbered', rfl⟩ := applyTable_ok.mp hsecond
  have hevolves := compatibleSchemaUpdate_iff.mp h.compatible
  have hevolves' : Evolves Keeps IsOptional expected.fields expected'.fields :=
    compatibleSchemaUpdate_iff.mp h'.compatible
  have hall := Evolves.trans (fun _ _ _ hxy hyz => hxy.trans hyz) (fun _ _ hxy hx => hxy.optional hx)
    hevolves hevolves'
  have hreconciles : Reconciles table location second expected' spec' :=
    ⟨h'.compiles, ⟨h'.place.location, h'.place.format, h'.place.spec, h'.place.identifiers⟩,
      compatibleSchemaUpdate_iff.mpr hall⟩
  have hlength := hevolves.length_le
  have hlength' := hevolves'.length_le
  apply applyTable_ok.mpr
  refine ⟨expected', spec', hreconciles, ?_, settled_skip hlength hlength'⟩
  -- the ids of both appendices, one behind the other
  have hids := (numbered_eq_iff _ _).mp (h.numbered_iff.mpr hnumbered)
  have hids' := (numbered_eq_iff _ _).mp (h'.numbered_iff.mpr hnumbered')
  have hfields : (Catalog.settled table expected).schema.fields = expected.fields := rfl
  have hlast : (Catalog.settled table expected).lastColumnId =
      table.lastColumnId + ((expected.fields.length - table.schema.fields.length : Nat) : Int) := rfl
  rw [hfields, hlast] at hids'
  have hdrop : expected'.fields.drop table.schema.fields.length =
      (expected'.fields.take expected.fields.length).drop table.schema.fields.length ++
        expected'.fields.drop expected.fields.length := by
    rw [← List.drop_append_of_le_length, List.take_append_drop]
    rw [List.length_take]
    omega
  have hkept : (expected'.fields.take expected.fields.length).map (fun field => field.fieldId) =
      expected.fields.map fun field => field.fieldId := map_fieldId_keeps hevolves'.split.1
  have hcount : ((expected'.fields.take expected.fields.length).drop
      table.schema.fields.length).length = expected.fields.length - table.schema.fields.length := by
    rw [List.length_drop, List.length_take]
    omega
  have hnext : table.lastColumnId + 1 +
      ((expected.fields.length - table.schema.fields.length : Nat) : Int) =
        table.lastColumnId + ((expected.fields.length - table.schema.fields.length : Nat) : Int) + 1 := by
    omega
  apply hreconciles.numbered_iff.mp
  apply (numbered_eq_iff _ _).mpr
  calc (expected'.fields.drop table.schema.fields.length).map (fun field => field.fieldId)
      = (expected.fields.drop table.schema.fields.length).map (fun field => field.fieldId) ++
          (expected'.fields.drop expected.fields.length).map fun field => field.fieldId := by
        rw [hdrop, List.map_append, List.map_drop, hkept, ← List.map_drop]
    _ = idsFrom (table.lastColumnId + 1)
          (expected'.fields.drop table.schema.fields.length).length := by
        rw [hids, hids', hdrop, List.length_append, idsFrom_add, hcount, hnext, List.length_drop]

/-- Versions of a contract applied one after another. -/
inductive Applied (identifier : TableIdentifier) (location : String) :
    IcebergTable → List ManagedIcebergTableContract → IcebergTable → Prop
  | nil (table : IcebergTable) : Applied identifier location table [] table
  | cons {table middle after : IcebergTable} {contract : ManagedIcebergTableContract}
      {contracts : List ManagedIcebergTableContract}
      (happlied : applyTable identifier (some table) location contract = (.ok (), some middle))
      (hrest : Applied identifier location middle contracts after) :
      Applied identifier location table (contract :: contracts) after

/-- **The last version can be applied in one step.** -/
theorem Applied.last {versions : List ManagedIcebergTableContract} {after : IcebergTable}
    (h : Applied identifier location table (versions ++ [contract]) after) :
    applyTable identifier (some table) location contract = (.ok (), some after) := by
  induction versions generalizing table with
  | nil =>
      cases h with
      | cons happlied hrest =>
          cases hrest
          exact happlied
  | cons version versions ih =>
      cases h with
      | cons happlied hrest => exact applyTable_skip happlied (ih hrest)

end Apply

namespace Sample

theorem column_valid (fieldId : Int) {name : String} (h : isIdentifier name = true) :
    AllHold (ColumnFields.checks ⟨fieldId, name, .string, none, none, false⟩) := by
  simp [ColumnFields.checks, h]

theorem names_valid : isIdentifier "a" = true ∧ isIdentifier "b" = true := by decide

/-- A table with two columns, the second of an id. -/
def fields (fieldId : Int) : TableFields :=
  ⟨"events", [⟨_, column_valid 1 names_valid.1⟩, ⟨_, column_valid fieldId names_valid.2⟩], [], []⟩

theorem fields_valid {fieldId : Int} (h : 1 < fieldId) : AllHold (fields fieldId).checks := by
  have htable : isIdentifier "events" = true := by decide
  have hpositive : 1 ≤ fieldId := by omega
  have hother : 1 ≠ fieldId := by omega
  simp [fields, TableFields.checks, htable, hpositive, hother]

def contract {fieldId : Int} (h : 1 < fieldId) : ManagedIcebergTableContract := ⟨_, fields_valid h⟩

/-- The table with the first of them. -/
def table : IcebergTable where
  schema := ⟨[⟨1, "a", .string, false⟩], []⟩
  lastColumnId := 1
  location := "s3://lake/events"
  formatVersion := 2
  spec := []
  properties := fun _ => none

def identifier : TableIdentifier := ⟨["lake"], "events"⟩

/-- What is documented, for a table that exists. -/
@[reducible] def documented : PyIceberg where
  validateSchema _ := .ok ()
  createTable _ _ _ _ := .error (.runtimeError "Table already exists")
  unionByName table expected := .ok (table.union expected)
  unionByName_additive _ _ _ := rfl

theorem reconciles {fieldId : Int} (h : 1 < fieldId) :
    @Reconciles documented table "s3://lake/events" (contract h)
      ⟨[⟨1, "a", .string, false⟩, ⟨fieldId, "b", .string, false⟩], []⟩ [] :=
  @Reconciles.mk documented _ _ _ _ _ (@Compiles.mk documented _ _ _ rfl rfl)
    ⟨rfl, rfl, rfl, rfl⟩ rfl

end Sample

end MiniLakehouse.Catalog
