import MiniLakehouse.Library.Keyed
import MiniLakehouse.Library.Evolution
import MiniLakehouse.Library.Validation
import MiniLakehouse.Raised

/-!
# Iceberg tables

`contracts/base.py`, `contracts/tables.py`, `catalog/schema.py` and `catalog/tables.py`: a
table contract is compiled to an Iceberg schema and a partition spec, and a table that exists is
brought to them.  What the catalog itself does is the class `PyIceberg`.
-/

namespace MiniLakehouse.Catalog

/-! ## Contracts -/

/-- `LogicalType` -/
inductive LogicalType where
  | string
  | long
  | boolean
  | timestamptz
  | date
  | double
  | decimal
  deriving DecidableEq

def LogicalType.text : LogicalType → String
  | string => "string"
  | long => "long"
  | boolean => "boolean"
  | timestamptz => "timestamptz"
  | date => "date"
  | double => "double"
  | decimal => "decimal"

def isIdentifierStart (c : Char) : Bool := ('A' ≤ c && c ≤ 'Z') || ('a' ≤ c && c ≤ 'z') || c = '_'

/-- `^[A-Za-z_][A-Za-z0-9_]*$` -/
def isIdentifier (value : String) : Bool :=
  match value.toList with
  | [] => false
  | first :: rest => isIdentifierStart first &&
      rest.all fun c => isIdentifierStart c || ('0' ≤ c && c ≤ '9')

structure ColumnFields where
  fieldId : Int
  name : String
  dataType : LogicalType
  precision : Option Int
  scale : Option Int
  required : Bool

def ColumnFields.checks (fields : ColumnFields) : List (Check Raised) :=
  [⟨isIdentifier fields.name, .fieldError "name"⟩,
    ⟨fields.precision.all fun precision => 1 ≤ precision && precision ≤ 38, .fieldError "precision"⟩,
    ⟨fields.scale.all fun scale => 0 ≤ scale && scale ≤ 38, .fieldError "scale"⟩,
    -- `validate_decimal`
    ⟨fields.dataType ≠ .decimal || (fields.precision.isSome && fields.scale.isSome),
      .valueError "Decimal columns require precision and scale"⟩,
    ⟨fields.dataType ≠ .decimal || fields.scale.getD 0 ≤ fields.precision.getD 0,
      .valueError "Decimal scale cannot exceed precision"⟩,
    ⟨fields.dataType = .decimal || (fields.precision.isNone && fields.scale.isNone),
      .valueError "Precision and scale are valid only for decimal columns"⟩]

structure ColumnContract extends ColumnFields where
  valid : AllHold toColumnFields.checks

/-- The transforms that a contract can name. -/
inductive PartitionTransform where
  | identity
  | day
  | hour
  | month
  | year
  deriving DecidableEq

def PartitionTransform.text : PartitionTransform → String
  | identity => "identity"
  | day => "day"
  | hour => "hour"
  | month => "month"
  | year => "year"

structure IcebergPartitionContract where
  fieldId : Int
  field : String
  transform : PartitionTransform
  name : Option String
  deriving DecidableEq

/-- `partition.name or (…)` -/
def IcebergPartitionContract.partitionName (partition : IcebergPartitionContract) : String :=
  match partition.name with
  | some name => name
  | none =>
      if partition.transform = .identity then partition.field
      else partition.field ++ "_" ++ partition.transform.text

structure TableFields where
  name : String
  columns : List ColumnContract
  primaryKey : List String
  partitioning : List IcebergPartitionContract

/-- The names in the order of `sorted`, as `repr` writes them. -/
def sortedRepr (names : List String) : String :=
  "[" ++ ", ".intercalate ((sortOn id names.dedup).map fun name => "'" ++ name ++ "'") ++ "]"

/-- The check of one partition against the type of its column. -/
def TableFields.transformCheck (fields : TableFields) (partition : IcebergPartitionContract) :
    Check Raised :=
  match fields.columns.find? (·.name = partition.field) with
  | none => ⟨false, .lookupError partition.field⟩
  | some column =>
      ⟨match partition.transform with
        | .identity => true
        | .hour => column.dataType = .timestamptz
        | _ => column.dataType = .date || column.dataType = .timestamptz,
      .valueError ("Table '" ++ fields.name ++ "' cannot apply '" ++ partition.transform.text ++
        "' to '" ++ column.dataType.text ++ "' column '" ++ partition.field ++ "'")⟩

/-- `validate_table`, after the patterns and bounds of the fields -/
def TableFields.checks (fields : TableFields) : List (Check Raised) :=
  let table := "Table '" ++ fields.name ++ "' "
  let columnNames := fields.columns.map fun column => column.name
  let columnFieldIds := fields.columns.map fun column => column.fieldId
  let unknownKeys := fields.primaryKey.filter fun key => !columnNames.contains key
  let optionalKeys := fields.primaryKey.filter fun key =>
    !((fields.columns.filter fun column => column.required).map fun column => column.name).contains key
  let partitionFields := fields.partitioning.map fun partition => partition.field
  let unknownFields := partitionFields.filter fun field => !columnNames.contains field
  [⟨isIdentifier fields.name, .fieldError "name"⟩,
    ⟨1 ≤ fields.columns.length, .fieldError "columns"⟩,
    ⟨fields.primaryKey.all isIdentifier, .fieldError "primary_key"⟩,
    ⟨fields.partitioning.all fun partition => 1000 ≤ partition.fieldId &&
      isIdentifier partition.field && partition.name.all isIdentifier, .fieldError "partitioning"⟩,
    ⟨columnNames.Nodup, .valueError (table ++ "column names must be unique")⟩,
    ⟨columnFieldIds.Nodup && columnFieldIds.all (1 ≤ ·),
      .valueError (table ++ "field IDs must be unique positive integers")⟩,
    ⟨fields.primaryKey.Nodup, .valueError (table ++ "primary key fields must be unique")⟩,
    ⟨unknownKeys = [], .valueError
      (table ++ "primary key references unknown columns " ++ sortedRepr unknownKeys)⟩,
    ⟨optionalKeys = [], .valueError
      (table ++ "primary key columns must be required: " ++ sortedRepr optionalKeys)⟩,
    ⟨partitionFields.Nodup, .valueError (table ++ "partition fields must be unique")⟩,
    ⟨(fields.partitioning.map fun partition => partition.fieldId).Nodup,
      .valueError (table ++ "partition field IDs must be unique")⟩,
    ⟨(fields.partitioning.map IcebergPartitionContract.partitionName).Nodup,
      .valueError (table ++ "partition names must be unique")⟩,
    ⟨unknownFields = [], .valueError
      (table ++ "partitions by unknown columns " ++ sortedRepr unknownFields)⟩] ++
  fields.partitioning.map fields.transformCheck

/-- `ManagedIcebergTableContract` -/
structure ManagedIcebergTableContract extends TableFields where
  valid : AllHold toTableFields.checks

/-! ## Iceberg metadata -/

/-- `IcebergType`; no contract has one of the others. -/
inductive IcebergType where
  | string
  | long
  | boolean
  | timestamptz
  | date
  | double
  | decimal (precision scale : Int)
  | other (text : String)
  deriving DecidableEq

structure NestedField where
  fieldId : Int
  name : String
  fieldType : IcebergType
  required : Bool
  deriving DecidableEq

structure IcebergSchema where
  fields : List NestedField
  identifierFieldIds : List Int

/-- `Transform` -/
inductive Transform where
  | named (transform : PartitionTransform)
  | other (text : String)
  deriving DecidableEq

structure PartitionField where
  sourceId : Int
  fieldId : Int
  transform : Transform
  name : String
  deriving DecidableEq

structure IcebergTable where
  schema : IcebergSchema
  lastColumnId : Int
  location : String
  formatVersion : Nat
  spec : List PartitionField
  properties : String → Option String

/-! ## The catalog -/

/-- Ids from a first one on. -/
def idsFrom : Int → Nat → List Int
  | _, 0 => []
  | first, count + 1 => first :: idsFrom (first + 1) count

/-- The fields with ids from a first one on. -/
def numbered : Int → List NestedField → List NestedField
  | _, [] => []
  | first, field :: fields => { field with fieldId := first } :: numbered (first + 1) fields

/-- A column that is made optional where its column of the same name is. -/
def relaxed (expected : IcebergSchema) (field : NestedField) : NestedField :=
  { field with required := field.required &&
      (expected.fields.find? (·.name = field.name)).all fun new => new.required }

/-- The columns of which a table has none of the name. -/
def missingColumns (current expected : IcebergSchema) : List NestedField :=
  expected.fields.filter fun new => !(current.fields.map fun field => field.name).contains new.name

/-- What `union_by_name` is documented to leave: columns are made optional, and missing ones are
appended with the next ids. -/
def IcebergTable.union (table : IcebergTable) (expected : IcebergSchema) : IcebergTable :=
  { table with
    schema := { table.schema with
      fields := table.schema.fields.map (relaxed expected) ++
        numbered (table.lastColumnId + 1) (missingColumns table.schema expected) }
    lastColumnId := table.lastColumnId + (missingColumns table.schema expected).length }

/-- What `union_by_name` takes without changing a type, requiring a column or relaxing an
identifier. -/
structure Additive (current expected : IcebergSchema) : Prop where
  distinct : (expected.fields.map fun new => new.name).Nodup
  types : ∀ field ∈ current.fields, ∀ new ∈ expected.fields, new.name = field.name →
    new.fieldType = field.fieldType
  optional : ∀ new ∈ missingColumns current expected, new.required = false
  identifiers : ∀ field ∈ current.fields, field.fieldId ∈ current.identifierFieldIds →
    ∀ new ∈ expected.fields, new.name = field.name → new.required = true

/-- The SDK: what the constructor of a schema refuses, what a created table is, and what
`update_schema`, `union_by_name` and `commit` leave. -/
class PyIceberg where
  validateSchema : IcebergSchema → Except Raised Unit
  createTable : IcebergSchema → String → List PartitionField → List (String × String) →
    Except Raised IcebergTable
  unionByName : IcebergTable → IcebergSchema → Except Raised IcebergTable
  unionByName_additive : ∀ table expected, Additive table.schema expected →
    unionByName table expected = .ok (table.union expected)

/-- `set_properties` -/
def IcebergTable.setProperties (table : IcebergTable) (updates : List (String × String)) :
    IcebergTable :=
  { table with properties := fun key =>
      ((updates.find? (·.1 = key)).map Prod.snd).or (table.properties key) }

/-! ## `catalog/schema.py` -/

/-- `iceberg_type` -/
def icebergType (column : ColumnContract) : Except Raised IcebergType :=
  match column.dataType with
  | .string => .ok .string
  | .long => .ok .long
  | .boolean => .ok .boolean
  | .timestamptz => .ok .timestamptz
  | .date => .ok .date
  | .double => .ok .double
  | .decimal =>
      match column.precision, column.scale with
      | some precision, some scale => .ok (.decimal precision scale)
      | _, _ => .error (.valueError
          ("Decimal column '" ++ column.name ++ "' has no precision or scale"))

/-- `field_ids[name]` -/
def fieldIdOf (columns : List ColumnContract) (name : String) : Except Raised Int :=
  match columns.reverse.find? (·.name = name) with
  | some column => .ok column.fieldId
  | none => .error (.lookupError name)

def nestedField (column : ColumnContract) : Except Raised NestedField := do
  let fieldType ← icebergType column
  return ⟨column.fieldId, column.name, fieldType, column.required⟩

/-- `iceberg_schema` -/
def icebergSchema [PyIceberg] (columns : List ColumnContract) (primaryKey : List String) :
    Except Raised IcebergSchema := do
  let fields ← columns.mapM nestedField
  let identifierFieldIds ← primaryKey.mapM (fieldIdOf columns)
  PyIceberg.validateSchema ⟨fields, identifierFieldIds⟩
  return ⟨fields, identifierFieldIds⟩

/-- `partition_spec` -/
def partitionSpec (columns : List ColumnContract) (partitioning : List IcebergPartitionContract) :
    Except Raised (List PartitionField) :=
  partitioning.mapM fun partition => do
    let sourceId ← fieldIdOf columns partition.field
    return ⟨sourceId, partition.fieldId, .named partition.transform, partition.partitionName⟩

/-! ## `catalog/tables.py` -/

structure TableIdentifier where
  namespacePath : List String
  name : String

/-- `'.'.join(identifier.iceberg)` -/
def TableIdentifier.text (identifier : TableIdentifier) : String :=
  ".".intercalate (identifier.namespacePath ++ [identifier.name])

/-- `str.lower` -/
def lowerText (value : String) : String := String.ofList (value.toList.map Char.toLower)

def formatVersion : Nat := 2

/-- `TABLE_PROPERTIES` -/
def tableProperties : List (String × String) :=
  [("managed_by", "lakehouse-platform"), ("write.format.default", "parquet"),
    ("write.parquet.compression-codec", "zstd"),
    ("write.metadata.delete-after-commit.enabled", "true"),
    ("write.metadata.previous-versions-max", "30")]

theorem tableProperties_distinct : (tableProperties.map Prod.fst).Nodup := by decide

theorem tableProperties_lower : ∀ entry ∈ tableProperties, lowerText entry.2 = entry.2 := by decide

/-- What `table_drift` reports. -/
inductive DriftItem where
  | location
  | formatVersion
  | schema
  | partitionSpec
  | identifierFields
  | property (key : String)
  deriving DecidableEq

def DriftItem.text : DriftItem → String
  | location => "location"
  | formatVersion => "format_version"
  | schema => "schema"
  | partitionSpec => "partition_spec"
  | identifierFields => "identifier_fields"
  | property key => "properties." ++ key

/-- `item != "schema" and not item.startswith("properties.")` -/
def DriftItem.needsMigration : DriftItem → Bool
  | schema => false
  | property _ => false
  | _ => true

/-- `_compatible_schema_update` -/
def compatibleSchemaUpdate (current expected : IcebergSchema) : Bool :=
  if expected.fields.length < current.fields.length then false
  else
    ((current.fields.zip expected.fields).all fun (currentField, expectedField) =>
      currentField.fieldId = expectedField.fieldId && currentField.name = expectedField.name &&
        currentField.fieldType = expectedField.fieldType &&
        !(!currentField.required && expectedField.required)) &&
    (expected.fields.drop current.fields.length).all fun field => !field.required

/-- `value.rstrip("/")` -/
def rstripSlash (value : String) : String :=
  String.ofList (value.toList.reverse.dropWhile (· = '/')).reverse

/-- `_identifier_fields` -/
def identifierFields (contract : ManagedIcebergTableContract) : List Int :=
  (contract.columns.filter fun column => contract.primaryKey.contains column.name).map
    fun column => column.fieldId

/-- The properties that are not as they should be. -/
def propertyUpdates (table : IcebergTable) : List (String × String) :=
  tableProperties.filter fun entry => lowerText ((table.properties entry.1).getD "") ≠ entry.2

/-- `table_drift` with the properties of every table -/
def tableDrift [PyIceberg] (table : IcebergTable) (location : String)
    (contract : ManagedIcebergTableContract) : Except Raised (List DriftItem) := do
  let expected ← icebergSchema contract.columns contract.primaryKey
  let spec ← partitionSpec contract.columns contract.partitioning
  return (if rstripSlash table.location ≠ rstripSlash location then [.location] else []) ++
    (if table.formatVersion ≠ formatVersion then [.formatVersion] else []) ++
    (if table.schema.fields ≠ expected.fields then [.schema] else []) ++
    (if table.spec ≠ spec then [.partitionSpec] else []) ++
    (if table.schema.identifierFieldIds.toFinset ≠ (identifierFields contract).toFinset then
      [.identifierFields] else []) ++
    (propertyUpdates table).map fun entry => .property entry.1

def requiresMigration (identifier : TableIdentifier) (items : List DriftItem) : Raised :=
  .runtimeError ("Iceberg table " ++ identifier.text ++ " requires an explicit migration: " ++
    ", ".intercalate (items.map DriftItem.text))

def remainsIncompatible (identifier : TableIdentifier) : Raised :=
  .runtimeError ("Iceberg table " ++ identifier.text ++
    " schema remains incompatible after safe reconciliation")

section Apply

variable [PyIceberg] (identifier : TableIdentifier)

/-- `update_schema`, `commit` and `refresh`, and the drift after them: the table that is left,
also where this raises. -/
def reconcileSchema (table : IcebergTable) (location : String)
    (contract : ManagedIcebergTableContract) (expected : IcebergSchema) :
    Except Raised Unit × IcebergTable :=
  if !compatibleSchemaUpdate table.schema expected then
    (.error (requiresMigration identifier [.schema]), table)
  else
    match PyIceberg.unionByName table expected with
    | .error error => (.error error, table)
    | .ok updated =>
        match tableDrift updated location contract with
        | .error error => (.error error, updated)
        | .ok drift =>
            if .schema ∈ drift then (.error (remainsIncompatible identifier), updated)
            else (.ok (), updated)

/-- The drift of a table that was loaded or created. -/
def reconcile (table : IcebergTable) (location : String) (contract : ManagedIcebergTableContract)
    (expected : IcebergSchema) : Except Raised Unit × IcebergTable :=
  match tableDrift table location contract with
  | .error error => (.error error, table)
  | .ok drift =>
      if drift.filter DriftItem.needsMigration ≠ [] then
        (.error (requiresMigration identifier (drift.filter DriftItem.needsMigration)), table)
      else
        match (if .schema ∈ drift then reconcileSchema identifier table location contract expected
          else (.ok (), table)) with
        | (.error error, table) => (.error error, table)
        | (.ok (), table) => (.ok (), table.setProperties (propertyUpdates table))

/-- `create_table` -/
def createTable (location : String) (contract : ManagedIcebergTableContract)
    (expected : IcebergSchema) : Except Raised IcebergTable := do
  let spec ← partitionSpec contract.columns contract.partitioning
  PyIceberg.createTable expected location spec
    (("format-version", toString formatVersion) :: tableProperties)

/-- `apply_table`: the table that the catalog has before, and the one that it has after. -/
def applyTable (existing : Option IcebergTable) (location : String)
    (contract : ManagedIcebergTableContract) : Except Raised Unit × Option IcebergTable :=
  match icebergSchema contract.columns contract.primaryKey with
  | .error error => (.error error, existing)
  | .ok expected =>
      match existing.elim (createTable location contract expected) .ok with
      | .error error => (.error error, existing)
      | .ok table => (reconcile identifier table location contract expected).map id some

end Apply

end MiniLakehouse.Catalog
