import PrivmxEndpoint.DecimalText
import PrivmxEndpoint.JsonStruct
import PrivmxEndpoint.RemoveEscape

/-!
# Structures as JSON texts

The `serialize` of a structure prints the object that it is written as, and its `deserialize`
reads the object of a text.  The text of a structure is read as the structure that was
printed, if and only if the object is.
-/

namespace PrivmxEndpoint

open JsonText SortedEntries Throwing

namespace DynamicVar

mutual

/-- What is printed for a value. -/
def value : DynamicVar → Value
  | .empty => .null
  | .bool b => .bool b
  | .int64 n => .number (wholeNumber n.toInt)
  | .number n => .number n
  | .string s => .string s
  | .array items => .array (values items)
  | .object members => .object (memberValues members)

def values : List DynamicVar → List Value
  | [] => []
  | x :: items => x.value :: values items

def memberValues : List (Bytes × DynamicVar) → List (Bytes × Value)
  | [] => []
  | (name, x) :: members => (name, x.value) :: memberValues members

end

/-- The values of an array, one by one. -/
theorem values_eq_map : ∀ items : List DynamicVar, values items = items.map value
  | [] => rfl
  | x :: items => congrArg (x.value :: ·) (values_eq_map items)

/-- The values of an object, one by one. -/
theorem memberValues_eq_map :
    ∀ members : List (Bytes × DynamicVar), memberValues members = members.map fun e => (e.1, e.2.value)
  | [] => rfl
  | (name, x) :: members => congrArg ((name, x.value) :: ·) (memberValues_eq_map members)

/-- The members of every object are in the order of their names, and a number that is no
`Int64` is one that is read as it is printed. -/
inductive Canonical (built : Value → Except JsonException DynamicVar) : DynamicVar → Prop
  | empty : Canonical built .empty
  | bool (b : Bool) : Canonical built (.bool b)
  | int64 (n : Int64) : Canonical built (.int64 n)
  | number {n : Number} (h : built (.number n) = .ok (.number n)) : Canonical built (.number n)
  | string (s : Bytes) : Canonical built (.string s)
  | array {items : List DynamicVar} (h : ∀ x ∈ items, Canonical built x) :
      Canonical built (.array items)
  | object {members : List (Bytes × DynamicVar)} (hsorted : Sorted members)
      (h : ∀ e ∈ members, Canonical built e.2) : Canonical built (.object members)

end DynamicVar

/-- What the parser builds of the values that it reads.  An object is a map. -/
structure PocoJson.BuildsVars (poco : PocoJson JsonException DynamicVar) : Prop where
  null : poco.built .null = .ok .empty
  bool : ∀ b, poco.built (.bool b) = .ok (.bool b)
  int64 : ∀ n : Int64, poco.built (.number (wholeNumber n.toInt)) = .ok (.int64 n)
  string : ∀ s, poco.built (.string s) = .ok (.string s)
  array : ∀ {vs items}, List.Forall₂ (fun v x => poco.built v = .ok x) vs items →
    poco.built (.array vs) = .ok (.array items)
  object : ∀ {ms members}, Sorted members →
    List.Forall₂ (fun e e' => e.1 = e'.1 ∧ poco.built e.2 = .ok e'.2) ms members →
      poco.built (.object ms) = .ok (.object members)

/-- What is printed for a value is read as the value. -/
theorem PocoJson.BuildsVars.built_value {poco : PocoJson JsonException DynamicVar}
    (hbuilds : poco.BuildsVars) {x : DynamicVar} (h : x.Canonical poco.built) :
    poco.built x.value = .ok x := by
  induction h with
  | empty => exact hbuilds.null
  | bool b => exact hbuilds.bool b
  | int64 n => exact hbuilds.int64 n
  | number h => exact h
  | string s => exact hbuilds.string s
  | @array items _ ih =>
      rw [DynamicVar.value, DynamicVar.values_eq_map]
      refine hbuilds.array ?_
      rw [List.forall₂_map_left_iff, List.forall₂_same]
      exact ih
  | @object members hsorted _ ih =>
      rw [DynamicVar.value, DynamicVar.memberValues_eq_map]
      refine hbuilds.object hsorted ?_
      rw [List.forall₂_map_left_iff, List.forall₂_same]
      exact fun e he => ⟨rfl, ih e he⟩

namespace JsonHelper

section Canonical

variable (built : Value → Except JsonException DynamicVar)

mutual

/-- The JSON values in a value are canonical. -/
def Canonical : (t : JsonType) → t.Val → Prop
  | .var, x => DynamicVar.Canonical built x
  | .object, members => DynamicVar.Canonical built (.object members)
  | .string, _ => True
  | .int64, _ => True
  | .bool, _ => True
  | .vector t, items => ∀ v ∈ (items : List t.Val), Canonical t v
  | .optional t, v => ∀ a, (v : Option t.Val) = some a → Canonical t a
  | .optionalNull t, v => ∀ a, (v : Option t.Val) = some a → Canonical t a
  | .map t, m => ∀ e ∈ SortedMap.entries m, Canonical t e.2
  | .struct _ base own, v => CanonicalFields base v.2.1 ∧ CanonicalFields own v.2.2

def CanonicalFields : (fields : JsonFields) → fields.Val → Prop
  | .nil, _ => True
  | .field _ t rest, v => Canonical t v.1 ∧ CanonicalFields rest v.2

end

variable {built}

mutual

/-- A value is written as a canonical one. -/
theorem canonical_serialize :
    ∀ (t : JsonType) (v : t.Val), Canonical built t v → (serialize t v).Canonical built
  | .var, _, h => h
  | .object, _, h => h
  | .string, s, _ => .string s
  | .int64, n, _ => .int64 n
  | .bool, b, _ => .bool b
  | .vector t, items, h => by
      refine .array fun x hx => ?_
      obtain ⟨v, hv, rfl⟩ := List.mem_map.mp hx
      exact canonical_serialize t v (h v hv)
  | .optional t, v, h => by
      cases v with
      | none => exact .empty
      | some a => exact canonical_serialize t a (h a rfl)
  | .optionalNull t, v, h => by
      cases v with
      | none => exact .empty
      | some a => exact canonical_serialize t a (h a rfl)
  | .map t, m, h => by
      refine .object (sorted_setAll .nil) fun e he => ?_
      rw [setAll_of_sorted _ m.sorted] at he
      obtain ⟨e', he', rfl⟩ := List.mem_map.mp he
      exact canonical_serialize t e'.2 (h e' he')
  | .struct _ base own, v, h => by
      have hbase := canonical_serializeFields base v.2.1 h.1 .nil (by simp)
      have hown := canonical_serializeFields own v.2.2 h.2 hbase.1 hbase.2
      exact .object hown.1 hown.2

/-- Canonical fields are written as a sorted object with canonical members. -/
theorem canonical_serializeFields :
    ∀ (fields : JsonFields) (v : fields.Val) {result : List (Bytes × DynamicVar)},
      CanonicalFields built fields v → Sorted result →
        (∀ e ∈ result, DynamicVar.Canonical built e.2) →
          Sorted (serializeFields fields v result) ∧
            ∀ e ∈ serializeFields fields v result, DynamicVar.Canonical built e.2
  | .nil, _, _, _, hsorted, hresult => ⟨hsorted, hresult⟩
  | .field name t rest, v, result, h, hsorted, hresult => by
      have hx := canonical_serialize t v.1 h.1
      refine canonical_serializeFields rest v.2 h.2 ?_ ?_
      · split
        · exact hsorted
        · exact hsorted.set
      · split
        · exact hresult
        · intro e he
          rcases mem_set he with rfl | hold
          · exact hx
          · exact hresult e hold

end

end Canonical

end JsonHelper

/-- `Utils::parseJsonObject`. -/
def Utils.parseJsonObject (poco : PocoJson JsonException DynamicVar) (P : PocoVar)
    (json : Bytes) : Except JsonException (List (Bytes × DynamicVar)) := do
  let x ← parseJson poco json
  P.extractObject x

/-! ## A library -/

namespace DynamicVar

mutual

/-- A number that is an `Int64` becomes one, and of the members of one name the last stays. -/
def ofValue : Value → DynamicVar
  | .null => .empty
  | .bool b => .bool b
  | .number n =>
      let whole := Int64.ofInt (intValue n.text)
      if wholeNumber whole.toInt = n then .int64 whole else .number n
  | .string s => .string s
  | .array vs => .array (ofValues vs)
  | .object ms => .object (setAll id (ofMembers ms) [])

def ofValues : List Value → List DynamicVar
  | [] => []
  | v :: vs => ofValue v :: ofValues vs

def ofMembers : List (Bytes × Value) → List (Bytes × DynamicVar)
  | [] => []
  | (name, v) :: ms => (name, ofValue v) :: ofMembers ms

end

/-- An array whose items come back comes back. -/
theorem ofValues_of_forall₂ {vs : List Value} {items : List DynamicVar}
    (h : List.Forall₂ (fun v x => (.ok (ofValue v) : Except JsonException _) = .ok x) vs items) :
    ofValues vs = items := by
  induction h with
  | nil => rfl
  | cons hx _ ih => rw [ofValues, Except.ok.inj hx, ih]

/-- So does an object. -/
theorem ofMembers_of_forall₂ {ms : List (Bytes × Value)} {members : List (Bytes × DynamicVar)}
    (h : List.Forall₂ (fun e e' => e.1 = e'.1 ∧
      (.ok (ofValue e.2) : Except JsonException _) = .ok e'.2) ms members) :
    ofMembers ms = members := by
  induction h with
  | nil => rfl
  | cons he _ ih => rw [ofMembers, Except.ok.inj he.2, ih, he.1]

end DynamicVar

def compactVarPoco : PocoJson JsonException DynamicVar where
  stringify _ v := v.value.print Utils.pocoSpell
  parse t := match JsonText.read t with
    | some v => .ok (DynamicVar.ofValue v)
    | none => .error (.poco "JSON Exception")
  built v := .ok (DynamicVar.ofValue v)

/-- The sample parser satisfies the documented laws. -/
theorem compactVarPoco_documented : compactVarPoco.Documented where
  stringify_written _ v := (written_print Utils.pocoSpelling_pocoSpell v.value).to_element
  parse_document h := by
    show (match JsonText.read _ with | some v => _ | none => _) = _
    rw [read_of_document h]
    rfl

/-- It builds the values that were printed. -/
theorem compactVarPoco_buildsVars : compactVarPoco.BuildsVars where
  null := rfl
  bool _ := rfl
  int64 n := by
    have hwhole : Int64.ofInt (intValue (wholeNumber n.toInt).text) = n := by
      rw [intValue_wholeNumber, Int64.ofInt_toInt]
    show Except.ok (DynamicVar.ofValue (.number (wholeNumber n.toInt))) = _
    rw [DynamicVar.ofValue, hwhole, if_pos rfl]
  string _ := rfl
  array {vs items} h := by
    have hitems : DynamicVar.ofValues vs = items := DynamicVar.ofValues_of_forall₂ h
    show Except.ok (DynamicVar.array (DynamicVar.ofValues vs)) = _
    rw [hitems]
  object {ms members} hsorted h := by
    have hmembers : DynamicVar.ofMembers ms = members := DynamicVar.ofMembers_of_forall₂ h
    show Except.ok (DynamicVar.object (setAll id (DynamicVar.ofMembers ms) [])) = _
    rw [hmembers, setAll_id hsorted]

def plainVars : PocoVar where
  typeName
    | .empty => "void"
    | .bool _ => "bool"
    | .int64 _ => "Poco::Int64"
    | .number _ => "double"
    | .string _ => "std::string"
    | .array _ => "Poco::JSON::Array::Ptr"
    | .object _ => "Poco::JSON::Object::Ptr"
  isInteger
    | .int64 _ => true
    | _ => false
  convertInt64
    | .int64 n => .ok n
    | _ => .error (.poco "Bad cast exception")
  extractObject
    | .object members => .ok members
    | _ => .error (.poco "Bad cast exception")

/-- The sample conversions satisfy the documented laws. -/
theorem plainVars_documented : plainVars.Documented where
  isInteger_int64 _ := rfl
  convertInt64_int64 _ := rfl
  extractObject_object _ := rfl

/-! ## The object of data integrity -/

namespace DynamicTypes

def fieldName (name : String) : Bytes := name.toUTF8.data.toList

def VERSIONED_DATA_FIELDS : JsonFields :=
  .field (fieldName "version") .int64 .nil

def VersionedData : JsonType := JSON_STRUCT VERSIONED_DATA_FIELDS

def BRIDGE_IDENTITY_FIELDS : JsonFields :=
  .field (fieldName "url") .string <|
  .field (fieldName "pubKey") (.optional .string) <|
  .field (fieldName "instanceId") (.optional .string) .nil

def BridgeIdentity : JsonType := JSON_STRUCT BRIDGE_IDENTITY_FIELDS

def DATA_INTEGRITY_OBJECT_FIELDS : JsonFields :=
  .field (fieldName "creatorUserId") .string <|
  .field (fieldName "creatorPublicKey") .string <|
  .field (fieldName "contextId") .string <|
  .field (fieldName "resourceId") .string <|
  .field (fieldName "timestamp") .int64 <|
  .field (fieldName "randomId") .string <|
  .field (fieldName "containerId") (.optional .string) <|
  .field (fieldName "containerResourceId") (.optional .string) <|
  .field (fieldName "fieldChecksums") (.map .string) <|
  .field (fieldName "structureVersion") .int64 <|
  .field (fieldName "bridgeIdentity") (.optional BridgeIdentity) .nil

def DataIntegrityObject : JsonType := JSON_STRUCT_EXT VersionedData DATA_INTEGRITY_OBJECT_FIELDS

/-- The fields of the integrity object have different names. -/
theorem dataIntegrityObject_wellNamed : DataIntegrityObject.WellNamed := by
  have hnames : (VERSIONED_DATA_FIELDS.names ++ DATA_INTEGRITY_OBJECT_FIELDS.names).Nodup := by
    decide
  have hbridge : BRIDGE_IDENTITY_FIELDS.names.Nodup := by decide
  refine ⟨hnames, ?_, ?_⟩
  · simp [VERSIONED_DATA_FIELDS, JsonFields.WellNamed, JsonType.WellNamed]
  · simpa [DATA_INTEGRITY_OBJECT_FIELDS, BRIDGE_IDENTITY_FIELDS, BridgeIdentity, JSON_STRUCT,
      JsonFields.names, JsonFields.WellNamed, JsonType.WellNamed] using hbridge

/-- Each of its fields has one meaning. -/
theorem dataIntegrityObject_definite : DataIntegrityObject.Definite := by
  refine ⟨rfl, ?_, ?_⟩
  · simp [VERSIONED_DATA_FIELDS, JsonFields.Definite, JsonType.Definite]
  · simp [DATA_INTEGRITY_OBJECT_FIELDS, BRIDGE_IDENTITY_FIELDS, BridgeIdentity, JSON_STRUCT,
      JsonFields.Definite, JsonType.Definite, JsonType.neverEmpty]

/-- It is nested no deeper than the parser goes. -/
theorem dataIntegrityObject_shallow : DataIntegrityObject.Shallow := by
  refine ⟨rfl, ?_, ?_⟩
  · simp [VERSIONED_DATA_FIELDS, JsonFields.Shallow, JsonType.Shallow]
  · simp [DATA_INTEGRITY_OBJECT_FIELDS, BRIDGE_IDENTITY_FIELDS, BridgeIdentity, JSON_STRUCT,
      JsonFields.Shallow, JsonType.Shallow]

/-- It holds no JSON values. -/
theorem canonical_dataIntegrityObject {built : Value → Except JsonException DynamicVar}
    (v : DataIntegrityObject.Val) : JsonHelper.Canonical built DataIntegrityObject v := by
  refine ⟨⟨trivial, trivial⟩, trivial, trivial, trivial, trivial, trivial, trivial,
    fun _ _ => trivial, fun _ _ => trivial, fun _ _ => trivial, trivial, fun _ _ => ?_, trivial⟩
  exact ⟨trivial, trivial, fun _ _ => trivial, fun _ _ => trivial, trivial⟩

/-- An object without a container, with one checksum, of a Bridge without an instance. -/
def sampleDio : DataIntegrityObject.Val :=
  ((), ((5, ()),
    (fieldName "user", fieldName "key", fieldName "context", fieldName "resource", -1,
      fieldName "random", none, none,
      { entries := [(fieldName "data", [0x00, 0x22, 0x5c, 0x2f])]
        sorted := List.pairwise_singleton _ _ },
      5, some ((), (), (fieldName "url", some (fieldName "pub"), none, ())), ())))

end DynamicTypes

/-! ## The functions of a structure -/

namespace JsonStruct

variable {inherited base own : JsonFields}

/-- `toJSON`. -/
def toJSON (v : (JsonType.struct inherited base own).Val) : List (Bytes × DynamicVar) :=
  JsonHelper.serializeFields own v.2.2 (JsonHelper.serializeFields base v.2.1 [])

/-- `fromJSON` of an object. -/
def fromJSON (P : PocoVar) (inherited base own : JsonFields)
    (members : List (Bytes × DynamicVar)) :
    Except JsonException (JsonType.struct inherited base own).Val :=
  JsonHelper.deserialize P (.struct inherited base own) (.object members)

/-- `serialize`.  There is no text if the loop over the printed text does not end. -/
def serialize (poco : PocoJson JsonException DynamicVar)
    (v : (JsonType.struct inherited base own).Val) : Option Bytes :=
  Utils.stringify poco (.object (DynamicVar.memberValues (toJSON v))) false

/-- `deserialize`. -/
def deserialize (poco : PocoJson JsonException DynamicVar) (P : PocoVar)
    (inherited base own : JsonFields) (json : Bytes) :
    Except JsonException (JsonType.struct inherited base own).Val := do
  let members ← Utils.parseJsonObject poco P json
  fromJSON P inherited base own members

variable {poco : PocoJson JsonException DynamicVar} {P : PocoVar}

/-- The text of a structure is read as the object that it is written as. -/
theorem deserialize_text (hpoco : poco.Documented) (hbuilds : poco.BuildsVars)
    (hP : P.Documented) (v : (JsonType.struct inherited base own).Val)
    (hv : JsonHelper.Canonical poco.built (.struct inherited base own) v) :
    ∃ json, serialize poco v = some json ∧
      deserialize poco P inherited base own json =
        JsonHelper.deserialize P (.struct inherited base own)
          (JsonHelper.serialize (.struct inherited base own) v) := by
  obtain ⟨json, hjson, hread⟩ :=
    Utils.stringify_document hpoco (.object (DynamicVar.memberValues (toJSON v))) false
  refine ⟨json, hjson, ?_⟩
  have hbuilt : poco.built (DynamicVar.object (toJSON v)).value = .ok (.object (toJSON v)) :=
    hbuilds.built_value (JsonHelper.canonical_serialize (.struct inherited base own) v hv)
  have hparsed : Utils.parseJson poco json = .ok (.object (toJSON v)) := hread.trans hbuilt
  have hobject : Utils.parseJsonObject poco P json = .ok (toJSON v) := by
    rw [Utils.parseJsonObject, hparsed]
    exact hP.extractObject_object _
  rw [deserialize, hobject]
  rfl

/-- **Round trip of structures.**  The text that a structure is written as is read as that
structure if and only if no optional value in it holds an empty one, and the fields that
its base has inherited, which are not written, are those that are read from nothing. -/
theorem deserialize_serialize_iff (hpoco : poco.Documented) (hbuilds : poco.BuildsVars)
    (hP : P.Documented) (hnames : (JsonType.struct inherited base own).WellNamed)
    (v : (JsonType.struct inherited base own).Val)
    (hv : JsonHelper.Canonical poco.built (.struct inherited base own) v) :
    ∃ json, serialize poco v = some json ∧
      (deserialize poco P inherited base own json = .ok v ↔
        JsonHelper.Kept P (.struct inherited base own) v) := by
  obtain ⟨json, hjson, hread⟩ := deserialize_text hpoco hbuilds hP v hv
  refine ⟨json, hjson, ?_⟩
  rw [hread]
  exact JsonHelper.deserialize_serialize hP _ hnames v

/-- A sample object is read back. -/
theorem deserialize_serialize_iff_sample :
    ∃ json, serialize compactVarPoco DynamicTypes.sampleDio = some json ∧
      deserialize compactVarPoco plainVars .nil DynamicTypes.VERSIONED_DATA_FIELDS
        DynamicTypes.DATA_INTEGRITY_OBJECT_FIELDS json = .ok DynamicTypes.sampleDio := by
  obtain ⟨json, hjson, hiff⟩ :=
    deserialize_serialize_iff compactVarPoco_documented compactVarPoco_buildsVars
      plainVars_documented DynamicTypes.dataIntegrityObject_wellNamed DynamicTypes.sampleDio
      (DynamicTypes.canonical_dataIntegrityObject _)
  exact ⟨json, hjson, hiff.mpr
    (JsonHelper.kept_of_definite _ DynamicTypes.dataIntegrityObject_definite _)⟩

/-- **What has been read from any text is written and read again as it is**, if no structure
extends one that extends another. -/
theorem reread (hpoco : poco.Documented) (hbuilds : poco.BuildsVars) (hP : P.Documented)
    (hnames : (JsonType.struct inherited base own).WellNamed)
    (hshallow : (JsonType.struct inherited base own).Shallow) {received : Bytes}
    {v : (JsonType.struct inherited base own).Val}
    (hreceived : deserialize poco P inherited base own received = .ok v)
    (hv : JsonHelper.Canonical poco.built (.struct inherited base own) v) :
    ∃ json, serialize poco v = some json ∧
      deserialize poco P inherited base own json = .ok v := by
  obtain ⟨members, -, hfrom⟩ := bind_eq_ok hreceived
  obtain ⟨json, hjson, hread⟩ := deserialize_text hpoco hbuilds hP v hv
  refine ⟨json, hjson, ?_⟩
  rw [hread]
  have hkept := JsonHelper.kept_of_deserialize _ hshallow hfrom
  exact (JsonHelper.deserialize_serialize hP _ hnames v).mpr hkept

/-- The members of a sample object, behind another one. -/
def sampleReceived : Value :=
  .object ((DynamicTypes.fieldName "more", .null) ::
    DynamicVar.memberValues (toJSON DynamicTypes.sampleDio))

/-- The sample object is printed and read back. -/
theorem reread_sample :
    ∃ json, serialize compactVarPoco DynamicTypes.sampleDio = some json ∧
      deserialize compactVarPoco plainVars .nil DynamicTypes.VERSIONED_DATA_FIELDS
        DynamicTypes.DATA_INTEGRITY_OBJECT_FIELDS json = .ok DynamicTypes.sampleDio := by
  have hreceived : deserialize compactVarPoco plainVars .nil DynamicTypes.VERSIONED_DATA_FIELDS
      DynamicTypes.DATA_INTEGRITY_OBJECT_FIELDS (sampleReceived.print Utils.pocoSpell) =
        .ok DynamicTypes.sampleDio := by
    have hwritten := (written_print Utils.pocoSpelling_pocoSpell sampleReceived).to_element
    have hparse := compactVarPoco_documented.parse_document
      (hwritten.mono Utils.spelling_of_poco)
    rw [deserialize, Utils.parseJsonObject, Utils.parseJson, hparse]
    rfl
  exact reread compactVarPoco_documented compactVarPoco_buildsVars plainVars_documented
    DynamicTypes.dataIntegrityObject_wellNamed DynamicTypes.dataIntegrityObject_shallow hreceived
    (DynamicTypes.canonical_dataIntegrityObject _)

end JsonStruct

end PrivmxEndpoint
