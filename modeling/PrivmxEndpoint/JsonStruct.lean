import PrivmxEndpoint.JsonText
import PrivmxEndpoint.SortedEntries
import PrivmxEndpoint.StoreTypes
import PrivmxEndpoint.ThrowingPrograms
import PrivmxEndpoint.UsersKeysResolver

/-!
# Structures as JSON objects

`JSON_STRUCT` and `JSON_STRUCT_EXT` generate, for a list of named fields, a structure that is
written as a JSON object and read back.  The templates of `JsonHelper` are recursive in the
types of the fields, and so are their models, over the types that fields are made of
(`JsonType`) and the values of a type (`JsonType.Val`).

A structure that extends another one writes its own fields and those of its base, but not
the fields that the base has inherited; it reads all of them.  What is written is read back
if and only if no optional value holds an empty one and the fields that are not written are
empty (`deserialize_serialize`).
-/

namespace PrivmxEndpoint

open JsonText SortedEntries Throwing

/-- `Poco::Dynamic::Var`, as far as JSON goes.  The members of an object are in the order of
their names. -/
inductive DynamicVar
  | empty
  | bool (b : Bool)
  | int64 (n : Int64)
  /-- A number that is no `Int64`. -/
  | number (n : Number)
  | string (s : Bytes)
  | array (items : List DynamicVar)
  | object (members : List (Bytes × DynamicVar))

def DynamicVar.isEmpty : DynamicVar → Bool
  | .empty => true
  | _ => false

/-- The exceptions: `utils::JSONParseException`, and those of the library. -/
inductive JsonException
  | jsonParse (message : String)
  | poco (message : String)
  deriving Repr, DecidableEq

/-- What the source asks the library about a value. -/
structure PocoVar where
  /-- `type().name()`. -/
  typeName : DynamicVar → String
  isInteger : DynamicVar → Bool
  /-- `convert<int64_t>()`. -/
  convertInt64 : DynamicVar → Except JsonException Int64
  /-- `extract<Poco::JSON::Object::Ptr>()`. -/
  extractObject : DynamicVar → Except JsonException (List (Bytes × DynamicVar))

/-- What is known of the library: an `Int64` is an integer, and it is converted to itself;
an object is extracted. -/
structure PocoVar.Documented (P : PocoVar) : Prop where
  isInteger_int64 : ∀ n, P.isInteger (.int64 n) = true
  convertInt64_int64 : ∀ n, P.convertInt64 (.int64 n) = .ok n
  extractObject_object : ∀ members, P.extractObject (.object members) = .ok members

mutual

/-- The types of fields: those that `JsonHelper` is specialized for, its templates, and
structures.  `Pson::BinaryString` is left out: its library says how one is printed.  `map` is
both kinds of maps.  A structure has the fields that its base has inherited, those of the base
itself, and its own. -/
inductive JsonType
  | var
  | object
  | string
  | int64
  | bool
  | vector (t : JsonType)
  | optional (t : JsonType)
  | optionalNull (t : JsonType)
  | map (t : JsonType)
  | struct (inherited base own : JsonFields)

/-- The fields of a list `FIELDS(F)`. -/
inductive JsonFields
  | nil
  | field (name : Bytes) (type : JsonType) (rest : JsonFields)

end

/-- `is_optional`. -/
def JsonType.isOptional : JsonType → Bool
  | .optional _ => true
  | _ => false

def JsonFields.append : JsonFields → JsonFields → JsonFields
  | .nil, fields => fields
  | .field name type rest, fields => .field name type (rest.append fields)

def JsonFields.names : JsonFields → List Bytes
  | .nil => []
  | .field name _ rest => name :: rest.names

/-- `JSON_STRUCT`. -/
def JSON_STRUCT (fields : JsonFields) : JsonType :=
  .struct .nil .nil fields

/-- `JSON_STRUCT_EXT`. -/
def JSON_STRUCT_EXT : JsonType → JsonFields → JsonType
  | .struct inherited base own, fields => .struct (inherited.append base) own fields
  | _, fields => JSON_STRUCT fields

mutual

/-- The values of a type. -/
@[reducible]
def JsonType.Val : JsonType → Type
  | .var => DynamicVar
  | .object => List (Bytes × DynamicVar)
  | .string => Bytes
  | .int64 => Int64
  | .bool => Bool
  | .vector t => List t.Val
  | .optional t => Option t.Val
  | .optionalNull t => Option t.Val
  | .map t => SortedMap Bytes t.Val
  | .struct inherited base own => inherited.Val × base.Val × own.Val

/-- The values of the fields. -/
@[reducible]
def JsonFields.Val : JsonFields → Type
  | .nil => Unit
  | .field _ t rest => t.Val × rest.Val

end

namespace JsonHelper

mutual

/-- `JsonHelper::serialize`, and `toJSON` of a structure. -/
def serialize : (t : JsonType) → t.Val → DynamicVar
  | .var, x => x
  | .object, members => .object members
  | .string, s => .string s
  | .int64, n => .int64 n
  | .bool, b => .bool b
  | .vector t, items => .array (List.map (serialize t) items)
  | .optional t, v =>
      match (v : Option t.Val) with
      | none => .empty
      | some a => serialize t a
  | .optionalNull t, v =>
      match (v : Option t.Val) with
      | none => .empty
      | some a => serialize t a
  | .map t, m => .object (setAll (serialize t) (SortedMap.entries m) [])
  | .struct _ base own, v => .object (serializeFields own v.2.2 (serializeFields base v.2.1 []))

/-- `serializeFields`. -/
def serializeFields :
    (fields : JsonFields) → fields.Val → List (Bytes × DynamicVar) → List (Bytes × DynamicVar)
  | .nil, _, result => result
  | .field name t rest, v, result =>
      let x := serialize t v.1
      serializeFields rest v.2 (if t.isOptional && x.isEmpty then result else set name x result)

end

section Deserialize

variable (P : PocoVar)

/-- A value of another type than it should be. -/
def failed {α : Type} (expected : String) (x : DynamicVar) : Except JsonException α :=
  .error (.jsonParse ("Failed to Parse JSON " ++ expected ++ " '" ++ P.typeName x ++ "'"))

mutual

/-- `JsonHelper::deserialize`. -/
def deserialize : (t : JsonType) → DynamicVar → Except JsonException t.Val
  | .var, x => .ok x
  | .object, .object members => .ok members
  | .object, x => failed P "Object value, recived" x
  | .string, .string s => .ok s
  | .string, x => failed P "String value, recived" x
  | .int64, x => if P.isInteger x then P.convertInt64 x else failed P "Integer value, recived" x
  | .bool, .bool b => .ok b
  | .bool, x => failed P "boolean value, recived" x
  | .vector t, .array items => (items.mapM (deserialize t) : Except JsonException (List t.Val))
  | .vector _, x => failed P "array, recived" x
  | .optional t, x =>
      if x.isEmpty then .ok (none : Option t.Val)
      else (deserialize t x).map (some : t.Val → Option t.Val)
  | .optionalNull t, x =>
      if x.isEmpty then .ok (none : Option t.Val)
      else (deserialize t x).map (some : t.Val → Option t.Val)
  | .map t, .object members => do
      let values ← members.mapM fun kv => (deserialize t kv.2).map fun v => (kv.1, v)
      return ({ entries := setAll id values []
                sorted := sorted_setAll .nil } : SortedMap Bytes t.Val)
  | .map _, x => failed P "map, received" x
  | .struct inherited base own, .object members => do
      let vi ← parseFields inherited members
      let vb ← parseFields base members
      let vo ← parseFields own members
      return ((vi, vb, vo) : inherited.Val × base.Val × own.Val)
  | .struct _ _ _, x => failed P "Object, received" x

/-- `_parseFields`. -/
def parseFields :
    (fields : JsonFields) → List (Bytes × DynamicVar) → Except JsonException fields.Val
  | .nil, _ => .ok ()
  | .field name t rest, members => do
      let v ← deserialize t ((members.lookup name).getD .empty)
      let vs ← parseFields rest members
      return ((v, vs) : t.Val × rest.Val)

end

end Deserialize

/-! ## Members of the object that is written -/

section Members

variable {name : Bytes} {members members' result : List (Bytes × DynamicVar)}

/-- Fields write only under their own names. -/
theorem lookup_serializeFields_of_notMem :
    ∀ (fields : JsonFields) (v : fields.Val) {result : List (Bytes × DynamicVar)},
      name ∉ fields.names → (serializeFields fields v result).lookup name = result.lookup name
  | .nil, _, _, _ => rfl
  | .field name' t rest, v, result, h => by
      have hne : name ≠ name' := fun heq => h (heq ▸ List.mem_cons_self)
      have hrest : name ∉ rest.names := fun hmem => h (List.mem_cons_of_mem _ hmem)
      refine (lookup_serializeFields_of_notMem rest v.2 hrest).trans ?_
      split
      · rfl
      · exact lookup_set_of_ne hne

/-- The members that the fields are read from are those that their values are written as. -/
def Found : (fields : JsonFields) → fields.Val → List (Bytes × DynamicVar) → Prop
  | .nil, _, _ => True
  | .field name t rest, v, members =>
      (members.lookup name).getD .empty = serialize t v.1 ∧ Found rest v.2 members

/-- Fields are found by their own names only. -/
theorem Found.congr (members' : List (Bytes × DynamicVar)) :
    ∀ {fields : JsonFields} {v : fields.Val}, Found fields v members →
      (∀ name ∈ fields.names, members'.lookup name = members.lookup name) →
        Found fields v members'
  | .nil, _, _, _ => trivial
  | .field name _ rest, _, h, hsame => by
      refine ⟨?_, Found.congr members' h.2 fun name' hmem => hsame name' (List.mem_cons_of_mem _ hmem)⟩
      rw [hsame name List.mem_cons_self]
      exact h.1

/-- An empty optional value is not written, and it is read from a member that is missing. -/
theorem found_serializeFields :
    ∀ (fields : JsonFields) (v : fields.Val) (result : List (Bytes × DynamicVar)),
      fields.names.Nodup → (∀ name ∈ fields.names, result.lookup name = none) →
        Found fields v (serializeFields fields v result)
  | .nil, _, _, _, _ => trivial
  | .field name t rest, v, result, hnodup, hfresh => by
      obtain ⟨hname, hrest⟩ := List.nodup_cons.mp hnodup
      have hbelow : ∀ result' : List (Bytes × DynamicVar),
          (∀ name' ∈ rest.names, result'.lookup name' = result.lookup name') →
            Found rest v.2 (serializeFields rest v.2 result') := by
        intro result' hsame
        refine found_serializeFields rest v.2 _ hrest fun name' hmem => ?_
        rw [hsame name' hmem]
        exact hfresh name' (List.mem_cons_of_mem _ hmem)
      have hset : ∀ name' ∈ rest.names,
          (set name (serialize t v.1) result).lookup name' = result.lookup name' := by
        intro name' hmem
        exact lookup_set_of_ne fun heq => hname (heq ▸ hmem)
      show (List.lookup name (serializeFields rest v.2 _)).getD .empty = serialize t v.1 ∧
        Found rest v.2 (serializeFields rest v.2 _)
      rw [lookup_serializeFields_of_notMem rest v.2 hname]
      cases hskip : t.isOptional && (serialize t v.1).isEmpty with
      | true =>
          rw [if_pos rfl]
          refine ⟨?_, hbelow result fun _ _ => rfl⟩
          have hempty := (Bool.and_eq_true_iff.mp hskip).2
          rw [hfresh name List.mem_cons_self]
          cases hx : serialize t v.1 <;> simp [hx, DynamicVar.isEmpty] at hempty ⊢
      | false =>
          rw [if_neg (by simp)]
          refine ⟨?_, hbelow _ hset⟩
          rw [lookup_set_self]
          rfl

end Members

end JsonHelper

/-! ## What is read back -/

mutual

/-- The names of the fields of every structure differ. -/
def JsonType.WellNamed : JsonType → Prop
  | .var => True
  | .object => True
  | .string => True
  | .int64 => True
  | .bool => True
  | .vector t => t.WellNamed
  | .optional t => t.WellNamed
  | .optionalNull t => t.WellNamed
  | .map t => t.WellNamed
  | .struct inherited base own =>
      (inherited.names ++ (base.names ++ own.names)).Nodup ∧ base.WellNamed ∧ own.WellNamed

def JsonFields.WellNamed : JsonFields → Prop
  | .nil => True
  | .field _ t rest => t.WellNamed ∧ rest.WellNamed

end

namespace JsonHelper

mutual

/-- No optional value holds an empty one, and the fields that a structure does not write
have the values that are read from nothing. -/
def Kept (P : PocoVar) : (t : JsonType) → t.Val → Prop
  | .var, _ => True
  | .object, _ => True
  | .string, _ => True
  | .int64, _ => True
  | .bool, _ => True
  | .vector t, items => ∀ v ∈ (items : List t.Val), Kept P t v
  | .optional t, v => ∀ a, (v : Option t.Val) = some a → Kept P t a ∧ serialize t a ≠ .empty
  | .optionalNull t, v => ∀ a, (v : Option t.Val) = some a → Kept P t a ∧ serialize t a ≠ .empty
  | .map t, m => ∀ e ∈ SortedMap.entries m, Kept P t e.2
  | .struct inherited base own, v =>
      parseFields P inherited [] = .ok v.1 ∧ KeptFields P base v.2.1 ∧ KeptFields P own v.2.2

def KeptFields (P : PocoVar) : (fields : JsonFields) → fields.Val → Prop
  | .nil, _ => True
  | .field _ t rest, v => Kept P t v.1 ∧ KeptFields P rest v.2

end

section ReadBack

variable {P : PocoVar}

/-- Only the empty value is empty. -/
theorem isEmpty_iff {x : DynamicVar} : x.isEmpty = true ↔ x = .empty := by
  cases x <;> simp [DynamicVar.isEmpty]

/-- The field list is read member by member. -/
theorem parseFields_congr (P : PocoVar) {members members' : List (Bytes × DynamicVar)} :
    ∀ {fields : JsonFields}, (∀ name ∈ fields.names, members'.lookup name = members.lookup name) →
      parseFields P fields members' = parseFields P fields members
  | .nil, _ => rfl
  | .field name t rest, hsame => by
      have hrest : parseFields P rest members' = parseFields P rest members :=
        parseFields_congr P fun name' hmem => hsame name' (List.mem_cons_of_mem _ hmem)
      show (deserialize P t ((members'.lookup name).getD .empty) >>= fun v =>
        parseFields P rest members' >>= _) = _
      rw [hsame name List.mem_cons_self, hrest]
      rfl

/-- An optional field is read when it is not empty. -/
theorem optional_iff {α : Type} {x : DynamicVar} {read : Except JsonException α} {a : α} :
    ((if x.isEmpty then .ok none else read.map some : Except JsonException (Option α)) =
      .ok (some a)) ↔ read = .ok a ∧ x ≠ .empty := by
  by_cases hempty : x.isEmpty = true
  · rw [if_pos hempty]
    simp [isEmpty_iff.mp hempty]
  · rw [if_neg hempty]
    have hne : x ≠ .empty := fun h => hempty (isEmpty_iff.mpr h)
    cases read <;> simp [Except.map, hne]

mutual

/-- **What is read back.**  A value is read back from what it is written as if and only if no
optional value in it holds an empty one, and the fields that are not written are empty. -/
theorem deserialize_serialize (hP : P.Documented) :
    ∀ (t : JsonType), t.WellNamed → ∀ v : t.Val,
      deserialize P t (serialize t v) = .ok v ↔ Kept P t v
  | .var, _, _ => iff_of_true rfl trivial
  | .object, _, _ => iff_of_true rfl trivial
  | .string, _, _ => iff_of_true rfl trivial
  | .int64, _, n => by
      refine iff_of_true ?_ trivial
      show (if P.isInteger (.int64 n) then P.convertInt64 (.int64 n) else _) = .ok n
      rw [if_pos (hP.isInteger_int64 n), hP.convertInt64_int64 n]
  | .bool, _, _ => iff_of_true rfl trivial
  | .vector t, ht, items => by
      show List.mapM (deserialize P t) (List.map (serialize t) items) = .ok items ↔
        ∀ v ∈ (items : List t.Val), Kept P t v
      rw [mapM_eq_ok_iff, List.forall₂_map_left_iff, List.forall₂_same]
      exact forall₂_congr fun v _ => deserialize_serialize hP t ht v
  | .optional t, ht, v => by
      cases v with
      | none => exact iff_of_true rfl fun a h => nomatch h
      | some a =>
          have hread := deserialize_serialize hP t ht a
          refine (@optional_iff _ (serialize t a) (deserialize P t (serialize t a)) a).trans ?_
          rw [hread]
          exact ⟨fun h b hb => Option.some.inj hb ▸ h, fun h => h a rfl⟩
  | .optionalNull t, ht, v => by
      cases v with
      | none => exact iff_of_true rfl fun a h => nomatch h
      | some a =>
          have hread := deserialize_serialize hP t ht a
          refine (@optional_iff _ (serialize t a) (deserialize P t (serialize t a)) a).trans ?_
          rw [hread]
          exact ⟨fun h b hb => Option.some.inj hb ▸ h, fun h => h a rfl⟩
  | .map t, ht, m => by
      have hread : ∀ (entries : List (Bytes × t.Val)),
          ((setAll (serialize t) m.entries []).mapM fun kv =>
            (deserialize P t kv.2).map fun v => (kv.1, v)) = .ok entries ↔
          List.Forall₂ (fun e e' => e.1 = e'.1 ∧ deserialize P t (serialize t e.2) = .ok e'.2)
            m.entries entries := by
        intro entries
        rw [setAll_of_sorted _ m.sorted, mapM_eq_ok_iff, List.forall₂_map_left_iff]
        have hentry : (fun e e' : Bytes × t.Val =>
            (deserialize P t (serialize t e.2)).map (fun v => (e.1, v)) = .ok e') =
              fun e e' => e.1 = e'.1 ∧ deserialize P t (serialize t e.2) = .ok e'.2 := by
          funext e e'
          cases deserialize P t (serialize t e.2) with
          | error error => simp [Except.map]
          | ok v => simp [Except.map, Prod.ext_iff]
        rw [← hentry]
      show ((setAll (serialize t) m.entries []).mapM _ >>= fun values =>
        Except.ok (SortedMap.mk (setAll id values []) (sorted_setAll .nil))) =
          (Except.ok m : Except JsonException _) ↔ ∀ e ∈ m.entries, Kept P t e.2
      constructor
      · intro h
        obtain ⟨values, hvalues, hm⟩ := bind_eq_ok h
        have heach := (hread values).mp hvalues
        have hkeys : m.entries.map Prod.fst = values.map Prod.fst := by
          refine List.forall₂_eq_eq_eq ▸ ?_
          rw [List.forall₂_map_left_iff, List.forall₂_map_right_iff]
          exact heach.imp fun _ _ he => he.1
        have hsame : values = m.entries := by
          rw [← congrArg SortedMap.entries (Except.ok.inj hm)]
          exact (setAll_id (m.sorted.of_keys hkeys)).symm
        rw [hsame, List.forall₂_same] at heach
        exact fun e he => (deserialize_serialize hP t ht e.2).mp (heach e he).2
      · intro h
        have heach := (hread m.entries).mpr (List.forall₂_same.mpr fun e he =>
          ⟨rfl, (deserialize_serialize hP t ht e.2).mpr (h e he)⟩)
        rw [heach]
        exact congrArg Except.ok (SortedMap.ext (setAll_id m.sorted))
  | .struct inherited base own, ht, v => by
      obtain ⟨hnodup, hbase, hown⟩ := ht
      obtain ⟨-, hnames, hinherited⟩ := List.nodup_append.mp hnodup
      obtain ⟨hbasenames, hownnames, hdisjoint⟩ := List.nodup_append.mp hnames
      have hfirst := found_serializeFields base v.2.1 [] hbasenames fun _ _ => rfl
      have hlast := found_serializeFields own v.2.2
        (serializeFields base v.2.1 []) hownnames fun name hmem =>
          lookup_serializeFields_of_notMem base v.2.1 fun hin => hdisjoint name hin name hmem rfl
      have hkept := hfirst.congr (serializeFields own v.2.2 (serializeFields base v.2.1 []))
        fun name hmem => lookup_serializeFields_of_notMem own v.2.2 fun hin =>
          hdisjoint name hmem name hin rfl
      have habsent : parseFields P inherited
          (serializeFields own v.2.2 (serializeFields base v.2.1 [])) =
            parseFields P inherited [] := by
        refine parseFields_congr P fun name hmem => ?_
        rw [lookup_serializeFields_of_notMem own v.2.2 fun hin =>
            hinherited name hmem name (List.mem_append_right _ hin) rfl,
          lookup_serializeFields_of_notMem base v.2.1 fun hin =>
            hinherited name hmem name (List.mem_append_left _ hin) rfl]
      have hb := parseFields_found hP base hbase v.2.1 hkept
      have ho := parseFields_found hP own hown v.2.2 hlast
      show (parseFields P inherited _ >>= fun vi => parseFields P base _ >>= fun vb =>
        parseFields P own _ >>= fun vo => _) = _ ↔ _ ∧ _ ∧ _
      rw [habsent, ← hb, ← ho]
      constructor
      · intro h
        obtain ⟨vi, hvi, h⟩ := bind_eq_ok h
        obtain ⟨vb, hvb, h⟩ := bind_eq_ok h
        obtain ⟨vo, hvo, h⟩ := bind_eq_ok h
        obtain rfl := Except.ok.inj h
        exact ⟨hvi, hvb, hvo⟩
      · rintro ⟨hvi, hvb, hvo⟩
        rw [hvi, hvb, hvo]
        rfl

/-- Fields that are found are read back exactly when they are kept. -/
theorem parseFields_found (hP : P.Documented) :
    ∀ (fields : JsonFields), fields.WellNamed → ∀ (v : fields.Val)
      {members : List (Bytes × DynamicVar)}, Found fields v members →
        (parseFields P fields members = .ok v ↔ KeptFields P fields v)
  | .nil, _, _, _, _ => iff_of_true rfl trivial
  | .field name t rest, ht, v, members, hfound => by
      have hfield := deserialize_serialize hP t ht.1 v.1
      have hrest := parseFields_found hP rest ht.2 v.2 hfound.2
      show (deserialize P t ((members.lookup name).getD .empty) >>= fun v =>
        parseFields P rest members >>= fun vs => _) = _ ↔ Kept P t v.1 ∧ KeptFields P rest v.2
      rw [hfound.1, ← hfield, ← hrest]
      constructor
      · intro h
        obtain ⟨a, ha, h⟩ := bind_eq_ok h
        obtain ⟨vs, hvs, h⟩ := bind_eq_ok h
        obtain rfl := Except.ok.inj h
        exact ⟨ha, hvs⟩
      · rintro ⟨ha, hvs⟩
        rw [ha, hvs]
        rfl

end

end ReadBack

end JsonHelper

/-! ## Types all of whose values are read back -/

/-- No value of the type is written as an empty value. -/
def JsonType.neverEmpty : JsonType → Bool
  | .var => false
  | .optional _ => false
  | .optionalNull _ => false
  | _ => true

/-- A type that is never empty writes no empty value. -/
theorem JsonHelper.serialize_of_neverEmpty {t : JsonType} (ht : t.neverEmpty = true) (v : t.Val) :
    serialize t v ≠ .empty := by
  cases t <;> simp [JsonType.neverEmpty] at ht <;> nofun

mutual

/-- A value of an optional type is empty only if it is missing, and every field is written. -/
def JsonType.Definite : JsonType → Prop
  | .var => True
  | .object => True
  | .string => True
  | .int64 => True
  | .bool => True
  | .vector t => t.Definite
  | .optional t => t.neverEmpty = true ∧ t.Definite
  | .optionalNull t => t.neverEmpty = true ∧ t.Definite
  | .map t => t.Definite
  | .struct inherited base own => inherited = .nil ∧ base.Definite ∧ own.Definite

def JsonFields.Definite : JsonFields → Prop
  | .nil => True
  | .field _ t rest => t.Definite ∧ rest.Definite

end

mutual

/-- A definite type is kept. -/
theorem JsonHelper.kept_of_definite {P : PocoVar} :
    ∀ (t : JsonType), t.Definite → ∀ v : t.Val, Kept P t v
  | .var, _, _ => trivial
  | .object, _, _ => trivial
  | .string, _, _ => trivial
  | .int64, _, _ => trivial
  | .bool, _, _ => trivial
  | .vector t, ht, _ => fun v _ => kept_of_definite t ht v
  | .optional t, ht, _ => fun a _ => ⟨kept_of_definite t ht.2 a, serialize_of_neverEmpty ht.1 a⟩
  | .optionalNull t, ht, _ => fun a _ => ⟨kept_of_definite t ht.2 a, serialize_of_neverEmpty ht.1 a⟩
  | .map t, ht, _ => fun e _ => kept_of_definite t ht e.2
  | .struct _ base own, ht, v => by
      obtain ⟨rfl, hbase, hown⟩ := ht
      exact ⟨rfl, keptFields_of_definite base hbase v.2.1, keptFields_of_definite own hown v.2.2⟩

/-- So are definite fields. -/
theorem JsonHelper.keptFields_of_definite {P : PocoVar} :
    ∀ (fields : JsonFields), fields.Definite → ∀ v : fields.Val, KeptFields P fields v
  | .nil, _, _ => trivial
  | .field _ t rest, ht, v =>
      ⟨kept_of_definite t ht.1 v.1, keptFields_of_definite rest ht.2 v.2⟩

end

/-! ## What is read -/

mutual

/-- No structure extends one that extends another. -/
def JsonType.Shallow : JsonType → Prop
  | .var => True
  | .object => True
  | .string => True
  | .int64 => True
  | .bool => True
  | .vector t => t.Shallow
  | .optional t => t.Shallow
  | .optionalNull t => t.Shallow
  | .map t => t.Shallow
  | .struct inherited base own => inherited = .nil ∧ base.Shallow ∧ own.Shallow

def JsonFields.Shallow : JsonFields → Prop
  | .nil => True
  | .field _ t rest => t.Shallow ∧ rest.Shallow

end

namespace JsonHelper

section Read

variable {P : PocoVar}

/-- What a loop has read comes from one of the elements. -/
theorem exists_of_mapM {α β : Type} {read : α → Except JsonException β} {items : List α}
    {result : List β} (h : items.mapM read = .ok result) {b : β} (hb : b ∈ result) :
    ∃ a, read a = .ok b := by
  have heach := mapM_eq_ok_iff.mp h
  clear h
  induction heach with
  | nil => cases hb
  | @cons a _ _ _ hread _ ih =>
      rcases List.mem_cons.mp hb with rfl | hrest
      · exact ⟨a, hread⟩
      · exact ih hrest

/-- Only an empty value is read as one that is written as an empty value. -/
theorem serialize_ne_empty :
    ∀ (t : JsonType) {x : DynamicVar} {v : t.Val}, deserialize P t x = .ok v → x ≠ .empty →
      serialize t v ≠ .empty
  | .var, _, _, h, hne => Except.ok.inj h ▸ hne
  | .object, _, _, _, _ => nofun
  | .string, _, _, _, _ => nofun
  | .int64, _, _, _, _ => nofun
  | .bool, _, _, _, _ => nofun
  | .vector _, _, _, _, _ => nofun
  | .optional t, x, v, h, hne => by
      cases v with
      | none =>
          have hempty : ¬ x.isEmpty = true := fun hx => hne (isEmpty_iff.mp hx)
          rw [deserialize, if_neg hempty] at h
          cases hread : deserialize P t x <;> simp [hread, Except.map] at h
      | some a => exact serialize_ne_empty t (optional_iff.mp h).1 hne
  | .optionalNull t, x, v, h, hne => by
      cases v with
      | none =>
          have hempty : ¬ x.isEmpty = true := fun hx => hne (isEmpty_iff.mp hx)
          rw [deserialize, if_neg hempty] at h
          cases hread : deserialize P t x <;> simp [hread, Except.map] at h
      | some a => exact serialize_ne_empty t (optional_iff.mp h).1 hne
  | .map _, _, _, _, _ => nofun
  | .struct _ _ _, _, _, _, _ => nofun

mutual

/-- **What is read is read back.**  Where no structure extends one that extends another,
every value that has been read is one that is read back. -/
theorem kept_of_deserialize :
    ∀ (t : JsonType), t.Shallow → ∀ {x : DynamicVar} {v : t.Val},
      deserialize P t x = .ok v → Kept P t v
  | .var, _, _, _, _ => trivial
  | .object, _, _, _, _ => trivial
  | .string, _, _, _, _ => trivial
  | .int64, _, _, _, _ => trivial
  | .bool, _, _, _, _ => trivial
  | .vector t, ht, x, v, h => by
      cases x with
      | array items =>
          intro a ha
          obtain ⟨x, hx⟩ := exists_of_mapM h ha
          exact kept_of_deserialize t ht hx
      | _ => cases h
  | .optional t, ht, x, v, h => by
      rintro a rfl
      obtain ⟨hread, hne⟩ := optional_iff.mp h
      exact ⟨kept_of_deserialize t ht hread, serialize_ne_empty t hread hne⟩
  | .optionalNull t, ht, x, v, h => by
      rintro a rfl
      obtain ⟨hread, hne⟩ := optional_iff.mp h
      exact ⟨kept_of_deserialize t ht hread, serialize_ne_empty t hread hne⟩
  | .map t, ht, x, v, h => by
      cases x with
      | object members =>
          obtain ⟨values, hvalues, h⟩ := bind_eq_ok h
          obtain rfl := Except.ok.inj h
          intro e he
          rcases mem_setAll he with hnil | ⟨e', hmem, rfl⟩
          · cases hnil
          · obtain ⟨kv, hkv⟩ := exists_of_mapM hvalues hmem
            cases hread : deserialize P t kv.2 with
            | error error => simp [hread, Except.map] at hkv
            | ok a =>
                rw [hread] at hkv
                obtain rfl := Except.ok.inj hkv
                exact kept_of_deserialize t ht hread
      | _ => cases h
  | .struct inherited base own, ht, x, v, h => by
      obtain ⟨rfl, hbase, hown⟩ := ht
      cases x with
      | object members =>
          obtain ⟨vi, hvi, h⟩ := bind_eq_ok h
          obtain ⟨vb, hvb, h⟩ := bind_eq_ok h
          obtain ⟨vo, hvo, h⟩ := bind_eq_ok h
          obtain rfl := Except.ok.inj h
          exact ⟨rfl, keptFields_of_parseFields base hbase hvb, keptFields_of_parseFields own hown hvo⟩
      | _ => cases h

/-- What was read from shallow fields is kept. -/
theorem keptFields_of_parseFields :
    ∀ (fields : JsonFields), fields.Shallow → ∀ {members : List (Bytes × DynamicVar)}
      {v : fields.Val}, parseFields P fields members = .ok v → KeptFields P fields v
  | .nil, _, _, _, _ => trivial
  | .field name t rest, ht, members, v, h => by
      obtain ⟨a, ha, h⟩ := bind_eq_ok h
      obtain ⟨vs, hvs, h⟩ := bind_eq_ok h
      obtain rfl := Except.ok.inj h
      exact ⟨kept_of_deserialize t ht.1 ha, keptFields_of_parseFields rest ht.2 hvs⟩

end

end Read

end JsonHelper

end PrivmxEndpoint
