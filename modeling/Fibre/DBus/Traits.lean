import Fibre.DBus.Message

/-!
# The C++ types and values `DBusTypeTraits` handles

`DBusTypeTraits<T>` is specialised for integral types, `bool`, `std::string`,
`DBusObject`, `std::vector`, `std::unordered_map` and `std::variant`; each
specialisation gives a D-Bus type id and a signature, both computed at compile
time. Here the types are a syntax `CType` and the values a syntax `CValue`,
related by `CType.admits`; the compile-time members are functions of the type.

An integral type is named by the `IntKind` `get_int_type_id` selects for its
width and signedness, and its value by its bits. An `std::unordered_map` is the
list of its entries in iteration order; the standard leaves that order to the
implementation, and the maps' `==` ignores it. A `std::string` is its text.
-/

namespace Fibre.DBus

mutual

/-- The types `DBusTypeTraits` is specialised for. -/
inductive CType
  | integral (kind : IntKind)
  | bool
  | string
  | dbusObject
  | vector (element : CType)
  | unorderedMap (key value : CType)
  | variant (alternatives : CTypes)
  deriving DecidableEq

/-- The alternatives of a `std::variant`, in order. -/
inductive CTypes
  | nil
  | cons (head : CType) (tail : CTypes)

end

/-- Alternatives are equal when the variants of them are. -/
instance : DecidableEq CTypes := fun a b =>
  decidable_of_iff (CType.variant a = .variant b) ⟨CType.variant.inj, congrArg _⟩

namespace CType

/-- `DBusTypeTraits<T>::type_id`. -/
def typeId : CType → TypeCode
  | .integral kind => kind.typeCode
  | .bool => .boolean
  | .string => .string
  | .dbusObject => .objectPath
  | .vector _ | .unorderedMap _ _ => .array
  | .variant _ => .variant

/-- `DBusTypeTraits<T>::signature`. -/
def signature : CType → List Char
  | .integral kind => [kind.signature]
  | .bool => ['b']
  | .string => ['s']
  | .dbusObject => ['o']
  | .vector element => 'a' :: element.signature
  | .unorderedMap key value =>
    'a' :: dictEntryBeginChar :: key.signature ++ value.signature ++ [dictEntryEndChar]
  | .variant _ => ['v']

/-- `DBusTypeTraits<std::unordered_map<TKey, TVal>>::element_signature`. -/
def elementSignature (key value : CType) : List Char :=
  dictEntryBeginChar :: key.signature ++ value.signature ++ [dictEntryEndChar]

end CType

namespace CTypes

/-- The alternatives as a list. -/
def toList : CTypes → List CType
  | .nil => []
  | .cons head tail => head :: tail.toList

/-- The alternatives of a list, in order. -/
def ofList : List CType → CTypes
  | [] => .nil
  | head :: tail => .cons head (ofList tail)

/-- `std::tuple_element_t<I, std::tuple<Ts...>>`, the alternative at an index. -/
def get? : CTypes → Nat → Option CType
  | .nil, _ => none
  | .cons head _, 0 => some head
  | .cons _ tail, index + 1 => tail.get? index

/-- The search `variant_helper<I, N, ...>::pop` makes from `I = 0`: the first
alternative whose signature is `signature`, with its index. -/
def findSignature (signature : List Char) : CTypes → Option (Nat × CType)
  | .nil => none
  | .cons head tail =>
    if head.signature = signature then some (0, head)
    else (tail.findSignature signature).map fun found => (found.1 + 1, found.2)

@[simp] theorem toList_ofList (types : List CType) : (ofList types).toList = types := by
  induction types with
  | nil => rfl
  | cons head tail ih => simp [ofList, toList, ih]

theorem get?_eq_getElem? : ∀ (alternatives : CTypes) (index : Nat),
    alternatives.get? index = alternatives.toList[index]?
  | .nil, _ => rfl
  | .cons _ _, 0 => List.getElem?_cons_zero.symm
  | .cons _ tail, index + 1 => (get?_eq_getElem? tail index).trans List.getElem?_cons_succ.symm

/-- With pairwise distinct signatures, the search for an alternative's signature
finds that alternative. -/
theorem findSignature_of_nodup : ∀ {alternatives : CTypes} {index : Nat} {alt : CType},
    (alternatives.toList.map CType.signature).Nodup → alternatives.get? index = some alt →
      alternatives.findSignature alt.signature = some (index, alt)
  | .nil, _, _, _, h => by simp [get?] at h
  | .cons head tail, 0, alt, _, h => by
    simp only [get?, Option.some.injEq] at h
    simp [findSignature, h]
  | .cons head tail, index + 1, alt, hnodup, h => by
    simp only [toList, List.map_cons, List.nodup_cons, List.mem_map] at hnodup
    have hmem : alt ∈ tail.toList := List.getElem?_mem (by simpa [get?, get?_eq_getElem?] using h)
    have hne : head.signature ≠ alt.signature := fun heq => hnodup.1 ⟨alt, hmem, heq.symm⟩
    simp [findSignature, hne, findSignature_of_nodup hnodup.2 h]

end CTypes

/-! ## `dbus_variant` -/

/-- The data model of the target: `long` is 64 bits wide under LP64 (64-bit
Linux and macOS) and 32 bits wide under ILP32 (and LLP64, 64-bit Windows). -/
inductive DataModel
  | lp64
  | ilp32
  deriving DecidableEq

/-- The `IntKind` of `long`. -/
def DataModel.long : DataModel → IntKind
  | .lp64 => .int64
  | .ilp32 => .int32

/-- The `IntKind` of `unsigned long`. -/
def DataModel.unsignedLong : DataModel → IntKind
  | .lp64 => .uint64
  | .ilp32 => .uint32

/-- The alternatives of `dbus_variant`: `std::string`, `bool`, `DBusObject`,
`short`, `int`, `long`, `long long`, `unsigned char`, `unsigned short`,
`unsigned int`, `unsigned long`, `unsigned long long` and
`std::vector<std::string>`. -/
def dbusVariantAlternatives (dataModel : DataModel) : CTypes :=
  .ofList [.string, .bool, .dbusObject, .integral .int16, .integral .int32,
    .integral dataModel.long, .integral .int64, .integral .uint8, .integral .uint16,
    .integral .uint32, .integral dataModel.unsignedLong, .integral .uint64, .vector .string]

/-- `dbus_variant` as a type. -/
def dbusVariant (dataModel : DataModel) : CType := .variant (dbusVariantAlternatives dataModel)

/-! ## Values -/

/-- `DBusObject`: its connection (`nullptr` is `none`, another pointer a number),
its service name and its object name. `operator==` compares all three, as
equality here does, and `std::hash<fibre::DBusObject>` hashes all three. -/
structure DBusObject where
  conn : Option Nat
  serviceName : String
  objectName : String
  deriving DecidableEq

/-- `DBusObject(nullptr, "", objectName)`, what a pop makes of an object path. -/
def DBusObject.ofPath (objectName : String) : DBusObject := ⟨none, "", objectName⟩

mutual

/-- A value of one of the types `DBusTypeTraits` handles. A variant holds the
index of its active alternative. -/
inductive CValue
  | integral (bits : Nat)
  | bool (value : Bool)
  | string (value : String)
  | dbusObject (value : DBusObject)
  | vector (elements : CValues)
  | unorderedMap (entries : CEntries)
  | variant (index : Nat) (value : CValue)
  deriving DecidableEq

/-- The elements of a vector, in order. -/
inductive CValues
  | nil
  | cons (head : CValue) (tail : CValues)

/-- The entries of a map, in iteration order. -/
inductive CEntries
  | nil
  | cons (key value : CValue) (tail : CEntries)

end

/-- Elements are equal when the vectors of them are. -/
instance : DecidableEq CValues := fun a b =>
  decidable_of_iff (CValue.vector a = .vector b) ⟨CValue.vector.inj, congrArg _⟩

/-- Entries are equal when the maps of them are. -/
instance : DecidableEq CEntries := fun a b =>
  decidable_of_iff (CValue.unorderedMap a = .unorderedMap b)
    ⟨CValue.unorderedMap.inj, congrArg _⟩

namespace CEntries

/-- The keys, in order. -/
def keys : CEntries → List CValue
  | .nil => []
  | .cons key _ tail => key :: tail.keys

/-- `val[key] = value`: replace the value of an equal key, or add the entry.
Keys are compared as `operator==` compares them, member by member. -/
def insert (key value : CValue) : CEntries → CEntries
  | .nil => .cons key value .nil
  | .cons key' value' tail =>
    if key' = key then .cons key value tail else .cons key' value' (tail.insert key value)

/-- The entries followed by other entries. -/
def append : CEntries → CEntries → CEntries
  | .nil, entries => entries
  | .cons key value tail, entries => .cons key value (tail.append entries)

@[simp] theorem nil_append (entries : CEntries) : CEntries.nil.append entries = entries := rfl

@[simp] theorem append_nil : ∀ entries : CEntries, entries.append .nil = entries
  | .nil => rfl
  | .cons key value tail => by simp [append, append_nil tail]

theorem append_assoc : ∀ entries entries' entries'' : CEntries,
    (entries.append entries').append entries'' = entries.append (entries'.append entries'')
  | .nil, _, _ => rfl
  | .cons key value tail, entries', entries'' => by
    simp [append, append_assoc tail entries' entries'']

@[simp] theorem keys_append : ∀ entries entries' : CEntries,
    (entries.append entries').keys = entries.keys ++ entries'.keys
  | .nil, _ => rfl
  | .cons _ _ tail, entries' => by simp [append, keys, keys_append tail entries']

/-- A new key is added at the end. -/
theorem insert_of_not_mem {key : CValue} (value : CValue) :
    ∀ {entries : CEntries}, key ∉ entries.keys →
      entries.insert key value = entries.append (.cons key value .nil)
  | .nil, _ => rfl
  | .cons key' value' tail, h => by
    simp only [keys, List.mem_cons, not_or] at h
    simp [insert, append, Ne.symm h.1, insert_of_not_mem value h.2]

end CEntries

/-- What `std::string(s.c_str())` keeps: the text before the first NUL. -/
def cStr (s : String) : String := ⟨s.toList.takeWhile (· ≠ '\x00')⟩

theorem cStr_of_not_mem {s : String} (h : '\x00' ∉ s.toList) : cStr s = s := by
  obtain ⟨data⟩ := s
  show String.mk _ = String.mk data
  congr 1
  exact List.takeWhile_eq_self_iff.mpr fun c hc => by
    simpa using fun heq : c = '\x00' => h (heq ▸ hc)

mutual

/-- `CType.admits t v`: `v` is a value of `t`. An integral value fits its width,
a map's keys are pairwise distinct, and a variant's index names one of its
alternatives, whose type the held value has. -/
def CType.admits (t : CType) : CValue → Bool
  | .integral bits =>
    match t with
    | .integral kind => decide (bits < 2 ^ kind.bits)
    | _ => false
  | .bool _ =>
    match t with
    | .bool => true
    | _ => false
  | .string _ =>
    match t with
    | .string => true
    | _ => false
  | .dbusObject _ =>
    match t with
    | .dbusObject => true
    | _ => false
  | .vector elements =>
    match t with
    | .vector element => element.admitsAll elements
    | _ => false
  | .unorderedMap entries =>
    match t with
    | .unorderedMap key value => CType.admitsEntries key value entries && decide entries.keys.Nodup
    | _ => false
  | .variant index value =>
    match t with
    | .variant alternatives =>
      match alternatives.get? index with
      | some alt => alt.admits value
      | none => false
    | _ => false

/-- Every element is a value of `element`. -/
def CType.admitsAll (element : CType) : CValues → Bool
  | .nil => true
  | .cons head tail => element.admits head && element.admitsAll tail

/-- Every entry has a key of `key` and a value of `value`. -/
def CType.admitsEntries (key value : CType) : CEntries → Bool
  | .nil => true
  | .cons k v tail => key.admits k && value.admits v && CType.admitsEntries key value tail

end

namespace CType

/-! The values each type admits, one lemma per kind of value. -/

variable {t : CType}

theorem admits_integral {bits : Nat} (h : t.admits (.integral bits)) :
    ∃ kind, t = .integral kind ∧ bits < 2 ^ kind.bits := by
  cases t with
  | integral kind => exact ⟨kind, rfl, of_decide_eq_true h⟩
  | _ => exact absurd h Bool.false_ne_true

theorem admits_bool {value : Bool} (h : t.admits (.bool value)) : t = .bool := by
  cases t with
  | bool => rfl
  | _ => exact absurd h Bool.false_ne_true

theorem admits_string {value : String} (h : t.admits (.string value)) : t = .string := by
  cases t with
  | string => rfl
  | _ => exact absurd h Bool.false_ne_true

theorem admits_dbusObject {value : DBusObject} (h : t.admits (.dbusObject value)) :
    t = .dbusObject := by
  cases t with
  | dbusObject => rfl
  | _ => exact absurd h Bool.false_ne_true

theorem admits_vector {elements : CValues} (h : t.admits (.vector elements)) :
    ∃ element, t = .vector element ∧ element.admitsAll elements := by
  cases t with
  | vector element => exact ⟨element, rfl, h⟩
  | _ => exact absurd h Bool.false_ne_true

theorem admits_unorderedMap {entries : CEntries} (h : t.admits (.unorderedMap entries)) :
    ∃ key value, t = .unorderedMap key value ∧ CType.admitsEntries key value entries ∧
      entries.keys.Nodup := by
  cases t with
  | unorderedMap key value =>
    simp only [admits, Bool.and_eq_true, decide_eq_true_eq] at h
    exact ⟨key, value, rfl, h⟩
  | _ => exact absurd h Bool.false_ne_true

theorem admits_variant {index : Nat} {value : CValue} (h : t.admits (.variant index value)) :
    ∃ alternatives alt, t = .variant alternatives ∧ alternatives.get? index = some alt ∧
      alt.admits value := by
  cases t with
  | variant alternatives =>
    simp only [admits] at h
    cases hget : alternatives.get? index with
    | none => simp [hget] at h
    | some alt => exact ⟨alternatives, alt, rfl, hget, by simpa [hget] using h⟩
  | _ => exact absurd h Bool.false_ne_true

@[simp] theorem admitsAll_nil (element : CType) : element.admitsAll .nil := rfl

@[simp] theorem admitsAll_cons (element : CType) (head : CValue) (tail : CValues) :
    element.admitsAll (.cons head tail) = (element.admits head && element.admitsAll tail) := rfl

@[simp] theorem admitsEntries_nil (key value : CType) : CType.admitsEntries key value .nil := rfl

@[simp] theorem admitsEntries_cons (key value : CType) (k v : CValue) (tail : CEntries) :
    CType.admitsEntries key value (.cons k v tail) =
      (key.admits k && value.admits v && CType.admitsEntries key value tail) := rfl

end CType

mutual

/-- What the D-Bus round trip makes of a value: every `DBusObject` in it becomes
`DBusObject(nullptr, "", object_name_)`. -/
def CValue.normalize : CValue → CValue
  | .integral bits => .integral bits
  | .bool value => .bool value
  | .string value => .string value
  | .dbusObject value => .dbusObject (.ofPath value.objectName)
  | .vector elements => .vector elements.normalize
  | .unorderedMap entries => .unorderedMap entries.normalize
  | .variant index value => .variant index value.normalize

/-- Normalize every element. -/
def CValues.normalize : CValues → CValues
  | .nil => .nil
  | .cons head tail => .cons head.normalize tail.normalize

/-- Normalize every key and every value. -/
def CEntries.normalize : CEntries → CEntries
  | .nil => .nil
  | .cons key value tail => .cons key.normalize value.normalize tail.normalize

end

mutual

/-- No string in the value holds a NUL, nor does any object name. -/
def CValue.nulFree : CValue → Bool
  | .integral _ | .bool _ => true
  | .string value => decide ('\x00' ∉ value.toList)
  | .dbusObject value => decide ('\x00' ∉ value.objectName.toList)
  | .vector elements => elements.nulFree
  | .unorderedMap entries => entries.nulFree
  | .variant _ value => value.nulFree

/-- No element holds a NUL. -/
def CValues.nulFree : CValues → Bool
  | .nil => true
  | .cons head tail => head.nulFree && tail.nulFree

/-- No key and no value holds a NUL. -/
def CEntries.nulFree : CEntries → Bool
  | .nil => true
  | .cons key value tail => key.nulFree && value.nulFree && tail.nulFree

end

mutual

/-- Every map in the value keeps its keys pairwise distinct once normalized:
no two of its `DBusObject` keys share an object name. -/
def CValue.keysDistinct : CValue → Bool
  | .integral _ | .bool _ | .string _ | .dbusObject _ => true
  | .vector elements => elements.keysDistinct
  | .unorderedMap entries => decide (entries.keys.map CValue.normalize).Nodup && entries.keysDistinct
  | .variant _ value => value.keysDistinct

/-- Every element keeps its maps' keys distinct once normalized. -/
def CValues.keysDistinct : CValues → Bool
  | .nil => true
  | .cons head tail => head.keysDistinct && tail.keysDistinct

/-- Every key and every value keeps its maps' keys distinct once normalized. -/
def CEntries.keysDistinct : CEntries → Bool
  | .nil => true
  | .cons key value tail => key.keysDistinct && value.keysDistinct && tail.keysDistinct

end

mutual

/-- Every `std::variant` in the type has alternatives with pairwise distinct
signatures, and so do the alternatives' own variants. -/
def CType.variantsDistinct : CType → Bool
  | .integral _ | .bool | .string | .dbusObject => true
  | .vector element => element.variantsDistinct
  | .unorderedMap key value => key.variantsDistinct && value.variantsDistinct
  | .variant alternatives =>
    decide (alternatives.toList.map CType.signature).Nodup && alternatives.variantsDistinct

/-- Every alternative's variants have distinct signatures. -/
def CTypes.variantsDistinct : CTypes → Bool
  | .nil => true
  | .cons head tail => head.variantsDistinct && tail.variantsDistinct

end

/-- An alternative of a type whose variants have distinct signatures has them too. -/
theorem CTypes.variantsDistinct_of_get? : ∀ {alternatives : CTypes} {index : Nat} {alt : CType},
    alternatives.variantsDistinct → alternatives.get? index = some alt → alt.variantsDistinct
  | .nil, _, _, _, h => by simp [CTypes.get?] at h
  | .cons head _, 0, _, hdistinct, h => by
    simp only [CTypes.get?, Option.some.injEq] at h
    simp only [CTypes.variantsDistinct, Bool.and_eq_true] at hdistinct
    exact h ▸ hdistinct.1
  | .cons _ tail, index + 1, _, hdistinct, h => by
    simp only [CTypes.variantsDistinct, Bool.and_eq_true] at hdistinct
    exact variantsDistinct_of_get? hdistinct.2 h

mutual

/-- No `std::unordered_map` in the type, at any depth. -/
def CType.mapFree : CType → Bool
  | .integral _ | .bool | .string | .dbusObject => true
  | .vector element => element.mapFree
  | .unorderedMap _ _ => false
  | .variant alternatives => alternatives.mapFree

/-- No alternative holds a map. -/
def CTypes.mapFree : CTypes → Bool
  | .nil => true
  | .cons head tail => head.mapFree && tail.mapFree

end

/-- An alternative of a type that holds no map holds none. -/
theorem CTypes.mapFree_of_get? : ∀ {alternatives : CTypes} {index : Nat} {alt : CType},
    alternatives.mapFree → alternatives.get? index = some alt → alt.mapFree
  | .nil, _, _, _, h => by simp [CTypes.get?] at h
  | .cons head _, 0, _, hfree, h => by
    simp only [CTypes.get?, Option.some.injEq] at h
    simp only [CTypes.mapFree, Bool.and_eq_true] at hfree
    exact h ▸ hfree.1
  | .cons _ tail, index + 1, _, hfree, h => by
    simp only [CTypes.mapFree, Bool.and_eq_true] at hfree
    exact mapFree_of_get? hfree.2 h

@[simp] theorem CEntries.normalize_keys : ∀ entries : CEntries,
    entries.normalize.keys = entries.keys.map CValue.normalize
  | .nil => rfl
  | .cons _ _ tail => by simp [CEntries.normalize, keys, normalize_keys tail]

end Fibre.DBus
