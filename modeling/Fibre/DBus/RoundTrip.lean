import Mathlib.Data.List.Nodup
import Fibre.DBus.Push
import Fibre.DBus.Pop

/-!
# The D-Bus round trip

`CType.encode` says what a C++ value is on the wire: the D-Bus value the push
of its traits appends when libdbus completes every call. Two halves meet at it.
The push half shows that `push` then returns `0` and appends exactly
`encode t v`, with the signature `DBusTypeTraits<T>::signature`; for a variant
this needs `get_element_signature` to open the container with the signature of
the alternative `push` then appends, since libdbus closes a variant only over a
value of the signature it was opened with. The pop half shows that `pop` reads
`encode t v` back as `v` with every `DBusObject` normalized, provided the
value's strings hold no NUL, its maps' keys stay distinct once normalized, and
every variant's alternatives have distinct signatures: the variant pop finds the
alternative by the signature the push declared. The last two conditions are
needed: two keys that differ only in their connection or service name come back
as one entry (`packMessage_unpackMessage_object_keys_merge`), and an alternative
whose signature an earlier one shares comes back as the earlier one
(`dbusVariant_push_pop_earlier_alternative`).
-/

namespace Fibre.DBus

mutual

/-- The D-Bus value `DBusTypeTraits<T>::push` appends for `v` when libdbus
completes every call (an empty variant for a value of another type, which no
push appends). A variant holds its alternative's value under that
alternative's signature. -/
def CType.encode (t : CType) : CValue → DBusValue
  | .integral bits =>
    match t with
    | .integral kind => .basic (.integer kind bits)
    | _ => .variant [] .nil
  | .bool value =>
    match t with
    | .bool => .basic (.boolean value)
    | _ => .variant [] .nil
  | .string value =>
    match t with
    | .string => .basic (.string (cStr value))
    | _ => .variant [] .nil
  | .dbusObject value =>
    match t with
    | .dbusObject => .basic (.objectPath (cStr value.objectName))
    | _ => .variant [] .nil
  | .vector elements =>
    match t with
    | .vector element => .array element.signature (element.encodeElements elements)
    | _ => .variant [] .nil
  | .unorderedMap entries =>
    match t with
    | .unorderedMap key value =>
      .array (CType.elementSignature key value) (CType.encodeEntries key value entries)
    | _ => .variant [] .nil
  | .variant index value =>
    match t with
    | .variant alternatives =>
      match alternatives.get? index with
      | some alt => .variant alt.signature (.cons (alt.encode value) .nil)
      | none => .variant [] .nil
    | _ => .variant [] .nil

/-- The elements of an array, one per element of the vector. -/
def CType.encodeElements (element : CType) : CValues → DBusValues
  | .nil => .nil
  | .cons head tail => .cons (element.encode head) (element.encodeElements tail)

/-- The dict entries of an array, one per entry of the map. -/
def CType.encodeEntries (key value : CType) : CEntries → DBusValues
  | .nil => .nil
  | .cons k v tail =>
    .cons (.dictEntry (.cons (key.encode k) (.cons (value.encode v) .nil)))
      (CType.encodeEntries key value tail)

end

namespace CType

@[simp] theorem encode_integral (kind : IntKind) (bits : Nat) :
    (integral kind).encode (.integral bits) = .basic (.integer kind bits) := rfl

@[simp] theorem encode_bool (value : Bool) : bool.encode (.bool value) = .basic (.boolean value) :=
  rfl

@[simp] theorem encode_string (value : String) :
    string.encode (.string value) = .basic (.string (cStr value)) := rfl

@[simp] theorem encode_dbusObject (value : DBusObject) :
    dbusObject.encode (.dbusObject value) = .basic (.objectPath (cStr value.objectName)) := rfl

@[simp] theorem encode_vector (element : CType) (elements : CValues) :
    (vector element).encode (.vector elements) =
      .array element.signature (element.encodeElements elements) := rfl

@[simp] theorem encode_unorderedMap (key value : CType) (entries : CEntries) :
    (unorderedMap key value).encode (.unorderedMap entries) =
      .array (elementSignature key value) (encodeEntries key value entries) := rfl

@[simp] theorem encode_variant (alternatives : CTypes) (index : Nat) (value : CValue) :
    (variant alternatives).encode (.variant index value) =
      match alternatives.get? index with
      | some alt => .variant alt.signature (.cons (alt.encode value) .nil)
      | none => .variant [] .nil := rfl

@[simp] theorem encodeElements_nil (element : CType) : element.encodeElements .nil = .nil := rfl

@[simp] theorem encodeElements_cons (element : CType) (head : CValue) (tail : CValues) :
    element.encodeElements (.cons head tail) =
      .cons (element.encode head) (element.encodeElements tail) := rfl

@[simp] theorem encodeEntries_nil (key value : CType) : encodeEntries key value .nil = .nil := rfl

@[simp] theorem encodeEntries_cons (key value : CType) (k v : CValue) (tail : CEntries) :
    encodeEntries key value (.cons k v tail) =
      .cons (.dictEntry (.cons (key.encode k) (.cons (value.encode v) .nil)))
        (encodeEntries key value tail) := rfl

end CType

/-! ## The wire form's type -/

/-- A value's wire form has its type's type code and signature. -/
theorem CType.typeCode_signature_encode {t : CType} {v : CValue} (htype : t.admits v) :
    (t.encode v).typeCode = t.typeId ∧ (t.encode v).signature = t.signature := by
  cases v with
  | integral bits => obtain ⟨kind, rfl, -⟩ := CType.admits_integral htype; exact ⟨rfl, rfl⟩
  | bool value => obtain rfl := CType.admits_bool htype; exact ⟨rfl, rfl⟩
  | string value => obtain rfl := CType.admits_string htype; exact ⟨rfl, rfl⟩
  | dbusObject value => obtain rfl := CType.admits_dbusObject htype; exact ⟨rfl, rfl⟩
  | vector elements => obtain ⟨element, rfl, -⟩ := CType.admits_vector htype; exact ⟨rfl, rfl⟩
  | unorderedMap entries =>
    obtain ⟨key, value, rfl, -⟩ := CType.admits_unorderedMap htype
    exact ⟨rfl, by simp [DBusValue.signature, CType.signature, CType.elementSignature]⟩
  | variant index value =>
    obtain ⟨alternatives, alt, rfl, hget, -⟩ := CType.admits_variant htype
    simp [hget, DBusValue.typeCode, DBusValue.signature, CType.typeId, CType.signature]

theorem CType.typeCode_encode {t : CType} {v : CValue} (htype : t.admits v) :
    (t.encode v).typeCode = t.typeId :=
  (CType.typeCode_signature_encode htype).1

theorem CType.signature_encode {t : CType} {v : CValue} (htype : t.admits v) :
    (t.encode v).signature = t.signature :=
  (CType.typeCode_signature_encode htype).2

/-! ## The push half -/

@[simp] theorem appendBasic_completesAll (state : AppendState) (value : DBusBasic) :
    appendBasic .completesAll state value =
      (0, ⟨state.calls ++ [(.appendBasic value, true)],
        state.message.map (·.append (.basic value))⟩) := by
  rcases state with ⟨calls, _ | builder⟩ <;> simp [appendBasic]

@[simp] theorem closeContainer_completesAll (state : AppendState) :
    closeContainer .completesAll state =
      (0, ⟨state.calls ++ [(.closeContainer, true)],
        state.message.bind (·.apply .closeContainer)⟩) := rfl

mutual

/-- With libdbus completing every call, `push` returns `0` and appends the
value's wire form where the writing iterator stands. -/
theorem CType.push_completesAll : ∀ (t : CType) (v : CValue), t.admits v →
    ∀ state : AppendState, (t.push .completesAll v state).1 = 0 ∧
      (t.push .completesAll v state).2.message = state.message.map (·.append (t.encode v))
  | t, .integral bits, htype, state => by
    obtain ⟨kind, rfl, -⟩ := CType.admits_integral htype
    simp [CType.push]
  | t, .bool value, htype, state => by
    obtain rfl := CType.admits_bool htype
    simp [CType.push]
  | t, .string value, htype, state => by
    obtain rfl := CType.admits_string htype
    simp [CType.push]
  | t, .dbusObject value, htype, state => by
    obtain rfl := CType.admits_dbusObject htype
    simp [CType.push]
  | t, .vector elements, htype, state => by
    obtain ⟨element, rfl, helements⟩ := CType.admits_vector htype
    have hpushed := CType.pushElements_completesAll element elements helements
    rcases state with ⟨calls, _ | ⟨args, containers⟩⟩ <;>
      simp [CType.push, hpushed, OpenContainer.value]
  | t, .unorderedMap entries, htype, state => by
    obtain ⟨key, value, rfl, hentries, -⟩ := CType.admits_unorderedMap htype
    have hpushed := CType.pushEntries_completesAll key value entries hentries
    rcases state with ⟨calls, _ | ⟨args, containers⟩⟩ <;>
      simp [CType.push, hpushed, OpenContainer.value]
  | t, .variant index value, htype, state => by
    obtain ⟨alternatives, alt, rfl, hget, hvalue⟩ := CType.admits_variant htype
    have hpushed := CType.push_completesAll alt value hvalue
    rcases state with ⟨calls, _ | ⟨args, containers⟩⟩ <;>
      simp [CType.push, hget, hpushed, OpenContainer.value, DBusValues.ofList,
        DBusValues.signature, CType.signature_encode hvalue]

/-- The elements' pushes append the elements' wire forms in order. -/
theorem CType.pushElements_completesAll (element : CType) : ∀ elements : CValues,
    element.admitsAll elements → ∀ state : AppendState,
      (element.pushElements .completesAll elements state).1 = 0 ∧
        (element.pushElements .completesAll elements state).2.message =
          state.message.map (·.appendValues (element.encodeElements elements))
  | .nil, _, state => by simp [CType.pushElements, MessageBuilder.appendValues]
  | .cons head tail, htype, state => by
    simp only [CType.admitsAll, Bool.and_eq_true] at htype
    have hhead := CType.push_completesAll element head htype.1
    have htail := CType.pushElements_completesAll element tail htype.2
    rcases state with ⟨calls, _ | builder⟩ <;>
      simp [CType.pushElements, hhead, htail, MessageBuilder.appendValues]

/-- The entries' pushes append one dict entry per entry, in order. -/
theorem CType.pushEntries_completesAll (key value : CType) : ∀ entries : CEntries,
    CType.admitsEntries key value entries → ∀ state : AppendState,
      (CType.pushEntries .completesAll key value entries state).1 = 0 ∧
        (CType.pushEntries .completesAll key value entries state).2.message =
          state.message.map (·.appendValues (CType.encodeEntries key value entries))
  | .nil, _, state => by simp [CType.pushEntries, MessageBuilder.appendValues]
  | .cons k v tail, htype, state => by
    simp only [CType.admitsEntries, Bool.and_eq_true] at htype
    have hkey := CType.push_completesAll key k htype.1.1
    have hvalue := CType.push_completesAll value v htype.1.2
    have htail := CType.pushEntries_completesAll key value tail htype.2
    rcases state with ⟨calls, _ | ⟨args, containers⟩⟩ <;>
      simp [CType.pushEntries, hkey, hvalue, htail, MessageBuilder.appendValues,
        OpenContainer.value, DBusValues.ofList]

end

/-! ## The pop half -/

mutual

/-- `pop` reads a value's wire form back as the value, every `DBusObject` in it
normalized. -/
theorem CType.pop_encode : ∀ (t : CType) (v : CValue), t.admits v → t.variantsDistinct →
    v.nulFree → v.keysDistinct → t.pop (t.encode v) = .ok v.normalize
  | t, .integral bits, htype, _, _, _ => by
    obtain ⟨kind, rfl, -⟩ := CType.admits_integral htype
    simp [DBusValue.getBasicFixed, CValue.normalize]
  | t, .bool value, htype, _, _, _ => by
    obtain rfl := CType.admits_bool htype
    cases value <;> simp [DBusValue.getBasicFixed, CValue.normalize]
  | t, .string value, htype, _, hnul, _ => by
    obtain rfl := CType.admits_string htype
    have hvalue : cStr value = value := cStr_of_not_mem (by simpa [CValue.nulFree] using hnul)
    simp [DBusValue.getBasicString, CValue.normalize, hvalue]
  | t, .dbusObject value, htype, _, hnul, _ => by
    obtain rfl := CType.admits_dbusObject htype
    have hname : cStr value.objectName = value.objectName :=
      cStr_of_not_mem (by simpa [CValue.nulFree] using hnul)
    simp [DBusValue.getBasicString, CValue.normalize, hname]
  | t, .vector elements, htype, hdistinct, hnul, hkeys => by
    obtain ⟨element, rfl, helements⟩ := CType.admits_vector htype
    have hpopped := CType.popElements_encodeElements element elements helements hdistinct hnul hkeys
    simp [CValue.normalize, hpopped]
  | t, .unorderedMap entries, htype, hdistinct, hnul, hkeys => by
    obtain ⟨key, value, rfl, hentries, -⟩ := CType.admits_unorderedMap htype
    simp only [CType.variantsDistinct, CValue.keysDistinct, Bool.and_eq_true,
      decide_eq_true_eq] at hdistinct hkeys
    have hpopped := CType.popEntries_encodeEntries key value entries .nil hentries hdistinct.1
      hdistinct.2 hnul hkeys.2 (by simpa [CEntries.keys] using hkeys.1)
    simp [CValue.normalize, hpopped]
  | t, .variant index value, htype, hdistinct, hnul, hkeys => by
    obtain ⟨alternatives, alt, rfl, hget, hvalue⟩ := CType.admits_variant htype
    simp only [CType.variantsDistinct, Bool.and_eq_true, decide_eq_true_eq] at hdistinct
    have hfound := CTypes.findSignature_of_nodup hdistinct.1 hget
    have hpopped := CType.pop_encode alt value hvalue
      (CTypes.variantsDistinct_of_get? hdistinct.2 hget) hnul hkeys
    simp [hget, hfound, hpopped, CValue.normalize]

/-- The vector pop reads the elements' wire forms back in order. -/
theorem CType.popElements_encodeElements (element : CType) : ∀ elements : CValues,
    element.admitsAll elements → element.variantsDistinct → elements.nulFree →
      elements.keysDistinct →
        element.popElements (element.encodeElements elements) = .ok elements.normalize
  | .nil, _, _, _, _ => rfl
  | .cons head tail, htype, hdistinct, hnul, hkeys => by
    simp only [CType.admitsAll, CValues.nulFree, CValues.keysDistinct, Bool.and_eq_true] at *
    simp [CValues.normalize,
      CType.pop_encode element head htype.1 hdistinct hnul.1 hkeys.1,
      CType.popElements_encodeElements element tail htype.2 hdistinct hnul.2 hkeys.2]

/-- The map pop inserts the entries' wire forms in order; with keys new to the
map and distinct once normalized, each insertion adds an entry at the end. -/
theorem CType.popEntries_encodeEntries (key value : CType) : ∀ (entries acc : CEntries),
    CType.admitsEntries key value entries → key.variantsDistinct → value.variantsDistinct →
      entries.nulFree → entries.keysDistinct → (acc.keys ++ entries.keys.map CValue.normalize).Nodup →
        CType.popEntries key value acc (CType.encodeEntries key value entries) =
          .ok (acc.append entries.normalize)
  | .nil, acc, _, _, _, _, _, _ => by
    simp [CEntries.normalize, CEntries.append]
  | .cons k v tail, acc, htype, hkey, hvalue, hnul, hkeys, hnodup => by
    simp only [CType.admitsEntries, CEntries.nulFree, CEntries.keysDistinct, Bool.and_eq_true] at *
    simp only [CEntries.keys, List.map_cons] at hnodup
    have hnew : k.normalize ∉ acc.keys := fun hmem =>
      (List.nodup_cons.mp (List.nodup_middle.mp hnodup)).1 (List.mem_append_left _ hmem)
    have hinsert := CEntries.insert_of_not_mem v.normalize hnew
    have htail := CType.popEntries_encodeEntries key value tail
      (acc.append (.cons k.normalize v.normalize .nil)) htype.2 hkey hvalue hnul.2 hkeys.2
      (by simpa [CEntries.keys] using hnodup)
    simp [CType.typeCode_encode htype.1.1,
      CType.typeCode_encode htype.1.2, CType.pop_encode key k htype.1.1 hkey hnul.1.1 hkeys.1.1,
      CType.pop_encode value v htype.1.2 hvalue hnul.1.2 hkeys.1.2, hinsert, htail,
      CEntries.normalize, CEntries.append_assoc, CEntries.append]

end

/-! ## `pack_message` and `unpack_message` -/

/-- With libdbus completing every call, `pack_message` returns `0` and appends
the arguments' wire forms in order. -/
theorem packMessage_completesAll : ∀ (args : List (CType × CValue)), (∀ a ∈ args, a.1.admits a.2) →
    ∀ state : AppendState, (packMessage .completesAll args state).1 = 0 ∧
      (packMessage .completesAll args state).2.message =
        state.message.map (·.appendValues (.ofList (args.map fun a => a.1.encode a.2)))
  | [], _, state => by cases h : state.message <;> simp [packMessage, h, DBusValues.ofList,
      MessageBuilder.appendValues]
  | (t, v) :: args, htype, state => by
    have hhead := CType.push_completesAll t v (htype (t, v) (by simp))
    have hrest := packMessage_completesAll args fun a ha => htype a (by simp [ha])
    cases h : state.message <;>
      simp [packMessage, hhead, hrest, h, DBusValues.ofList, MessageBuilder.appendValues]

/-- `unpack_message` reads the arguments' wire forms back, normalized. -/
theorem unpackMessage_encode : ∀ args : List (CType × CValue),
    (∀ a ∈ args, a.1.admits a.2 ∧ a.1.variantsDistinct ∧ a.2.nulFree ∧ a.2.keysDistinct) →
      unpackMessage (args.map Prod.fst) (.ofList (args.map fun a => a.1.encode a.2)) =
        .ok (args.map fun a => a.2.normalize)
  | [], _ => rfl
  | (t, v) :: args, hargs => by
    obtain ⟨htype, hdistinct, hnul, hkeys⟩ := hargs (t, v) (by simp)
    simp [DBusValues.ofList, CType.typeCode_encode htype,
      CType.pop_encode t v htype hdistinct hnul hkeys,
      unpackMessage_encode args fun a ha => hargs a (by simp [ha])]

/-- Two `DBusObject` keys that differ only in their service name: both are
packed, and `unpack_message` returns `0` with one entry, the later value under
the normalized key. -/
theorem packMessage_unpackMessage_object_keys_merge :
    let t := CType.unorderedMap .dbusObject (.integral .uint32)
    let v := CValue.unorderedMap (.cons (.dbusObject ⟨some 1, "a", "/x"⟩) (.integral 1)
      (.cons (.dbusObject ⟨some 1, "b", "/x"⟩) (.integral 2) .nil))
    let packed := packMessage .completesAll [(t, v)] .empty
    t.admits v ∧ packed.1 = 0 ∧ ∃ message, packed.2.message = some ⟨message, []⟩ ∧
      unpackMessage [t] (.ofList message) =
        .ok [.unorderedMap (.cons (.dbusObject (.ofPath "/x")) (.integral 2) .nil)] :=
  ⟨by decide, by decide, _, rfl, by decide⟩

/-- The D-Bus round trip of `pack_message` and `unpack_message`: for arguments
whose strings and object names hold no NUL, whose maps' keys stay distinct once
normalized and whose variants have alternatives with distinct signatures, at
any depth, if libdbus completes every call then packing into an empty message
returns `0`, the message's arguments have the types' signatures in order, and
unpacking them into variables of the same types returns `0` with the original
values, every `DBusObject` normalized. -/
theorem packMessage_unpackMessage_roundTrip (args : List (CType × CValue))
    (htype : ∀ a ∈ args, a.1.admits a.2) (hvariants : ∀ a ∈ args, a.1.variantsDistinct)
    (hstrings : ∀ a ∈ args, a.2.nulFree) (hkeys : ∀ a ∈ args, a.2.keysDistinct) :
    let packed := packMessage .completesAll args .empty
    packed.1 = 0 ∧ ∃ message, packed.2.message = some ⟨message, []⟩ ∧
      message.map DBusValue.signature = args.map (fun a => a.1.signature) ∧
      unpackMessage (args.map Prod.fst) (.ofList message) = .ok (args.map fun a => a.2.normalize) := by
  obtain ⟨hstatus, hmessage⟩ := packMessage_completesAll args htype .empty
  refine ⟨hstatus, args.map (fun a => a.1.encode a.2), by rw [hmessage]; simp [AppendState.empty], ?_,
    unpackMessage_encode args fun a ha => ⟨htype a ha, hvariants a ha, hstrings a ha, hkeys a ha⟩⟩
  simp only [List.map_map]
  exact List.map_congr_left fun a ha => CType.signature_encode (htype a ha)

/-- A map of string keys to variants with distinct alternative signatures, and a
vector, packed and unpacked. -/
theorem packMessage_unpackMessage_roundTrip_map_and_vector :
    let args : List (CType × CValue) :=
      [(.unorderedMap .string (.variant (.ofList [.string, .integral .int32, .dbusObject])),
        .unorderedMap (.cons (.string "name") (.variant 0 (.string "fibre"))
          (.cons (.string "path") (.variant 2 (.dbusObject ⟨none, "", "/org/fibre"⟩)) .nil))),
       (.vector (.integral .int32), .vector (.cons (.integral 7) .nil))]
    ((∀ a ∈ args, a.1.admits a.2) ∧ (∀ a ∈ args, a.1.variantsDistinct) ∧
      (∀ a ∈ args, a.2.nulFree) ∧ (∀ a ∈ args, a.2.keysDistinct)) ∧
    let packed := packMessage .completesAll args .empty
    packed.1 = 0 ∧ ∃ message, packed.2.message = some ⟨message, []⟩ ∧
      message.map DBusValue.signature = args.map (fun a => a.1.signature) ∧
      unpackMessage (args.map Prod.fst) (.ofList message) = .ok (args.map fun a => a.2.normalize) :=
  ⟨by decide, packMessage_unpackMessage_roundTrip _ (by decide) (by decide) (by decide) (by decide)⟩

/-! ## `dbus_variant` -/

theorem CValues.keysDistinct_of_admitsAll_string :
    ∀ elements : CValues, CType.string.admitsAll elements → elements.keysDistinct
  | .nil, _ => rfl
  | .cons head tail, htype => by
    simp only [CType.admitsAll, Bool.and_eq_true] at htype
    have htail := keysDistinct_of_admitsAll_string tail htype.2
    cases head <;> simp_all [CType.admits, CValues.keysDistinct, CValue.keysDistinct]

/-- A value of an alternative of `dbus_variant` holds no map. -/
theorem dbusVariant_keysDistinct {dataModel : DataModel} {index : Nat} {alt : CType}
    {value : CValue} (hget : (dbusVariantAlternatives dataModel).get? index = some alt)
    (htype : alt.admits value) : value.keysDistinct := by
  have hmem : alt ∈ (dbusVariantAlternatives dataModel).toList :=
    List.getElem?_mem (by rwa [← CTypes.get?_eq_getElem?])
  cases value with
  | vector elements =>
    cases alt with
    | vector element =>
      obtain rfl : element = .string := by
        cases dataModel <;> simpa [dbusVariantAlternatives, DataModel.long,
          DataModel.unsignedLong] using hmem
      exact CValues.keysDistinct_of_admitsAll_string elements htype
    | _ => simp [CType.admits] at htype
  | unorderedMap entries =>
    cases alt with
    | unorderedMap key value =>
      cases dataModel <;> simp [dbusVariantAlternatives, DataModel.long, DataModel.unsignedLong] at hmem
    | _ => simp [CType.admits] at htype
  | variant index' value =>
    cases alt with
    | variant alternatives =>
      cases dataModel <;> simp [dbusVariantAlternatives, DataModel.long, DataModel.unsignedLong] at hmem
    | _ => simp [CType.admits] at htype
  | _ => rfl

/-- The search of `variant_helper::pop` for the signature of the alternative at
`index` finds the earlier alternative of that signature: `long` for `long long`
and `unsigned long` for `unsigned long long` under LP64, `int` for `long` and
`unsigned int` for `unsigned long` under ILP32, and the alternative itself
otherwise. -/
theorem dbusVariant_findSignature (dataModel : DataModel) (index : Nat) {alt : CType}
    (hget : (dbusVariantAlternatives dataModel).get? index = some alt) :
    (dbusVariantAlternatives dataModel).findSignature alt.signature =
      some (if dataModel = .lp64 ∧ (index = 6 ∨ index = 11) ∨
          dataModel = .ilp32 ∧ (index = 5 ∨ index = 10) then index - 1 else index, alt) := by
  cases dataModel <;>
  rcases index with _ | _ | _ | _ | _ | _ | _ | _ | _ | _ | _ | _ | _ | index <;>
  simp only [dbusVariantAlternatives, CTypes.ofList, CTypes.get?, Option.some.injEq,
    reduceCtorEq] at hget <;>
  subst hget <;> rfl

/-- `long long` under LP64, and `long` under ILP32, come back from the D-Bus
round trip as the alternative before them. -/
theorem dbusVariant_push_pop_earlier_alternative :
    let pushedLp64 := (dbusVariant .lp64).push .completesAll (.variant 6 (.integral 0)) .empty
    let pushedIlp32 := (dbusVariant .ilp32).push .completesAll (.variant 5 (.integral 0)) .empty
    (pushedLp64.1 = 0 ∧ ∃ message, pushedLp64.2.message = some ⟨[message], []⟩ ∧
      (dbusVariant .lp64).pop message = .ok (.variant 5 (.integral 0))) ∧
    (pushedIlp32.1 = 0 ∧ ∃ message, pushedIlp32.2.message = some ⟨[message], []⟩ ∧
      (dbusVariant .ilp32).pop message = .ok (.variant 4 (.integral 0))) :=
  ⟨⟨by decide, _, rfl, by decide⟩, ⟨by decide, _, rfl, by decide⟩⟩

/-- The D-Bus round trip of a `dbus_variant` whose strings hold no NUL and whose
`DBusObject` has a null connection and an empty service name: the push returns
`0` and opens a variant of the signature `get_element_signature` gives the
alternative at `index`, and the pop, which dispatches on that signature,
returns `0` with the same value, held by the first alternative of the same
signature, which is the same alternative except for `long long` and
`unsigned long long` under LP64 and `long` and `unsigned long` under ILP32. -/
theorem dbusVariant_push_pop (dataModel : DataModel) (index : Nat) (value : CValue)
    (htype : (dbusVariant dataModel).admits (.variant index value))
    (hstrings : value.nulFree) (hobjects : value.normalize = value) :
    let pushed := (dbusVariant dataModel).push .completesAll (.variant index value) .empty
    pushed.1 = 0 ∧ ∃ alt contents, (dbusVariantAlternatives dataModel).get? index = some alt ∧
      pushed.2.message = some ⟨[.variant alt.signature contents], []⟩ ∧
      (dbusVariant dataModel).pop (.variant alt.signature contents) =
        .ok (.variant (if dataModel = .lp64 ∧ (index = 6 ∨ index = 11) ∨
          dataModel = .ilp32 ∧ (index = 5 ∨ index = 10) then index - 1 else index) value) := by
  obtain ⟨hstatus, hmessage⟩ := CType.push_completesAll _ _ htype .empty
  simp only [dbusVariant, CType.admits] at htype
  cases hget : (dbusVariantAlternatives dataModel).get? index with
  | none => simp [hget] at htype
  | some alt =>
    simp only [hget] at htype
    refine ⟨hstatus, alt, .cons (alt.encode value) .nil, rfl,
      by rw [hmessage]; simp [AppendState.empty, dbusVariant, hget], ?_⟩
    have hdistinct : alt.variantsDistinct :=
      CTypes.variantsDistinct_of_get? (by cases dataModel <;> decide) hget
    have hvalue := CType.pop_encode alt value htype hdistinct hstrings
      (dbusVariant_keysDistinct hget htype)
    simp [dbusVariant, hget, dbusVariant_findSignature dataModel index hget, hvalue, hobjects]

/-- A `short` under LP64 keeps its index. -/
theorem dbusVariant_push_pop_short :
    ((dbusVariant .lp64).admits (.variant 3 (.integral 5)) ∧ (CValue.integral 5).nulFree ∧
      (CValue.integral 5).normalize = .integral 5) ∧
    let pushed := (dbusVariant .lp64).push .completesAll (.variant 3 (.integral 5)) .empty
    pushed.1 = 0 ∧ ∃ alt contents, (dbusVariantAlternatives .lp64).get? 3 = some alt ∧
      pushed.2.message = some ⟨[.variant alt.signature contents], []⟩ ∧
      (dbusVariant .lp64).pop (.variant alt.signature contents) =
        .ok (.variant (if DataModel.lp64 = .lp64 ∧ (3 = 6 ∨ 3 = 11) ∨
          DataModel.lp64 = .ilp32 ∧ (3 = 5 ∨ 3 = 10) then 3 - 1 else 3) (.integral 5)) :=
  ⟨by decide, dbusVariant_push_pop .lp64 3 (.integral 5) (by decide) (by decide) (by decide)⟩

end Fibre.DBus
