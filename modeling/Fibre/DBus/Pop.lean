import Fibre.DBus.Traits

/-!
# Reading arguments: `DBusTypeTraits<T>::pop` and `unpack_message`

`unpack_message` compares each argument's type code with the target's
`type_id` before it pops it, and fails on missing or extra arguments. The pops
below it read further without such checks: the vector pop pops every element of
the array with the element type's traits whatever the element's type code, and
the map pop accepts an empty array of any element type. An array of `int32`
read into a `std::vector<uint32_t>` is therefore accepted, each element read as
the same 32 bits (`unpackMessage_int32_array_as_uint32_vector`). The variant
pop asks libdbus for the signature of the variant's contents and hands it to
`variant_helper::pop`, which picks the first alternative of that signature.

Every caller in the repository pops into default-constructed variables
(`handle_reply_message`'s tuple, the vector's element, the dict entry's key and
value, the variant's inner value), and the model starts from them: a vector pop
then builds its elements from empty, a map pop its entries. What the variables
hold after a failed pop is not modelled.
-/

namespace Fibre.DBus

mutual

/-- `DBusTypeTraits<T>::pop(iter, val)` at the current value `current`, into a
default-constructed `val`. The container pops `dbus_message_iter_recurse` into
whatever container `current` is; recursing into a basic value is a libdbus
assertion failure. -/
def CType.pop : CType → DBusValue → PopResult CValue
  | .integral kind, current => do
    let bits ← current.getBasicFixed kind.bits
    pure (.integral bits)
  | .bool, current => do
    let asInt ← current.getBasicFixed 32
    if asInt = 0 then pure (.bool false)
    else if asInt = 1 then pure (.bool true)
    else .failed
  | .string, current => do
    let text ← current.getBasicString
    pure (.string (cStr text))
  | .dbusObject, current => do
    let text ← current.getBasicString
    pure (.dbusObject (.ofPath (cStr text)))
  | .vector _, .basic _ => .undefined
  | .vector element, .array _ items | .vector element, .variant _ items
  | .vector element, .dictEntry items => do
    let elements ← CType.popElements element items
    pure (.vector elements)
  | .unorderedMap _ _, .basic _ => .undefined
  | .unorderedMap key value, .array _ items | .unorderedMap key value, .variant _ items
  | .unorderedMap key value, .dictEntry items => do
    let entries ← CType.popEntries key value .nil items
    pure (.unorderedMap entries)
  | .variant _, .basic _ => .undefined
  -- `dbus_message_iter_get_signature(&subiter)`: the type the container holds
  | .variant alternatives, .array signature items
  | .variant alternatives, .variant signature items =>
    CTypes.variantHelperPop alternatives signature items
  | .variant alternatives, .dictEntry contents =>
    CTypes.variantHelperPop alternatives contents.currentSignature contents

/-- The loop of `DBusTypeTraits<std::vector<TElement>>::pop`: pop every value
up to `DBUS_TYPE_INVALID` as an element, stopping at the first that fails. -/
def CType.popElements (element : CType) : DBusValues → PopResult CValues
  | .nil => .ok .nil
  | .cons head tail => do
    let value ← element.pop head
    let values ← CType.popElements element tail
    pure (.cons value values)

/-- The loop of `DBusTypeTraits<std::unordered_map<TKey, TVal>>::pop`: unpack
each dict entry into a key and a value and set `val[key] = value`; a value that
is not a dict entry ends the loop, and fails the pop. -/
def CType.popEntries (key value : CType) (entries : CEntries) : DBusValues → PopResult CEntries
  | .nil => .ok entries
  | .cons (.dictEntry contents) tail => do
    let popped ← unpackMessage [key, value] contents
    match popped with
    | [k, v] => CType.popEntries key value (entries.insert k v) tail
    | _ => .failed
  | .cons _ _ => .failed

/-- `variant_helper<0, N, std::variant<Ts...>>::pop(subiter, val, signature)`
with `signature` from `dbus_message_iter_get_signature(&subiter)`: the first
alternative whose signature it is pops the value, and the variant holds that
alternative. On an iterator past its last value that pop is undefined. -/
def CTypes.variantHelperPop (alternatives : CTypes) (signature : List Char) :
    DBusValues → PopResult CValue
  | .nil =>
    match alternatives.findSignature signature with
    | some _ => .undefined
    | none => .failed
  | .cons head _ =>
    match alternatives.findSignature signature with
    | some (index, alt) => do
      let value ← alt.pop head
      pure (.variant index value)
    | none => .failed

/-- `unpack_message(iter, args...)`: each argument's type code must be the
target's `type_id`, there must be no argument left over, and none missing. -/
def unpackMessage : List CType → DBusValues → PopResult (List CValue)
  | [], .nil => .ok []
  | [], .cons _ _ => .failed
  -- `get_arg_type` is `DBUS_TYPE_INVALID`, which is no type's id
  | _ :: _, .nil => .failed
  | t :: ts, .cons arg tail =>
    if arg.typeCode ≠ t.typeId then .failed
    else do
      let value ← t.pop arg
      let values ← unpackMessage ts tail
      pure (value :: values)

end

namespace CType

/-! The pops at the values the wire form of each type has. -/

@[simp] theorem pop_integral (kind : IntKind) (current : DBusValue) :
    (integral kind).pop current = (do
      let bits ← current.getBasicFixed kind.bits
      pure (.integral bits)) := by
  cases current <;> rfl

@[simp] theorem pop_bool (current : DBusValue) :
    bool.pop current = (do
      let asInt ← current.getBasicFixed 32
      if asInt = 0 then pure (.bool false)
      else if asInt = 1 then pure (.bool true)
      else .failed) := by
  cases current <;> rfl

@[simp] theorem pop_string (current : DBusValue) :
    string.pop current = (do
      let text ← current.getBasicString
      pure (.string (cStr text))) := by
  cases current <;> rfl

@[simp] theorem pop_dbusObject (current : DBusValue) :
    dbusObject.pop current = (do
      let text ← current.getBasicString
      pure (.dbusObject (.ofPath (cStr text)))) := by
  cases current <;> rfl

@[simp] theorem pop_vector_array (element : CType) (elementSignature : List Char)
    (items : DBusValues) :
    (vector element).pop (.array elementSignature items) = (do
      let elements ← element.popElements items
      pure (.vector elements)) := rfl

@[simp] theorem pop_unorderedMap_array (key value : CType) (elementSignature : List Char)
    (items : DBusValues) :
    (unorderedMap key value).pop (.array elementSignature items) = (do
      let entries ← CType.popEntries key value .nil items
      pure (.unorderedMap entries)) := rfl

@[simp] theorem pop_variant_variant (alternatives : CTypes) (signature : List Char)
    (contents : DBusValues) :
    (variant alternatives).pop (.variant signature contents) =
      alternatives.variantHelperPop signature contents := rfl

@[simp] theorem popElements_nil (element : CType) : element.popElements .nil = .ok .nil := rfl

@[simp] theorem popElements_cons (element : CType) (head : DBusValue) (tail : DBusValues) :
    element.popElements (.cons head tail) = (do
      let value ← element.pop head
      let values ← element.popElements tail
      pure (.cons value values)) := rfl

@[simp] theorem popEntries_nil (key value : CType) (entries : CEntries) :
    CType.popEntries key value entries .nil = .ok entries := rfl

@[simp] theorem popEntries_dictEntry (key value : CType) (entries : CEntries)
    (contents tail : DBusValues) :
    CType.popEntries key value entries (.cons (.dictEntry contents) tail) = (do
      let popped ← unpackMessage [key, value] contents
      match popped with
      | [k, v] => CType.popEntries key value (entries.insert k v) tail
      | _ => .failed) := rfl

end CType

@[simp] theorem CTypes.variantHelperPop_cons (alternatives : CTypes) (signature : List Char)
    (head : DBusValue) (tail : DBusValues) :
    alternatives.variantHelperPop signature (.cons head tail) =
      match alternatives.findSignature signature with
      | some (index, alt) => (do
        let value ← alt.pop head
        pure (.variant index value))
      | none => .failed := rfl

@[simp] theorem unpackMessage_nil : unpackMessage [] .nil = .ok [] := rfl

@[simp] theorem unpackMessage_cons (t : CType) (ts : List CType) (arg : DBusValue)
    (tail : DBusValues) :
    unpackMessage (t :: ts) (.cons arg tail) =
      if arg.typeCode ≠ t.typeId then .failed
      else (do
        let value ← t.pop arg
        let values ← unpackMessage ts tail
        pure (value :: values)) := rfl

/-- An array of `int32` read into a `std::vector<uint32_t>`: `unpack_message`
returns `0` with the element's bits, though the argument's signature `ai` is not
the target's `au`. -/
theorem unpackMessage_int32_array_as_uint32_vector :
    let message : DBusValues :=
      .cons (.array ['i'] (.cons (.basic (.integer .int32 4294967295)) .nil)) .nil
    unpackMessage [.vector (.integral .uint32)] message =
        .ok [.vector (.cons (.integral 4294967295) .nil)] ∧
      message.signature ≠ (CType.vector (.integral .uint32)).signature := by
  decide

end Fibre.DBus
