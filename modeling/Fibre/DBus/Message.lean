import Mathlib.Algebra.Order.Ring.Nat
import Mathlib.Data.List.Basic

/-!
# D-Bus messages, as the wrapper reads and builds them through libdbus

The D-Bus wrapper in `dbus.hpp` is written against libdbus, which is not part
of this repository. This module models the part of libdbus the wrapper relies
on: the type codes and signatures of the types it produces, the arguments of a
message, the reading calls (`get_arg_type`, `get_basic`, `recurse`,
`get_signature`) and the appending calls (`append_basic`, `open_container`,
`close_container`).

Appending can fail. Whether libdbus completes a call is left to an
environment that sees every call made before it; a statement over every
environment therefore covers every failure point. A variant is opened with the
signature of the value it is to hold, which libdbus writes into the message and
checks the appended value against; `dbus_message_iter_get_signature` on the
variant's contents returns that signature. An array keeps its element
signature and its elements as they were appended. Reading a value into a C++
variable of another width, or recursing into a basic value, has an outcome
neither libdbus nor C++ defines, and the reading model says so rather than
picking one. Double, signature, Unix-fd and struct values, which no
`DBusTypeTraits` specialisation produces, are left out.
-/

namespace Fibre.DBus

/-- The D-Bus type codes `DBUS_TYPE_*` of the types the wrapper handles, and
`DBUS_TYPE_INVALID`, which `get_arg_type` reports past the last argument. -/
inductive TypeCode
  | invalid
  | byte
  | boolean
  | int16
  | uint16
  | int32
  | uint32
  | int64
  | uint64
  | string
  | objectPath
  | array
  | variant
  | dictEntry
  deriving DecidableEq

/-- `DBUS_DICT_ENTRY_BEGIN_CHAR`. -/
def dictEntryBeginChar : Char := '\x7b'

/-- `DBUS_DICT_ENTRY_END_CHAR`. -/
def dictEntryEndChar : Char := '\x7d'

/-- The integer types `get_int_type_id<BITS, SIGNED>` is specialised for: every
width and signedness D-Bus has, which leaves out signed 8-bit. -/
inductive IntKind
  | int16
  | int32
  | int64
  | uint8
  | uint16
  | uint32
  | uint64
  deriving DecidableEq

namespace IntKind

/-- `BITS`. -/
def bits : IntKind → Nat
  | .int16 | .uint16 => 16
  | .int32 | .uint32 => 32
  | .int64 | .uint64 => 64
  | .uint8 => 8

/-- `get_int_type_id<BITS, SIGNED>()`. -/
def typeCode : IntKind → TypeCode
  | .int16 => .int16
  | .int32 => .int32
  | .int64 => .int64
  | .uint8 => .byte
  | .uint16 => .uint16
  | .uint32 => .uint32
  | .uint64 => .uint64

/-- `get_int_signature<BITS, SIGNED>()`. -/
def signature : IntKind → Char
  | .int16 => 'n'
  | .int32 => 'i'
  | .int64 => 'x'
  | .uint8 => 'y'
  | .uint16 => 'q'
  | .uint32 => 'u'
  | .uint64 => 't'

end IntKind

/-- How a read ends: it returns `0` with the value it stored, it returns `-1`,
or it reads in a way whose outcome libdbus and C++ leave undefined. -/
inductive PopResult (α : Type)
  | ok (value : α)
  | failed
  | undefined
  deriving DecidableEq

namespace PopResult

/-- Go on with `next` after a read that returned `0`; stop otherwise. -/
def bind {α β : Type} : PopResult α → (α → PopResult β) → PopResult β
  | .ok value, next => next value
  | .failed, _ => .failed
  | .undefined, _ => .undefined

instance : Monad PopResult where
  pure := .ok
  bind := bind

@[simp] theorem ok_bind {α β : Type} (value : α) (next : α → PopResult β) :
    (PopResult.ok value >>= next) = next value := rfl

@[simp] theorem failed_bind {α β : Type} (next : α → PopResult β) :
    (PopResult.failed >>= next) = .failed := rfl

@[simp] theorem undefined_bind {α β : Type} (next : α → PopResult β) :
    (PopResult.undefined >>= next) = .undefined := rfl

@[simp] theorem pure_eq_ok {α : Type} (value : α) : (pure value : PopResult α) = .ok value := rfl

end PopResult

/-- A basic value in a message. -/
inductive DBusBasic
  | integer (kind : IntKind) (bits : Nat)
  | boolean (value : Bool)
  | string (value : String)
  | objectPath (value : String)
  deriving DecidableEq

mutual

/-- A value in a message. An array keeps the element signature it was opened
with, which is its type also when it has no elements; a variant keeps the
signature it was opened with, the type of the value it holds. -/
inductive DBusValue
  | basic (value : DBusBasic)
  | array (elementSignature : List Char) (items : DBusValues)
  | variant (signature : List Char) (contents : DBusValues)
  | dictEntry (contents : DBusValues)
  deriving DecidableEq

/-- The values of a message, or of a container, in order. -/
inductive DBusValues
  | nil
  | cons (head : DBusValue) (tail : DBusValues)

end

/-- Values are equal when the dict entries holding them are. -/
instance : DecidableEq DBusValues := fun a b =>
  decidable_of_iff (DBusValue.dictEntry a = .dictEntry b) ⟨DBusValue.dictEntry.inj, congrArg _⟩

/-- The type code of a basic value. -/
def DBusBasic.typeCode : DBusBasic → TypeCode
  | .integer kind _ => kind.typeCode
  | .boolean _ => .boolean
  | .string _ => .string
  | .objectPath _ => .objectPath

/-- The type code of a value. -/
def DBusValue.typeCode : DBusValue → TypeCode
  | .basic value => value.typeCode
  | .array _ _ => .array
  | .variant _ _ => .variant
  | .dictEntry _ => .dictEntry

/-- The signature character of a basic value. -/
def DBusBasic.signature : DBusBasic → Char
  | .integer kind _ => kind.signature
  | .boolean _ => 'b'
  | .string _ => 's'
  | .objectPath _ => 'o'

mutual

/-- The signature of a value. -/
def DBusValue.signature : DBusValue → List Char
  | .basic value => [value.signature]
  | .array elementSignature _ => 'a' :: elementSignature
  | .variant _ _ => ['v']
  | .dictEntry contents => dictEntryBeginChar :: contents.signature ++ [dictEntryEndChar]

/-- The signature of values in order. -/
def DBusValues.signature : DBusValues → List Char
  | .nil => []
  | .cons head tail => head.signature ++ tail.signature

end

namespace DBusValues

/-- The values as a list. -/
def toList : DBusValues → List DBusValue
  | .nil => []
  | .cons head tail => head :: tail.toList

/-- The values of a list, in order. -/
def ofList : List DBusValue → DBusValues
  | [] => .nil
  | head :: tail => .cons head (ofList tail)

/-- `dbus_message_iter_get_signature` at an iterator: the signature of the
current value. -/
def currentSignature : DBusValues → List Char
  | .nil => []
  | .cons head _ => head.signature

@[simp] theorem toList_ofList (values : List DBusValue) : (ofList values).toList = values := by
  induction values with
  | nil => rfl
  | cons head tail ih => simp [ofList, toList, ih]

@[simp] theorem ofList_toList : ∀ values : DBusValues, ofList values.toList = values
  | .nil => rfl
  | .cons head tail => by simp [toList, ofList, ofList_toList tail]

end DBusValues

/-- What `dbus_message_iter_get_basic` leaves in a C++ integer of `width` bits:
libdbus stores the current value's own representation, so only a value of that
width (a `boolean` is a 32-bit `0` or `1`) is read as it is. -/
def DBusValue.getBasicFixed (current : DBusValue) (width : Nat) : PopResult Nat :=
  match current with
  | .basic (.integer kind bits) => if kind.bits = width then .ok bits else .undefined
  | .basic (.boolean value) => if width = 32 then .ok (if value then 1 else 0) else .undefined
  | .basic (.string _) | .basic (.objectPath _) | .array _ _ | .variant _ _ | .dictEntry _ =>
    .undefined

/-- What `dbus_message_iter_get_basic` leaves in a `char*`: the text of a
string-like value. -/
def DBusValue.getBasicString : DBusValue → PopResult String
  | .basic (.string value) | .basic (.objectPath value) => .ok value
  | .basic (.integer _ _) | .basic (.boolean _) | .array _ _ | .variant _ _ | .dictEntry _ =>
    .undefined

/-- The append calls the wrapper makes. A `nullptr` signature is `none`. -/
inductive LibCall
  | appendBasic (value : DBusBasic)
  | openContainer (code : TypeCode) (signature : Option (List Char))
  | closeContainer
  deriving DecidableEq

/-! ## The message under construction -/

/-- A container opened and not yet closed: how it was opened and the values
appended into it so far. -/
structure OpenContainer where
  code : TypeCode
  signature : Option (List Char)
  values : List DBusValue
  deriving DecidableEq

/-- The value a container becomes when it is closed. libdbus refuses to open an
array or a variant without a signature and a dict entry with one, and the model
follows no other opening. A variant holds a value of the signature it was opened
with: libdbus checks every value appended into it against that signature, and
the model follows no other contents. -/
def OpenContainer.value (container : OpenContainer) : Option DBusValue :=
  match container.code, container.signature with
  | .array, some elementSignature => some (.array elementSignature (.ofList container.values))
  | .variant, some signature =>
    if (DBusValues.ofList container.values).signature = signature then
      some (.variant signature (.ofList container.values))
    else none
  | .dictEntry, none => some (.dictEntry (.ofList container.values))
  | _, _ => none

/-- A message under construction: the arguments appended at the top level and
the containers open below them, innermost first. -/
structure MessageBuilder where
  args : List DBusValue
  containers : List OpenContainer
  deriving DecidableEq

namespace MessageBuilder

/-- Append a value where the writing iterator stands: into the innermost open
container, or as the next argument. -/
def append (builder : MessageBuilder) (value : DBusValue) : MessageBuilder :=
  match builder.containers with
  | [] => ⟨builder.args ++ [value], []⟩
  | container :: containers =>
    ⟨builder.args, { container with values := container.values ++ [value] } :: containers⟩

/-- What a completed call does to the message. -/
def apply (builder : MessageBuilder) : LibCall → Option MessageBuilder
  | .appendBasic value => some (builder.append (.basic value))
  | .openContainer code signature => some ⟨builder.args, ⟨code, signature, []⟩ :: builder.containers⟩
  | .closeContainer =>
    match builder.containers with
    | [] => none
    | container :: containers => container.value.map (MessageBuilder.append ⟨builder.args, containers⟩)

/-- Append values in order. -/
def appendValues (builder : MessageBuilder) : DBusValues → MessageBuilder
  | .nil => builder
  | .cons head tail => (builder.append head).appendValues tail

@[simp] theorem append_nil (args : List DBusValue) (value : DBusValue) :
    (⟨args, []⟩ : MessageBuilder).append value = ⟨args ++ [value], []⟩ := rfl

@[simp] theorem append_cons (args : List DBusValue) (container : OpenContainer)
    (containers : List OpenContainer) (value : DBusValue) :
    (⟨args, container :: containers⟩ : MessageBuilder).append value =
      ⟨args, { container with values := container.values ++ [value] } :: containers⟩ := rfl

@[simp] theorem apply_appendBasic (builder : MessageBuilder) (value : DBusBasic) :
    builder.apply (.appendBasic value) = some (builder.append (.basic value)) := rfl

@[simp] theorem apply_openContainer (args : List DBusValue) (containers : List OpenContainer)
    (code : TypeCode) (signature : Option (List Char)) :
    (⟨args, containers⟩ : MessageBuilder).apply (.openContainer code signature) =
      some ⟨args, ⟨code, signature, []⟩ :: containers⟩ := rfl

@[simp] theorem apply_closeContainer_cons (args : List DBusValue) (container : OpenContainer)
    (containers : List OpenContainer) :
    (⟨args, container :: containers⟩ : MessageBuilder).apply .closeContainer =
      container.value.map (MessageBuilder.append ⟨args, containers⟩) := rfl

/-- Values appended inside an open container are the container's values. -/
@[simp] theorem appendValues_open (args : List DBusValue) (containers : List OpenContainer) :
    ∀ (container : OpenContainer) (values : DBusValues),
      (⟨args, container :: containers⟩ : MessageBuilder).appendValues values =
        ⟨args, { container with values := container.values ++ values.toList } :: containers⟩
  | _, .nil => by simp [appendValues, DBusValues.toList]
  | _, .cons head tail => by
    simp [appendValues, appendValues_open args containers _ tail, DBusValues.toList]

/-- Values appended at the top level are the next arguments. -/
@[simp] theorem appendValues_top (args : List DBusValue) :
    ∀ values : DBusValues,
      (⟨args, []⟩ : MessageBuilder).appendValues values = ⟨args ++ values.toList, []⟩
  | .nil => by simp [appendValues, DBusValues.toList]
  | .cons head tail => by simp [appendValues, appendValues_top _ tail, DBusValues.toList]

end MessageBuilder

/-! ## libdbus as an appender -/

/-- libdbus's side of appending: every call made so far with whether it was
completed, and the message the completed calls built (`none` once one of them
was a call the model does not follow). A call libdbus does not complete leaves
the message as it was. -/
structure AppendState where
  calls : List (LibCall × Bool)
  message : Option MessageBuilder
  deriving DecidableEq

/-- A message just created, with nothing appended. -/
def AppendState.empty : AppendState := ⟨[], some ⟨[], []⟩⟩

/-- libdbus as an appender: whether it completes a call, given the calls made
before it and how each of them ended. It refuses one for lack of memory, and
for an argument it rejects (a string that is not valid UTF-8, an invalid object
path, a signature it does not accept, a nesting deeper than its limit); which
calls those are is this function. -/
structure Libdbus where
  completes : List (LibCall × Bool) → LibCall → Bool

/-- Make one append call: whether libdbus completed it, and the state after it. -/
def Libdbus.call (lib : Libdbus) (state : AppendState) (call : LibCall) : Bool × AppendState :=
  let completed := lib.completes state.calls call
  (completed, ⟨state.calls ++ [(call, completed)],
    if completed then state.message.bind (·.apply call) else state.message⟩)

/-- Every call is on record, with whether libdbus completed it. -/
theorem Libdbus.call_calls (lib : Libdbus) (state : AppendState) (call : LibCall) :
    (lib.call state call).2.calls = state.calls ++ [(call, (lib.call state call).1)] := rfl

/-- A libdbus that completes every call. -/
def Libdbus.completesAll : Libdbus := ⟨fun _ _ => true⟩

@[simp] theorem Libdbus.completesAll_call (state : AppendState) (call : LibCall) :
    Libdbus.completesAll.call state call =
      (true, ⟨state.calls ++ [(call, true)], state.message.bind (·.apply call)⟩) := rfl

end Fibre.DBus
