import Fibre.LocalFunction.Encoder

/-!
# The codecs a metadata names

`StaticFunctionMetadata` names a decoder for every input and an encoder for
every output. `InputMetadata::decoder_type` is `Decoder<TArgs...>` of the
input's argument types. `OutputMetadata::encoder_type` is `Encoder<Ts...>` of
the output's argument types with one reference or pointer removed, or
`VoidEncoder<Ts...>` of them for an output that is discarded. Both templates
are specialised for a few argument lists only; a list they are not specialised
for does not compile, which is `none` here. `TInputDecoders` and
`TOutputEncoders` chain the codecs in declared order.

The results say that the chains line up with the metadata the endpoint reads:
each input is paired with its own decoder, and the encoders take
`impl_out_vals_t`, each output its own slice of it, a discarded output's
encoder writing nothing.

The argument types are C++ types as far as these templates tell them apart.
`remove_ref_or_ptr` comes from a header that is not part of this repository; it
is read here by its name and by its use on the output types.
-/

namespace Fibre.LocalFunction

/-- The C++ types of an exported function's arguments and results, as far as
`Decoder`, `Encoder` and `remove_ref_or_ptr` tell them apart: `uint32_t`,
`size_t`, `const char`, a class by its name, and pointers and references. -/
inductive CppType
  | uint32
  | size
  | constChar
  | named (name : String)
  | ptr (t : CppType)
  | ref (t : CppType)
  deriving DecidableEq, Repr

namespace CppType

/-- How the type is written. -/
def spelling : CppType → String
  | .uint32 => "uint32_t"
  | .size => "size_t"
  | .constChar => "const char"
  | .named name => name
  | .ptr t => t.spelling ++ "*"
  | .ref t => t.spelling ++ "&"

/-- `remove_ref_or_ptr<T>::type`: `T` with one reference or one pointer
removed. -/
def removeRefOrPtr : CppType → CppType
  | .ptr t => t
  | .ref t => t
  | t => t

/-- The type as the encoders tell it apart. -/
def valueType : CppType → ValueType
  | .uint32 => .uint32
  | .size => .size
  | .ptr .constChar => .constCharPtr
  | t => .other t.spelling

/-- A value-initialized element of the type, as the default constructor of
`std::tuple` makes it: zero, a null string, or an object that holds nothing an
encoder reads. -/
def valueInit : CppType → Value
  | .uint32 => .uint32 0
  | .size => .size 0
  | .ptr .constChar => .constCharPtr none
  | t => .other t.spelling

@[simp] theorem type_valueInit (t : CppType) : t.valueInit.type = t.valueType := by
  cases t with
  | ptr t => cases t <;> rfl
  | _ => rfl

end CppType

/-! ## Decoders -/

/-- The specialisations of `Decoder<TArgs...>`: `Decoder<uint32_t>`, a
`FixedIntDecoder<uint32_t, false>`, and `Decoder<TObj*>`, an
`ObjectReferenceDecoder<TObj>`. -/
inductive Decoder
  | uint32
  | objectReference (obj : CppType)
  deriving DecidableEq, Repr

namespace Decoder

/-- `Decoder<TArgs...>` for the argument types `TArgs`, or `none` for a list it
is not specialised for. -/
def ofArgs : List CppType → Option Decoder
  | [.uint32] => some .uint32
  | [.ptr obj] => some (.objectReference obj)
  | _ => none

/-- `Decoder<...>::name`. `type_name_provider<TObj>::get_type_name()` is declared
outside this repository and is the parameter `typeName`. -/
def name (typeName : CppType → List Char) : Decoder → List Char
  | .uint32 => "uint32".toList
  | .objectReference obj => typeName obj

/-- `Decoder<...>::value_tuple_t`. -/
def valueTupleT : Decoder → List CppType
  | .uint32 => [.uint32]
  | .objectReference obj => [.ptr obj]

end Decoder

/-- `DecoderChain<TDecoders...>::value_tuple_t`. -/
def DecoderChain.valueTupleT (decoders : List Decoder) : List CppType :=
  (decoders.map Decoder.valueTupleT).flatten

/-- `InputMetadata::decoder_type`. -/
def InputMetadata.decoderType (input : InputMetadata CppType) : Option Decoder :=
  Decoder.ofArgs input.tupleType

/-- The codec name `get_input_json` writes for an input of the argument types
`args`: the `name` of its decoder. -/
def codecName (typeName : CppType → List Char) (args : List CppType) : List Char :=
  ((Decoder.ofArgs args).map (Decoder.name typeName)).getD []

/-! ## Encoders -/

/-- `Encoder<Ts...>` for the value types `Ts`, or `none` for a list it is not
specialised for. -/
def Encoder.ofArgs : List CppType → Option Encoder
  | [.uint32] => some .uint32
  | [.ptr .constChar, .size] => some .constCharPtrSize
  | _ => none

theorem Encoder.ts_of_ofArgs {ts : List CppType} {e : Encoder} (h : Encoder.ofArgs ts = some e) :
    e.ts = ts.map CppType.valueType := by
  unfold Encoder.ofArgs at h
  split at h <;> first | cases h; rfl | cases h

/-- `OutputMetadata::encoder_type`: `VoidEncoder` of the output's value types
when it is discarded, and `Encoder` of them otherwise. -/
def OutputMetadata.encoderType (output : OutputMetadata CppType) : Option Encoder :=
  let ts := output.tupleType.map CppType.removeRefOrPtr
  if output.discard then some (.void (ts.map CppType.valueType)) else Encoder.ofArgs ts

namespace OutputMetadata

variable {output : OutputMetadata CppType} {e : Encoder}

/-- An encoder takes the output's value types: its argument types with one
reference or pointer removed. -/
theorem ts_of_encoderType (h : output.encoderType = some e) :
    e.ts = (output.tupleType.map CppType.removeRefOrPtr).map CppType.valueType := by
  unfold encoderType at h
  split at h
  · cases h
    rfl
  · exact Encoder.ts_of_ofArgs h

end OutputMetadata

/-! ## The chains of a metadata -/

/-- What a `mapM` into `Option` returns, read through `g`, is what `h` says of
the elements it was given, when `g` reads every result of `f` as `h` does. -/
private theorem map_of_mapM_eq_some {α β γ : Type} {f : α → Option β} {g : β → γ} {h : α → γ}
    (hgh : ∀ x y, f x = some y → g y = h x) :
    ∀ {xs : List α} {ys : List β}, xs.mapM f = some ys → ys.map g = xs.map h
  | [], ys, hys => by cases hys; rfl
  | x :: xs, ys, hys => by
    simp only [List.mapM_cons, Option.bind_eq_bind, Option.bind_eq_some, Option.pure_def,
      Option.some.injEq] at hys
    obtain ⟨y, hy, ys, hys, rfl⟩ := hys
    rw [List.map_cons, List.map_cons, hgh x y hy, map_of_mapM_eq_some hgh hys]

/-- Along a `mapM` into `Option` that succeeds, each element is paired with what
`f` made of it. -/
private theorem zip_of_mapM_eq_some {α β : Type} {f : α → Option β} :
    ∀ {xs : List α} {ys : List β}, xs.mapM f = some ys →
      (xs.zip ys).map (fun p => (p.1, some p.2)) = xs.map fun x => (x, f x)
  | [], ys, hys => by cases hys; rfl
  | x :: xs, ys, hys => by
    simp only [List.mapM_cons, Option.bind_eq_bind, Option.bind_eq_some, Option.pure_def,
      Option.some.injEq] at hys
    obtain ⟨y, hy, ys, hys, rfl⟩ := hys
    rw [List.zip_cons_cons, List.map_cons, List.map_cons, hy, zip_of_mapM_eq_some hys]

namespace StaticFunctionMetadata

variable (m : StaticFunctionMetadata CppType)

/-- `TInputDecoders`: `DecoderChain<typename TInputs::decoder_type...>`. -/
def inputDecoders : Option (List Decoder) :=
  m.inputMetadata.mapM InputMetadata.decoderType

/-- `TOutputEncoders`: `EncoderChain<typename TOutputs::encoder_type...>`. -/
def outputEncoders : Option (List Encoder) :=
  m.outputMetadata.mapM OutputMetadata.encoderType

/-- `impl_out_vals_t`: `remove_refs_or_ptrs_from_tuple_t<impl_out_refs_t>`. -/
def implOutVals : List CppType :=
  m.implOutRefs.map CppType.removeRefOrPtr

theorem implOutVals_eq_flatten :
    m.implOutVals = (m.outputMetadata.map fun o => o.tupleType.map CppType.removeRefOrPtr).flatten := by
  simp [implOutVals, implOutRefs, List.map_flatten, Function.comp_def]

variable {m}

/-- Each input is paired with its own decoder. -/
theorem zip_inputDecoders {decoders : List Decoder} (h : m.inputDecoders = some decoders) :
    (m.inputMetadata.zip decoders).map (fun p => (p.1, some p.2)) =
      m.inputMetadata.map fun input => (input, input.decoderType) :=
  zip_of_mapM_eq_some h

theorem valueTupleT_of_outputEncoders {encoders : List Encoder} (h : m.outputEncoders = some encoders) :
    EncoderChain.valueTupleT encoders = m.implOutVals.map CppType.valueType := by
  rw [EncoderChain.valueTupleT, implOutVals_eq_flatten,
    map_of_mapM_eq_some (fun _ _ => OutputMetadata.ts_of_encoderType) h]
  simp [List.map_flatten, Function.comp_def]

end StaticFunctionMetadata

end Fibre.LocalFunction
