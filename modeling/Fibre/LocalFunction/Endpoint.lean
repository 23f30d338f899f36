import Fibre.LocalFunction.Merge
import Fibre.LocalFunction.Codec
import Fibre.LocalFunction.JsonReading

/-!
# The endpoint of an exported function

`LocalFunctionEndpoint<TFunc, TMetadata>` binds a native function to its
metadata. `open_connection` installs the metadata's decoder chain on the
incoming connection; once every input is decoded, `decoder_finished` reads the
decoded values, value-initializes one element of `out_arg_vals` per output
argument, merges the inputs with references to those elements along the
argument tags, calls the function, and serializes the elements followed by the
returned values with the metadata's encoder chain.

Most of this is computed in types. `NImplOutputs - NImplResults` is a `size_t`
subtraction; `impl_arg_modes_t` and `impl_out_arg_refs_t` cut the tags and the
output types down to the function's own arguments, and the merge along those
tags must produce the declared `impl_arg_refs_t`. The source leaves a check that
the return values are tagged as outputs as a TODO; the first result below shows
that the types already enforce it. A `LocalFunctionEndpoint` here carries the
conditions under which the class compiles as fields, so an endpoint that does
not compile cannot be built.

The decoders, the encoders' sink and the function itself are outside the
metadata. The function is any function of its arguments and of what its output
elements hold, typed as C++ types it. The helpers `add_ref_or_ptr_to_tuple`,
`args_of_t`, `result_of_t` and `as_tuple_t` live in a header that is not part
of this repository; they are read here by their names and their use, and the
arguments of the call are taken to have exactly the types of
`impl_arg_refs_t`, with no conversion.
-/

namespace Fibre.LocalFunction

variable {τ ι : Type}

/-! ## The types the endpoint computes -/

/-- `NImplOutputs - NImplResults`, a `size_t` subtraction. -/
def implOutArgCount (nImplOutputs nImplResults : Nat) : Nat :=
  (UInt64.ofNat nImplOutputs - UInt64.ofNat nImplResults).toNat

theorem implOutArgCount_of_le {nImplOutputs nImplResults : Nat}
    (hle : nImplResults ≤ nImplOutputs) (hsize : nImplOutputs < 2 ^ 64) :
    implOutArgCount nImplOutputs nImplResults = nImplOutputs - nImplResults := by
  have hresults : (UInt64.ofNat nImplResults).toNat = nImplResults :=
    UInt64.toNat_ofNat_of_lt (by simp only [UInt64.size]; omega)
  have houtputs : (UInt64.ofNat nImplOutputs).toNat = nImplOutputs :=
    UInt64.toNat_ofNat_of_lt (by simpa only [UInt64.size] using hsize)
  have hle' : UInt64.ofNat nImplResults ≤ UInt64.ofNat nImplOutputs := by
    rw [UInt64.le_def, BitVec.le_def]
    exact show (UInt64.ofNat nImplResults).toNat ≤ (UInt64.ofNat nImplOutputs).toNat by omega
  rw [implOutArgCount, UInt64.toNat_sub_of_le _ _ hle', hresults, houtputs]

namespace StaticFunctionMetadata

/-- `impl_out_arg_refs_t`: the output types that are the function's own
arguments, before those of its return values. `NImplOutputs` is the size of
`impl_out_vals_t`, which has one element per element of `impl_out_refs_t`. -/
def implOutArgRefs (m : StaticFunctionMetadata τ) (nImplResults : Nat) : List τ :=
  m.implOutRefs.take (implOutArgCount m.implOutRefs.length nImplResults)

/-- `impl_arg_modes_t`: the tags of the function's own arguments. -/
def implArgModes (m : StaticFunctionMetadata τ) (nImplArgs : Nat) : List ArgMode :=
  m.argModes.take nImplArgs

/-- `impl_arg_refs_t`: the types of the function's own arguments. -/
def implArgRefs (m : StaticFunctionMetadata τ) (nImplArgs : Nat) : Option (List τ) :=
  m.implIoRefs.map (List.take nImplArgs)

/-- `impl_out_arg_vals_t`: the value types of the output arguments. -/
def implOutArgVals (m : StaticFunctionMetadata CppType) (nImplResults : Nat) : List CppType :=
  m.implOutVals.take (implOutArgCount m.implOutVals.length nImplResults)

theorem implOutArgVals_eq_map (m : StaticFunctionMetadata CppType) (nImplResults : Nat) :
    m.implOutArgVals nImplResults = (m.implOutArgRefs nImplResults).map CppType.removeRefOrPtr := by
  simp [implOutArgVals, implOutArgRefs, implOutVals, List.map_take]

end StaticFunctionMetadata

section Types

variable {F : List τ} {m : StaticFunctionMetadata τ} {nArgs nResults : Nat}

/-- For a metadata that keeps the signature invariant, the `static_assert`, the
merge along `impl_arg_modes_t` and one serialized value per output type leave
only output tags after the function's arguments: the arguments take every input
and exactly the outputs of `impl_out_arg_refs_t`. -/
theorem SignatureInvariant.implArgModes_counts (hinv : SignatureInvariant F m)
    (hassert : m.implInVals.length + m.implOutRefs.length = nArgs + nResults)
    (hmerge : (mergedIoTupleType m.implInVals (m.implOutArgRefs nResults)
      (m.implArgModes nArgs)).isSome)
    (harity : (m.implOutArgRefs nResults).length + nResults = m.implOutRefs.length) :
    (∀ mode ∈ m.argModes.drop nArgs, mode = .output) ∧
      (m.implArgModes nArgs).count .input = m.implInVals.length ∧
      (m.implArgModes nArgs).count .output = (m.implOutArgRefs nResults).length := by
  obtain ⟨io, hio, -⟩ := Option.map_eq_some'.mp hinv.merged
  obtain ⟨-, -, hcount⟩ := mergedIoTupleType_count_le hio
  obtain ⟨r, hr⟩ := Option.isSome_iff_exists.mp hmerge
  obtain ⟨-, hle, -⟩ := mergedIoTupleType_count_le hr
  unfold StaticFunctionMetadata.implArgModes at hle ⊢
  have hsplitIn := congrArg (List.count ArgMode.input) (List.take_append_drop nArgs m.argModes)
  have hsplitOut := congrArg (List.count ArgMode.output) (List.take_append_drop nArgs m.argModes)
  rw [List.count_append, hinv.inputCount] at hsplitIn
  rw [List.count_append, hinv.outputCount, ← harity] at hsplitOut
  have hlength : m.argModes.length = nArgs + nResults := by
    rw [← hcount, hinv.inputCount, hinv.outputCount, hassert]
  have hdrop : (m.argModes.drop nArgs).length = nResults := by
    rw [List.length_drop, hlength, Nat.add_sub_cancel_left]
  -- the tail after the arguments has one tag per return value, all of them outputs
  have hall : (m.argModes.drop nArgs).count .output = nResults :=
    Nat.le_antisymm (hdrop ▸ List.count_le_length _ _) <| Nat.le_of_add_le_add_left <|
      show (m.argModes.take nArgs).count .output + nResults ≤ _ from
        hsplitOut ▸ Nat.add_le_add_right hle _
  have houtputs : ∀ mode ∈ m.argModes.drop nArgs, mode = .output := fun mode hmode =>
    (List.count_eq_length.mp (hall.trans hdrop.symm) mode hmode).symm
  have hnoInput : (m.argModes.drop nArgs).count .input = 0 :=
    List.count_eq_zero.mpr fun hmem => by cases houtputs _ hmem
  rw [hnoInput, Nat.add_zero] at hsplitIn
  rw [hall] at hsplitOut
  exact ⟨houtputs, hsplitIn, Nat.add_right_cancel hsplitOut⟩

/-- The types of `decoder_finished` line up exactly when the return values are
tagged as outputs. For a function whose `NImplArgs` arguments and `NImplResults`
return values a metadata describes completely, the `static_assert` holds, the
merge of `impl_in_vals_t` with `impl_out_arg_refs_t` along `impl_arg_modes_t`
compiles and gives the argument types `F.take NImplArgs` of `impl_arg_refs_t`,
and the tuple `decoder_finished` serializes has one value per output type, if
and only if the arguments and return values together are `F` and every tag
after the arguments is an output tag. -/
theorem decoderFinished_types_iff (F : List τ) (functionName : List Char)
    (items : List MetadataPrototype) (nArgs nResults : Nat)
    (hfit : (items.map MetadataPrototype.params).sum ≤ F.length)
    (hfree : ((makeFunctionMetadata F functionName).withItems items).freeArgs = [])
    (hsize : F.length < 2 ^ 64) :
    let m := (makeFunctionMetadata F functionName).withItems items
    (m.implInVals.length + m.implOutRefs.length = nArgs + nResults ∧
        mergedIoTupleType m.implInVals (m.implOutArgRefs nResults) (m.implArgModes nArgs) =
          some (F.take nArgs) ∧
        (m.implOutArgRefs nResults).length + nResults = m.implOutRefs.length) ↔
      nArgs + nResults = F.length ∧ ∀ mode ∈ m.argModes.drop nArgs, mode = .output := by
  intro m
  have hinv : SignatureInvariant F m :=
    (signatureInvariant_makeFunctionMetadata F functionName).withItems items hfit
  have hfree' : m.freeArgs = [] := hfree
  have hmerged : mergedIoTupleType m.implInVals m.implOutRefs m.argModes = some F := by
    simpa [StaticFunctionMetadata.implIoRefs, hfree'] using hinv.merged
  obtain ⟨-, -, hcount⟩ := mergedIoTupleType_count_le hmerged
  have hlength : m.argModes.length = F.length := (mergedIoTupleType_length hmerged).symm
  have hsig : m.implInVals.length + m.implOutRefs.length = F.length := by
    rw [← hlength, ← hcount, hinv.inputCount, hinv.outputCount]
  constructor
  · rintro ⟨hassert, hmerge, harity⟩
    obtain ⟨houtputs, -, -⟩ := hinv.implArgModes_counts hassert (by simp [hmerge]) harity
    exact ⟨hassert ▸ hsig, houtputs⟩
  · rintro ⟨hargs, houtputs⟩
    have hresults : F.length - nArgs = nResults :=
      Nat.sub_eq_of_eq_add (hargs.symm.trans (Nat.add_comm _ _))
    have htake := congrArg (List.count ArgMode.output) (List.take_append_drop nArgs m.argModes)
    rw [List.count_append, hinv.outputCount,
      List.count_eq_length.mpr fun mode hmode => (houtputs mode hmode).symm, List.length_drop,
      hlength, hresults] at htake
    have hle : nResults ≤ m.implOutRefs.length := htake ▸ Nat.le_add_left _ _
    have hO : m.implOutRefs.length ≤ F.length := by
      rw [← hinv.outputCount, ← hlength]
      exact List.count_le_length _ _
    have hcut : implOutArgCount m.implOutRefs.length nResults = m.implOutRefs.length - nResults :=
      implOutArgCount_of_le hle (Nat.lt_of_le_of_lt hO hsize)
    refine ⟨hsig.trans hargs.symm, ?_, ?_⟩
    · exact mergedIoTupleType_take hmerged (by rw [hcut]; exact Nat.le_sub_of_add_le htake.le)
    · rw [StaticFunctionMetadata.implOutArgRefs, List.length_take, hcut,
        Nat.min_eq_left (Nat.sub_le _ _), Nat.sub_add_cancel hle]

/-- `divmod`'s metadata: two inputs, then the remainder, then the quotient,
which the function returns. -/
theorem decoderFinished_types_iff_divmod :
    let F := [CppType.uint32, .uint32, .ref .uint32, .ref .uint32]
    let items := [MetadataPrototype.input ⟨"a".toList, 1⟩, .input ⟨"b".toList, 1⟩,
      .output ⟨"rem".toList, 1, false⟩, .output ⟨"quot".toList, 1, false⟩]
    let m := (makeFunctionMetadata F "divmod".toList).withItems items
    ((items.map MetadataPrototype.params).sum ≤ F.length ∧ m.freeArgs = [] ∧ F.length < 2 ^ 64) ∧
      ((m.implInVals.length + m.implOutRefs.length = 3 + 1 ∧
          mergedIoTupleType m.implInVals (m.implOutArgRefs 1) (m.implArgModes 3) =
            some (F.take 3) ∧
          (m.implOutArgRefs 1).length + 1 = m.implOutRefs.length) ↔
        3 + 1 = F.length ∧ ∀ mode ∈ m.argModes.drop 3, mode = .output) :=
  ⟨⟨by decide, by decide, by decide⟩,
    decoderFinished_types_iff _ _ _ 3 1 (by decide) (by decide) (by decide)⟩

end Types

/-! ## The native function and the endpoint -/

/-- An argument of the native call: an input value passed on from `in_vals`,
or a reference (or pointer) to the element of `out_arg_vals` at an index. -/
inductive CallArg (ι : Type)
  | value (v : ι)
  | slot (index : Nat)
  deriving DecidableEq, Repr

/-- The exported function `TFunc`: its argument types `args_of_t<TFunc>`, its
result types `as_tuple_t<result_of_t<TFunc>>`, and a call. Given its arguments
and the values of the elements its references point to, a call gives the values
it leaves in those elements and the tuple it returns. C++ types the call: it
leaves every element with a value of the element's type, and returns values of
its result types. -/
structure NativeFunction (ι : Type) where
  argTypes : List CppType
  resultTypes : List CppType
  call : List (CallArg ι) → List Value → List Value × List Value
  call_slots : ∀ args slots, (call args slots).1.map Value.type = slots.map Value.type
  call_results : ∀ args slots,
    (call args slots).2.map Value.type = resultTypes.map CppType.valueType

/-- `LocalFunctionEndpoint<TFunc, TMetadata>`: the members `func_` and
`metadata_`, the chains the class names, and what it needs to compile. -/
structure LocalFunctionEndpoint (ι : Type) where
  func : NativeFunction ι
  metadata : StaticFunctionMetadata CppType
  /-- `static_assert(NImplInputs + NImplOutputs == NImplArgs + NImplResults)`. -/
  ioCount : metadata.implInVals.length + metadata.implOutVals.length =
    func.argTypes.length + func.resultTypes.length
  /-- `impl_arg_refs_t in_and_out_refs = merge_to_io_tuple<impl_in_vals_t,
  impl_out_arg_refs_t>(..., impl_arg_modes_t{})`. -/
  mergedArgRefs : mergedIoTupleType metadata.implInVals
    (metadata.implOutArgRefs func.resultTypes.length) (metadata.implArgModes func.argTypes.length) =
      metadata.implArgRefs func.argTypes.length
  /-- `std::apply(func_, in_and_out_refs)`: `impl_arg_refs_t` is the function's
  argument list. -/
  implArgRefs_eq : metadata.implArgRefs func.argTypes.length = some func.argTypes
  /-- `stream_chain`, which is `TMetadata::TInputDecoders`. -/
  decoders : List Decoder
  inputDecoders_eq : metadata.inputDecoders = some decoders
  /-- `TMetadata::TOutputEncoders`. -/
  encoders : List Encoder
  outputEncoders_eq : metadata.outputEncoders = some encoders
  /-- `TOutputEncoders::serialize(output, std::tuple_cat(out_arg_vals, out_ret_vals))`. -/
  serializeArgs : (metadata.implOutArgVals func.resultTypes.length ++ func.resultTypes).map
    CppType.valueType = EncoderChain.valueTupleT encoders

namespace LocalFunctionEndpoint

variable (e : LocalFunctionEndpoint ι)

/-- `impl_out_arg_vals_t out_arg_vals;`: every element value-initialized. -/
def outArgVals : List Value :=
  (e.metadata.implOutArgVals e.func.resultTypes.length).map CppType.valueInit

/-- `add_ref_or_ptr_to_tuple<impl_out_arg_refs_t>::convert(out_arg_vals)`: a
reference to every element of `out_arg_vals`, in order. -/
def outArgRefs : List (CallArg ι) :=
  (List.range e.outArgVals.length).map CallArg.slot

/-- `std::tuple_cat(out_arg_vals, out_ret_vals)` after the call with `args`:
what the call leaves in `out_arg_vals`, followed by what it returns. -/
def callOutputs (args : List (CallArg ι)) : List Value :=
  let result := e.func.call args e.outArgVals
  result.1 ++ result.2

/-- `decoder_finished`, given the values `stream_chain::get_inputs` reads from the
finished decoders. It is `none` only when they are fewer than the input tags of
the function's arguments, which their type `impl_in_vals_t` rules out. -/
def decoderFinished (inVals : List ι) (output : StreamSink) : Option (List (List UInt8)) := do
  let inAndOutRefs ← mergeToIoTuple (inVals.map CallArg.value) e.outArgRefs
    (e.metadata.implArgModes e.func.argTypes.length)
  pure (EncoderChain.serialize output e.encoders (e.callOutputs inAndOutRefs) [])

/-- `open_connection`: the decoder chain `set_stream<stream_chain>()` installs on
the incoming connection. -/
def openConnection : List Decoder :=
  e.decoders

/-- `get_hash`, which the source leaves as a TODO. -/
def getHash : UInt16 :=
  0

/-- `get_as_json(output, length)`: the metadata's descriptor through `output`
and its `sstring` size through `length`, each only when the pointer is not null,
and `true`. -/
def getAsJson (typeName : CppType → List Char) (output length : Bool) :
    Bool × Option (List Char) × Option Nat :=
  (true, if output then some (e.metadata.json (codecName typeName)) else none,
    if length then some (FunctionJSONAssembler.getJsonSize (codecName typeName) e.metadata) else none)

/-- What `get_as_json` hands out, read back, names the function and, for each
input in order, its name and the name of the decoder `open_connection` installs
for it; the size it reports is the length of the text it points to. -/
theorem getAsJson_describes_openConnection (typeName : CppType → List Char)
    (e : LocalFunctionEndpoint ι) (hquote : e.metadata.namesQuoteFree (codecName typeName)) :
    ∃ json, e.getAsJson typeName true true = (true, some json, some json.length) ∧
      readDescriptor json = some (e.metadata.functionName,
        (e.metadata.inputMetadata.zip e.openConnection).map fun p => (p.1.name, p.2.name typeName)) := by
  refine ⟨e.metadata.json (codecName typeName), ?_, ?_⟩
  · simp only [getAsJson, if_true, FunctionJSONAssembler.getJsonSize_eq_length]
    rfl
  · have hzip := congrArg (List.map fun q : InputMetadata CppType × Option Decoder =>
      (q.1.name, (q.2.map (Decoder.name typeName)).getD []))
      (StaticFunctionMetadata.zip_inputDecoders e.inputDecoders_eq)
    simp only [List.map_map, Function.comp_def, Option.map_some', Option.getD_some] at hzip
    rw [readDescriptor_json _ _ hquote, openConnection, hzip]
    rfl

/-! ### What the fields say -/

@[simp] theorem length_outArgVals :
    e.outArgVals.length = (e.metadata.implOutArgRefs e.func.resultTypes.length).length := by
  simp [outArgVals, StaticFunctionMetadata.implOutArgVals_eq_map]

/-- The tuple `decoder_finished` serializes has one value per output type. -/
theorem serialize_arity :
    (e.metadata.implOutArgRefs e.func.resultTypes.length).length + e.func.resultTypes.length =
      e.metadata.implOutRefs.length := by
  have h := congrArg List.length e.serializeArgs
  rw [StaticFunctionMetadata.valueTupleT_of_outputEncoders e.outputEncoders_eq] at h
  simpa [StaticFunctionMetadata.implOutArgVals_eq_map, StaticFunctionMetadata.implOutVals] using h

variable {e}

/-- The function's arguments take every input and a reference to every element
of `out_arg_vals`, and every tag after them is an output tag. -/
theorem implArgModes_counts {F : List CppType} (hinv : SignatureInvariant F e.metadata) :
    (∀ mode ∈ e.metadata.argModes.drop e.func.argTypes.length, mode = .output) ∧
      (e.metadata.implArgModes e.func.argTypes.length).count .input =
        e.metadata.implInVals.length ∧
      (e.metadata.implArgModes e.func.argTypes.length).count .output = e.outArgVals.length := by
  rw [length_outArgVals]
  refine hinv.implArgModes_counts ?_ ?_ e.serialize_arity
  · simpa [StaticFunctionMetadata.implOutVals] using e.ioCount
  · rw [e.mergedArgRefs, e.implArgRefs_eq]
    rfl

/-- A position tagged `mode` has fewer tags `mode` before it than the list has. -/
theorem count_take_lt_count {modes : List ArgMode} {j : Nat} {mode : ArgMode}
    (h : modes[j]? = some mode) : (modes.take j).count mode < modes.count mode := by
  obtain ⟨hj, rfl⟩ := List.getElem?_eq_some_iff.mp h
  have hsplit := congrArg (List.count modes[j]) (List.take_append_drop j modes)
  rw [List.count_append, List.drop_eq_getElem_cons hj, List.count_cons_self] at hsplit
  omega

/-! ### The call -/

/-- `decoder_finished` calls the function once, with its arguments in signature
order: at a position tagged as an input, the decoded value of the input with as
many input tags before it; at a position tagged as an output, a reference to the
element of `out_arg_vals` with as many output tags before it. Every decoded value
and every element of `out_arg_vals` is passed once, in order. On any sink,
`decoder_finished` then serializes what the call leaves in `out_arg_vals`,
followed by what it returns. -/
theorem decoderFinished_calls_in_signature_order {F : List CppType} (e : LocalFunctionEndpoint ι)
    (hinv : SignatureInvariant F e.metadata) (inVals : List ι)
    (hin : inVals.length = e.metadata.implInVals.length) :
    let modes := e.metadata.implArgModes e.func.argTypes.length
    ∃ args : List (CallArg ι), args.length = e.func.argTypes.length ∧
      (∀ j, modes[j]? = some ArgMode.input →
        args[j]? = inVals[(modes.take j).count .input]?.map CallArg.value) ∧
      (∀ j, modes[j]? = some ArgMode.output →
        args[j]? = some (CallArg.slot ((modes.take j).count .output))) ∧
      selectByMode .input args modes = inVals.map CallArg.value ∧
      selectByMode .output args modes = e.outArgRefs ∧
      ∀ output, e.decoderFinished inVals output =
        some (EncoderChain.serialize output e.encoders (e.callOutputs args) []) := by
  intro modes
  obtain ⟨-, hinCount, houtCount⟩ := implArgModes_counts hinv
  have htypes : mergedIoTupleType e.metadata.implInVals
      (e.metadata.implOutArgRefs e.func.resultTypes.length) modes = some e.func.argTypes := by
    rw [e.mergedArgRefs, e.implArgRefs_eq]
  have hsome : (mergedIoTupleType (inVals.map CallArg.value) e.outArgRefs modes).isSome :=
    mergedIoTupleType_isSome_of_length (by rw [htypes]; rfl) (by simp [hin]) (by simp [outArgRefs])
  obtain ⟨args, hargs⟩ := Option.isSome_iff_exists.mp hsome
  obtain ⟨hselIn, hselOut⟩ := mergedIoTupleType_selectByMode hargs
  have houtRefs : e.outArgRefs.length = e.outArgVals.length := by simp [outArgRefs]
  refine ⟨args, ?_, fun j hj => ?_, fun j hj => ?_, ?_, ?_, fun output => ?_⟩
  · rw [mergedIoTupleType_length hargs, ← mergedIoTupleType_length htypes]
  · simpa using mergedIoTupleType_getElem? hargs (by decide) hj
  · have hlt : (modes.take j).count .output <
        (e.metadata.implOutArgRefs e.func.resultTypes.length).length := by
      rw [← length_outArgVals, ← houtCount]
      exact count_take_lt_count hj
    simpa [outArgRefs, List.getElem?_range hlt] using
      mergedIoTupleType_getElem? hargs (by decide) hj
  · rw [hselIn, hinCount, ← hin, ← List.length_map inVals CallArg.value, List.take_length]
  · rw [hselOut, houtCount, ← houtRefs, List.take_length]
  · simp only [decoderFinished, mergeToIoTuple, hargs]
    rfl

/-! ### What is serialized -/

/-- `uint32_t divmod(uint32_t a, uint32_t b, uint32_t& rem)` as a call sees its
two inputs: their quotient and remainder. -/
def divmodOf : List (CallArg UInt32) → UInt32 × UInt32
  | .value a :: .value b :: _ => (a / b, a % b)
  | _ => (0, 0)

/-- `uint32_t divmod(uint32_t a, uint32_t b, uint32_t& rem)`, which leaves the
remainder in `rem` and returns the quotient. -/
def divmodFunction : NativeFunction UInt32 where
  argTypes := [.uint32, .uint32, .ref .uint32]
  resultTypes := [.uint32]
  call args slots :=
    (slots.map fun v => match v with
      | .uint32 _ => .uint32 (divmodOf args).2
      | v => v, [.uint32 (divmodOf args).1])
  call_slots args slots := by
    simp only [List.map_map]
    congr 1
    funext v
    cases v <;> rfl
  call_results _ _ := rfl

/-- `divmod` exported with the metadata
`make_function_metadata<std::tuple<uint32_t, uint32_t, uint32_t&, uint32_t&>>("divmod")
.with_items(a, b, rem, quot)`. -/
def divmodEndpoint : LocalFunctionEndpoint UInt32 where
  func := divmodFunction
  metadata := (makeFunctionMetadata [.uint32, .uint32, .ref .uint32, .ref .uint32]
    "divmod".toList).withItems [.input ⟨"a".toList, 1⟩, .input ⟨"b".toList, 1⟩,
      .output ⟨"rem".toList, 1, false⟩, .output ⟨"quot".toList, 1, false⟩]
  ioCount := by decide
  mergedArgRefs := by decide
  implArgRefs_eq := by decide
  decoders := [.uint32, .uint32]
  inputDecoders_eq := by decide
  encoders := [.uint32, .uint32]
  outputEncoders_eq := by decide
  serializeArgs := by decide

/-- `divmod` called on `7` and `2`. -/
theorem decoderFinished_calls_in_signature_order_divmod :
    SignatureInvariant [.uint32, .uint32, .ref .uint32, .ref .uint32] divmodEndpoint.metadata ∧
      [(7 : UInt32), 2].length = divmodEndpoint.metadata.implInVals.length ∧
      let modes := divmodEndpoint.metadata.implArgModes divmodEndpoint.func.argTypes.length
      ∃ args : List (CallArg UInt32), args.length = divmodEndpoint.func.argTypes.length ∧
        (∀ j, modes[j]? = some ArgMode.input →
          args[j]? = [(7 : UInt32), 2][(modes.take j).count .input]?.map CallArg.value) ∧
        (∀ j, modes[j]? = some ArgMode.output →
          args[j]? = some (CallArg.slot ((modes.take j).count .output))) ∧
        selectByMode .input args modes = [(7 : UInt32), 2].map CallArg.value ∧
        selectByMode .output args modes = divmodEndpoint.outArgRefs ∧
        ∀ output, divmodEndpoint.decoderFinished [7, 2] output =
          some (EncoderChain.serialize output divmodEndpoint.encoders
            (divmodEndpoint.callOutputs args) []) :=
  have hinv : SignatureInvariant [.uint32, .uint32, .ref .uint32, .ref .uint32]
      divmodEndpoint.metadata :=
    (signatureInvariant_makeFunctionMetadata _ _).withItems _ (by decide)
  ⟨hinv, by decide, decoderFinished_calls_in_signature_order divmodEndpoint hinv [7, 2] (by decide)⟩

/-- `divmod`'s descriptor, with no object type to name. -/
theorem getAsJson_describes_openConnection_divmod :
    divmodEndpoint.metadata.namesQuoteFree (codecName fun _ => []) ∧
      ∃ json, divmodEndpoint.getAsJson (fun _ => []) true true = (true, some json, some json.length) ∧
        readDescriptor json = some (divmodEndpoint.metadata.functionName,
          (divmodEndpoint.metadata.inputMetadata.zip divmodEndpoint.openConnection).map
            fun p => (p.1.name, p.2.name fun _ => [])) :=
  have hquote : divmodEndpoint.metadata.namesQuoteFree (codecName fun _ => []) := by decide
  ⟨hquote, getAsJson_describes_openConnection _ divmodEndpoint hquote⟩

end LocalFunctionEndpoint

end Fibre.LocalFunction
