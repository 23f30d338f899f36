import Mathlib.Algebra.Order.Ring.Nat
import Mathlib.Data.List.Basic

/-!
# Static metadata of an exported function

`make_function_metadata<F>(name)` starts with every argument type of `F` still
free. Each prototype passed to `with_items` takes the next `k` free types and
records them as one input or one output slot, appending `k` mode tags. The C++
side does all of this in types; here the same bookkeeping is a record of lists,
and C++ types are an arbitrary type `τ`.

The central fact is the signature invariant: at every stage, interleaving the
recorded input types with the recorded output types along the tags and then
appending what is still free gives back `F`. Once nothing is free, the tag
sequence therefore reconstructs the native argument order. The helpers
`tuple_take_t`, `tuple_skip_t`, `repeat_t` and `tuple_cat_t` live in a header
that is not part of this repository; they are `List.take`, `List.drop`,
`List.replicate` and `++` here.
-/

namespace Fibre.LocalFunction

/-- The tag types `arg_mode_input`, `arg_mode_output` and `arg_mode_return_value`. -/
inductive ArgMode
  | input
  | output
  | returnValue
  deriving DecidableEq, Repr

/-- `InputMetadataPrototype<INameLength, IInParams>`: a name and how many free
arguments the input consumes. -/
structure InputMetadataPrototype where
  name : List Char
  inParams : Nat
  deriving Repr

/-- `OutputMetadataPrototype<INameLength, IOutParams, BDiscard>`. -/
structure OutputMetadataPrototype where
  name : List Char
  outParams : Nat
  discard : Bool
  deriving Repr

/-- One item of the parameter pack of `with_items`. -/
inductive MetadataPrototype
  | input (item : InputMetadataPrototype)
  | output (item : OutputMetadataPrototype)
  deriving Repr

/-- How many free arguments a prototype consumes. -/
def MetadataPrototype.params : MetadataPrototype → Nat
  | .input item => item.inParams
  | .output item => item.outParams

@[simp] theorem MetadataPrototype.params_input (item : InputMetadataPrototype) :
    (MetadataPrototype.input item).params = item.inParams := rfl

@[simp] theorem MetadataPrototype.params_output (item : OutputMetadataPrototype) :
    (MetadataPrototype.output item).params = item.outParams := rfl

variable {τ α : Type}

/-- `InputMetadata<INameLength, std::tuple<TArgs...>>`; `tupleType` is `TArgs`. -/
structure InputMetadata (τ : Type) where
  name : List Char
  tupleType : List τ

/-- `OutputMetadata<INameLength, std::tuple<TArgs...>, BDiscard>`. -/
structure OutputMetadata (τ : Type) where
  name : List Char
  tupleType : List τ
  discard : Bool

/-- `StaticFunctionMetadata<TFuncName, TInputMetadata, TOutputMetadata, TFreeArgs,
TArgModes>`, with the template arguments as fields. -/
structure StaticFunctionMetadata (τ : Type) where
  functionName : List Char
  inputMetadata : List (InputMetadata τ)
  outputMetadata : List (OutputMetadata τ)
  freeArgs : List τ
  argModes : List ArgMode

/-- `merged_io_tuple_type<TInputs, TOutputs, TArgModes>`: walk the tags, taking
the next input for `arg_mode_input` and the next output for `arg_mode_output`.
`none` is a tag list for which no specialisation matches, which does not
compile. The same recursion is `merge_to_io_tuple` on values. -/
def mergedIoTupleType : List α → List α → List ArgMode → Option (List α)
  | _, _, [] => some []
  | i :: ins, outs, .input :: modes => (mergedIoTupleType ins outs modes).map (i :: ·)
  | ins, o :: outs, .output :: modes => (mergedIoTupleType ins outs modes).map (o :: ·)
  | _, _, _ :: _ => none

section MergedIoTupleType

variable (ins outs : List α) (modes : List ArgMode)

@[simp] theorem mergedIoTupleType_nil : mergedIoTupleType ins outs [] = some [] := by
  simp [mergedIoTupleType]

@[simp] theorem mergedIoTupleType_input_cons (i : α) :
    mergedIoTupleType (i :: ins) outs (.input :: modes) =
      (mergedIoTupleType ins outs modes).map (i :: ·) := by
  simp [mergedIoTupleType]

@[simp] theorem mergedIoTupleType_input_nil :
    mergedIoTupleType [] outs (.input :: modes) = none := by
  simp [mergedIoTupleType]

@[simp] theorem mergedIoTupleType_output_cons (o : α) :
    mergedIoTupleType ins (o :: outs) (.output :: modes) =
      (mergedIoTupleType ins outs modes).map (o :: ·) := by
  simp [mergedIoTupleType]

@[simp] theorem mergedIoTupleType_output_nil :
    mergedIoTupleType ins [] (.output :: modes) = none := by
  simp [mergedIoTupleType]

@[simp] theorem mergedIoTupleType_returnValue :
    mergedIoTupleType ins outs (.returnValue :: modes) = none := by
  simp [mergedIoTupleType]

end MergedIoTupleType

namespace StaticFunctionMetadata

/-- `impl_in_vals_t`: the argument types of all inputs, in order. -/
def implInVals (m : StaticFunctionMetadata τ) : List τ :=
  (m.inputMetadata.map InputMetadata.tupleType).flatten

/-- `impl_out_refs_t`: the argument types of all outputs, in order. -/
def implOutRefs (m : StaticFunctionMetadata τ) : List τ :=
  (m.outputMetadata.map OutputMetadata.tupleType).flatten

/-- `impl_io_refs_t`. -/
def implIoRefs (m : StaticFunctionMetadata τ) : Option (List τ) :=
  mergedIoTupleType m.implInVals m.implOutRefs m.argModes

/-- `with_item`, for an input and for an output prototype. -/
def withItem (m : StaticFunctionMetadata τ) : MetadataPrototype → StaticFunctionMetadata τ
  | .input item =>
    { m with
      inputMetadata := m.inputMetadata ++ [⟨item.name, m.freeArgs.take item.inParams⟩]
      freeArgs := m.freeArgs.drop item.inParams
      argModes := m.argModes ++ List.replicate item.inParams .input }
  | .output item =>
    { m with
      outputMetadata :=
        m.outputMetadata ++ [⟨item.name, m.freeArgs.take item.outParams, item.discard⟩]
      freeArgs := m.freeArgs.drop item.outParams
      argModes := m.argModes ++ List.replicate item.outParams .output }

/-- `with_items(items...)`: `with_item` on the first item, then the rest. -/
def withItems (m : StaticFunctionMetadata τ) : List MetadataPrototype → StaticFunctionMetadata τ
  | [] => m
  | item :: items => (m.withItem item).withItems items

@[simp] theorem withItems_nil (m : StaticFunctionMetadata τ) : m.withItems [] = m := rfl

@[simp] theorem withItems_cons (m : StaticFunctionMetadata τ) (item : MetadataPrototype)
    (items : List MetadataPrototype) :
    m.withItems (item :: items) = (m.withItem item).withItems items := rfl

@[simp] theorem withItem_functionName (m : StaticFunctionMetadata τ) (item : MetadataPrototype) :
    (m.withItem item).functionName = m.functionName := by
  cases item <;> rfl

@[simp] theorem withItem_freeArgs (m : StaticFunctionMetadata τ) (item : MetadataPrototype) :
    (m.withItem item).freeArgs = m.freeArgs.drop item.params := by
  cases item <;> rfl

@[simp] theorem withItems_functionName (m : StaticFunctionMetadata τ)
    (items : List MetadataPrototype) :
    (m.withItems items).functionName = m.functionName := by
  induction items generalizing m with
  | nil => rfl
  | cons item items ih => simp [ih]

end StaticFunctionMetadata

/-- `make_function_metadata<TFreeArgs>(function_name)`. -/
def makeFunctionMetadata (freeArgs : List τ) (functionName : List Char) :
    StaticFunctionMetadata τ :=
  ⟨functionName, [], [], freeArgs, []⟩

/-- Consecutive slices of `xs` of the given sizes, in order: how `with_items`
hands out the free arguments, and how `EncoderChain` hands out its values. -/
def consecutiveSlices : List Nat → List α → List (List α)
  | [], _ => []
  | k :: ks, xs => xs.take k :: consecutiveSlices ks (xs.drop k)

@[simp] theorem consecutiveSlices_nil (xs : List α) : consecutiveSlices [] xs = [] := rfl

/-- Merging consumes exactly as many inputs and outputs as there are tags of
each kind, so it distributes over appending tag lists. -/
theorem mergedIoTupleType_append {ins outs : List α} {modes : List ArgMode}
    (hin : modes.count .input = ins.length) (hout : modes.count .output = outs.length)
    (ins' outs' : List α) (modes' : List ArgMode) :
    mergedIoTupleType (ins ++ ins') (outs ++ outs') (modes ++ modes') =
      (mergedIoTupleType ins outs modes).bind
        fun io => (mergedIoTupleType ins' outs' modes').map (io ++ ·) := by
  induction modes generalizing ins outs with
  | nil =>
    obtain rfl : ins = [] := List.eq_nil_of_length_eq_zero (by simpa using hin.symm)
    obtain rfl : outs = [] := List.eq_nil_of_length_eq_zero (by simpa using hout.symm)
    simp
  | cons mode modes ih =>
    cases mode with
    | input =>
      cases ins with
      | nil => simp at hin
      | cons i ins =>
        simp only [List.count_cons_self, List.length_cons, Nat.add_right_cancel_iff] at hin
        simp only [List.cons_append, mergedIoTupleType_input_cons,
          @ih ins outs hin (by simpa using hout)]
        cases mergedIoTupleType ins outs modes <;> simp [Option.map_map, Function.comp_def]
    | output =>
      cases outs with
      | nil => simp at hout
      | cons o outs =>
        simp only [List.count_cons_self, List.length_cons, Nat.add_right_cancel_iff] at hout
        simp only [List.cons_append, mergedIoTupleType_output_cons,
          @ih ins outs (by simpa using hin) hout]
        cases mergedIoTupleType ins outs modes <;> simp [Option.map_map, Function.comp_def]
    | returnValue => simp

/-- A block of `k` input tags takes the next `k` inputs verbatim. -/
theorem mergedIoTupleType_replicate_input (ins outs : List α) :
    mergedIoTupleType ins outs (List.replicate ins.length .input) = some ins := by
  induction ins with
  | nil => simp
  | cons i ins ih => simp [List.replicate_succ, ih]

/-- A block of `k` output tags takes the next `k` outputs verbatim. -/
theorem mergedIoTupleType_replicate_output (ins outs : List α) :
    mergedIoTupleType ins outs (List.replicate outs.length .output) = some outs := by
  induction outs with
  | nil => simp
  | cons o outs ih => simp [List.replicate_succ, ih]

namespace StaticFunctionMetadata

variable (m : StaticFunctionMetadata τ)

@[simp] theorem implInVals_withItem_input (item : InputMetadataPrototype) :
    (m.withItem (.input item)).implInVals = m.implInVals ++ m.freeArgs.take item.inParams := by
  simp [withItem, implInVals]

@[simp] theorem implOutRefs_withItem_input (item : InputMetadataPrototype) :
    (m.withItem (.input item)).implOutRefs = m.implOutRefs := rfl

@[simp] theorem argModes_withItem_input (item : InputMetadataPrototype) :
    (m.withItem (.input item)).argModes = m.argModes ++ List.replicate item.inParams .input := rfl

@[simp] theorem implInVals_withItem_output (item : OutputMetadataPrototype) :
    (m.withItem (.output item)).implInVals = m.implInVals := rfl

@[simp] theorem implOutRefs_withItem_output (item : OutputMetadataPrototype) :
    (m.withItem (.output item)).implOutRefs = m.implOutRefs ++ m.freeArgs.take item.outParams := by
  simp [withItem, implOutRefs]

@[simp] theorem argModes_withItem_output (item : OutputMetadataPrototype) :
    (m.withItem (.output item)).argModes = m.argModes ++ List.replicate item.outParams .output :=
  rfl

end StaticFunctionMetadata

/-! ## The signature invariant -/

section Invariant

variable (F : List τ)

/-- The signature invariant of a metadata built for the argument list `F`: the
inputs and outputs interleaved along the tags, followed by the still-free
arguments, are `F`; and there is one tag per decoded and per encoded value. -/
structure SignatureInvariant (m : StaticFunctionMetadata τ) : Prop where
  merged : m.implIoRefs.map (· ++ m.freeArgs) = some F
  inputCount : m.argModes.count .input = m.implInVals.length
  outputCount : m.argModes.count .output = m.implOutRefs.length

/-- A fresh metadata has recorded nothing, and everything is free. -/
theorem signatureInvariant_makeFunctionMetadata (functionName : List Char) :
    SignatureInvariant F (makeFunctionMetadata F functionName) where
  merged := by simp [makeFunctionMetadata, StaticFunctionMetadata.implIoRefs]
  inputCount := rfl
  outputCount := rfl

variable {F}

/-- One `with_item` step keeps the invariant, as long as the prototype takes no
more arguments than are still free. -/
theorem SignatureInvariant.withItem {m : StaticFunctionMetadata τ} (h : SignatureInvariant F m)
    (item : MetadataPrototype) (hfit : item.params ≤ m.freeArgs.length) :
    SignatureInvariant F (m.withItem item) := by
  obtain ⟨io, hio, hF⟩ := Option.map_eq_some'.mp h.merged
  rw [StaticFunctionMetadata.implIoRefs] at hio
  cases item with
  | input item =>
    have hk : (m.freeArgs.take item.inParams).length = item.inParams :=
      List.length_take_of_le hfit
    have hblock := mergedIoTupleType_replicate_input (m.freeArgs.take item.inParams) ([] : List τ)
    rw [hk] at hblock
    refine ⟨?_, by simp [List.count_replicate, h.inputCount, hk],
      by simp [List.count_replicate, h.outputCount]⟩
    rw [StaticFunctionMetadata.implIoRefs, StaticFunctionMetadata.implOutRefs_withItem_input,
      StaticFunctionMetadata.implInVals_withItem_input, StaticFunctionMetadata.argModes_withItem_input,
      ← List.append_nil m.implOutRefs, mergedIoTupleType_append h.inputCount h.outputCount]
    simp [hio, hblock, ← hF]
  | output item =>
    have hk : (m.freeArgs.take item.outParams).length = item.outParams :=
      List.length_take_of_le hfit
    have hblock := mergedIoTupleType_replicate_output ([] : List τ) (m.freeArgs.take item.outParams)
    rw [hk] at hblock
    refine ⟨?_, by simp [List.count_replicate, h.inputCount],
      by simp [List.count_replicate, h.outputCount, hk]⟩
    rw [StaticFunctionMetadata.implIoRefs, StaticFunctionMetadata.implOutRefs_withItem_output,
      StaticFunctionMetadata.implInVals_withItem_output,
      StaticFunctionMetadata.argModes_withItem_output,
      ← List.append_nil m.implInVals, mergedIoTupleType_append h.inputCount h.outputCount]
    simp [hio, hblock, ← hF]

/-- A whole `with_items` run keeps the invariant, as long as the prototypes
together take no more arguments than are free. -/
theorem SignatureInvariant.withItems {m : StaticFunctionMetadata τ} (h : SignatureInvariant F m)
    (items : List MetadataPrototype) (hfit : (items.map MetadataPrototype.params).sum ≤ m.freeArgs.length) :
    SignatureInvariant F (m.withItems items) := by
  induction items generalizing m with
  | nil => exact h
  | cons item items ih =>
    simp only [List.map_cons, List.sum_cons] at hfit
    exact ih (h.withItem item (by omega)) (by simp; omega)

/-- Whatever the interleaving and the arities of the prototypes, the metadata
`with_items` builds from `make_function_metadata<F>` keeps the signature
invariant, and once no argument is free its tags interleave inputs and outputs
back into `F` exactly. -/
theorem makeFunctionMetadata_withItems_signatureInvariant (F : List τ) (functionName : List Char)
    (items : List MetadataPrototype)
    (hfit : (items.map MetadataPrototype.params).sum ≤ F.length) :
    SignatureInvariant F ((makeFunctionMetadata F functionName).withItems items) ∧
      (((makeFunctionMetadata F functionName).withItems items).freeArgs = [] →
        ((makeFunctionMetadata F functionName).withItems items).implIoRefs = some F) := by
  have h := (signatureInvariant_makeFunctionMetadata F functionName).withItems items hfit
  refine ⟨h, fun hfree => ?_⟩
  simpa [hfree] using h.merged

/-- An output, an input and an output over three free arguments: they take all
three, and the tags give the signature back. -/
theorem makeFunctionMetadata_withItems_signatureInvariant_interleaved :
    let items := [MetadataPrototype.output ⟨['r'], 1, false⟩, .input ⟨['x'], 1⟩,
      .output ⟨['y'], 1, true⟩]
    let m := (makeFunctionMetadata [0, 1, 2] ['f']).withItems items
    (items.map MetadataPrototype.params).sum ≤ [0, 1, 2].length ∧
      SignatureInvariant [0, 1, 2] m ∧ m.freeArgs = [] ∧ m.implIoRefs = some [0, 1, 2] :=
  have h := makeFunctionMetadata_withItems_signatureInvariant [0, 1, 2] ['f']
    [.output ⟨['r'], 1, false⟩, .input ⟨['x'], 1⟩, .output ⟨['y'], 1, true⟩] (by decide)
  ⟨by decide, h.1, by decide, h.2 (by decide)⟩

end Invariant

end Fibre.LocalFunction
