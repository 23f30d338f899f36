import Fibre.LocalFunction.Metadata

/-!
# The JSON descriptor of an exported function

`FunctionJSONAssembler` builds, at compile time, the descriptor a remote node
reads to learn a function's name and inputs. Its pieces are fixed-size
`sstring<N>` values whose sizes are computed in the types (`22 + ...`,
`19 + ...`); the strings are character lists here and the type-level sizes
are separate functions, shown to be the lengths of the strings they type.

Each input's codec name is `Decoder<TArgs...>::name` for the argument types
the input took. It is a parameter `decoderName`: the source defines it as
`"uint32"` for `uint32_t` and through `type_name_provider`, whose header is not
part of this repository, for object pointers.
-/

namespace Fibre.LocalFunction

variable {τ : Type}

/-- Modelled from the spec: `join_sstring(sep, items...)` (its header is not part
of this repository), the items separated by `sep`. -/
def joinSstring (sep : List Char) : List (List Char) → List Char
  | [] => []
  | [item] => item
  | item :: items => item ++ sep ++ joinSstring sep items

/-- Modelled from the spec: `join_sstring_t<ISepLength, ISizes...>::size()`, the
length of the joined string. -/
def joinSstringSize (sepLength : Nat) (sizes : List Nat) : Nat :=
  sizes.sum + sepLength * (sizes.length - 1)

theorem length_joinSstring (sep : List Char) (items : List (List Char)) :
    (joinSstring sep items).length = joinSstringSize sep.length (items.map List.length) := by
  induction items with
  | nil => rfl
  | cons item items ih =>
    cases items with
    | nil => simp [joinSstring, joinSstringSize]
    | cons next items =>
      simp only [joinSstring, List.length_append, ih, joinSstringSize, List.map_cons,
        List.sum_cons, List.length_cons]
      simp only [Nat.add_sub_cancel, Nat.mul_add, Nat.mul_one]
      omega

theorem joinSstring_cons_cons_append (sep item next : List Char) (items : List (List Char))
    (u : List Char) :
    joinSstring sep (item :: next :: items) ++ u =
      item ++ (sep ++ (joinSstring sep (next :: items) ++ u)) := by
  simp only [joinSstring, List.append_assoc]

namespace FunctionJSONAssembler

variable (decoderName : List τ → List Char)

/-- `get_input_json<I>`: `{"name":"<name>","codec":"<Decoder<TArgs...>::name>"}`. -/
def getInputJson (item : InputMetadata τ) : List Char :=
  "\x7b\"name\":\"".toList ++ item.name ++ "\",\"codec\":\"".toList ++
    decoderName item.tupleType ++ "\"\x7d".toList

/-- `get_input_json_t<I>::size()`. -/
def getInputJsonSize (item : InputMetadata τ) : Nat :=
  22 + item.name.length + (decoderName item.tupleType).length

/-- `get_all_inputs_json`: the inputs' snippets joined by commas. -/
def getAllInputsJson (m : StaticFunctionMetadata τ) : List Char :=
  joinSstring [','] (m.inputMetadata.map (getInputJson decoderName))

/-- `get_as_json`: `{"name":"<function name>","in":[<inputs>]}`. -/
def getAsJson (m : StaticFunctionMetadata τ) : List Char :=
  "\x7b\"name\":\"".toList ++ m.functionName ++ "\",\"in\":[".toList ++
    getAllInputsJson decoderName m ++ "]\x7d".toList

/-- `get_json_t::size()`. -/
def getJsonSize (m : StaticFunctionMetadata τ) : Nat :=
  19 + m.functionName.length + joinSstringSize 1 (m.inputMetadata.map (getInputJsonSize decoderName))

/-- The type-level sizes are the lengths of the strings they type. -/
theorem getJsonSize_eq_length (m : StaticFunctionMetadata τ) :
    getJsonSize decoderName m = (getAsJson decoderName m).length := by
  have hitem : List.length ∘ getInputJson decoderName = getInputJsonSize decoderName := by
    funext item
    simp [getInputJson, getInputJsonSize]
    omega
  simp only [getJsonSize, getAsJson, getAllInputsJson, List.length_append, length_joinSstring,
    List.map_map, hitem]
  simp
  omega

end FunctionJSONAssembler

/-- `StaticFunctionMetadata::json`, initialised once with
`JSONAssembler::get_as_json(*this)`. -/
def StaticFunctionMetadata.json (decoderName : List τ → List Char) (m : StaticFunctionMetadata τ) :
    List Char :=
  FunctionJSONAssembler.getAsJson decoderName m

/-! ## The descriptor of a metadata built by `with_items` -/

/-- The input prototypes among `items`, in order, each with its name and the
argument types it takes from `free`: the prototypes share `free` out in
consecutive slices of their sizes. -/
def inputsTaken (items : List MetadataPrototype) (free : List τ) : List (List Char × List τ) :=
  (items.zip (consecutiveSlices (items.map MetadataPrototype.params) free)).filterMap fun
    | (.input item, args) => some (item.name, args)
    | (.output _, _) => none

@[simp] theorem inputsTaken_nil (free : List τ) : inputsTaken [] free = [] := rfl

@[simp] theorem inputsTaken_input (item : InputMetadataPrototype) (items : List MetadataPrototype)
    (free : List τ) :
    inputsTaken (.input item :: items) free =
      (item.name, free.take item.inParams) :: inputsTaken items (free.drop item.inParams) := rfl

@[simp] theorem inputsTaken_output (item : OutputMetadataPrototype) (items : List MetadataPrototype)
    (free : List τ) :
    inputsTaken (.output item :: items) free = inputsTaken items (free.drop item.outParams) := rfl

/-- The spec's example: `move_to` with inputs `x` and `y`, both `uint32`. -/
example :
    ((makeFunctionMetadata [(), ()] "move_to".toList).withItems
        [.input ⟨['x'], 1⟩, .input ⟨['y'], 1⟩]).json (fun _ => "uint32".toList) =
      ("\x7b\"name\":\"move_to\",\"in\":[\x7b\"name\":\"x\",\"codec\":\"uint32\"\x7d," ++
        "\x7b\"name\":\"y\",\"codec\":\"uint32\"\x7d]\x7d").toList := by
  decide

end Fibre.LocalFunction
