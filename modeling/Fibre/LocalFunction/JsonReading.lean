import Fibre.LocalFunction.Json

/-!
# Reading the descriptor back

`get_input_json` and `get_as_json` write every name between double quotes and
escape nothing. The node that receives a descriptor has to split it at those
quotes; the reader below does so, taking each name up to the next double quote.
On the descriptor of a function whose name and whose inputs' names and codec
names hold no double quote, it returns that name and those inputs in order, so
two such functions with one descriptor have the same name and the same inputs.
A name that holds a double quote can pass for the end of one input and the start
of the next.
-/

namespace Fibre.LocalFunction

variable {τ : Type} (decoderName : List τ → List Char)

/-- The double quote the descriptor writes around every name. -/
def doubleQuote : Char := '\x22'

/-- What the descriptor says of an input: its name and its codec's name. -/
def InputMetadata.descriptor (input : InputMetadata τ) : List Char × List Char :=
  (input.name, decoderName input.tupleType)

/-- What the descriptor says of each input, in order. -/
def StaticFunctionMetadata.inputDescriptors (m : StaticFunctionMetadata τ) :
    List (List Char × List Char) :=
  m.inputMetadata.map (InputMetadata.descriptor decoderName)

/-- Neither the input's name nor its codec's name holds a double quote. -/
def InputMetadata.namesQuoteFree (input : InputMetadata τ) : Prop :=
  doubleQuote ∉ input.name ∧ doubleQuote ∉ decoderName input.tupleType

instance (input : InputMetadata τ) : Decidable (input.namesQuoteFree decoderName) :=
  inferInstanceAs
    (Decidable (doubleQuote ∉ input.name ∧ doubleQuote ∉ decoderName input.tupleType))

/-- No name the descriptor quotes holds a double quote: not the function's name,
and not an input's name or codec name. -/
def StaticFunctionMetadata.namesQuoteFree (m : StaticFunctionMetadata τ) : Prop :=
  doubleQuote ∉ m.functionName ∧ ∀ input ∈ m.inputMetadata, input.namesQuoteFree decoderName

instance (m : StaticFunctionMetadata τ) : Decidable (m.namesQuoteFree decoderName) :=
  inferInstanceAs (Decidable (doubleQuote ∉ m.functionName ∧
    ∀ input ∈ m.inputMetadata, input.namesQuoteFree decoderName))

/-! ## The reader -/

/-- What follows `lit`, if the text starts with it. -/
def readLiteral : List Char → List Char → Option (List Char)
  | [], cs => some cs
  | _ :: _, [] => none
  | l :: lit, c :: cs => if l = c then readLiteral lit cs else none

/-- The text up to the first double quote, and what follows that quote. -/
def readQuoted : List Char → Option (List Char × List Char)
  | [] => none
  | c :: cs =>
    if c = doubleQuote then some ([], cs)
    else (readQuoted cs).map fun read => (c :: read.1, read.2)

/-- One input's text: its name and codec name, and what follows the text. -/
def readInput (cs : List Char) : Option ((List Char × List Char) × List Char) := do
  let cs ← readLiteral "\x7b\"name\":\"".toList cs
  let (name, cs) ← readQuoted cs
  let cs ← readLiteral ",\"codec\":\"".toList cs
  let (codec, cs) ← readQuoted cs
  let cs ← readLiteral "\x7d".toList cs
  pure ((name, codec), cs)

/-- Inputs separated by commas up to the closing bracket, reading at most `fuel`
of them, and what follows the bracket. -/
def readInputs : Nat → List Char → Option (List (List Char × List Char) × List Char)
  | 0, _ => none
  | fuel + 1, cs => do
    let (input, cs) ← readInput cs
    match cs with
    | ',' :: cs =>
      let (inputs, cs) ← readInputs fuel cs
      pure (input :: inputs, cs)
    | ']' :: cs => pure ([input], cs)
    | _ => none

/-- The bracketed input list: empty, or as many inputs as the text can hold. -/
def readInputList : List Char → Option (List (List Char × List Char) × List Char)
  | ']' :: cs => some ([], cs)
  | cs => readInputs cs.length cs

/-- A descriptor's function name and inputs, if the text is one. -/
def readDescriptor (cs : List Char) : Option (List Char × List (List Char × List Char)) := do
  let cs ← readLiteral "\x7b\"name\":\"".toList cs
  let (name, cs) ← readQuoted cs
  let cs ← readLiteral ",\"in\":[".toList cs
  let (inputs, cs) ← readInputList cs
  if cs = "\x7d".toList then pure (name, inputs) else none

@[simp] theorem readLiteral_append (lit u : List Char) : readLiteral lit (lit ++ u) = some u := by
  induction lit with
  | nil => rfl
  | cons l lit ih => simp [readLiteral, ih]

theorem readQuoted_append {a : List Char} (u : List Char) (ha : doubleQuote ∉ a) :
    readQuoted (a ++ doubleQuote :: u) = some (a, u) := by
  induction a with
  | nil => simp [readQuoted]
  | cons c a ih =>
    have hc : c ≠ doubleQuote := fun h => ha (h ▸ List.mem_cons_self c a)
    simp [readQuoted, hc, ih (mt (List.mem_cons_of_mem c) ha)]

/-! ## Reading a descriptor the assembler wrote -/

namespace FunctionJSONAssembler

theorem readInput_getInputJson {input : InputMetadata τ} (u : List Char)
    (hq : input.namesQuoteFree decoderName) :
    readInput (getInputJson decoderName input ++ u) = some (input.descriptor decoderName, u) := by
  have hcodec : "\",\"codec\":\"".toList = doubleQuote :: ",\"codec\":\"".toList := rfl
  have hclose : "\"\x7d".toList = doubleQuote :: "\x7d".toList := rfl
  simp only [readInput, getInputJson, hcodec, hclose, List.append_assoc, List.cons_append,
    readLiteral_append, readQuoted_append _ hq.1, readQuoted_append _ hq.2, Option.bind_eq_bind,
    Option.some_bind]
  rfl

/-- Every input's text opens with a brace, and so does a list of them. -/
theorem joinSstring_getInputJson_append (input : InputMetadata τ)
    (inputs : List (InputMetadata τ)) (u : List Char) :
    ∃ w, joinSstring [','] ((input :: inputs).map (getInputJson decoderName)) ++ u =
      '\x7b' :: w := by
  cases inputs <;> exact ⟨_, rfl⟩

theorem readInputs_close (fuel : Nat) {input : InputMetadata τ} (u : List Char)
    (hq : input.namesQuoteFree decoderName) :
    readInputs (fuel + 1) (getInputJson decoderName input ++ ']' :: u) =
      some ([input.descriptor decoderName], u) := by
  rw [readInputs, readInput_getInputJson decoderName _ hq]
  rfl

theorem readInputs_comma (fuel : Nat) {input : InputMetadata τ} (rest : List Char)
    (hq : input.namesQuoteFree decoderName) :
    readInputs (fuel + 1) (getInputJson decoderName input ++ ',' :: rest) =
      (readInputs fuel rest).map fun read =>
        (input.descriptor decoderName :: read.1, read.2) := by
  rw [readInputs, readInput_getInputJson decoderName _ hq]
  show (readInputs fuel rest).bind _ = _
  cases readInputs fuel rest <;> rfl

/-- Inputs read back one after the other, the last one ending at the closing
bracket, as long as the fuel covers the text. -/
theorem readInputs_joinSstring (u : List Char) :
    ∀ (input : InputMetadata τ) (inputs : List (InputMetadata τ)) (fuel : Nat),
      (∀ x ∈ input :: inputs, x.namesQuoteFree decoderName) →
      (joinSstring [','] ((input :: inputs).map (getInputJson decoderName)) ++ ']' :: u).length ≤
        fuel →
      readInputs fuel
          (joinSstring [','] ((input :: inputs).map (getInputJson decoderName)) ++ ']' :: u) =
        some ((input :: inputs).map (InputMetadata.descriptor decoderName), u)
  | input, [], fuel + 1, hq, _ =>
    readInputs_close decoderName fuel u (hq input (List.mem_singleton_self _))
  | input, next :: inputs, fuel + 1, hq, hfuel => by
    have hjoin : joinSstring [','] ((input :: next :: inputs).map (getInputJson decoderName)) ++
        ']' :: u = getInputJson decoderName input ++ ',' ::
          (joinSstring [','] ((next :: inputs).map (getInputJson decoderName)) ++ ']' :: u) :=
      joinSstring_cons_cons_append _ _ _ _ _
    rw [hjoin] at hfuel ⊢
    have ih := readInputs_joinSstring u next inputs fuel
      (fun x hx => hq x (List.mem_cons_of_mem _ hx))
      (by simp only [List.length_append, List.length_cons] at hfuel ⊢; omega)
    rw [readInputs_comma decoderName fuel _ (hq input (List.mem_cons_self _ _)), ih]
    rfl
  | _, _, 0, _, hfuel => absurd hfuel (by simp)

theorem readInputList_joinSstring (u : List Char) (inputs : List (InputMetadata τ))
    (hq : ∀ x ∈ inputs, x.namesQuoteFree decoderName) :
    readInputList (joinSstring [','] (inputs.map (getInputJson decoderName)) ++ ']' :: u) =
      some (inputs.map (InputMetadata.descriptor decoderName), u) := by
  cases inputs with
  | nil => rfl
  | cons input inputs =>
    obtain ⟨w, hw⟩ := joinSstring_getInputJson_append decoderName input inputs (']' :: u)
    have hlist : readInputList ('\x7b' :: w) =
        readInputs ('\x7b' :: w).length ('\x7b' :: w) := rfl
    rw [hw, hlist, ← hw]
    exact readInputs_joinSstring decoderName u input inputs _ hq le_rfl

end FunctionJSONAssembler

open FunctionJSONAssembler in
/-- The reader returns the function's name and its inputs from the descriptor of
a function whose names hold no double quote. -/
theorem readDescriptor_json (m : StaticFunctionMetadata τ)
    (hm : m.namesQuoteFree decoderName) :
    readDescriptor (m.json decoderName) =
      some (m.functionName, m.inputDescriptors decoderName) := by
  have hin : "\",\"in\":[".toList = doubleQuote :: ",\"in\":[".toList := rfl
  have hclose : "]\x7d".toList = ']' :: "\x7d".toList := rfl
  simp only [readDescriptor, StaticFunctionMetadata.json, getAsJson, getAllInputsJson, hin, hclose,
    List.append_assoc, List.cons_append, readLiteral_append, readQuoted_append _ hm.1,
    readInputList_joinSstring decoderName _ _ hm.2, Option.bind_eq_bind, Option.some_bind]
  rfl

/-- The descriptor is uniquely decodable: two functions built by `with_items`, with
no double quote in a name, that have one descriptor have the same name and the same
inputs, in the same order, with the same codecs. -/
theorem withItems_json_injective (F F' : List τ) (fn fn' : List Char)
    (items items' : List MetadataPrototype) :
    let M := (makeFunctionMetadata F fn).withItems items
    let M' := (makeFunctionMetadata F' fn').withItems items'
    M.namesQuoteFree decoderName → M'.namesQuoteFree decoderName →
      M.json decoderName = M'.json decoderName →
        fn = fn' ∧ M.inputDescriptors decoderName = M'.inputDescriptors decoderName := by
  intro M M' hM hM' hjson
  have hread := readDescriptor_json decoderName M hM
  rw [hjson, readDescriptor_json decoderName M' hM'] at hread
  obtain ⟨hname, hinputs⟩ := Prod.mk.inj (Option.some.inj hread)
  simp only [M, M', StaticFunctionMetadata.withItems_functionName] at hname
  exact ⟨hname.symm, hinputs.symm⟩

/-- An output between two inputs leaves the descriptor as it is without it. -/
theorem withItems_json_injective_output_between :
    let d : List Unit → List Char := fun _ => "uint32".toList
    let M := (makeFunctionMetadata [(), (), ()] "move_to".toList).withItems
      [.input ⟨['x'], 1⟩, .output ⟨['r'], 1, false⟩, .input ⟨['y'], 1⟩]
    let M' := (makeFunctionMetadata [(), ()] "move_to".toList).withItems
      [.input ⟨['x'], 1⟩, .input ⟨['y'], 1⟩]
    (M.namesQuoteFree d ∧ M'.namesQuoteFree d ∧ M.json d = M'.json d) ∧
      ("move_to".toList = "move_to".toList ∧ M.inputDescriptors d = M'.inputDescriptors d) := by
  intro d M M'
  have h : M.namesQuoteFree d ∧ M'.namesQuoteFree d ∧ M.json d = M'.json d := by decide
  exact ⟨h, withItems_json_injective d _ _ _ _ _ _ h.1 h.2.1 h.2.2⟩

end Fibre.LocalFunction
