import Fibre.LocalFunction.Metadata

/-!
# Merging decoded inputs with output storage

`LocalFunctionEndpoint::decoder_finished` holds the decoded input values and
freshly allocated output storage as two separate tuples; `merge_to_io_tuple`
interleaves them along the tags into the argument tuple of the native call.
It recurses over the tags exactly as its return type `merged_io_tuple_t`, so
the model is that recursion applied to values. The results here say what the
merge is for: position by position, an input tag takes the next unused input
and an output tag the next unused output, and nothing is dropped or reordered.
-/

namespace Fibre.LocalFunction

variable {α β : Type}

/-- `merge_to_io_tuple(in_refs, out_refs, arg_modes)`. -/
def mergeToIoTuple (inRefs outRefs : List α) (argModes : List ArgMode) : Option (List α) :=
  mergedIoTupleType inRefs outRefs argModes

/-- The elements of `r` at the positions whose tag is `mode`, in order. -/
def selectByMode (mode : ArgMode) (r : List α) (modes : List ArgMode) : List α :=
  ((r.zip modes).filter (·.2 == mode)).map Prod.fst

@[simp] theorem selectByMode_cons (mode m : ArgMode) (x : α) (r : List α) (modes : List ArgMode) :
    selectByMode mode (x :: r) (m :: modes) =
      if m = mode then x :: selectByMode mode r modes else selectByMode mode r modes := by
  by_cases h : m = mode <;> simp [selectByMode, List.filter_cons, h]

theorem mergedIoTupleType_length {ins outs r : List α} {modes : List ArgMode}
    (h : mergedIoTupleType ins outs modes = some r) : r.length = modes.length := by
  induction modes generalizing ins outs r with
  | nil => simp_all [eq_comm]
  | cons m modes ih =>
    cases m with
    | input =>
      cases ins with
      | nil => simp at h
      | cons i ins =>
        obtain ⟨r, hr, rfl⟩ := Option.map_eq_some'.mp (by simpa using h)
        simp [ih hr]
    | output =>
      cases outs with
      | nil => simp at h
      | cons o outs =>
        obtain ⟨r, hr, rfl⟩ := Option.map_eq_some'.mp (by simpa using h)
        simp [ih hr]
    | returnValue => simp at h

/-- With one tag per input and per output and no return-value tag, the merge
succeeds. -/
theorem mergedIoTupleType_isSome {ins outs : List α} {modes : List ArgMode}
    (hmodes : ∀ m ∈ modes, m ≠ .returnValue)
    (hin : ins.length = modes.count .input) (hout : outs.length = modes.count .output) :
    (mergedIoTupleType ins outs modes).isSome := by
  induction modes generalizing ins outs with
  | nil => simp
  | cons m modes ih =>
    have hrest : ∀ m ∈ modes, m ≠ .returnValue := fun m hm => hmodes m (by simp [hm])
    cases m with
    | input =>
      cases ins with
      | nil => simp at hin
      | cons i ins => simpa using ih hrest (by simpa using hin) (by simpa using hout)
    | output =>
      cases outs with
      | nil => simp at hout
      | cons o outs => simpa using ih hrest (by simpa using hin) (by simpa using hout)
    | returnValue => simp at hmodes

/-- At a position tagged `mode`, the merge holds the element of that mode's
source whose index is the number of earlier tags of the same mode. -/
theorem mergedIoTupleType_getElem? {ins outs r : List α} {modes : List ArgMode}
    (h : mergedIoTupleType ins outs modes = some r) {i : Nat} {mode : ArgMode}
    (hmode : mode ≠ .returnValue) (hi : modes[i]? = some mode) :
    r[i]? = (if mode = .input then ins else outs)[(modes.take i).count mode]? := by
  induction modes generalizing ins outs r i with
  | nil => simp at hi
  | cons m modes ih =>
    cases m with
    | input =>
      cases ins with
      | nil => simp at h
      | cons x ins =>
        rw [mergedIoTupleType_input_cons, Option.map_eq_some'] at h
        obtain ⟨r, hr, rfl⟩ := h
        cases i with
        | zero =>
          obtain rfl : ArgMode.input = mode := Option.some.inj (List.getElem?_cons_zero ▸ hi)
          simp
        | succ i =>
          have ih := ih hr (List.getElem?_cons_succ ▸ hi)
          cases mode with
          | returnValue => exact absurd rfl hmode
          | _ => simpa [List.count_cons] using ih
    | output =>
      cases outs with
      | nil => simp at h
      | cons x outs =>
        rw [mergedIoTupleType_output_cons, Option.map_eq_some'] at h
        obtain ⟨r, hr, rfl⟩ := h
        cases i with
        | zero =>
          obtain rfl : ArgMode.output = mode := Option.some.inj (List.getElem?_cons_zero ▸ hi)
          simp
        | succ i =>
          have ih := ih hr (List.getElem?_cons_succ ▸ hi)
          cases mode with
          | returnValue => exact absurd rfl hmode
          | _ => simpa [List.count_cons] using ih
    | returnValue => simp at h

/-- Reading the merge back by tags gives the inputs and the outputs it used,
in their original order. -/
theorem mergedIoTupleType_selectByMode {ins outs r : List α} {modes : List ArgMode}
    (h : mergedIoTupleType ins outs modes = some r) :
    selectByMode .input r modes = ins.take (modes.count .input) ∧
      selectByMode .output r modes = outs.take (modes.count .output) := by
  induction modes generalizing ins outs r with
  | nil => obtain rfl : r = [] := by simpa [eq_comm] using h
           simp [selectByMode]
  | cons m modes ih =>
    cases m with
    | input =>
      cases ins with
      | nil => simp at h
      | cons x ins =>
        obtain ⟨r, hr, rfl⟩ := Option.map_eq_some'.mp (by simpa using h)
        simpa using ih hr
    | output =>
      cases outs with
      | nil => simp at h
      | cons x outs =>
        obtain ⟨r, hr, rfl⟩ := Option.map_eq_some'.mp (by simpa using h)
        simpa using ih hr
    | returnValue => simp at h

/-- A merge that succeeds uses no more inputs and outputs than it is given, and
its tags are inputs and outputs only. -/
theorem mergedIoTupleType_count_le {ins outs r : List α} {modes : List ArgMode}
    (h : mergedIoTupleType ins outs modes = some r) :
    modes.count .input ≤ ins.length ∧ modes.count .output ≤ outs.length ∧
      modes.count .input + modes.count .output = modes.length := by
  induction modes generalizing ins outs r with
  | nil => simp
  | cons m modes ih =>
    cases m with
    | input =>
      cases ins with
      | nil => simp at h
      | cons x ins =>
        rw [mergedIoTupleType_input_cons, Option.map_eq_some'] at h
        obtain ⟨r, hr, rfl⟩ := h
        have := ih hr
        simp only [List.count_cons_self, List.length_cons, List.count_cons, reduceCtorEq,
          beq_iff_eq, if_false, Nat.add_zero]
        omega
    | output =>
      cases outs with
      | nil => simp at h
      | cons o outs =>
        rw [mergedIoTupleType_output_cons, Option.map_eq_some'] at h
        obtain ⟨r, hr, rfl⟩ := h
        have := ih hr
        simp only [List.count_cons_self, List.length_cons, List.count_cons, reduceCtorEq,
          beq_iff_eq, if_false, Nat.add_zero]
        omega
    | returnValue => simp at h

/-- Whether a merge succeeds depends only on how many inputs and outputs it is
given: the types merge exactly when values of those types do. -/
theorem mergedIoTupleType_isSome_of_length {ins outs : List α} {ins' outs' : List β}
    {modes : List ArgMode} (h : (mergedIoTupleType ins outs modes).isSome)
    (hin : ins'.length = ins.length) (hout : outs'.length = outs.length) :
    (mergedIoTupleType ins' outs' modes).isSome := by
  induction modes generalizing ins outs ins' outs' with
  | nil => simp
  | cons m modes ih =>
    cases m with
    | input =>
      match ins, ins', hin with
      | [], _, _ => simp at h
      | _ :: _, _ :: _, hin =>
        simp only [mergedIoTupleType_input_cons, Option.isSome_map'] at h ⊢
        exact ih h (Nat.succ.inj hin) hout
    | output =>
      match outs, outs', hout with
      | [], _, _ => simp at h
      | _ :: _, _ :: _, hout =>
        simp only [mergedIoTupleType_output_cons, Option.isSome_map'] at h ⊢
        exact ih h hin (Nat.succ.inj hout)
    | returnValue => simp at h

/-- Merging along a prefix of the tags needs only as many outputs as the
prefix has output tags, and gives the same prefix of the merge. -/
theorem mergedIoTupleType_take {ins outs r : List α} {modes : List ArgMode}
    (h : mergedIoTupleType ins outs modes = some r) {n k : Nat}
    (hk : (modes.take n).count .output ≤ k) :
    mergedIoTupleType ins (outs.take k) (modes.take n) = some (r.take n) := by
  induction modes generalizing ins outs r n k with
  | nil => obtain rfl : r = [] := by simpa [eq_comm] using h
           simp
  | cons m modes ih =>
    cases n with
    | zero => simp
    | succ n =>
      cases m with
      | input =>
        cases ins with
        | nil => simp at h
        | cons x ins =>
          rw [mergedIoTupleType_input_cons, Option.map_eq_some'] at h
          obtain ⟨r, hr, rfl⟩ := h
          rw [List.take_succ_cons, List.count_cons] at hk
          rw [List.take_succ_cons, List.take_succ_cons, mergedIoTupleType_input_cons,
            ih hr (by simpa using hk)]
          rfl
      | output =>
        cases outs with
        | nil => simp at h
        | cons o outs =>
          rw [mergedIoTupleType_output_cons, Option.map_eq_some'] at h
          obtain ⟨r, hr, rfl⟩ := h
          rw [List.take_succ_cons, List.count_cons_self] at hk
          cases k with
          | zero => omega
          | succ k =>
            rw [List.take_succ_cons, List.take_succ_cons, List.take_succ_cons,
              mergedIoTupleType_output_cons, ih hr (by omega)]
            rfl
      | returnValue => simp at h

/-- `merge_to_io_tuple` walks the tags once: an input tag takes the next unused
input and an output tag the next unused output, so the result has one element
per tag, and every input and every output is used once, in order. -/
theorem mergeToIoTuple_interleaves (I O : List α) (M : List ArgMode)
    (hM : ∀ m ∈ M, m ≠ .returnValue)
    (hI : I.length = M.count .input) (hO : O.length = M.count .output) :
    ∃ r, mergeToIoTuple I O M = some r ∧ r.length = M.length ∧
      (∀ i, M[i]? = some .input → r[i]? = I[(M.take i).count .input]?) ∧
      (∀ i, M[i]? = some .output → r[i]? = O[(M.take i).count .output]?) ∧
      selectByMode .input r M = I ∧ selectByMode .output r M = O := by
  obtain ⟨r, hr⟩ := Option.isSome_iff_exists.mp (mergedIoTupleType_isSome hM hI hO)
  obtain ⟨hsel, hsel'⟩ := mergedIoTupleType_selectByMode hr
  refine ⟨r, hr, mergedIoTupleType_length hr, fun i hi => ?_, fun i hi => ?_, ?_, ?_⟩
  · simpa using mergedIoTupleType_getElem? hr (by decide) hi
  · simpa using mergedIoTupleType_getElem? hr (by decide) hi
  · rw [hsel, ← hI, List.take_length]
  · rw [hsel', ← hO, List.take_length]

/-- An output between two inputs. -/
theorem mergeToIoTuple_interleaves_output_between_inputs :
    (∀ m ∈ [ArgMode.input, .output, .input], m ≠ .returnValue) ∧
      [10, 20].length = [ArgMode.input, .output, .input].count .input ∧
      [30].length = [ArgMode.input, .output, .input].count .output ∧
      ∃ r, mergeToIoTuple [10, 20] [30] [.input, .output, .input] = some r ∧
        r.length = [ArgMode.input, .output, .input].length ∧
        (∀ i, [ArgMode.input, .output, .input][i]? = some .input →
          r[i]? = [10, 20][([ArgMode.input, .output, .input].take i).count .input]?) ∧
        (∀ i, [ArgMode.input, .output, .input][i]? = some .output →
          r[i]? = [30][([ArgMode.input, .output, .input].take i).count .output]?) ∧
        selectByMode .input r [.input, .output, .input] = [10, 20] ∧
        selectByMode .output r [.input, .output, .input] = [30] :=
  ⟨by decide, by decide, by decide,
    mergeToIoTuple_interleaves [10, 20] [30] [.input, .output, .input] (by decide) (by decide)
      (by decide)⟩

end Fibre.LocalFunction
