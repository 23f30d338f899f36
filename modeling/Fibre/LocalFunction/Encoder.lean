import Fibre.LocalFunction.Metadata
import Mathlib.Data.List.OfFn

/-!
# Serializing outputs to a stream sink

An `EncoderChain` is built from the encoders of a function's outputs, in
declared order. Its `serialize` hands each encoder the next slice of the value
tuple and writes through `StreamSink::process_bytes`. The sink is outside this
repository: it is modelled by its answers, as any function of the buffers
offered so far, so a theorem over every `StreamSink` holds for every sink
behaviour (which write fails, and by how much).

The serialization is a run over the chain that accumulates the list of
buffers offered. `serialize` returns nothing; a failing sink changes only
what a string encoder does next within its own element.
-/

namespace Fibre.LocalFunction

/-- `StreamSink::status_t`: the encoders only ever compare it with `StreamSink::OK`. -/
inductive SinkStatus
  | ok
  | notOk
  deriving DecidableEq, Repr

/-- A `StreamSink` seen through `process_bytes`: given the buffers offered
before and the buffer offered now, the status it returns and the count it
stores in `processed_bytes`. -/
structure StreamSink where
  processBytes : List (List UInt8) → List UInt8 → SinkStatus × Nat

/-- `output->process_bytes(buffer, length, &processed_bytes)`: the sink's
answer, and the offers so far extended by `buffer`. -/
def StreamSink.offer (output : StreamSink) (offered : List (List UInt8)) (buffer : List UInt8) :
    (SinkStatus × Nat) × List (List UInt8) :=
  (output.processBytes offered buffer, offered ++ [buffer])

/-- A sink that takes every byte it is offered. -/
def StreamSink.acceptAll : StreamSink := ⟨fun _ buffer => (.ok, buffer.length)⟩

/-- The C++ types of the values an `EncoderChain` serializes, as far as the
encoders tell them apart. -/
inductive ValueType
  | uint32
  | constCharPtr
  | size
  | other (name : String)
  deriving DecidableEq, Repr

/-- Values of those types: a `const char *` is null or the bytes from its
address on; `size_t` is 64 bits wide; a value of another type carries nothing
an encoder reads. -/
inductive Value
  | uint32 (value : UInt32)
  | constCharPtr (str : Option (Nat → UInt8))
  | size (value : UInt64)
  | other (name : String)

/-- The C++ type of a value. -/
def Value.type : Value → ValueType
  | .uint32 _ => .uint32
  | .constCharPtr _ => .constCharPtr
  | .size _ => .size
  | .other name => .other name

/-- The encoders a chain is built from: `Encoder<uint32_t>`,
`Encoder<const char *, size_t>` and `VoidEncoder<Ts...>`, which discards. -/
inductive Encoder
  | uint32
  | constCharPtrSize
  | void (ts : List ValueType)
  deriving DecidableEq, Repr

/-- An encoder's template arguments `Ts...`. -/
def Encoder.ts : Encoder → List ValueType
  | .uint32 => [.uint32]
  | .constCharPtrSize => [.constCharPtr, .size]
  | .void ts => ts

/-- `EncoderChain<TEncoders...>::value_tuple_t`. -/
def EncoderChain.valueTupleT (encoders : List Encoder) : List ValueType :=
  (encoders.map Encoder.ts).flatten

/-- Modelled from the spec: `write_le<uint32_t>` (its header is not part of this
repository), the four little-endian bytes of a value. -/
def writeLe (value : UInt32) : List UInt8 :=
  [value.toUInt8, (value >>> 8).toUInt8, (value >>> 16).toUInt8, (value >>> 24).toUInt8]

/-- The `length` bytes at the address `str`. -/
def charPtrBytes (str : Nat → UInt8) (length : Nat) : List UInt8 :=
  List.ofFn fun i : Fin length => str i

@[simp] theorem length_writeLe (value : UInt32) : (writeLe value).length = 4 := rfl

@[simp] theorem length_charPtrBytes (str : Nat → UInt8) (length : Nat) :
    (charPtrBytes str length).length = length := by
  simp [charPtrBytes]

section Serialize

variable (output : StreamSink)

/-- `Encoder<uint32_t>::serialize`: one four-byte buffer, whose answer is not
read (`processed_bytes` is `nullptr`). -/
def serializeUInt32 (value : UInt32) (offered : List (List UInt8)) : List (List UInt8) :=
  (output.offer offered (writeLe value)).2

/-- `Encoder<const char *, size_t>::serialize`: the length prefix
`uint32_t i = str ? length : 0`, and the payload only if the sink took the
whole prefix with `OK`. -/
def serializeConstCharPtrSize (str : Option (Nat → UInt8)) (length : UInt64)
    (offered : List (List UInt8)) : List (List UInt8) :=
  let i : UInt32 := if str.isSome then length.toUInt32 else 0
  let prefixed := output.offer offered (writeLe i)
  if prefixed.1.1 ≠ .ok ∨ prefixed.1.2 ≠ 4 then prefixed.2
  else match str with
    | some str => (output.offer prefixed.2 (charPtrBytes str length.toNat)).2
    | none => prefixed.2

/-- `TEncoder<Ts...>::serialize` on the encoder's slice of the value tuple. A
slice of other types does not compile, and offers nothing here. -/
def Encoder.serialize : Encoder → List Value → List (List UInt8) → List (List UInt8)
  | .uint32, [.uint32 value], offered => serializeUInt32 output value offered
  | .constCharPtrSize, [.constCharPtr str, .size length], offered =>
    serializeConstCharPtrSize output str length offered
  | _, _, offered => offered

/-- `EncoderChain<TEncoders...>::serialize`: each encoder takes the next
`sizeof...(Ts)` values (`tuple_take`), the rest go on (`tuple_skip`). -/
def EncoderChain.serialize : List Encoder → List Value → List (List UInt8) → List (List UInt8)
  | [], _, offered => offered
  | encoder :: encoders, values, offered =>
    serialize encoders (values.drop encoder.ts.length)
      (encoder.serialize output (values.take encoder.ts.length) offered)

end Serialize

/-! ## What an encoder offers -/

/-- The buffers one encoder offers, given whether the sink took a string's
whole length prefix with `OK` (`true`) or not. -/
def Encoder.buffers : Encoder → List Value → Bool → List (List UInt8)
  | .uint32, [.uint32 value], _ => [writeLe value]
  | .constCharPtrSize, [.constCharPtr (some str), .size length], prefixTaken =>
    writeLe length.toUInt32 :: if prefixTaken then [charPtrBytes str length.toNat] else []
  | .constCharPtrSize, [.constCharPtr none, .size _], _ => [writeLe 0]
  | _, _, _ => []

/-- Outside the two shapes the encoders read, an encoder offers nothing. -/
private theorem Encoder.buffers_of_ne {e : Encoder} {vs : List Value}
    (huint : ∀ value, e = .uint32 → vs = [.uint32 value] → False)
    (hstring : ∀ str length, e = .constCharPtrSize → vs = [.constCharPtr str, .size length] → False)
    (prefixTaken : Bool) : e.buffers vs prefixTaken = [] := by
  unfold Encoder.buffers
  split
  · exact (huint _ rfl rfl).elim
  · exact (hstring _ _ rfl rfl).elim
  · exact (hstring _ _ rfl rfl).elim
  · rfl

/-- Whether the sink took a string's whole length prefix with `OK`, the buffers
before it being `offered`: what `Encoder<const char *, size_t>::serialize` reads
before it offers the payload. Only a non-null string's buffers depend on it. -/
def Encoder.prefixTaken (output : StreamSink) (offered : List (List UInt8)) :
    Encoder → List Value → Bool
  | .constCharPtrSize, [.constCharPtr (some _), .size length] =>
    decide (output.processBytes offered (writeLe length.toUInt32) = (.ok, 4))
  | _, _ => true

/-- One encoder step appends its buffers to what was offered before; the sink's
answer to a string's prefix decides whether the payload follows it. -/
theorem Encoder.serialize_eq_buffers (output : StreamSink) (e : Encoder) (vs : List Value)
    (offered : List (List UInt8)) :
    e.serialize output vs offered = offered ++ e.buffers vs (e.prefixTaken output offered vs) := by
  unfold Encoder.serialize
  split
  · rfl
  · rename_i str length
    cases str with
    | none => simp [serializeConstCharPtrSize, StreamSink.offer, Encoder.buffers]
    | some str =>
      rcases hanswer : output.processBytes offered (writeLe length.toUInt32) with ⟨status, processed⟩
      by_cases hstatus : status = .ok <;> by_cases hprocessed : processed = 4 <;>
        simp [serializeConstCharPtrSize, StreamSink.offer, Encoder.buffers, Encoder.prefixTaken,
          hanswer, hstatus, hprocessed]
  · rename_i huint hstring
    rw [Encoder.buffers_of_ne (fun v he hv => huint v he hv)
      (fun str length he hv => hstring str length he hv), List.append_nil]

/-- Each encoder of a chain with its own slice of the value tuple: consecutive
slices of the encoders' arities. -/
def EncoderChain.slices (encoders : List Encoder) (values : List Value) : List (Encoder × List Value) :=
  encoders.zip (consecutiveSlices (encoders.map fun e => e.ts.length) values)

@[simp] theorem EncoderChain.slices_nil (values : List Value) : EncoderChain.slices [] values = [] :=
  rfl

@[simp] theorem EncoderChain.slices_cons (e : Encoder) (encoders : List Encoder) (values : List Value) :
    EncoderChain.slices (e :: encoders) values =
      (e, values.take e.ts.length) :: EncoderChain.slices encoders (values.drop e.ts.length) :=
  rfl

/-- The buffers the elements of a chain offer, element by element, given for
each element whether the sink took its string's length prefix. -/
def EncoderChain.buffers (slices : List (Encoder × List Value)) (prefixTaken : List Bool) :
    List (List UInt8) :=
  ((slices.zip prefixTaken).map fun p => p.1.1.buffers p.1.2 p.2).flatten

@[simp] theorem EncoderChain.buffers_nil (prefixTaken : List Bool) :
    EncoderChain.buffers [] prefixTaken = [] := rfl

@[simp] theorem EncoderChain.buffers_cons (e : Encoder) (vs : List Value)
    (slices : List (Encoder × List Value)) (taken : Bool) (prefixTaken : List Bool) :
    EncoderChain.buffers ((e, vs) :: slices) (taken :: prefixTaken) =
      e.buffers vs taken ++ EncoderChain.buffers slices prefixTaken := rfl

/-- Whatever the sink answers, the chain offers every element's buffers, in
encoder order, and has no failure to report. What an answer changes is only
whether a non-null string's payload follows its own prefix: it does exactly
when the sink took that prefix, offered after everything before it, whole and
with `OK`. -/
theorem EncoderChain.serialize_offers_every_element (output : StreamSink) (encoders : List Encoder)
    (values : List Value) (offered : List (List UInt8)) :
    ∃ prefixTaken : List Bool, prefixTaken.length = encoders.length ∧
      EncoderChain.serialize output encoders values offered =
        offered ++ EncoderChain.buffers (EncoderChain.slices encoders values) prefixTaken ∧
      ∀ i str length, (EncoderChain.slices encoders values)[i]? =
          some (.constCharPtrSize, [.constCharPtr (some str), .size length]) →
        prefixTaken[i]? = some (decide (output.processBytes (offered ++
          EncoderChain.buffers ((EncoderChain.slices encoders values).take i) prefixTaken)
            (writeLe length.toUInt32) = (.ok, 4))) := by
  induction encoders generalizing values offered with
  | nil => exact ⟨[], rfl, by simp [EncoderChain.serialize], fun _ _ _ h => by simp at h⟩
  | cons e encoders ih =>
    let vs := values.take e.ts.length
    let taken := e.prefixTaken output offered vs
    obtain ⟨rest, hlength, hrest, hpinned⟩ :=
      ih (values.drop e.ts.length) (offered ++ e.buffers vs taken)
    refine ⟨taken :: rest, by simp [hlength], ?_, fun i str length hslice => ?_⟩
    · simp [EncoderChain.serialize, Encoder.serialize_eq_buffers, hrest, vs, taken]
    · cases i with
      | zero =>
        simp only [EncoderChain.slices_cons, List.getElem?_cons_zero, Option.some.injEq,
          Prod.mk.injEq] at hslice
        obtain ⟨rfl, hvs⟩ := hslice
        simp [taken, vs, hvs, Encoder.prefixTaken]
      | succ i =>
        rw [EncoderChain.slices_cons, List.getElem?_cons_succ] at hslice
        simp [hpinned i str length hslice, vs, taken]

/-- A failure at one element does not stop the next: the sink refuses the
string's length prefix, so its payload is skipped, and the `uint32` after it is
offered all the same. -/
theorem EncoderChain.serialize_offers_after_refused_prefix :
    (⟨fun _ _ => (.notOk, 0)⟩ : StreamSink).processBytes [] (writeLe 3) ≠ (.ok, 4) ∧
      EncoderChain.serialize ⟨fun _ _ => (.notOk, 0)⟩ [.constCharPtrSize, .uint32]
        [.constCharPtr (some fun _ => 65), .size 3, .uint32 7] [] = [writeLe 3, writeLe 7] := by
  decide

/-! ## The wire format -/

/-- A string of `2 ^ 32` bytes, the first length `size_t` holds that `uint32_t`
does not: the prefix `uint32_t i = length` reads zero, and all `2 ^ 32` bytes
follow it. -/
theorem serializeConstCharPtrSize_two_pow_32 :
    serializeConstCharPtrSize StreamSink.acceptAll (some fun _ => 0) 4294967296 [] =
        [[0, 0, 0, 0], charPtrBytes (fun _ => 0) (2 ^ 32)] ∧
      (charPtrBytes (fun _ => 0) (2 ^ 32)).length = 2 ^ 32 := by
  have hprefix : (4294967296 : UInt64).toUInt32 = 0 := by decide
  have hlength : (4294967296 : UInt64).toNat = 2 ^ 32 := by decide
  refine ⟨?_, by simp⟩
  simp only [serializeConstCharPtrSize, StreamSink.offer, StreamSink.acceptAll, Option.isSome_some,
    if_true, hprefix, length_writeLe, hlength, ne_eq, not_true_eq_false, or_self, if_false,
    List.nil_append, List.singleton_append]
  rfl

end Fibre.LocalFunction
