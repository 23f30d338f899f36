import Fibre.DBus.Traits

/-!
# Appending arguments: `DBusTypeTraits<T>::push` and `pack_message`

Each `push` makes libdbus calls on the message and returns `0` or `-1`. The
model threads libdbus's `AppendState` through the calls in the order the source
makes them, so every outcome libdbus may give to every call is one choice of
`Libdbus`.

The source checks the result of every call and of every nested push, except in
one place: the map push discards what `DBusTypeTraits<TKey>::push` and
`DBusTypeTraits<TVal>::push` return. A refused key or value therefore goes
unreported, and `pack_message` returns `0` for a message that lacks it
(`packMessage_map_value_refused`). For argument types that hold no map, the
status is exact: `0` precisely when libdbus completed every call made
(`ReportsCalls`, composed from one lemma per way a push continues).
-/

namespace Fibre.DBus

/-- `dbus_message_iter_append_basic(iter, type, &value) ? 0 : -1`. -/
def appendBasic (lib : Libdbus) (state : AppendState) (value : DBusBasic) : Int × AppendState :=
  let appended := lib.call state (.appendBasic value)
  (if appended.1 then 0 else -1, appended.2)

/-- `dbus_message_iter_close_container` at the end of a container push: `0`
when libdbus closed the container, `-1` otherwise. -/
def closeContainer (lib : Libdbus) (state : AppendState) : Int × AppendState :=
  let closed := lib.call state .closeContainer
  (if closed.1 then 0 else -1, closed.2)

mutual

/-- `DBusTypeTraits<T>::push(iter, val)`. A value can only be pushed with its
own type's traits; the model returns `-1` and makes no call for another. -/
def CType.push (lib : Libdbus) (t : CType) : CValue → AppendState → Int × AppendState
  | .integral bits, state =>
    match t with
    | .integral kind => appendBasic lib state (.integer kind bits)
    | _ => (-1, state)
  | .bool value, state =>
    match t with
    | .bool => appendBasic lib state (.boolean value)
    | _ => (-1, state)
  | .string value, state =>
    match t with
    | .string => appendBasic lib state (.string (cStr value))
    | _ => (-1, state)
  | .dbusObject value, state =>
    match t with
    | .dbusObject => appendBasic lib state (.objectPath (cStr value.objectName))
    | _ => (-1, state)
  | .vector elements, state =>
    match t with
    | .vector element =>
      let opened := lib.call state (.openContainer .array (some element.signature))
      if !opened.1 then (-1, opened.2) else
      let pushed := CType.pushElements lib element elements opened.2
      if pushed.1 ≠ 0 then (-1, pushed.2) else closeContainer lib pushed.2
    | _ => (-1, state)
  | .unorderedMap entries, state =>
    match t with
    | .unorderedMap key value =>
      let opened := lib.call state (.openContainer .array (some (CType.elementSignature key value)))
      if !opened.1 then (-1, opened.2) else
      let pushed := CType.pushEntries lib key value entries opened.2
      if pushed.1 ≠ 0 then (-1, pushed.2) else closeContainer lib pushed.2
    | _ => (-1, state)
  | .variant index value, state =>
    match t with
    | .variant alternatives =>
      let opened :=
        lib.call state (.openContainer .variant ((alternatives.get? index).map CType.signature))
      if !opened.1 then (-1, opened.2) else
      let pushed := match alternatives.get? index with
        | some alt => alt.push lib value opened.2
        | none => (-1, opened.2)
      let closed := lib.call pushed.2 .closeContainer
      (if closed.1 then pushed.1 else -1, closed.2)
    | _ => (-1, state)

/-- The loop of `DBusTypeTraits<std::vector<TElement>>::push` over the elements:
it stops at the first element whose push fails, leaving the array open. -/
def CType.pushElements (lib : Libdbus) (element : CType) :
    CValues → AppendState → Int × AppendState
  | .nil, state => (0, state)
  | .cons head tail, state =>
    let pushed := element.push lib head state
    if pushed.1 ≠ 0 then (-1, pushed.2) else CType.pushElements lib element tail pushed.2

/-- The loop of `DBusTypeTraits<std::unordered_map<TKey, TVal>>::push` over the
entries: each entry is a dict entry container holding the key and the value,
whose pushes' results are not looked at. -/
def CType.pushEntries (lib : Libdbus) (key value : CType) :
    CEntries → AppendState → Int × AppendState
  | .nil, state => (0, state)
  | .cons k v tail, state =>
    let opened := lib.call state (.openContainer .dictEntry none)
    if !opened.1 then (-1, opened.2) else
    let keyPushed := key.push lib k opened.2
    let valuePushed := value.push lib v keyPushed.2
    let closed := lib.call valuePushed.2 .closeContainer
    if !closed.1 then (-1, closed.2) else CType.pushEntries lib key value tail closed.2

end

/-- `pack_message(iter, args...)`: push the arguments in order, stopping at the
first push that fails. -/
def packMessage (lib : Libdbus) : List (CType × CValue) → AppendState → Int × AppendState
  | [], state => (0, state)
  | (t, v) :: args, state =>
    let pushed := t.push lib v state
    if pushed.1 ≠ 0 then (-1, pushed.2) else packMessage lib args pushed.2

/-- A map argument whose value libdbus refuses to append: `pack_message`
returns `0`, the refused call is on record, and the message holds a dict entry
with the key and no value. -/
theorem packMessage_map_value_refused :
    let lib : Libdbus := ⟨fun _ call => call != .appendBasic (.integer .uint32 1)⟩
    let packed := packMessage lib [(.unorderedMap .string (.integral .uint32),
      .unorderedMap (.cons (.string "k") (.integral 1) .nil))] .empty
    packed.1 = 0 ∧ (LibCall.appendBasic (.integer .uint32 1), false) ∈ packed.2.calls ∧
      packed.2.message = some ⟨[.array (CType.elementSignature .string (.integral .uint32))
        (.cons (.dictEntry (.cons (.basic (.string "k")) .nil)) .nil)], []⟩ := by
  decide

/-! ## Where a refused call is reported -/

/-- `result` reports the calls made since `before`: its state extends `before`
by some calls, and its status is `0` exactly when libdbus completed all of
them. -/
def ReportsCalls (before : AppendState) (result : Int × AppendState) : Prop :=
  ∃ calls, result.2.calls = before.calls ++ calls ∧ (result.1 = 0 ↔ ∀ call ∈ calls, call.2 = true)

namespace ReportsCalls

variable {lib : Libdbus} {before : AppendState} {result : Int × AppendState}

/-- No call made yet, and status `0`. -/
theorem nil (state : AppendState) : ReportsCalls state (0, state) := ⟨[], by simp, by simp⟩

/-- A report followed by one more call, whose refusal turns the status to `-1`. -/
theorem then_call (first : ReportsCalls before result) (lib : Libdbus) (call : LibCall) :
    ReportsCalls before
      (if (lib.call result.2 call).1 then result.1 else -1, (lib.call result.2 call).2) := by
  obtain ⟨calls, hcalls, hiff⟩ := first
  refine ⟨calls ++ [(call, (lib.call result.2 call).1)],
    by rw [Libdbus.call_calls, hcalls, List.append_assoc], ?_⟩
  simp only [List.forall_mem_append, List.forall_mem_singleton, ← hiff]
  cases (lib.call result.2 call).1 <;> simp

/-- A status of `0` followed by a report from the state it left. -/
theorem seq (first : ReportsCalls before result) (hzero : result.1 = 0) {next : Int × AppendState}
    (second : ReportsCalls result.2 next) : ReportsCalls before next := by
  obtain ⟨calls, hcalls, hiff⟩ := first
  obtain ⟨calls', hcalls', hiff'⟩ := second
  refine ⟨calls ++ calls', by rw [hcalls', hcalls, List.append_assoc], ?_⟩
  rw [hiff', List.forall_mem_append]
  exact ⟨fun h => ⟨hiff.mp hzero, h⟩, fun h => h.2⟩

/-- A failure reported as `-1`. -/
theorem fail (first : ReportsCalls before result) (hfail : result.1 ≠ 0) :
    ReportsCalls before (-1, result.2) := by
  obtain ⟨calls, hcalls, hiff⟩ := first
  exact ⟨calls, hcalls, fun h => absurd h (by simp), fun h => absurd (hiff.mpr h) hfail⟩

/-- A call libdbus refused, reported as `-1`. -/
theorem refused (call : LibCall) (h : (!(lib.call before call).1) = true) :
    ReportsCalls before (-1, (lib.call before call).2) := by
  have hrefused : (lib.call before call).1 = false := by simpa using h
  simpa [hrefused] using (nil before).then_call lib call

/-- A call libdbus completed, followed by a report from the state it left. -/
theorem completed (call : LibCall) (h : ¬(!(lib.call before call).1) = true)
    (next : ReportsCalls (lib.call before call).2 result) : ReportsCalls before result :=
  ((nil before).then_call lib call).seq (by simpa using h) next

end ReportsCalls

mutual

/-- A push of a type that holds no map returns `0` exactly when libdbus
completed every call it made. -/
theorem CType.push_reportsCalls (lib : Libdbus) : ∀ (t : CType) (v : CValue), t.admits v →
    t.mapFree → ∀ state : AppendState, ReportsCalls state (t.push lib v state)
  | t, .integral bits, htype, _, state => by
    obtain ⟨kind, rfl, -⟩ := CType.admits_integral htype
    exact (ReportsCalls.nil state).then_call lib (.appendBasic _)
  | t, .bool value, htype, _, state => by
    obtain rfl := CType.admits_bool htype
    exact (ReportsCalls.nil state).then_call lib (.appendBasic _)
  | t, .string value, htype, _, state => by
    obtain rfl := CType.admits_string htype
    exact (ReportsCalls.nil state).then_call lib (.appendBasic _)
  | t, .dbusObject value, htype, _, state => by
    obtain rfl := CType.admits_dbusObject htype
    exact (ReportsCalls.nil state).then_call lib (.appendBasic _)
  | t, .vector elements, htype, hfree, state => by
    obtain ⟨element, rfl, helements⟩ := CType.admits_vector htype
    have hpushed := CType.pushElements_reportsCalls lib element elements helements hfree
    simp only [CType.push]
    split
    next hopen => exact ReportsCalls.refused _ hopen
    next hopen =>
      refine ReportsCalls.completed _ hopen ?_
      split
      next hfail => exact (hpushed _).fail hfail
      next hzero =>
        exact (hpushed _).seq (not_not.mp hzero)
          ((ReportsCalls.nil _).then_call lib .closeContainer)
  | t, .unorderedMap entries, htype, hfree, _ => by
    obtain ⟨key, value, rfl, -⟩ := CType.admits_unorderedMap htype
    simp [CType.mapFree] at hfree
  | t, .variant index value, htype, hfree, state => by
    obtain ⟨alternatives, alt, rfl, hget, hvalue⟩ := CType.admits_variant htype
    have halt := CType.push_reportsCalls lib alt value hvalue
      (CTypes.mapFree_of_get? (by simpa [CType.mapFree] using hfree) hget)
    simp only [CType.push, hget, Option.map_some']
    split
    next hopen => exact ReportsCalls.refused _ hopen
    next hopen => exact ReportsCalls.completed _ hopen ((halt _).then_call lib .closeContainer)

/-- The elements' pushes return `0` exactly when libdbus completed every call
they made. -/
theorem CType.pushElements_reportsCalls (lib : Libdbus) (element : CType) :
    ∀ elements : CValues, element.admitsAll elements → element.mapFree →
      ∀ state : AppendState, ReportsCalls state (element.pushElements lib elements state)
  | .nil, _, _, state => ReportsCalls.nil state
  | .cons head tail, htype, hfree, state => by
    simp only [CType.admitsAll_cons, Bool.and_eq_true] at htype
    have hhead := CType.push_reportsCalls lib element head htype.1 hfree state
    simp only [CType.pushElements]
    split
    next hfail => exact hhead.fail hfail
    next hzero =>
      exact hhead.seq (not_not.mp hzero)
        (CType.pushElements_reportsCalls lib element tail htype.2 hfree _)

end

/-- For arguments whose types hold no `std::unordered_map`, `pack_message`
returns `0` exactly when libdbus completed every append call it made: a
refused call is lost only inside a map. -/
theorem packMessage_reportsCalls (lib : Libdbus) : ∀ (args : List (CType × CValue)),
    (∀ a ∈ args, a.1.admits a.2) → (∀ a ∈ args, a.1.mapFree) → ∀ state : AppendState,
      ∃ calls, (packMessage lib args state).2.calls = state.calls ++ calls ∧
        ((packMessage lib args state).1 = 0 ↔ ∀ call ∈ calls, call.2 = true)
  | [], _, _, state => ReportsCalls.nil state
  | (t, v) :: args, htype, hfree, state => by
    have hhead : ReportsCalls state (t.push lib v state) :=
      CType.push_reportsCalls lib t v (htype (t, v) (by simp)) (hfree (t, v) (by simp)) state
    simp only [packMessage]
    split
    next hfail => exact hhead.fail hfail
    next hzero =>
      exact hhead.seq (not_not.mp hzero) (packMessage_reportsCalls lib args
        (fun a ha => htype a (by simp [ha])) (fun a ha => hfree a (by simp [ha])) _)

/-- A vector whose second element libdbus refuses: the calls are on record and
`pack_message` reports the refusal. -/
theorem packMessage_reportsCalls_refused_element :
    let lib : Libdbus := ⟨fun _ call => call != .appendBasic (.integer .uint32 2)⟩
    let args : List (CType × CValue) :=
      [(.vector (.integral .uint32), .vector (.cons (.integral 1) (.cons (.integral 2) .nil)))]
    ((∀ a ∈ args, a.1.admits a.2) ∧ (∀ a ∈ args, a.1.mapFree)) ∧
      ∃ calls, (packMessage lib args .empty).2.calls = AppendState.empty.calls ++ calls ∧
        ((packMessage lib args .empty).1 = 0 ↔ ∀ call ∈ calls, call.2 = true) :=
  ⟨by decide, packMessage_reportsCalls _ _ (by decide) (by decide) _⟩

end Fibre.DBus
