import Mathlib.Data.List.Basic

/-
Module: EventSourcing.Event
Purpose: The event record every store reads and writes, the sentinel errors the stores
  return, and the injected serializer boundary (`Marshal`, `Unmarshal`, the type registry).
Trusted boundary: the serializer's functions and `Event.Reason` are parameters; the
  registry code and the reflection behind `Reason` are not among the sources.
Main exports: Time, Bytes, Error, Event, Reason, Context, PersonEvent, Serializer,
  personSerializer
-/

namespace EventSourcing

/-!
`eventsourcing.Event[T]` carries the aggregate identity, the per-aggregate `Version`, the
store-wide `GlobalVersion`, the aggregate type, a UTC timestamp, the application payload
`Data` and an optional metadata map [SRC unnamed/part_003:153-162].

`eventsourcing.Version` is `uint64` in the source.  We write it as `Nat`: every version a
store computes is a slice length plus one (memory) or an event number plus one
(EventStoreDB), and a Go slice length is below `2^63`, so no conversion of the source wraps
on a value it can hold.
-/

/-- A UTC instant as `time.Time` holds it: Unix seconds and the nanosecond within the
second. -/
structure Time where
  sec : Int
  nsec : Nat
  nsec_lt : nsec < 1000000000
deriving DecidableEq, Repr

/-- Encoded bytes (`[]byte`). -/
abbrev Bytes := List UInt8

/-- The errors the modelled code returns.  The sentinels `ErrNoEvents`, `ErrNoMoreEvents`
[SRC unnamed/part_003:147-151], `ErrEmptyID` and `ErrUnsavedEvents`
[SRC unnamed/part_003:9-13] are the source's; the three validation errors are the taxonomy
of spec §7 for the validator that is not among the sources; `wrongExpectedVersion` is
EventStoreDB's rejection of an append; `message` is an error made by `errors.New(text)`,
`wrapped` one built by `fmt.Sprintf("<context>%v", cause)`, `timeParse` the `*time.ParseError`
of `time.Parse` on the text `value`, and `foreign` any error produced by an injected
function (a serializer, a database driver, a snapshot store). -/
inductive Error where
  | noEvents
  | noMoreEvents
  | emptyID
  | unsavedEvents
  | mixedAggregate
  | nonContiguousVersion
  | concurrency
  | wrongExpectedVersion
  | message (text : String)
  | wrapped (context : String) (cause : Error)
  | timeParse (value : String)
  | foreign (text : String)
deriving DecidableEq, Repr

/-- Results compare by value, so that runs of the model can be decided. -/
instance instDecidableEqExcept {ε β : Type} [DecidableEq ε] [DecidableEq β] :
    DecidableEq (Except ε β)
  | .error a, .error b => decidable_of_iff (a = b) (by simp)
  | .ok a, .ok b => decidable_of_iff (a = b) (by simp)
  | .error _, .ok _ => isFalse (by simp)
  | .ok _, .error _ => isFalse (by simp)

/-- A computation that has succeeded passes its value on. -/
@[simp] theorem except_ok_bind {ε β γ : Type} (value : β) (next : β → Except ε γ) :
    (Except.ok value >>= next) = next value := rfl

/-- A computation that has failed passes its error on. -/
@[simp] theorem except_error_bind {ε β γ : Type} (err : ε) (next : β → Except ε γ) :
    (Except.error err >>= next) = Except.error err := rfl

/-- `eventsourcing.Event[T]`.  `Data` has type `α`; `Metadata` is a map of type `μ`, or
`none` where the source's map is `nil`. -/
structure Event (α μ : Type) where
  aggregateID : String
  version : Nat
  globalVersion : Nat
  aggregateType : String
  timestamp : Time
  data : α
  metadata : Option μ
deriving DecidableEq, Repr

/-- `Event.Reason`: the name of the payload's concrete type,
`reflect.TypeOf(e.Data).Elem().Name()`, or `""` for a nil payload
[SRC unnamed/part_003:164-170].  The reflection is the parameter. -/
class Reason (α : Type) where
  reason : α → String

/-- `Event.Reason` of one event. -/
def Event.reason {α μ : Type} [Reason α] (event : Event α μ) : String :=
  Reason.reason event.data

/-- `context.Context` as the stores read it: `ctx.Err()`, `none` while the context is live. -/
structure Context where
  err : Option Error

/-- The live `context.Background()`. -/
def Context.background : Context :=
  ⟨none⟩

/-- The payloads of the `Person` aggregate of the package's documentation, `Born{Name}` and
`AgedOneYear{}` [SRC unnamed/part_000:60-68], named by their struct names. -/
inductive PersonEvent where
  | born (name : String)
  | agedOneYear
deriving DecidableEq, Repr

instance : Reason PersonEvent where
  reason
    | .born _ => "Born"
    | .agedOneYear => "AgedOneYear"

/-- `eventsourcing.Serializer[T]` as the stores use it: the injected `Marshal` and
`Unmarshal` pair and the registry lookup `Type`.  The source's one
`Marshal(v interface{})` is applied to payloads and to metadata maps, so the model keeps one
field per use. -/
structure Serializer (α μ : Type) where
  marshal : α → Except Error Bytes
  marshalMetadata : μ → Except Error Bytes
  /-- `Unmarshal(b, &eventData)` where `eventData` is the registry's fresh payload. -/
  unmarshal : Bytes → α → Except Error α
  unmarshalMetadata : Bytes → Except Error μ
  /-- `Type(aggregateType, reason)`: the fresh payload `f()` of the registered factory,
  `none` when the pair is not registered. -/
  type : String → String → Option α

/-- The pair `(aggregateType, reason)` is in the serializer's registry. -/
def Serializer.Registered {α μ : Type} (serializer : Serializer α μ)
    (aggregateType reason : String) : Prop :=
  (serializer.type aggregateType reason).isSome

instance {α μ : Type} (serializer : Serializer α μ) (aggregateType reason : String) :
    Decidable (serializer.Registered aggregateType reason) :=
  inferInstanceAs (Decidable (_ = true))

/-- A serializer registering the `Person` events under the aggregate type `"Person"`; a
payload is written as no bytes and read back as the registry's fresh payload. -/
def personSerializer : Serializer PersonEvent Unit where
  marshal _ := .ok []
  marshalMetadata _ := .ok []
  unmarshal _ fresh := .ok fresh
  unmarshalMetadata _ := .ok ()
  type aggregateType reason :=
    if aggregateType = "Person" then
      if reason = "Born" then some (.born "")
      else if reason = "AgedOneYear" then some .agedOneYear
      else none
    else none

end EventSourcing
