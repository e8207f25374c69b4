import EventSourcing.Iterator
import Mathlib.Data.List.Pairwise

/-
Module: EventSourcing.Bbolt.Iterator
Purpose: The bbolt event iterator: the first `Next` opens the aggregate's bucket and seeks
  the first event to read, later calls step the cursor, and an envelope whose type and
  reason the registry does not know is skipped by calling `Next` again.
Trusted boundary: the read transaction is modelled as the buckets it sees; the envelope
  decoding (`Unmarshal` into a `boltEvent`) is a parameter.
Main exports: Bbolt.Bucket, Bbolt.BoltEvent, Bbolt.Iterator, Bbolt.Iterator.next,
  Bbolt.seek_eq_filter, Bbolt.drain_bucket, Bbolt.drain_missing_bucket
-/

namespace EventSourcing

namespace Bbolt

/-!
[SRC unnamed/part_002:134-201].  The iterator holds a read transaction, the bucket's name,
the key of the first event to read and, from the first call on, a cursor.  A bbolt bucket
keeps its pairs in byte order of the keys; the keys are `itob` of a `uint64`, eight
big-endian bytes, so byte order is the order of the numbers.  The cursor is modelled as the
pairs it has not yet returned.
-/

/-- A bucket: its key/value pairs in key order. -/
structure Bucket where
  records : List (Nat × Bytes)
  sorted : records.Pairwise fun record record' => record.1 < record'.1

/-- `boltEvent`, the envelope a value of the bucket holds.  Its declaration is not among
the sources: its fields are those `Next` reads, with the payload left encoded. -/
structure BoltEvent (μ : Type) where
  aggregateID : String
  aggregateType : String
  version : Nat
  globalVersion : Nat
  reason : String
  timestamp : Time
  data : Bytes
  metadata : Option μ
deriving DecidableEq, Repr

/-- `iterator[T]`: the buckets the read transaction `tx` sees, the bucket's name, the key
of the first event to read, the cursor (`none` before the first call), the serializer, and
`Unmarshal` into a `boltEvent`. -/
structure Iterator (α μ : Type) where
  tx : String → Option Bucket
  bucketName : String
  firstEventIndex : Nat
  cursor : Option (List (Nat × Bytes))
  serializer : Serializer α μ
  unmarshalBoltEvent : Bytes → Except Error (BoltEvent μ)

variable {α μ : Type}

/-- `Cursor.Seek(itob(index))` and the pairs after it: the bucket's pairs from the first
key at or past `index`. -/
def seek (records : List (Nat × Bytes)) (index : Nat) : List (Nat × Bytes) :=
  records.dropWhile fun record => record.1 < index

/-- The registry lookup `Next` makes for an envelope, paired with the envelope. -/
def find (serializer : Serializer α μ) (bEvent : BoltEvent μ) : Option (α × BoltEvent μ) :=
  (serializer.type bEvent.aggregateType bEvent.reason).map fun fresh => (fresh, bEvent)

/-- The first step of `Next` on a pair the cursor returned: unmarshal the envelope, then
look its type and reason up. -/
def lookup (serializer : Serializer α μ) (unmarshalBoltEvent : Bytes → Except Error (BoltEvent μ))
    (record : Nat × Bytes) : Except Error (Option (α × BoltEvent μ)) :=
  match unmarshalBoltEvent record.2 with
  | .error err => .error (.wrapped "could not deserialize event, " err)
  | .ok bEvent => .ok (find serializer bEvent)

/-- The rest of `Next` for a registered envelope: unmarshal the payload into the fresh
one; every other field is copied from the envelope. -/
def decode (serializer : Serializer α μ) : α × BoltEvent μ → Except Error (Event α μ)
  | (fresh, bEvent) =>
    match serializer.unmarshal bEvent.data fresh with
    | .error err => .error (.wrapped "could not deserialize event data, " err)
    | .ok eventData =>
      .ok
        { aggregateID := bEvent.aggregateID
          aggregateType := bEvent.aggregateType
          version := bEvent.version
          globalVersion := bEvent.globalVersion
          timestamp := bEvent.timestamp
          metadata := bEvent.metadata
          data := eventData }

/-- `Next` over the pairs after the cursor: a pair whose envelope is not registered is
skipped by calling `Next` again. -/
def nextRecord (serializer : Serializer α μ)
    (unmarshalBoltEvent : Bytes → Except Error (BoltEvent μ)) :
    List (Nat × Bytes) → Except Error (Event α μ) × List (Nat × Bytes) :=
  nextOf (lookup serializer unmarshalBoltEvent) (decode serializer)

/-- `iterator.Next`.  The first call opens the bucket (none: `ErrNoMoreEvents`, and the
cursor stays unset) and seeks the first event to read; later calls step the cursor. -/
def Iterator.next (i : Iterator α μ) : Except Error (Event α μ) × Iterator α μ :=
  match i.cursor with
  | none =>
    match i.tx i.bucketName with
    | none => (.error .noMoreEvents, i)
    | some bucket =>
      let (result, rest) :=
        nextRecord i.serializer i.unmarshalBoltEvent (seek bucket.records i.firstEventIndex)
      (result, { i with cursor := some rest })
  | some records =>
    let (result, rest) := nextRecord i.serializer i.unmarshalBoltEvent records
    (result, { i with cursor := some rest })

/-! ### Seek -/

/-- In a bucket's key order, seeking a key reads exactly the pairs at or past it. -/
theorem seek_eq_filter {index : Nat} :
    ∀ {records : List (Nat × Bytes)},
      records.Pairwise (fun record record' => record.1 < record'.1) →
      seek records index = records.filter fun record => index ≤ record.1
  | [], _ => rfl
  | record :: records, sorted => by
    obtain ⟨later, sorted⟩ := List.pairwise_cons.mp sorted
    by_cases before : record.1 < index
    · simp [seek, before, ← seek_eq_filter sorted]
    · have kept : records.filter (fun record => index ≤ record.1) = records :=
        List.filter_eq_self.mpr fun record' member => by
          have := later record' member
          simp only [decide_eq_true_eq]
          omega
      have here : index ≤ record.1 := Nat.le_of_not_lt before
      simp [seek, List.dropWhile_cons, before, here, kept]

/-! ### Reading the bucket to its end -/

/-- Once the cursor is set, every call steps it: draining is draining `nextRecord`. -/
theorem drain_cursor (i : Iterator α μ) (fuel : Nat) (records : List (Nat × Bytes)) :
    drain Iterator.next fuel { i with cursor := some records } =
      drain (nextRecord i.serializer i.unmarshalBoltEvent) fuel records := by
  induction fuel generalizing records with
  | zero => rfl
  | succ fuel ih =>
    simp only [drain, Iterator.next]
    generalize nextRecord _ _ records = step
    obtain ⟨result | event, rest⟩ := step
    · cases result <;> rfl
    · simp only [ih]

/-- The first call seeks, and the reader then drains the pairs from the seek on. -/
theorem drain_first (i : Iterator α μ) (fuel : Nat) {bucket : Bucket} (unset : i.cursor = none)
    (stored : i.tx i.bucketName = some bucket) :
    drain Iterator.next fuel i =
      drain (nextRecord i.serializer i.unmarshalBoltEvent) fuel
        (seek bucket.records i.firstEventIndex) := by
  cases fuel with
  | zero => rfl
  | succ fuel =>
    simp only [drain, Iterator.next, unset, stored]
    generalize nextRecord _ _ _ = step
    obtain ⟨result | event, rest⟩ := step
    · cases result <;> rfl
    · simp only [drain_cursor]

/-- **Reading a bbolt bucket.**  Where every stored envelope unmarshals, draining the
iterator terminates within one call per pair and reads exactly the pairs at or past the
first event's key whose type and reason are registered, each payload decoded into its
factory's fresh payload, in key order. -/
theorem drain_bucket (i : Iterator α μ) {bucket : Bucket} {envelope : Bytes → BoltEvent μ}
    (unset : i.cursor = none) (stored : i.tx i.bucketName = some bucket)
    (envelopes : ∀ record ∈ bucket.records, i.unmarshalBoltEvent record.2 = .ok (envelope record.2))
    {fuel : Nat} (enough : bucket.records.length < fuel) :
    drain Iterator.next fuel i =
      readAll (decode i.serializer)
        ((bucket.records.filter fun record => i.firstEventIndex ≤ record.1).filterMap
          fun record => find i.serializer (envelope record.2)) := by
  rw [drain_first i fuel unset stored, ← seek_eq_filter bucket.sorted]
  refine drain_nextOf (fun record member => ?_) (Nat.lt_of_le_of_lt ?_ enough)
  · have seen : record ∈ bucket.records := (List.dropWhile_suffix _).subset member
    simp [lookup, envelopes record seen]
  · exact (List.dropWhile_suffix _).length_le

/-- A bucket that does not exist reads as no events. -/
theorem drain_missing_bucket (i : Iterator α μ) (fuel : Nat) (unset : i.cursor = none)
    (missing : i.tx i.bucketName = none) :
    drain Iterator.next fuel i = .ok [] := by
  cases fuel with
  | zero => rfl
  | succ fuel => simp [drain, Iterator.next, unset, missing]

end Bbolt

end EventSourcing
