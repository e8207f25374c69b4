import EventSourcing.Esdb.Client
import EventSourcing.Validate
import EventSourcing.Iterator

/-
Module: EventSourcing.Esdb.Store
Purpose: The EventStoreDB event store: `Save` (the identity check, the encoding loop, the
  expected revision read off the first Version), `Get`, and the iterator whose `Next`
  splits the stream name back into aggregate type and ID and skips unregistered records.
Trusted boundary: the server (`EventSourcing.Esdb.Client`) and the validator
  (`EventSourcing.Validate`) are models; the serializer is a parameter.
Main exports: ESDB, ESDB.stream, ESDB.split, ESDB.save, ESDB.get, ESDB.Iterator.next,
  ESDB.save_cons, ESDB.save_invalid, ESDB.save_gapped, ESDB.expectedRevision_admits,
  ESDB.drain_records, ESDB.split_stream, ESDB.stream_inj
-/

namespace EventSourcing

open Esdb

/-!
[SRC eventstore/esdb/esdb.go:12-116] and the iterator [SRC eventstore/esdb/iterator.go:12-67].
A call returns its error, the server after it, and for `Save` the caller's slice after it.
-/

/-- `esdb.ESDB[T]`: the serializer and the content type; the client is the server state
passed to each call. -/
structure ESDB (α μ : Type) where
  serializer : Serializer α μ
  contentType : ContentType

namespace ESDB

variable {α μ : Type}

/-- `Open`: JSON content for a JSON serializer, binary otherwise. -/
def «open» (serializer : Serializer α μ) (jsonSerializer : Bool) : ESDB α μ :=
  ⟨serializer, if jsonSerializer then .json else .binary⟩

/-- `streamSeparator`, the one-character string `"-"`. -/
def streamSeparator : Char := '-'

/-- `stream`: the EventStoreDB stream of an aggregate. -/
def stream (aggregateType aggregateID : String) : String :=
  aggregateType ++ streamSeparator.toString ++ aggregateID

/-- `strings.Split(s, sep)` for a one-character `sep`: the pieces of `s` between the
occurrences of `sep`. -/
def split (s : String) (sep : Char) : List String :=
  (s.toList.splitOn sep).map String.mk

/-- One turn of `Save`'s loop: marshal the payload, and the metadata when there is one. -/
def eventData [Reason α] (es : ESDB α μ) (event : Event α μ) : Except Error EventData := do
  let e ← es.serializer.marshal event.data
  let m ← match event.metadata with
    | none => pure none
    | some metadata => some <$> es.serializer.marshalMetadata metadata
  pure ⟨es.contentType, event.reason, e, m⟩

/-- The expected revision `Save` reads off the batch's first Version: the event number
before it, `NoStream` for Version 1, and none below. -/
def expectedRevision (version : Nat) : ExpectedRevision :=
  if version > 1 then .streamRevision (version - 2)
  else if version = 1 then .noStream
  else .any

/-- `ESDB.Save`; `now` is the server's clock at the append and `position` the commit
position it reports.  Every event of the slice is given that commit position as its
GlobalVersion. -/
def save [Reason α] (es : ESDB α μ) (server : Server) (now : Time) (position : Nat)
    (events : List (Event α μ)) : Except Error Unit × Server × List (Event α μ) :=
  match events with
  | [] => (.ok (), server, events)
  | first :: _ =>
    let stream := stream first.aggregateType first.aggregateID
    match validateEventsNoVersionCheck first.aggregateID events with
    | .error err => (.error err, server, events)
    | .ok () =>
      match events.mapM es.eventData with
      | .error err => (.error err, server, events)
      | .ok esdbEvents =>
        match appendToStream server stream (expectedRevision first.version) esdbEvents now
            position with
        | .error err => (.error err, server, events)
        | .ok (wr, server') =>
          (.ok (), server', events.map fun event => { event with globalVersion := wr.commitPosition })

/-- The EventStoreDB iterator: the records of the read stream not yet received. -/
structure Iterator (α μ : Type) where
  stream : List RecordedEvent
  serializer : Serializer α μ

/-- `Next`'s registry lookup for a received record, under the first piece of its stream
name, paired with the record. -/
def find (serializer : Serializer α μ) (eventESDB : RecordedEvent) :
    Option (α × RecordedEvent) :=
  (serializer.type ((split eventESDB.streamID streamSeparator).getD 0 "")
    eventESDB.eventType).map fun eventData => (eventData, eventESDB)

/-- The rest of `Next` for a registered record: decode the payload into the fresh one and
the metadata when there is some; the Version is one past the event number, and the
aggregate type and ID are the stream name's first two pieces.  (`stream[1]` exists on
every stream this store reads: `stream` puts a separator in each name.) -/
def decode (serializer : Serializer α μ) : α × RecordedEvent → Except Error (Event α μ)
  | (fresh, eventESDB) => do
    let stream := split eventESDB.streamID streamSeparator
    let eventData ← serializer.unmarshal eventESDB.data fresh
    let eventMetadata ← match eventESDB.userMetadata with
      | none => pure none
      | some userMetadata => some <$> serializer.unmarshalMetadata userMetadata
    pure
      { aggregateID := stream.getD 1 ""
        version := eventESDB.eventNumber + 1
        globalVersion := 0
        aggregateType := stream.getD 0 ""
        timestamp := eventESDB.createdDate
        data := eventData
        metadata := eventMetadata }

/-- `iterator.Next`: receive records, skipping unregistered ones by calling `Next` again,
and decode the first registered one; the end of the stream is `ErrNoMoreEvents`. -/
def Iterator.next (iterator : Iterator α μ) : Except Error (Event α μ) × Iterator α μ :=
  let (result, rest) := nextOf (fun eventESDB => .ok (find iterator.serializer eventESDB))
    (decode iterator.serializer) iterator.stream
  (result, { iterator with stream := rest })

/-- `ESDB.Get`: read the aggregate's stream from event number `afterVersion`, unless the
context is already done. -/
def get (es : ESDB α μ) (server : Server) (ctx : Context) (id aggregateType : String)
    (afterVersion : Nat) : Except Error (Iterator α μ) :=
  let readStream := readStream server (stream aggregateType id) afterVersion
  match ctx.err with
  | some err => .error err
  | none => .ok ⟨readStream, es.serializer⟩

/-! ### Save -/

/-- `Save` on a batch of one aggregate with contiguous Versions: encode, then append under
the expected revision of the first Version. -/
theorem save_cons [Reason α] (es : ESDB α μ) (server : Server) (now : Time) (position : Nat)
    {first : Event α μ} {rest : List (Event α μ)}
    (same : SameAggregate first.aggregateID first.aggregateType (first :: rest))
    (numbered : Numbered first.version (first :: rest)) :
    es.save server now position (first :: rest) =
      match (first :: rest).mapM es.eventData with
      | .error err => (.error err, server, first :: rest)
      | .ok esdbEvents =>
        match appendToStream server (stream first.aggregateType first.aggregateID)
            (expectedRevision first.version) esdbEvents now position with
        | .error err => (.error err, server, first :: rest)
        | .ok (wr, server') =>
          (.ok (), server', (first :: rest).map fun event =>
            { event with globalVersion := wr.commitPosition }) := by
  rw [save, validateEventsNoVersionCheck_cons_eq_ok.mpr ⟨same, numbered⟩]

/-- A batch the validator refuses comes back with the validator's error, and nothing
reaches the server. -/
theorem save_invalid [Reason α] (es : ESDB α μ) (server : Server) (now : Time) (position : Nat)
    {first : Event α μ} {rest : List (Event α μ)} {err : Error}
    (invalid : validateEventsNoVersionCheck first.aggregateID (first :: rest) = .error err) :
    es.save server now position (first :: rest) = (.error err, server, first :: rest) := by
  rw [save, invalid]

/-- From Version 1 on, the expected revision admits exactly the stream the first Version
continues. -/
theorem expectedRevision_admits {version length : Nat} (versioned : 1 ≤ version) :
    (expectedRevision version).Admits length ↔ version = length + 1 := by
  unfold expectedRevision
  split
  · simp only [ExpectedRevision.Admits]
    omega
  · rw [if_pos (by omega)]
    simp only [ExpectedRevision.Admits]
    omega

/-! ### Get and the iterator -/

theorem drain_iterator (serializer : Serializer α μ) (fuel : Nat) (records : List RecordedEvent) :
    drain Iterator.next fuel ⟨records, serializer⟩ =
      drain (nextOf (fun eventESDB => .ok (find serializer eventESDB)) (decode serializer))
        fuel records := by
  induction fuel generalizing records with
  | zero => rfl
  | succ fuel ih =>
    simp only [drain, Iterator.next]
    generalize nextOf _ _ records = step
    obtain ⟨result | event, rest⟩ := step
    · cases result <;> rfl
    · simp only [ih]

/-- **Reading an EventStoreDB stream.**  Draining the iterator of the records `records`
terminates within one call per record and reads exactly the records whose aggregate type
and event type are registered, each decoded into its factory's fresh payload, in stream
order. -/
theorem drain_records (serializer : Serializer α μ) (records : List RecordedEvent) {fuel : Nat}
    (enough : records.length < fuel) :
    drain Iterator.next fuel ⟨records, serializer⟩ =
      readAll (decode serializer) (records.filterMap (find serializer)) := by
  rw [drain_iterator]
  exact drain_nextOf (fun _ _ => rfl) enough

/-! ### Stream names -/

@[simp] theorem toList_stream (aggregateType aggregateID : String) :
    (stream aggregateType aggregateID).toList =
      aggregateType.toList ++ streamSeparator :: aggregateID.toList := by
  simp [stream, Char.toString]

/-- The first piece of a stream name is the aggregate type when the type has no
separator, whatever the ID holds. -/
theorem split_stream {aggregateType : String} (aggregateID : String)
    (separated : streamSeparator ∉ aggregateType.toList) :
    split (stream aggregateType aggregateID) streamSeparator =
      aggregateType :: split aggregateID streamSeparator := by
  simp only [split, toList_stream, List.splitOn]
  rw [List.splitOnP_first _ _
    (fun _ member equal => separated (by simp_all)) _ (by simp)]
  rfl

/-- Stream names keep aggregates of types without a separator apart, whatever their IDs
hold. -/
theorem stream_inj {aggregateType aggregateType' aggregateID aggregateID' : String}
    (separated : streamSeparator ∉ aggregateType.toList)
    (separated' : streamSeparator ∉ aggregateType'.toList) :
    stream aggregateType aggregateID = stream aggregateType' aggregateID' ↔
      aggregateType = aggregateType' ∧ aggregateID = aggregateID' := by
  refine ⟨fun same => ?_, by rintro ⟨rfl, rfl⟩; rfl⟩
  have pieces := congrArg (split · streamSeparator) same
  simp only [split_stream _ separated, split_stream _ separated', List.cons.injEq] at pieces
  obtain ⟨rfl, -⟩ := pieces
  have lists := congrArg String.toList same
  simp only [toList_stream, List.append_cancel_left_eq, List.cons.injEq, true_and] at lists
  exact ⟨rfl, String.ext lists⟩

/-- A separator inside an ID breaks the round trip: splitting the stream name of
`("Person", "a-b")` gives three pieces, `("Person-a", "b")` names the same stream, and an
event saved for `("Person", "a-b")` is read back with AggregateID `"a"`. -/
theorem stream_separator_in_id :
    let es : ESDB PersonEvent Unit := ESDB.open personSerializer true
    let born : Event PersonEvent Unit :=
      ⟨"a-b", 1, 0, "Person", ⟨0, 0, by decide⟩, .born "Alice", none⟩
    let server := (es.save Server.empty born.timestamp 0 [born]).2.1
    split (stream "Person" "a-b") streamSeparator = ["Person", "a", "b"] ∧
      stream "Person-a" "b" = stream "Person" "a-b" ∧
      ((es.get server Context.background "a-b" "Person" 0).bind (drain Iterator.next 2)).map
        (List.map Event.aggregateID) = .ok ["a"] := by
  decide

end ESDB

end EventSourcing
