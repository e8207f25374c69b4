import EventSourcing.Esdb.Store
import EventSourcing.Bbolt.Iterator
import EventSourcing.Sql.Store

/-
Module: EventSourcing.ReadPaths
Purpose: The three read paths side by side (the EventStoreDB and bbolt iterators read to
  `ErrNoMoreEvents`, and the SQL store's `eventsFromRows`).  Each reads exactly the records
  the registry finds under its own key, in stored order: EventStoreDB under the first
  `-`-separated piece of the stream name, so that a registered type holding a `-` is
  skipped; bbolt under the envelope's type and reason; SQL under the row's type and reason,
  once the row's timestamp has parsed, so that a row whose timestamp does not parse fails
  the read whether it is registered or not.
Trusted boundary: the stores' models.
Main exports: read_paths_skip_by_key, read_paths_registry_mismatch
-/

namespace EventSourcing

variable {α μ : Type}

/-!
Spec §5.2: a backend skips an event whose type and reason are not registered, and fails on
none.  Each store skips in its own way: EventStoreDB's and bbolt's `Next` call themselves
on the rest [SRC eventstore/esdb/iterator.go:23-67, unnamed/part_002:158-201], and
`eventsFromRows` continues its loop [SRC eventstore/esdb/iterator.go:223-272], after it has
parsed the row's timestamp.  Each is read here as a filter by the registry under the
store's key followed by decoding in order (`readAll` stops at the first decoding error,
`mapM` likewise).
-/

/-- **Read paths skip what the registry does not find under the store's key.**  Draining
an EventStoreDB iterator with more calls than records decodes, in stream order, the records
whose event type is registered under the first `-`-separated piece of their stream name.
Draining a bbolt iterator over a bucket of well-formed envelopes likewise decodes the
envelopes whose aggregate type and reason are registered (a missing bucket reads as no
events).  `eventsFromRows` over rows whose timestamps parse decodes the rows whose type and
reason are registered; a row whose timestamp does not parse ends the read with the parse
error. -/
theorem read_paths_skip_by_key :
    (∀ (serializer : Serializer α μ) (records : List Esdb.RecordedEvent) (fuel : Nat),
      records.length < fuel →
      drain ESDB.Iterator.next fuel ⟨records, serializer⟩ =
        readAll (ESDB.decode serializer) (records.filterMap fun record =>
          (serializer.type ((ESDB.split record.streamID ESDB.streamSeparator).getD 0 "")
            record.eventType).map fun fresh => (fresh, record))) ∧
    (∀ (i : Bbolt.Iterator α μ) (bucket : Bbolt.Bucket) (envelope : Bytes → Bbolt.BoltEvent μ)
      (fuel : Nat), i.cursor = none → i.tx i.bucketName = some bucket →
      (∀ record ∈ bucket.records, i.unmarshalBoltEvent record.2 = .ok (envelope record.2)) →
      bucket.records.length < fuel →
      drain Bbolt.Iterator.next fuel i =
        readAll (Bbolt.decode i.serializer)
          ((bucket.records.filter fun record => i.firstEventIndex ≤ record.1).filterMap
            fun record => (i.serializer.type (envelope record.2).aggregateType
              (envelope record.2).reason).map fun fresh => (fresh, envelope record.2))) ∧
    (∀ (i : Bbolt.Iterator α μ) (fuel : Nat), i.cursor = none → i.tx i.bucketName = none →
      drain Bbolt.Iterator.next fuel i = .ok []) ∧
    (∀ (s : SQL α μ) (rows : List Sql.Row),
      (∀ row ∈ rows, ∃ t, parseRFC3339 row.timestamp = .ok t) →
      s.eventsFromRows rows = (rows.filterMap fun row =>
        (s.serializer.type row.typ row.reason).map fun fresh => (fresh, row)).mapM
          (SQL.decode s.serializer)) ∧
    ∀ (s : SQL α μ) (row : Sql.Row) (rows : List Sql.Row) (err : Error),
      parseRFC3339 row.timestamp = .error err → s.eventsFromRows (row :: rows) = .error err :=
  ⟨fun serializer records _ enough => ESDB.drain_records serializer records enough,
    fun i _ _ _ unset stored envelopes enough =>
      Bbolt.drain_bucket i unset stored envelopes enough,
    fun i fuel unset missing => Bbolt.drain_missing_bucket i fuel unset missing,
    fun s _ parsed => SQL.eventsFromRows_parsed s parsed,
    fun s _ rows _ unparsed => SQL.eventsFromRows_unparsed s unparsed rows⟩

/-- The law at a `Person` stream holding an unregistered `Renamed` record and a registered
`AgedOneYear` one, at a bbolt bucket and at SQL rows of the same two: each read returns the
registered event only.  A row whose timestamp has a five-digit year ends the SQL read. -/
theorem read_paths_skip_by_key_person :
    let records : List Esdb.RecordedEvent :=
      [⟨"Person-p", 0, "Renamed", [], none, ⟨0, 0, by decide⟩⟩,
        ⟨"Person-p", 1, "AgedOneYear", [], none, ⟨0, 0, by decide⟩⟩]
    let envelope : Bytes → Bbolt.BoltEvent Unit := fun bytes =>
      ⟨"p", "Person", bytes.length + 1, bytes.length + 1,
        if bytes = [] then "Renamed" else "AgedOneYear", ⟨0, 0, by decide⟩, [], none⟩
    let bucket : Bbolt.Bucket := ⟨[(1, []), (2, [0])], by decide⟩
    let i : Bbolt.Iterator PersonEvent Unit :=
      ⟨fun _ => some bucket, "Person_p", 1, none, personSerializer, fun bytes => .ok (envelope bytes)⟩
    let s : SQL PersonEvent Unit := ⟨personSerializer⟩
    let rows : List Sql.Row :=
      [⟨1, "p", 1, "Renamed", "Person", "1970-01-01T00:00:00Z", [], []⟩,
        ⟨2, "p", 2, "AgedOneYear", "Person", "1970-01-01T00:00:00Z", [], []⟩]
    let late : Sql.Row := ⟨3, "p", 3, "Renamed", "Person", "10000-01-01T00:00:00Z", [], []⟩
    drain ESDB.Iterator.next 3 ⟨records, personSerializer⟩ =
        readAll (ESDB.decode personSerializer) (records.filterMap fun record =>
          (personSerializer.type ((ESDB.split record.streamID ESDB.streamSeparator).getD 0 "")
            record.eventType).map fun fresh => (fresh, record)) ∧
      drain ESDB.Iterator.next 3 ⟨records, personSerializer⟩ =
        .ok [⟨"p", 2, 0, "Person", ⟨0, 0, by decide⟩, .agedOneYear, none⟩] ∧
      drain Bbolt.Iterator.next 3 i =
        readAll (Bbolt.decode i.serializer)
          ((bucket.records.filter fun record => i.firstEventIndex ≤ record.1).filterMap
            fun record => (i.serializer.type (envelope record.2).aggregateType
              (envelope record.2).reason).map fun fresh => (fresh, envelope record.2)) ∧
      drain Bbolt.Iterator.next 3 i =
        .ok [⟨"p", 2, 2, "Person", ⟨0, 0, by decide⟩, .agedOneYear, none⟩] ∧
      s.eventsFromRows rows = (rows.filterMap fun row =>
        (s.serializer.type row.typ row.reason).map fun fresh => (fresh, row)).mapM
          (SQL.decode s.serializer) ∧
      s.eventsFromRows rows = .ok [⟨"p", 2, 2, "Person", ⟨0, 0, by decide⟩, .agedOneYear, none⟩] ∧
      s.eventsFromRows (late :: rows) = .error (.timeParse "10000-01-01T00:00:00Z") := by
  intro records envelope bucket i s rows late
  exact ⟨read_paths_skip_by_key.1 personSerializer records 3 (by decide), by decide,
    read_paths_skip_by_key.2.1 i bucket envelope 3 rfl rfl (fun _ _ => rfl) (by decide),
    by decide,
    read_paths_skip_by_key.2.2.2.1 s rows fun row member => by
      rcases List.mem_cons.mp member with rfl | member
      · exact ⟨_, rfl⟩
      · rcases List.mem_singleton.mp member with rfl
        exact ⟨_, rfl⟩,
    by decide,
    read_paths_skip_by_key.2.2.2.2 s late rows _ rfl⟩

/-- Two reads that the registry alone does not decide.  EventStoreDB looks a record up
under the first `-`-separated piece of its stream name, so an event of the registered type
`Order-Line` is read back as `Order` and skipped.  The SQL store parses a row's timestamp
before it looks the row up, and `Format` writes the year 10000 in five digits, which
`Parse` refuses: `GlobalEvents` over an unregistered event saved at that instant fails. -/
theorem read_paths_registry_mismatch :
    let orderLine : Serializer PersonEvent Unit :=
      { personSerializer with
        type := fun aggregateType reason =>
          if aggregateType = "Order-Line" ∧ reason = "Born" then some (.born "") else none }
    let born : Event PersonEvent Unit :=
      ⟨"1", 1, 0, "Order-Line", ⟨0, 0, by decide⟩, .born "Ada", none⟩
    let es := ESDB.open orderLine true
    let server := (es.save Esdb.Server.empty born.timestamp 1 [born]).2.1
    let aged : Event PersonEvent Unit :=
      ⟨"p", 1, 0, "Person", ⟨253402300800, 0, by decide⟩, .agedOneYear, none⟩
    let s : SQL PersonEvent Unit := ⟨orderLine⟩
    let db := (s.save Sql.Database.empty Sql.Faults.none [aged]).2.1
    orderLine.Registered "Order-Line" "Born" ∧
      (es.get server Context.background "1" "Order-Line" 0).bind (drain ESDB.Iterator.next 2) =
        .ok [] ∧
      ¬ orderLine.Registered "Person" "AgedOneYear" ∧
      s.globalEvents db 1 1 = .error (.timeParse "10000-01-01T00:00:00Z") := by
  decide

end EventSourcing
