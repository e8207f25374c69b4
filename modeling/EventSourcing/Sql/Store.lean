import EventSourcing.Validate
import EventSourcing.Rfc3339
import Mathlib.Data.List.Pairwise
import Mathlib.Data.List.Forall2
import Mathlib.Data.List.Sort

/-
Module: EventSourcing.Sql.Store
Purpose: The SQL event store: the `events` table, `Save` inside its transaction (with the
  driver's failure points), `Get`, `GlobalEvents`, and `eventsFromRows`, which rebuilds
  events from rows and skips those whose type and reason the registry does not know.
Trusted boundary: the database is modelled as its `events` table; the driver's failures
  are a parameter, except `database/sql`'s refusal of a `uint64` argument of 2^63 or more
  (`convertUint64`); the timestamp column is the text of `EventSourcing.Rfc3339`.
Main exports: SQL, Sql.Row, Sql.Database, Sql.Faults, SQL.save, SQL.readRow,
  SQL.eventsFromRows, SQL.globalEvents, SQL.get, SQL.insertEvents_prefix,
  SQL.save_stamps_prefix, SQL.eventsFromRows_eq, SQL.globalEvents_eq
-/

namespace EventSourcing

namespace Sql

/-!
[SRC eventstore/esdb/iterator.go:103-272].  `Save` runs in a transaction that is rolled
back on every early return (`defer tx.Rollback()`), so a failed call leaves the table as
it was; the caller's slice is written in the insert loop, before the commit.
-/

/-- A row of the `events` table; `seq` is the autoincremented key, `typ` the `type`
column, `timestamp` the text `Save` wrote, and `data`/`metadata` the text columns (`""` for
a nil metadata map). -/
structure Row where
  seq : Nat
  id : String
  version : Nat
  reason : String
  typ : String
  timestamp : String
  data : Bytes
  metadata : Bytes
deriving DecidableEq, Repr

/-- The `events` table: its rows in key order, and the next key the autoincrement gives
out.  `order by seq` reads the rows in this order. -/
structure Database where
  rows : List Row
  nextSeq : Nat
  ordered : rows.Pairwise fun row row' => row.seq < row'.seq
  fresh : ∀ row ∈ rows, row.seq < nextSeq

/-- An empty table. -/
def Database.empty : Database :=
  ⟨[], 1, .nil, fun _ member => absurd member (List.not_mem_nil _)⟩

/-- Tables compare by their rows and their next key, so that runs of the model can be
decided. -/
instance : DecidableEq Database := fun db db' =>
  decidable_of_iff (db.rows = db'.rows ∧ db.nextSeq = db'.nextSeq) <| by
    cases db; cases db'; simp

/-- `Insert into events (id, version, reason, type, timestamp, data, metadata)`: one row
under the next key. -/
def Database.insert (db : Database) (id : String) (version : Nat) (reason typ : String)
    (timestamp : String) (data metadata : Bytes) : Database where
  rows := db.rows ++ [⟨db.nextSeq, id, version, reason, typ, timestamp, data, metadata⟩]
  nextSeq := db.nextSeq + 1
  ordered := List.pairwise_append.mpr
    ⟨db.ordered, List.pairwise_singleton _ _, by simpa using db.fresh⟩
  fresh row member := by
    rcases List.mem_append.mp member with old | new
    · exact Nat.lt_succ_of_lt (db.fresh row old)
    · simp [List.mem_singleton.mp new]

/-- Where the driver fails during one `Save`: the error each call returns, `none` when it
succeeds; `Exec` and `LastInsertId` by the event's position in the batch.  `queryRow` is
an error other than `sql.ErrNoRows`. -/
structure Faults where
  beginTx : Option Error
  queryRow : Option Error
  exec : Nat → Option Error
  lastInsertId : Nat → Option Error
  commit : Option Error

/-- A driver that never fails. -/
def Faults.none : Faults :=
  ⟨.none, .none, fun _ => .none, fun _ => .none, .none⟩

/-- `Select version from events where id=? and type=? order by version desc limit 1`,
with `sql.ErrNoRows` read as Version 0. -/
def currentVersion (rows : List Row) (id typ : String) : Nat :=
  ((rows.filter fun row => row.id = id ∧ row.typ = typ).map Row.version).foldl max 0

end Sql

open Sql

/-- `sql.SQL[T]`: the serializer; the database is the table passed to each call. -/
structure SQL (α μ : Type) where
  serializer : Serializer α μ

namespace SQL

variable {α μ : Type}

/-- The metadata column `Save` writes: the marshalled map, and no bytes for a `nil` map. -/
def marshalMetadata (serializer : Serializer α μ) : Option μ → Except Error Bytes
  | none => pure []
  | some metadata => serializer.marshalMetadata metadata

/-- One turn of `Save`'s insert loop, the `i`-th event of the batch, inside the
transaction's table `tx`: marshal the payload and the metadata, insert the row, and read its
key back. -/
def insertEvent [Reason α] (s : SQL α μ) (faults : Faults) (i : Nat) (tx : Database)
    (event : Event α μ) : Except Error Database := do
  let e ← s.serializer.marshal event.data
  let m ← marshalMetadata s.serializer event.metadata
  if let some err := faults.exec i then throw err
  let tx := tx.insert event.aggregateID event.version event.reason event.aggregateType
    (formatRFC3339 event.timestamp) e m
  if let some err := faults.lastInsertId i then throw err
  pure tx

/-- The insert loop of `Save`: run each turn and write the inserted row's key into the
caller's slice as the event's GlobalVersion.  Returns the loop's error, the transaction's
table (on an error, the one before the failing turn: `Save` rolls it back in any case) and
the caller's slice. -/
def insertEvents [Reason α] (s : SQL α μ) (faults : Faults) :
    Nat → Database → List (Event α μ) → Except Error Unit × Database × List (Event α μ)
  | _, tx, [] => (.ok (), tx, [])
  | i, tx, event :: rest =>
    match s.insertEvent faults i tx event with
    | .error err => (.error err, tx, event :: rest)
    | .ok tx' =>
      let (result, tx'', rest) := insertEvents s faults (i + 1) tx' rest
      (result, tx'', { event with globalVersion := tx.nextSeq } :: rest)

/-- `SQL.Save`: the returned error, the table after the call (the transaction's table once
committed, the table before it otherwise), and the caller's slice. -/
def save [Reason α] (s : SQL α μ) (db : Database) (faults : Faults)
    (events : List (Event α μ)) : Except Error Unit × Database × List (Event α μ) :=
  match events with
  | [] => (.ok (), db, events)
  | first :: _ =>
    match faults.beginTx with
    | some err => (.error (.wrapped "could not start a write transaction, " err), db, events)
    | none =>
      match faults.queryRow with
      | some err => (.error err, db, events)
      | none =>
        match validateEvents first.aggregateID
            (currentVersion db.rows first.aggregateID first.aggregateType) events with
        | .error err => (.error err, db, events)
        | .ok () =>
          match insertEvents s faults 0 db events with
          | (.error err, _, events) => (.error err, db, events)
          | (.ok (), tx, events) =>
            match faults.commit with
            | some err => (.error err, db, events)
            | none => (.ok (), tx, events)

/-- The registry lookup `eventsFromRows` makes for a row, paired with the row. -/
def find (serializer : Serializer α μ) (row : Row) : Option (α × Row) :=
  (serializer.type row.typ row.reason).map fun fresh => (fresh, row)

/-- The metadata map `eventsFromRows` reads from the column: `nil` for an empty column. -/
def unmarshalMetadata (serializer : Serializer α μ) (bytes : Bytes) : Except Error (Option μ) :=
  if bytes ≠ [] then some <$> serializer.unmarshalMetadata bytes else pure none

/-- The event `eventsFromRows` builds from a registered row, its timestamp parsed: the
payload decoded into the registry's fresh one, and the metadata when the column is not
empty. -/
def rowEvent (serializer : Serializer α μ) (row : Row) (t : Time) (fresh : α) :
    Except Error (Event α μ) := do
  let eventData ← serializer.unmarshal row.data fresh
  let eventMetadata ← unmarshalMetadata serializer row.metadata
  pure
    { aggregateID := row.id
      version := row.version
      globalVersion := row.seq
      aggregateType := row.typ
      timestamp := t
      data := eventData
      metadata := eventMetadata }

/-- One turn of `eventsFromRows`' loop: parse the timestamp, then look the type and reason
up; `none` for a row the loop skips (`continue`). -/
def readRow (serializer : Serializer α μ) (row : Row) : Except Error (Option (Event α μ)) := do
  let t ← parseRFC3339 row.timestamp
  match serializer.type row.typ row.reason with
  | none => pure none
  | some fresh => some <$> rowEvent serializer row t fresh

/-- A registered row, found by `find`, rebuilt: parse the timestamp and build the event. -/
def decode (serializer : Serializer α μ) : α × Row → Except Error (Event α μ)
  | (fresh, row) => do
    let t ← parseRFC3339 row.timestamp
    rowEvent serializer row t fresh

/-- `eventsFromRows`: run the loop's turn on each row in order, keep the events of the
registered rows, and return the first error. -/
def eventsFromRows (s : SQL α μ) : List Row → Except Error (List (Event α μ))
  | [] => .ok []
  | row :: rows => do
    match ← readRow s.serializer row with
    | none => s.eventsFromRows rows
    | some event => (event :: ·) <$> s.eventsFromRows rows

/-- `database/sql`'s conversion of a `uint64` argument of a query: a value with the high
bit set is refused, with the error naming the argument's placeholder. -/
def convertUint64 (argument : String) (value : UInt64) : Except Error Nat :=
  if value.toNat < 2 ^ 63 then .ok value.toNat
  else .error (.wrapped ("sql: converting argument " ++ argument ++ " type: ")
    (.message "uint64 values with high bit set are not supported"))

/-- `SQL.GlobalEvents`: `where seq >= ? order by seq asc LIMIT ?` with the arguments
`start` and `count`, which `database/sql` converts first, then `eventsFromRows`. -/
def globalEvents (s : SQL α μ) (db : Database) (start count : UInt64) :
    Except Error (List (Event α μ)) := do
  let start ← convertUint64 "$1" start
  let count ← convertUint64 "$2" count
  s.eventsFromRows ((db.rows.filter fun row => start ≤ row.seq).take count)

/-- The iterator `SQL.Get` returns: the rows of its query and the serializer.  Its `Next`
is not among the sources. -/
structure Iterator (α μ : Type) where
  rows : List Row
  serializer : Serializer α μ

/-- `SQL.Get`: `where id=? and type=? and version>? order by version asc` through
`QueryContext`, whose error is `query` (`none` when the query runs): among others the
refusal of an `afterVersion` of 2^63 or more, which `database/sql` converts as a `uint64`
(`convertUint64`).  A context that has ended returns its error. -/
def get (s : SQL α μ) (db : Database) (ctx : Context) (query : Option Error)
    (id aggregateType : String) (afterVersion : Nat) : Except Error (Iterator α μ) :=
  match query with
  | some err => .error err
  | none =>
    match ctx.err with
    | some err => .error err
    | none =>
      .ok ⟨(db.rows.filter fun row =>
          row.id = id ∧ row.typ = aggregateType ∧ afterVersion < row.version).insertionSort
        fun row row' => row.version ≤ row'.version, s.serializer⟩

/-! ### The rows `Save` writes -/

/-- `row` is the row `Save` writes for `event`: the event's identity, Version, reason and
type, the text of its timestamp, and the bytes the serializer gave for its payload and its
metadata. -/
structure Written [Reason α] (serializer : Serializer α μ) (event : Event α μ) (row : Row) :
    Prop where
  id : row.id = event.aggregateID
  version : row.version = event.version
  reason : row.reason = event.reason
  typ : row.typ = event.aggregateType
  timestamp : row.timestamp = formatRFC3339 event.timestamp
  data : serializer.marshal event.data = .ok row.data
  metadata : marshalMetadata serializer event.metadata = .ok row.metadata

/-- A turn of the insert loop that succeeds appends one row, under the next key, written
for the event, and moves the next key on. -/
theorem insertEvent_eq_ok [Reason α] {s : SQL α μ} {faults : Faults} {i : Nat}
    {tx tx' : Database} {event : Event α μ} (inserted : s.insertEvent faults i tx event = .ok tx') :
    ∃ row, tx'.rows = tx.rows ++ [row] ∧ row.seq = tx.nextSeq ∧ tx'.nextSeq = tx.nextSeq + 1 ∧
      Written s.serializer event row := by
  cases data : s.serializer.marshal event.data <;>
    cases metadata : marshalMetadata s.serializer event.metadata <;>
    cases exec : faults.exec i <;> cases last : faults.lastInsertId i <;>
    simp only [insertEvent, data, metadata, exec, last, bind, Except.bind, pure, Except.pure,
      throw, throwThe, MonadExceptOf.throw, reduceCtorEq, Except.ok.injEq] at inserted
  subst inserted
  exact ⟨_, rfl, rfl, rfl, rfl, rfl, rfl, rfl, rfl, data, metadata⟩

/-- **What the insert loop leaves behind**, wherever the driver fails.  The turns that ran
are those of a prefix of the batch: the loop's table has one row appended per event of the
prefix, written for it under the next keys in turn, and the caller's slice has the prefix's
events stamped with their rows' keys, then the rest of the batch as it was.  The prefix is
the whole batch when the loop succeeds. -/
theorem insertEvents_prefix [Reason α] (s : SQL α μ) (faults : Faults) (i : Nat) (tx : Database)
    (events : List (Event α μ)) :
    ∃ newRows, (s.insertEvents faults i tx events).2.1.rows = tx.rows ++ newRows ∧
      List.Forall₂ (Written s.serializer) (events.take newRows.length) newRows ∧
      newRows.map Row.seq = List.range' tx.nextSeq newRows.length ∧
      (s.insertEvents faults i tx events).2.2 =
        List.zipWith (fun event row => { event with globalVersion := row.seq }) events newRows ++
          events.drop newRows.length ∧
      ((s.insertEvents faults i tx events).1 = .ok () → newRows.length = events.length) := by
  induction events generalizing i tx with
  | nil => exact ⟨[], by simp [insertEvents], .nil, rfl, rfl, fun _ => rfl⟩
  | cons event rest ih =>
    unfold insertEvents
    cases turn : s.insertEvent faults i tx event with
    | error err => exact ⟨[], by simp, .nil, rfl, by simp, by simp⟩
    | ok tx' =>
      obtain ⟨row, rows, seq, next, written⟩ := insertEvent_eq_ok turn
      obtain ⟨newRows, rows', written', keys, slice, complete⟩ := ih (i + 1) tx'
      refine ⟨row :: newRows, by simp [rows', rows], .cons written written', ?_,
        by simp [slice, seq], by simpa using complete⟩
      simp [seq, keys, next, List.range'_succ]

/-- **The insert loop writes the batch.**  A loop that succeeds appends one row per event,
in batch order, each written for its event, and the caller's slice is the batch with each
event's GlobalVersion set to its row's key. -/
theorem insertEvents_ok [Reason α] (s : SQL α μ) (faults : Faults) :
    ∀ {i : Nat} {tx : Database} {events : List (Event α μ)},
      (s.insertEvents faults i tx events).1 = .ok () →
      ∃ newRows, (s.insertEvents faults i tx events).2.1.rows = tx.rows ++ newRows ∧
        List.Forall₂ (Written s.serializer) events newRows ∧
        (s.insertEvents faults i tx events).2.2 =
          List.zipWith (fun event row => { event with globalVersion := row.seq }) events newRows := by
  intro i tx events ok
  obtain ⟨newRows, rows, written, -, slice, complete⟩ := insertEvents_prefix s faults i tx events
  rw [complete ok, List.take_length] at written
  rw [complete ok, List.drop_length, List.append_nil] at slice
  exact ⟨newRows, rows, written, slice⟩

/-- A `Save` that succeeds committed what its insert loop did. -/
theorem insertEvents_of_save [Reason α] {s : SQL α μ} {db tx : Database} {faults : Faults}
    {events slice : List (Event α μ)} (saved : s.save db faults events = (.ok (), tx, slice)) :
    s.insertEvents faults 0 db events = (.ok (), tx, slice) := by
  unfold save at saved
  repeat' split at saved
  all_goals cases saved
  · rfl
  · assumption

/-- **What `Save` leaves in the caller's slice**, whatever it returns: the batch with a
prefix of its events stamped with the keys `db.nextSeq`, `db.nextSeq + 1`, ... that the
insert loop read back, and the rest as it was.  The slice is written before the commit, so
the prefix is as long as the loop got, also when `Save` then fails and the table is rolled
back (`save_eq_error`). -/
theorem save_stamps_prefix [Reason α] (s : SQL α μ) (db : Database) (faults : Faults)
    (events : List (Event α μ)) :
    ∃ stamped ≤ events.length, (s.save db faults events).2.2 =
      List.zipWith (fun event seq => { event with globalVersion := seq }) events
        (List.range' db.nextSeq stamped) ++ events.drop stamped := by
  obtain ⟨newRows, -, written, keys, loopSlice, -⟩ := insertEvents_prefix s faults 0 db events
  have loop : ∃ stamped ≤ events.length, (s.insertEvents faults 0 db events).2.2 =
      List.zipWith (fun event seq => { event with globalVersion := seq }) events
        (List.range' db.nextSeq stamped) ++ events.drop stamped :=
    ⟨newRows.length, written.length_eq.symm.trans_le (List.length_take_le' _ _),
      by rw [loopSlice, ← keys, List.zipWith_map_right]⟩
  cases events with
  | nil => exact ⟨0, le_rfl, rfl⟩
  | cons first rest =>
    -- the slice is the batch before the loop and the loop's slice after it
    rcases call : s.insertEvents faults 0 db (first :: rest) with ⟨_ | _, tx, slice⟩ <;>
      simp only [save, call] at loop ⊢ <;>
      repeat' split
    any_goals exact loop
    all_goals exact ⟨0, Nat.zero_le _, by simp⟩

/-! ### Reading rows back -/

/-- **`eventsFromRows` is its loop's turn on each row in order**: the first error ends the
read, and the events of the registered rows are kept. -/
theorem eventsFromRows_eq (s : SQL α μ) (rows : List Row) :
    s.eventsFromRows rows = (rows.mapM (readRow s.serializer)).map (List.filterMap id) := by
  induction rows with
  | nil => rfl
  | cons row rows ih =>
    rw [List.mapM_cons]
    cases turn : readRow s.serializer row with
    | error err => simp [eventsFromRows, turn, Except.map]
    | ok found =>
      cases read : rows.mapM (readRow s.serializer) <;> rw [read] at ih <;>
        cases found <;> simp [eventsFromRows, turn, ih, Functor.map, Except.map]

/-- A row whose timestamp parses is skipped exactly when `find` does not register it, and
is otherwise the event `decode` builds. -/
theorem readRow_of_parsed {serializer : Serializer α μ} {row : Row} {t : Time}
    (parsed : parseRFC3339 row.timestamp = .ok t) :
    readRow serializer row =
      match find serializer row with
      | none => .ok none
      | some found => some <$> decode serializer found := by
  cases registered : serializer.type row.typ row.reason <;>
    simp [readRow, decode, find, parsed, registered]

/-- **Skipping unregistered rows.**  Over rows whose timestamps parse, `eventsFromRows`
rebuilds, in order, exactly the rows the registry knows. -/
theorem eventsFromRows_parsed (s : SQL α μ) :
    ∀ {rows : List Row}, (∀ row ∈ rows, ∃ t, parseRFC3339 row.timestamp = .ok t) →
      s.eventsFromRows rows = (rows.filterMap (find s.serializer)).mapM (decode s.serializer)
  | [], _ => rfl
  | row :: rows, parsed => by
    obtain ⟨t, parsedHead⟩ := parsed row (List.mem_cons_self _ _)
    have tail := eventsFromRows_parsed s fun row member =>
      parsed row (List.mem_cons_of_mem _ member)
    cases found : find s.serializer row with
    | none =>
      simp [eventsFromRows, readRow_of_parsed parsedHead, found, tail]
    | some found' =>
      rw [List.filterMap_cons_some found, List.mapM_cons, ← tail]
      cases decoded : decode s.serializer found' <;>
        simp [eventsFromRows, readRow_of_parsed parsedHead, found, decoded]

/-- A row whose timestamp does not parse ends the read with the parse error, whether its
type and reason are registered or not. -/
theorem eventsFromRows_unparsed (s : SQL α μ) {row : Row} {err : Error}
    (unparsed : parseRFC3339 row.timestamp = .error err) (rows : List Row) :
    s.eventsFromRows (row :: rows) = .error err := by
  simp [eventsFromRows, readRow, unparsed, bind, Except.bind]

/-- `GlobalEvents` on arguments `database/sql` accepts takes its page before skipping: it
reads the first `count` rows at or past `start`. -/
theorem globalEvents_eq (s : SQL α μ) (db : Database) {start count : UInt64}
    (starts : start.toNat < 2 ^ 63) (counts : count.toNat < 2 ^ 63) :
    s.globalEvents db start count =
      s.eventsFromRows ((db.rows.filter fun row => start.toNat ≤ row.seq).take count.toNat) := by
  unfold globalEvents convertUint64
  rw [if_pos starts, if_pos counts]
  rfl

/-- An argument with the high bit set is refused before the query runs. -/
theorem globalEvents_high_bit (s : SQL α μ) (db : Database) {start count : UInt64}
    (high : 2 ^ 63 ≤ start.toNat ∨ 2 ^ 63 ≤ count.toNat) :
    ∃ err, s.globalEvents db start count = .error err := by
  unfold globalEvents convertUint64
  by_cases starts : start.toNat < 2 ^ 63
  · rw [if_pos starts, if_neg (by omega)]
    exact ⟨_, rfl⟩
  · rw [if_neg starts]
    exact ⟨_, rfl⟩

/-- A table whose first row at or past `start = 1` has an unregistered reason: a page of
one event is empty, and a page of two finds the registered event behind it. -/
theorem globalEvents_page_of_unregistered :
    let db : Database := (Database.empty.insert "p" 1 "Renamed" "Person"
      "1970-01-01T00:00:00Z" [] []).insert "p" 2 "AgedOneYear" "Person" "1970-01-01T00:00:00Z" [] []
    let s : SQL PersonEvent Unit := ⟨personSerializer⟩
    s.globalEvents db 1 1 = .ok [] ∧
      s.globalEvents db 1 2 = .ok [⟨"p", 2, 2, "Person", ⟨0, 0, by decide⟩, .agedOneYear, none⟩] := by
  decide

/-! ### The round trip -/

/-- The store reads back what `Save` writes for `event`: the event's year has four digits,
so that the text of its timestamp parses; the event's type and reason are registered, the
registry's fresh payload unmarshals the payload's bytes to the payload, and the bytes of a
metadata map, never empty (a JSON map is at least `{}`), unmarshal to the map. -/
structure RoundTrips [Reason α] (serializer : Serializer α μ) (event : Event α μ) : Prop where
  timestamp : Rfc3339.FourDigitYear event.timestamp
  registered : ∃ fresh, serializer.type event.aggregateType event.reason = some fresh ∧
    ∀ bytes, serializer.marshal event.data = .ok bytes →
      serializer.unmarshal bytes fresh = .ok event.data
  metadata : ∀ map bytes, event.metadata = some map →
    serializer.marshalMetadata map = .ok bytes →
      bytes ≠ [] ∧ serializer.unmarshalMetadata bytes = .ok map

/-- The metadata column reads back as the map it was written from. -/
theorem unmarshalMetadata_of_marshalMetadata {serializer : Serializer α μ}
    {metadata : Option μ} {bytes : Bytes}
    (inverts : ∀ map bytes, metadata = some map → serializer.marshalMetadata map = .ok bytes →
      bytes ≠ [] ∧ serializer.unmarshalMetadata bytes = .ok map)
    (written : marshalMetadata serializer metadata = .ok bytes) :
    unmarshalMetadata serializer bytes = .ok metadata := by
  cases metadata with
  | none =>
    cases written
    rfl
  | some map =>
    obtain ⟨nonempty, read⟩ := inverts map bytes rfl written
    simp [unmarshalMetadata, nonempty, read]

/-- A row written for an event the serializer reads back is rebuilt as the event, under the
row's key and with the timestamp's whole second. -/
theorem eventsFromRows_cons_written [Reason α] {s : SQL α μ} {event : Event α μ} {row : Row}
    (rows : List Row) (written : Written s.serializer event row)
    (roundTrips : RoundTrips s.serializer event) :
    s.eventsFromRows (row :: rows) =
      ({ event with globalVersion := row.seq, timestamp := wholeSecond event.timestamp } :: ·) <$>
        s.eventsFromRows rows := by
  obtain ⟨fresh, registered, data⟩ := roundTrips.registered
  obtain ⟨id, version, reason, typ, timestamp, marshalled, metadata⟩ := written
  simp [eventsFromRows, readRow, rowEvent, id, version, reason, typ, timestamp, registered,
    parseRFC3339_formatRFC3339 roundTrips.timestamp, data _ marshalled,
    unmarshalMetadata_of_marshalMetadata roundTrips.metadata metadata]

/-- Rows written for a batch the serializer reads back are rebuilt as the batch, each event
under its row's key and with its timestamp's whole second. -/
theorem eventsFromRows_written [Reason α] {s : SQL α μ} :
    ∀ {events : List (Event α μ)} {rows : List Row},
      List.Forall₂ (Written s.serializer) events rows →
      (∀ event ∈ events, RoundTrips s.serializer event) →
      s.eventsFromRows rows = .ok (List.zipWith (fun event row =>
        { event with globalVersion := row.seq, timestamp := wholeSecond event.timestamp })
          events rows)
  | [], [], .nil, _ => rfl
  | event :: _, row :: rows, .cons written written', roundTrips => by
    rw [eventsFromRows_cons_written rows written (roundTrips event (List.mem_cons_self _ _)),
      eventsFromRows_written written' fun event member =>
        roundTrips event (List.mem_cons_of_mem _ member)]
    rfl

/-- **The SQL round trip.**  After a `Save` that succeeds, the rows it appended are rebuilt
by `eventsFromRows` as the caller's slice, field for field, except that each timestamp
comes back as its whole second; the slice is the batch with each event's GlobalVersion set
to its row's key. -/
theorem save_read_back [Reason α] {s : SQL α μ} {db : Database} {faults : Faults}
    {events : List (Event α μ)} (roundTrips : ∀ event ∈ events, RoundTrips s.serializer event)
    (saved : (s.save db faults events).1 = .ok ()) :
    ∃ newRows, (s.save db faults events).2.1.rows = db.rows ++ newRows ∧
      (s.save db faults events).2.2 =
        List.zipWith (fun event row => { event with globalVersion := row.seq }) events newRows ∧
      s.eventsFromRows newRows = .ok ((s.save db faults events).2.2.map fun event =>
        { event with timestamp := wholeSecond event.timestamp }) := by
  rcases call : s.save db faults events with ⟨result, tx, slice⟩
  rw [call] at saved
  cases saved
  obtain ⟨newRows, rows, written, sliceEq⟩ :=
    insertEvents_ok s faults (by rw [insertEvents_of_save call])
  rw [insertEvents_of_save call] at rows sliceEq
  refine ⟨newRows, rows, sliceEq, ?_⟩
  rw [eventsFromRows_written written roundTrips, sliceEq, List.map_zipWith]

/-- A batch of one event saved at half past second 0 and read back. -/
example :
    let born : Event PersonEvent Unit := ⟨"p", 1, 0, "Person", ⟨0, 500000000, by decide⟩,
      .born "", none⟩
    let s : SQL PersonEvent Unit := ⟨personSerializer⟩
    (∀ event ∈ [born], RoundTrips s.serializer event) ∧
      (s.save Database.empty Faults.none [born]).1 = .ok () ∧
      ∃ newRows, (s.save Database.empty Faults.none [born]).2.1.rows = [] ++ newRows ∧
        (s.save Database.empty Faults.none [born]).2.2 =
          List.zipWith (fun event row => { event with globalVersion := row.seq }) [born]
            newRows ∧
        s.eventsFromRows newRows = .ok ((s.save Database.empty Faults.none [born]).2.2.map
          fun event => { event with timestamp := wholeSecond event.timestamp }) := by
  intro born s
  have roundTrips : ∀ event ∈ [born], RoundTrips s.serializer event := by
    simp only [List.mem_singleton, forall_eq]
    exact ⟨by decide, ⟨.born "", rfl, fun _ _ => rfl⟩, fun _ _ none => nomatch none⟩
  have saved : (s.save Database.empty Faults.none [born]).1 = .ok () := by decide
  exact ⟨roundTrips, saved, save_read_back roundTrips saved⟩

/-- An event saved at half past second 0 is read back at second 0: the rebuilt event
differs from the caller's saved event in its timestamp. -/
theorem save_read_back_sub_second :
    let born : Event PersonEvent Unit := ⟨"p", 1, 0, "Person", ⟨0, 500000000, by decide⟩,
      .born "", none⟩
    let s : SQL PersonEvent Unit := ⟨personSerializer⟩
    let (result, db, slice) := s.save Database.empty Faults.none [born]
    result = .ok () ∧ slice = [{ born with globalVersion := 1 }] ∧
      s.eventsFromRows db.rows =
        .ok [{ born with globalVersion := 1, timestamp := ⟨0, 0, by decide⟩ }] ∧
      s.eventsFromRows db.rows ≠ .ok slice := by
  decide

end SQL

end EventSourcing
