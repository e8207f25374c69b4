import EventSourcing.Memory.Aggregates
import EventSourcing.Sql.Refinement
import EventSourcing.Esdb.Refinement
import EventSourcing.GlobalEvents

/-
Module: EventSourcing.Backends
Purpose: The three event stores side by side.  Fed the same root batches whose events
  marshal, of aggregate types whose names hold neither the memory store's `_` nor
  EventStoreDB's `-`, the memory store, the SQL store on a driver that does not fail and
  the EventStoreDB store accept the same batches, and hold the same events: the memory
  store's global order is the SQL table, event by row and GlobalVersion by key, and each
  aggregate's bucket is its stream, encoded.  `Get` then reads the same events of an
  aggregate from the three, and `GlobalEvents` the same global order from the memory and
  SQL stores.
Trusted boundary: the stores' models.
Main exports: Separated, RootBatch, Joint, WrittenAt, Agree, Agree.save, Joint.agree,
  stores_agree, stores_get_agree, stores_global_events_agree
-/

namespace EventSourcing

open Sql

variable {α μ : Type} [Reason α]

/-- An aggregate type that the memory store's bucket names and EventStoreDB's stream names
both keep apart from the ID: it holds neither `_` nor `-`. -/
def Separated (aggregateType : String) : Prop :=
  '_' ∉ aggregateType.toList ∧ ESDB.streamSeparator ∉ aggregateType.toList

instance (aggregateType : String) : Decidable (Separated aggregateType) :=
  inferInstanceAs (Decidable (_ ∧ _))

theorem Memory.aggregateKey_inj {aggregateType aggregateType' aggregateID aggregateID' : String}
    (separated : Separated aggregateType) (separated' : Separated aggregateType') :
    Memory.aggregateKey aggregateType aggregateID = Memory.aggregateKey aggregateType' aggregateID' ↔
      aggregateType = aggregateType' ∧ aggregateID = aggregateID' :=
  ⟨Memory.aggregateKey_injective separated.1 separated'.1, by rintro ⟨rfl, rfl⟩; rfl⟩

/-- A batch as an aggregate root hands it to a store, of a type the three stores key
apart: one aggregate, Versions contiguous from at least 1, and events that the SQL store's
and EventStoreDB's serializers marshal. -/
structure RootBatch (s : SQL α μ) (es : ESDB α μ) (first : Event α μ) (rest : List (Event α μ)) :
    Prop where
  same : SameAggregate first.aggregateID first.aggregateType (first :: rest)
  numbered : Numbered first.version (first :: rest)
  versioned : 1 ≤ first.version
  separated : Separated first.aggregateType
  marshals : ∀ event ∈ first :: rest, (∃ e, s.serializer.marshal event.data = .ok e) ∧
    ∃ m, SQL.marshalMetadata s.serializer event.metadata = .ok m
  encodes : ∃ esdbEvents, (first :: rest).mapM es.eventData = .ok esdbEvents

/-- The states the three stores reach from empty when they are given the same root
batches, the SQL store on a driver that does not fail and EventStoreDB at any clock and
commit position. -/
inductive Joint (s : SQL α μ) (es : ESDB α μ) : Memory α μ → Database → Esdb.Server → Prop
  | empty : Joint s es Memory.create Database.empty Esdb.Server.empty
  | save {store : Memory α μ} {db : Database} {server : Esdb.Server} (now : Time)
      (position : Nat) {first : Event α μ} {rest : List (Event α μ)}
      (batch : RootBatch s es first rest) :
      Joint s es store db server →
      Joint s es (store.save (first :: rest)).2.1 (s.save db Faults.none (first :: rest)).2.1
        (es.save server now position (first :: rest)).2.1

theorem Joint.memory {s : SQL α μ} {es : ESDB α μ} {store : Memory α μ} {db : Database}
    {server : Esdb.Server} (joint : Joint s es store db server) : Memory.Reachable store := by
  induction joint with
  | empty => exact .create
  | save _ _ _ _ reachable => exact reachable.save _

theorem Joint.sql {s : SQL α μ} {es : ESDB α μ} {store : Memory α μ} {db : Database}
    {server : Esdb.Server} (joint : Joint s es store db server) : Sql.Reachable db := by
  induction joint with
  | empty => exact .empty
  | save _ _ _ _ reachable => exact reachable.save s Faults.none _

/-! ### What each store accepts -/

namespace RootBatch

variable {s : SQL α μ} {es : ESDB α μ} {first : Event α μ} {rest : List (Event α μ)}

/-- The memory store, in a reachable state, accepts a root batch exactly when its first
Version follows the events of its bucket. -/
theorem memory_accepts_iff (batch : RootBatch s es first rest) {store : Memory α μ}
    (reachable : Memory.Reachable store) :
    (store.save (first :: rest)).1 = .ok () ↔ first.version =
      (store.aggregateEvents (Memory.aggregateKey first.aggregateType first.aggregateID)).length + 1 := by
  rw [((Memory.save_refines (Memory.Invariant.reachable reachable) first rest).1)]
  simp only [VersionLog.append, VersionLog.current, Memory.numbered_stamp]
  constructor
  · rintro ⟨-, continues⟩
    split at continues
    · exact (numbered_cons.mp ‹_›).1
    · cases continues
  · intro continues
    exact ⟨batch.same, by rw [if_pos (continues ▸ batch.numbered)]; rfl⟩

/-- The SQL store, on a table `Save` calls build and a driver that does not fail, accepts a
root batch exactly when its first Version follows the aggregate's rows. -/
theorem sql_accepts_iff (batch : RootBatch s es first rest) {db : Database}
    (reachable : Sql.Reachable db) :
    (s.save db Faults.none (first :: rest)).1 = .ok () ↔
      first.version = (aggregateRows db.rows first.aggregateID first.aggregateType).length + 1 :=
  (Sql.save_accepts_iff reachable s batch.same batch.numbered batch.marshals).1

/-- EventStoreDB accepts a root batch exactly when its first Version follows the events of
its stream. -/
theorem esdb_accepts_iff (batch : RootBatch s es first rest) (server : Esdb.Server)
    (now : Time) (position : Nat) :
    (es.save server now position (first :: rest)).1 = .ok () ↔ first.version =
      (server.streams (ESDB.stream first.aggregateType first.aggregateID)).length + 1 := by
  obtain ⟨esdbEvents, encoded⟩ := batch.encodes
  exact ((ESDB.save_root_batch es server now position batch.same batch.numbered
    batch.versioned).2 esdbEvents encoded).1

/-- Every event of a root batch, stamped or not, is of its separated type. -/
theorem separated_stamp (batch : RootBatch s es first rest) (base : Nat) :
    ∀ event ∈ Memory.stamp base (first :: rest), Separated event.aggregateType := by
  intro event member
  rw [(Memory.sameAggregate_stamp.mpr batch.same event member).2]
  exact batch.separated

end RootBatch

/-! ### The stamps -/

/-- A row of the SQL table holding an event of the memory store's global order: written
for the event, under the event's GlobalVersion as key. -/
def WrittenAt (s : SQL α μ) (event : Event α μ) (row : Row) : Prop :=
  SQL.Written s.serializer event row ∧ row.seq = event.globalVersion

/-- A batch written under the keys after `base`, stamped from `base`, is written at its
GlobalVersions. -/
theorem forall₂_writtenAt_stamp {s : SQL α μ} :
    ∀ {base : Nat} {events : List (Event α μ)} {rows : List Row},
      List.Forall₂ (SQL.Written s.serializer) events rows →
      rows.map Row.seq = List.range' (base + 1) rows.length →
      List.Forall₂ (WrittenAt s) (Memory.stamp base events) rows
  | _, [], [], .nil, _ => .nil
  | _, _ :: _, _ :: _, .cons head tail, keys => by
    simp only [List.map_cons, List.length_cons, List.range'_succ, List.cons.injEq] at keys
    exact .cons ⟨⟨head.id, head.version, head.reason, head.typ, head.timestamp, head.data,
      head.metadata⟩, keys.1⟩ (forall₂_writtenAt_stamp tail keys.2)

/-- The SQL store stamps a batch written under the keys after `base` as the memory store
stamps it from `base`. -/
theorem zipWith_stamp {s : SQL α μ} :
    ∀ {base : Nat} {events : List (Event α μ)} {rows : List Row},
      List.Forall₂ (SQL.Written s.serializer) events rows →
      rows.map Row.seq = List.range' (base + 1) rows.length →
      List.zipWith (fun event row => { event with globalVersion := row.seq }) events rows =
        Memory.stamp base events
  | _, [], [], .nil, _ => rfl
  | _, _ :: _, _ :: _, .cons _ tail, keys => by
    simp only [List.map_cons, List.length_cons, List.range'_succ, List.cons.injEq] at keys
    rw [List.zipWith_cons_cons, keys.1, zipWith_stamp tail keys.2]
    rfl

/-- Rows under their events' GlobalVersions read back as the events, timestamps cut to the
second. -/
theorem zipWith_writtenAt {s : SQL α μ} :
    ∀ {events : List (Event α μ)} {rows : List Row}, List.Forall₂ (WrittenAt s) events rows →
      List.zipWith (fun event row =>
          { event with globalVersion := row.seq, timestamp := wholeSecond event.timestamp })
        events rows =
        events.map fun event => { event with timestamp := wholeSecond event.timestamp }
  | [], [], .nil => rfl
  | _ :: _, _ :: _, .cons head tail => by
    rw [List.zipWith_cons_cons, List.map_cons, head.2, zipWith_writtenAt tail]

/-- Stamping changes no event's encoding. -/
theorem forall₂_encodes_stamp {es : ESDB α μ} :
    ∀ {base : Nat} {events : List (Event α μ)} {records : List Esdb.StoredEvent},
      List.Forall₂ es.Encodes events records →
      List.Forall₂ es.Encodes (Memory.stamp base events) records
  | _, [], [], .nil => .nil
  | _, _ :: _, _ :: _, .cons head tail => .cons head (forall₂_encodes_stamp tail)

/-! ### The agreement -/

/-- What the three stores hold in common after the same root batches.  The memory store's
global order is the SQL table, event by row, each event's GlobalVersion its row's key;
every aggregate type in it is separated; and the EventStoreDB stream of each aggregate of a
separated type holds the aggregate's memory bucket, encoded. -/
structure Agree (s : SQL α μ) (es : ESDB α μ) (store : Memory α μ) (db : Database)
    (server : Esdb.Server) : Prop where
  table : List.Forall₂ (WrittenAt s) store.eventsInOrder db.rows
  separated : ∀ event ∈ store.eventsInOrder, Separated event.aggregateType
  streams : ∀ typ id, Separated typ → List.Forall₂ es.Encodes
    (store.aggregateEvents (Memory.aggregateKey typ id)) (server.streams (ESDB.stream typ id))

namespace Agree

variable {s : SQL α μ} {es : ESDB α μ} {store : Memory α μ} {db : Database}
  {server : Esdb.Server}

theorem empty : Agree s es Memory.create Database.empty Esdb.Server.empty :=
  ⟨.nil, fun _ member => (nomatch member), fun _ _ _ => .nil⟩

/-- An aggregate's memory bucket is its rows of the SQL table. -/
theorem rows (agree : Agree s es store db server) (invariant : Memory.Invariant store)
    {typ : String} (id : String) (separated : Separated typ) :
    List.Forall₂ (WrittenAt s) (store.aggregateEvents (Memory.aggregateKey typ id))
      (aggregateRows db.rows id typ) := by
  rw [invariant.buckets, aggregateRows]
  refine (List.rel_filter (fun event row related => ?_)
    ((List.forall₂_and_left _ _).mpr ⟨agree.separated, agree.table⟩)).imp fun _ _ => And.right
  simp only [decide_eq_true_eq, related.2.1.id, related.2.1.typ,
    Memory.aggregateKey_inj related.1 separated, and_comm]

/-- The three stores hold as many events of each aggregate of a separated type. -/
theorem lengths (agree : Agree s es store db server) (invariant : Memory.Invariant store)
    {typ : String} (id : String) (separated : Separated typ) :
    (aggregateRows db.rows id typ).length =
        (store.aggregateEvents (Memory.aggregateKey typ id)).length ∧
      (server.streams (ESDB.stream typ id)).length =
        (store.aggregateEvents (Memory.aggregateKey typ id)).length :=
  ⟨(agree.rows invariant id separated).length_eq.symm,
    (agree.streams typ id separated).length_eq.symm⟩

variable {first : Event α μ} {rest : List (Event α μ)}

/-- Agreeing stores accept the same root batches. -/
theorem accepts_iff (agree : Agree s es store db server) (reachable : Memory.Reachable store)
    (sqlReachable : Sql.Reachable db) (now : Time) (position : Nat)
    (batch : RootBatch s es first rest) :
    ((store.save (first :: rest)).1 = .ok () ↔ (s.save db Faults.none (first :: rest)).1 = .ok ()) ∧
      ((s.save db Faults.none (first :: rest)).1 = .ok () ↔
        (es.save server now position (first :: rest)).1 = .ok ()) := by
  obtain ⟨rows, streams⟩ :=
    agree.lengths (Memory.Invariant.reachable reachable) first.aggregateID batch.separated
  rw [batch.memory_accepts_iff reachable, batch.sql_accepts_iff sqlReachable,
    batch.esdb_accepts_iff, rows, streams]
  exact ⟨Iff.rfl, Iff.rfl⟩

/-- A root batch all three stores accept keeps them agreeing. -/
theorem save_accepted (agree : Agree s es store db server) (sqlReachable : Sql.Reachable db)
    (now : Time) (position : Nat) (batch : RootBatch s es first rest)
    (accepted : (store.save (first :: rest)).1 = .ok ())
    (sqlAccepted : (s.save db Faults.none (first :: rest)).1 = .ok ())
    (esdbAccepted : (es.save server now position (first :: rest)).1 = .ok ()) :
    Agree s es (store.save (first :: rest)).2.1 (s.save db Faults.none (first :: rest)).2.1
      (es.save server now position (first :: rest)).2.1 := by
  rw [Memory.save_accepted accepted]
  obtain ⟨newRows, rows, written, keys, -⟩ := sqlReachable.save_ok sqlAccepted
  obtain ⟨esdbEvents, encoded⟩ := batch.encodes
  have appends := ((ESDB.save_root_batch es server now position batch.same batch.numbered
    batch.versioned).2 esdbEvents encoded).2.1 esdbAccepted
  refine ⟨?_, ?_, fun typ id separated => ?_⟩
  · rw [rows]
    refine List.rel_append agree.table (forall₂_writtenAt_stamp written ?_)
    rwa [agree.table.length_eq]
  · simp only [List.mem_append]
    rintro event (old | new)
    · exact agree.separated event old
    · exact batch.separated_stamp _ event new
  · dsimp only
    rw [appends]
    by_cases here : typ = first.aggregateType ∧ id = first.aggregateID
    · obtain ⟨rfl, rfl⟩ := here
      simp only [Function.update_same]
      exact List.rel_append (agree.streams _ _ separated)
        (forall₂_encodes_stamp (ESDB.encodes_stored encoded now))
    · rw [Function.update_noteq (mt (Memory.aggregateKey_inj separated batch.separated).mp here),
        Function.update_noteq (mt (ESDB.stream_inj separated.2 batch.separated.2).mp here)]
      exact agree.streams typ id separated

/-- **Every root batch keeps the three stores agreeing.** -/
theorem save (agree : Agree s es store db server) (reachable : Memory.Reachable store)
    (sqlReachable : Sql.Reachable db) (now : Time) (position : Nat)
    (batch : RootBatch s es first rest) :
    Agree s es (store.save (first :: rest)).2.1 (s.save db Faults.none (first :: rest)).2.1
      (es.save server now position (first :: rest)).2.1 := by
  obtain ⟨sqlIff, esdbIff⟩ := agree.accepts_iff reachable sqlReachable now position batch
  by_cases accepted : (store.save (first :: rest)).1 = .ok ()
  · have sqlAccepted := sqlIff.mp accepted
    exact agree.save_accepted sqlReachable now position batch accepted sqlAccepted
      (esdbIff.mp sqlAccepted)
  · have sqlRefused := mt sqlIff.mpr accepted
    obtain ⟨esdbEvents, encoded⟩ := batch.encodes
    rw [Memory.save_unchanged accepted, SQL.save_unchanged sqlRefused,
      ((ESDB.save_root_batch es server now position batch.same batch.numbered
        batch.versioned).2 esdbEvents encoded).2.2 (mt esdbIff.mpr sqlRefused)]
    exact agree

end Agree

theorem Joint.agree {s : SQL α μ} {es : ESDB α μ} {store : Memory α μ} {db : Database}
    {server : Esdb.Server} (joint : Joint s es store db server) : Agree s es store db server := by
  induction joint with
  | empty => exact Agree.empty
  | save now position batch joint agree =>
    exact agree.save joint.memory joint.sql now position batch

/-- A `Person`'s first event is a root batch. -/
theorem RootBatch.born :
    RootBatch (⟨personSerializer⟩ : SQL PersonEvent Unit) (ESDB.open personSerializer true)
      ⟨"p", 1, 0, "Person", ⟨0, 0, by decide⟩, .born "", none⟩ [] :=
  ⟨by decide, by decide, by decide, by decide,
    by simp only [List.mem_singleton, forall_eq]; exact ⟨⟨_, rfl⟩, _, rfl⟩, ⟨_, rfl⟩⟩

/-- **The three stores agree.**  After any run of root batches given to all three (the SQL
store on a driver that does not fail), the memory store's global order is the SQL table,
event by row, each event's GlobalVersion its row's key, and each aggregate's bucket is its
EventStoreDB stream, encoded.  The next root batch is then accepted by all three stores or
by none, and when it is accepted the memory and SQL stores hand the caller the same
GlobalVersions, while EventStoreDB gives every event of the batch one GlobalVersion, the
commit position the server reports. -/
theorem stores_agree {s : SQL α μ} {es : ESDB α μ} {store : Memory α μ} {db : Database}
    {server : Esdb.Server} (joint : Joint s es store db server) :
    Agree s es store db server ∧
    ∀ (now : Time) (position : Nat) (first : Event α μ) (rest : List (Event α μ)),
      RootBatch s es first rest →
      ((store.save (first :: rest)).1 = .ok () ↔
        (s.save db Faults.none (first :: rest)).1 = .ok ()) ∧
      ((s.save db Faults.none (first :: rest)).1 = .ok () ↔
        (es.save server now position (first :: rest)).1 = .ok ()) ∧
      ((store.save (first :: rest)).1 = .ok () →
        (store.save (first :: rest)).2.2 = (s.save db Faults.none (first :: rest)).2.2 ∧
        (es.save server now position (first :: rest)).2.2 = (first :: rest).map fun event =>
          { event with globalVersion := position }) := by
  have agree := joint.agree
  refine ⟨agree, fun now position first rest batch => ?_⟩
  obtain ⟨sqlIff, esdbIff⟩ := agree.accepts_iff joint.memory joint.sql now position batch
  refine ⟨sqlIff, esdbIff, fun accepted => ⟨?_, ?_⟩⟩
  · obtain ⟨newRows, -, written, keys, slice⟩ := joint.sql.save_ok (sqlIff.mp accepted)
    rw [← agree.table.length_eq] at keys
    rw [slice, (Memory.save_of_ok accepted).2, zipWith_stamp written keys]
  · exact ESDB.save_slice es server now position (esdbIff.mp (sqlIff.mp accepted))

/-- A `Person`'s first event given to the three empty stores. -/
theorem stores_agree_person :
    let s : SQL PersonEvent Unit := ⟨personSerializer⟩
    let es : ESDB PersonEvent Unit := ESDB.open personSerializer true
    let born : Event PersonEvent Unit := ⟨"p", 1, 0, "Person", ⟨0, 0, by decide⟩, .born "", none⟩
    Joint s es (Memory.create.save [born]).2.1 (s.save Database.empty Faults.none [born]).2.1
        (es.save Esdb.Server.empty born.timestamp 1 [born]).2.1 ∧
      Agree s es (Memory.create.save [born]).2.1 (s.save Database.empty Faults.none [born]).2.1
        (es.save Esdb.Server.empty born.timestamp 1 [born]).2.1 := by
  intro s es born
  have joint := Joint.save born.timestamp 1 RootBatch.born Joint.empty
  exact ⟨joint, (stores_agree joint).1⟩

/-- **The three stores read corresponding data of an aggregate.**  After any run of root
batches, `Get` of an aggregate of a separated type past `afterVersion`, on a live context:
the memory store's iterator drains to the bucket's events past `afterVersion`, or to
`ErrNoEvents` when there is none; the SQL store's iterator, for an `afterVersion` below
2^63 (`database/sql` refuses larger ones) and when its query runs, holds the rows written
for exactly these events, in order, at their GlobalVersions (no rows, and no error, when
there is none); and EventStoreDB's holds the records that encode them, in order, each
numbered one below its Version. -/
theorem stores_get_agree {s : SQL α μ} {es : ESDB α μ} {store : Memory α μ} {db : Database}
    {server : Esdb.Server} (joint : Joint s es store db server) {ctx : Context}
    (live : ctx.err = none) {typ : String} (separated : Separated typ) (id : String)
    (afterVersion : Nat) :
    let after : List (Event α μ) := (store.aggregateEvents (Memory.aggregateKey typ id)).filter
      fun event => afterVersion < event.version
    let records := Esdb.readStream server (ESDB.stream typ id) afterVersion
    (store.get id typ afterVersion).bind (drain Memory.Iterator.next (after.length + 1)) =
        (if after.length = 0 then .error .noEvents else .ok after) ∧
      (afterVersion < 2 ^ 63 →
        ∃ rows, s.get db ctx none id typ afterVersion = .ok ⟨rows, s.serializer⟩ ∧
          List.Forall₂ (WrittenAt s) after rows) ∧
      es.get server ctx id typ afterVersion = .ok ⟨records, es.serializer⟩ ∧
      List.Forall₂ (fun event record =>
        es.Encodes event record.toStored ∧ record.eventNumber + 1 = event.version) after records := by
  intro after records
  have invariant := Memory.Invariant.reachable joint.memory
  have agree := joint.agree
  have drop : after = (store.aggregateEvents (Memory.aggregateKey typ id)).drop afterVersion :=
    VersionLog.after_eq_drop invariant.numbered _ afterVersion
  refine ⟨Memory.drain_get store id typ afterVersion,
    fun _ => ⟨_, Sql.get_eq joint.sql.versioned live id typ afterVersion,
      List.rel_filter (fun _ _ related => by simp [related.1.version])
        (agree.rows invariant id separated)⟩,
    by rw [ESDB.get, live], ?_⟩
  rw [drop]
  exact ESDB.forall₂_recorded (List.forall₂_drop afterVersion (agree.streams typ id separated))
    ((invariant.numbered _).drop_succ afterVersion)

/-- A `Person`'s first event, read back from the SQL store as the memory store holds it. -/
theorem stores_get_agree_person :
    let s : SQL PersonEvent Unit := ⟨personSerializer⟩
    let born : Event PersonEvent Unit := ⟨"p", 1, 0, "Person", ⟨0, 0, by decide⟩, .born "", none⟩
    ∃ rows, s.get (s.save Database.empty Faults.none [born]).2.1 Context.background none "p"
        "Person" 0 = .ok ⟨rows, s.serializer⟩ ∧
      List.Forall₂ (WrittenAt s) (((Memory.create.save [born]).2.1.aggregateEvents
        (Memory.aggregateKey "Person" "p")).filter fun event => 0 < event.version) rows := by
  intro s born
  exact (stores_get_agree (Joint.save born.timestamp 1 RootBatch.born Joint.empty) rfl
    (by decide) "p" 0).2.1 (by decide)

/-- **The memory and SQL stores read the same global order.**  After any run of root
batches, when the SQL store reads back every event saved (registered, with four-digit
years), `GlobalEvents` from any `start` for a positive `count`, both below 2^63, returns
from the SQL store what it returns from the memory store, each timestamp cut to its whole
second. -/
theorem stores_global_events_agree {s : SQL α μ} {es : ESDB α μ} {store : Memory α μ}
    {db : Database} {server : Esdb.Server} (joint : Joint s es store db server)
    (roundTrips : ∀ event ∈ store.eventsInOrder, SQL.RoundTrips s.serializer event)
    (start count : UInt64) (positive : count ≠ 0) (starts : start.toNat < 2 ^ 63)
    (counts : count.toNat < 2 ^ 63) :
    s.globalEvents db start count = (store.globalEvents start count).map
      (List.map fun event => { event with timestamp := wholeSecond event.timestamp }) := by
  have read := List.forall₂_take count.toNat
    (List.forall₂_drop (start.toNat - 1) joint.agree.table)
  rw [SQL.globalEvents_dense s joint.sql.dense starts counts,
    (Memory.Invariant.reachable joint.memory).globalEvents, if_neg positive,
    SQL.eventsFromRows_written (read.imp fun _ _ => And.left)
      fun event member => roundTrips event (List.mem_of_mem_drop (List.mem_of_mem_take member)),
    zipWith_writtenAt read]
  rfl

/-- The global order of one saved `Person` event, read from both stores. -/
theorem stores_global_events_agree_person :
    let s : SQL PersonEvent Unit := ⟨personSerializer⟩
    let born : Event PersonEvent Unit := ⟨"p", 1, 0, "Person", ⟨0, 0, by decide⟩, .born "", none⟩
    s.globalEvents (s.save Database.empty Faults.none [born]).2.1 1 1 =
      ((Memory.create.save [born]).2.1.globalEvents 1 1).map
        (List.map fun event => { event with timestamp := wholeSecond event.timestamp }) := by
  intro s born
  refine stores_global_events_agree (Joint.save born.timestamp 1 RootBatch.born Joint.empty)
    (fun event member => ?_) 1 1 (by decide) (by decide) (by decide)
  rw [(Memory.save_of_ok (by decide)).1] at member
  simp only [Memory.create, Memory.stamp, List.nil_append, List.mem_singleton] at member
  subst member
  exact ⟨by decide, ⟨.born "", rfl, fun _ _ => rfl⟩, fun _ _ none => nomatch none⟩

end EventSourcing
