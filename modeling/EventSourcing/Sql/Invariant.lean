import EventSourcing.Sql.Store

/-
Module: EventSourcing.Sql.Invariant
Purpose: The SQL store over runs.  A `Save` that fails leaves the table as it was; in
  every table that `Save` calls build, each aggregate's rows carry the Versions
  `1, 2, ..., n` in key order, so the current-version query reads the number of the
  aggregate's rows, and a contiguous batch is written exactly when its first Version is
  that number plus one.
Trusted boundary: the store's model (`EventSourcing.Sql.Store`).
Main exports: Sql.aggregateRows, Sql.Versioned, Sql.Reachable, Sql.Reachable.versioned,
  SQL.save_eq_error, SQL.save_eq_ok, Sql.save_accepts_iff
-/

namespace EventSourcing

namespace Sql

/-- The rows of the aggregate `(typ, id)` in key order: the rows `Save`'s version query
reads (`where id=? and type=?`). -/
def aggregateRows (rows : List Row) (id typ : String) : List Row :=
  rows.filter fun row => row.id = id ∧ row.typ = typ

/-- Every aggregate's rows carry, in key order, the Versions `1, 2, ..., n`. -/
def Versioned (rows : List Row) : Prop :=
  ∀ id typ, (aggregateRows rows id typ).map Row.version =
    List.range' 1 (aggregateRows rows id typ).length

/-- Tables built from the empty one by `Save` calls, with any serializer, any batch and any
driver failures. -/
inductive Reachable : Database → Prop
  | empty : Reachable Database.empty
  | save {α μ : Type} [Reason α] {db : Database} (s : SQL α μ) (faults : Faults)
      (events : List (Event α μ)) : Reachable db → Reachable (s.save db faults events).2.1

/-- The largest of the Versions `1, ..., n` is `n`. -/
theorem foldl_max_range' (n : Nat) : (List.range' 1 n).foldl max 0 = n := by
  induction n with
  | zero => rfl
  | succ n ih =>
    rw [List.range'_concat, List.foldl_append, ih]
    simp only [List.foldl_cons, List.foldl_nil]
    omega

/-- In a versioned table the current-version query reads the number of the aggregate's
rows. -/
theorem currentVersion_eq {rows : List Row} (versioned : Versioned rows) (id typ : String) :
    currentVersion rows id typ = (aggregateRows rows id typ).length := by
  rw [currentVersion, ← aggregateRows, versioned, foldl_max_range']

theorem aggregateRows_append (rows newRows : List Row) (id typ : String) :
    aggregateRows (rows ++ newRows) id typ =
      aggregateRows rows id typ ++ aggregateRows newRows id typ :=
  List.filter_append _ _

/-- Rows appended for one aggregate, continuing its Versions, keep every aggregate
numbered; the aggregate's rows gain the new ones. -/
theorem versioned_append {rows newRows : List Row} {id typ : String} (versioned : Versioned rows)
    (keys : ∀ row ∈ newRows, row.id = id ∧ row.typ = typ)
    (continues : newRows.map Row.version =
      List.range' ((aggregateRows rows id typ).length + 1) newRows.length) :
    Versioned (rows ++ newRows) ∧
      aggregateRows (rows ++ newRows) id typ = aggregateRows rows id typ ++ newRows := by
  have own : aggregateRows newRows id typ = newRows :=
    List.filter_eq_self.mpr fun row member => by simp [keys row member]
  refine ⟨fun id' typ' => ?_, by rw [aggregateRows_append, own]⟩
  rw [aggregateRows_append]
  by_cases here : id' = id ∧ typ' = typ
  · obtain ⟨rfl, rfl⟩ := here
    have split := List.range'_append_1 1 (aggregateRows rows id' typ').length newRows.length
    rw [Nat.add_comm 1, Nat.add_comm newRows.length] at split
    rwa [own, List.map_append, versioned, continues, List.length_append]
  · have other : aggregateRows newRows id' typ' = [] :=
      List.filter_eq_nil_iff.mpr fun row member => by
        obtain ⟨rowId, rowTyp⟩ := keys row member
        simp only [rowId, rowTyp, decide_eq_true_eq]
        exact fun same => here ⟨same.1.symm, same.2.symm⟩
    rw [other, List.append_nil, versioned]

/-- The table's keys are `1, ..., n` in key order and the next key is `n + 1`: the keys
have no gap, since a rolled-back transaction gives its keys out again. -/
structure Dense (db : Database) : Prop where
  keys : db.rows.map Row.seq = List.range' 1 db.rows.length
  next : db.nextSeq = db.rows.length + 1

theorem Dense.empty : Dense Database.empty :=
  ⟨rfl, rfl⟩

end Sql

open Sql

namespace SQL

variable {α μ : Type} [Reason α]

/-! ### What one `Save` does to the table -/

/-- A `Save` that fails rolls its transaction back: the table is as it was. -/
theorem save_eq_error {s : SQL α μ} {db tx : Database} {faults : Faults}
    {events slice : List (Event α μ)} {err : Error}
    (saved : s.save db faults events = (.error err, tx, slice)) : tx = db := by
  unfold save at saved
  repeat' split at saved
  all_goals cases saved
  all_goals rfl

/-- Two events of `p` whose second `Exec` fails, on an empty table: `Save` returns the
driver's error and the table is still empty, but the caller's first event carries the
GlobalVersion 1 of a row that was rolled back, and the next `Save`, of another aggregate's
event, is given the same GlobalVersion 1.  When the commit fails instead, both events carry
the keys of rows that were never committed. -/
theorem save_failure_stamps_slice :
    let born : Event PersonEvent Unit := ⟨"p", 1, 0, "Person", ⟨0, 0, by decide⟩, .born "", none⟩
    let aged : Event PersonEvent Unit :=
      ⟨"p", 2, 0, "Person", ⟨0, 0, by decide⟩, .agedOneYear, none⟩
    let other : Event PersonEvent Unit := ⟨"q", 1, 0, "Person", ⟨0, 0, by decide⟩, .born "", none⟩
    let s : SQL PersonEvent Unit := ⟨personSerializer⟩
    let execFails : Faults :=
      { Faults.none with exec := fun i => if i = 1 then some (.foreign "exec") else none }
    let commitFails : Faults := { Faults.none with commit := some (.foreign "commit") }
    s.save Database.empty execFails [born, aged] =
        (.error (.foreign "exec"), Database.empty, [{ born with globalVersion := 1 }, aged]) ∧
      (s.save (s.save Database.empty execFails [born, aged]).2.1 Faults.none [other]).2.2 =
        [{ other with globalVersion := 1 }] ∧
      s.save Database.empty commitFails [born, aged] =
        (.error (.foreign "commit"), Database.empty,
          [{ born with globalVersion := 1 }, { aged with globalVersion := 2 }]) := by
  decide

/-- A `Save` that succeeds validated the batch against the aggregate's current Version and
appended one written row per event. -/
theorem save_eq_ok {s : SQL α μ} {db tx : Database} {faults : Faults} {first : Event α μ}
    {rest slice : List (Event α μ)} (saved : s.save db faults (first :: rest) = (.ok (), tx, slice)) :
    validateEvents first.aggregateID
        (currentVersion db.rows first.aggregateID first.aggregateType) (first :: rest) = .ok () ∧
      ∃ newRows, tx.rows = db.rows ++ newRows ∧
        List.Forall₂ (Written s.serializer) (first :: rest) newRows := by
  have valid : validateEvents first.aggregateID
      (currentVersion db.rows first.aggregateID first.aggregateType) (first :: rest) = .ok () := by
    simp only [save] at saved
    repeat' split at saved
    all_goals cases saved
    assumption
  obtain ⟨newRows, rows, written, -⟩ :=
    insertEvents_ok s faults (by rw [insertEvents_of_save saved])
  rw [insertEvents_of_save saved] at rows
  exact ⟨valid, newRows, rows, written⟩

/-- Written rows carry their events' Versions. -/
theorem versions_written {serializer : Serializer α μ} {events : List (Event α μ)}
    {rows : List Row} (written : List.Forall₂ (Written serializer) events rows) :
    rows.map Row.version = events.map Event.version := by
  induction written with
  | nil => rfl
  | cons head _ ih => simp [head.version, ih]

/-- The rows written for a batch of one aggregate belong to it. -/
theorem keys_written {serializer : Serializer α μ} {events : List (Event α μ)} {rows : List Row}
    {id typ : String} (written : List.Forall₂ (Written serializer) events rows)
    (same : SameAggregate id typ events) : ∀ row ∈ rows, row.id = id ∧ row.typ = typ := by
  induction written with
  | nil => simp
  | cons head _ ih =>
    simp only [SameAggregate, List.mem_cons, forall_eq_or_imp] at same
    simp only [List.mem_cons, forall_eq_or_imp, head.id, head.typ, same.1, true_and]
    exact ih same.2

/-- A successful `Save` on a versioned table keeps it versioned, and appends the batch's
rows to its aggregate's. -/
theorem save_versioned {s : SQL α μ} {db tx : Database} {faults : Faults} {first : Event α μ}
    {rest slice : List (Event α μ)} (versioned : Versioned db.rows)
    (saved : s.save db faults (first :: rest) = (.ok (), tx, slice)) :
    Versioned tx.rows ∧
      ∃ newRows, newRows.length = rest.length + 1 ∧
        aggregateRows tx.rows first.aggregateID first.aggregateType =
          aggregateRows db.rows first.aggregateID first.aggregateType ++ newRows := by
  obtain ⟨valid, newRows, rows, written⟩ := save_eq_ok saved
  obtain ⟨same, numbered⟩ := validateEvents_cons_eq_ok.mp valid
  have continues : newRows.map Row.version = List.range'
      ((aggregateRows db.rows first.aggregateID first.aggregateType).length + 1)
      newRows.length := by
    rw [versions_written written, ← written.length_eq, ← currentVersion_eq versioned]
    exact numbered
  rw [rows]
  obtain ⟨kept, grown⟩ := versioned_append versioned (keys_written written same) continues
  exact ⟨kept, newRows, written.length_eq.symm, grown⟩

/-- A `Save` that does not succeed leaves the table as it was. -/
theorem save_unchanged {s : SQL α μ} {db : Database} {faults : Faults}
    {events : List (Event α μ)} (failed : (s.save db faults events).1 ≠ .ok ()) :
    (s.save db faults events).2.1 = db := by
  rcases saved : s.save db faults events with ⟨result | result, tx, slice⟩
  · exact save_eq_error saved
  · rw [saved] at failed
    exact absurd rfl failed

/-- On a driver that does not fail, the insert loop succeeds once every payload and
metadata map of the batch marshals. -/
theorem insertEvents_none_ok {s : SQL α μ} {events : List (Event α μ)}
    (marshals : ∀ event ∈ events, (∃ e, s.serializer.marshal event.data = .ok e) ∧
      ∃ m, marshalMetadata s.serializer event.metadata = .ok m) (i : Nat) (tx : Database) :
    (s.insertEvents Faults.none i tx events).1 = .ok () := by
  induction events generalizing i tx with
  | nil => rfl
  | cons event rest ih =>
    simp only [List.mem_cons, forall_eq_or_imp] at marshals
    obtain ⟨⟨⟨e, data⟩, m, metadata⟩, marshals⟩ := marshals
    simpa [insertEvents, insertEvent, data, metadata, Faults.none] using ih marshals (i + 1)
      (tx.insert event.aggregateID event.version event.reason event.aggregateType
        (formatRFC3339 event.timestamp) e m)

/-- On a driver that does not fail, a batch whose events marshal is written exactly when
the validator accepts it. -/
theorem save_none_eq_ok_iff {s : SQL α μ} {db : Database} {first : Event α μ}
    {rest : List (Event α μ)}
    (marshals : ∀ event ∈ first :: rest, (∃ e, s.serializer.marshal event.data = .ok e) ∧
      ∃ m, marshalMetadata s.serializer event.metadata = .ok m) :
    (s.save db Faults.none (first :: rest)).1 = .ok () ↔
      validateEvents first.aggregateID
        (currentVersion db.rows first.aggregateID first.aggregateType) (first :: rest) = .ok () := by
  constructor
  · intro accepted
    rcases saved : s.save db Faults.none (first :: rest) with ⟨result, tx, slice⟩
    rw [saved] at accepted
    cases accepted
    exact (save_eq_ok saved).1
  · intro valid
    have inserted := insertEvents_none_ok marshals 0 db
    rcases loop : s.insertEvents Faults.none 0 db (first :: rest) with ⟨result, tx, slice⟩
    rw [loop] at inserted
    cases inserted
    simp only [save]
    rw [loop]
    simp [Faults.none, valid]

end SQL

namespace Sql

/-- **Every table `Save` calls build is versioned.** -/
theorem Reachable.versioned {db : Database} (reachable : Reachable db) : Versioned db.rows := by
  induction reachable with
  | empty => intro _ _; rfl
  | save s faults events _ versioned =>
    rcases saved : s.save _ faults events with ⟨result | result, tx, slice⟩
    · rw [SQL.save_eq_error saved]
      exact versioned
    · cases events with
      | nil =>
        cases saved
        exact versioned
      | cons first rest => exact (SQL.save_versioned versioned saved).1

/-! ### The keys `Save` gives out -/

/-- A turn of the insert loop that succeeds keeps the keys dense. -/
theorem Dense.insertEvent {α μ : Type} [Reason α] {s : SQL α μ} {faults : Faults} {i : Nat}
    {tx tx' : Database} {event : Event α μ} (dense : Dense tx)
    (inserted : s.insertEvent faults i tx event = .ok tx') : Dense tx' := by
  obtain ⟨row, rows, seq, next, -⟩ := SQL.insertEvent_eq_ok inserted
  constructor
  · rw [rows, List.map_append, dense.keys, List.length_append, List.length_singleton,
      List.range'_concat]
    simp [seq, dense.next, Nat.add_comm]
  · rw [next, rows, dense.next, List.length_append, List.length_singleton]

/-- The insert loop keeps the keys dense, wherever it stops. -/
theorem Dense.insertEvents {α μ : Type} [Reason α] {s : SQL α μ} {faults : Faults} :
    ∀ {i : Nat} {tx : Database} (events : List (Event α μ)), Dense tx →
      Dense (s.insertEvents faults i tx events).2.1
  | _, _, [], dense => dense
  | i, tx, event :: rest, dense => by
    unfold SQL.insertEvents
    cases turn : s.insertEvent faults i tx event with
    | error err => exact dense
    | ok tx' => exact Dense.insertEvents rest (dense.insertEvent turn)

/-- `Save` keeps the keys dense: it commits the loop's table or returns the one it had. -/
theorem Dense.save {α μ : Type} [Reason α] {db : Database} (dense : Dense db) (s : SQL α μ)
    (faults : Faults) (events : List (Event α μ)) : Dense (s.save db faults events).2.1 := by
  rcases saved : s.save db faults events with ⟨result | ⟨⟩, tx, slice⟩
  · rwa [SQL.save_eq_error saved]
  · have committed : Dense (s.insertEvents faults 0 db events).2.1 := dense.insertEvents events
    rwa [SQL.insertEvents_of_save saved] at committed

/-- **Every table `Save` calls build has dense keys.** -/
theorem Reachable.dense {db : Database} (reachable : Reachable db) : Dense db := by
  induction reachable with
  | empty => exact Dense.empty
  | save s faults events _ dense => exact dense.save s faults events

/-- An accepted `Save` on a table `Save` calls build appends one row per event, written for
it under the keys after the table's, and stamps the caller's slice with those keys. -/
theorem Reachable.save_ok {α μ : Type} [Reason α] {db : Database} (reachable : Reachable db)
    {s : SQL α μ} {faults : Faults} {events : List (Event α μ)}
    (accepted : (s.save db faults events).1 = .ok ()) :
    ∃ newRows, (s.save db faults events).2.1.rows = db.rows ++ newRows ∧
      List.Forall₂ (SQL.Written s.serializer) events newRows ∧
      newRows.map Row.seq = List.range' (db.rows.length + 1) newRows.length ∧
      (s.save db faults events).2.2 =
        List.zipWith (fun event row => { event with globalVersion := row.seq }) events newRows := by
  have whole := (reachable.save s faults events).dense.keys
  rcases saved : s.save db faults events with ⟨result, tx, slice⟩
  rw [saved] at accepted whole
  cases accepted
  obtain ⟨newRows, rows, written, sliceEq⟩ :=
    SQL.insertEvents_ok s faults (by rw [SQL.insertEvents_of_save saved])
  rw [SQL.insertEvents_of_save saved] at rows sliceEq
  refine ⟨newRows, rows, written, ?_, sliceEq⟩
  dsimp only at whole
  rw [rows, List.map_append, reachable.dense.keys, List.length_append,
    Nat.add_comm db.rows.length, ← List.range'_append_1] at whole
  rw [Nat.add_comm, List.append_cancel_left whole]

/-- **The SQL store detects conflicts.**  In every table `Save` calls build, a batch of one
aggregate with Versions contiguous from `v`, whose payloads and metadata marshal, is
written on a driver that does not fail exactly when `v` is the number of the aggregate's
rows plus one; a batch that is not written leaves the table as it was. -/
theorem save_accepts_iff {α μ : Type} [Reason α] {db : Database} (reachable : Reachable db)
    (s : SQL α μ) {first : Event α μ} {rest : List (Event α μ)}
    (same : SameAggregate first.aggregateID first.aggregateType (first :: rest))
    (numbered : Numbered first.version (first :: rest))
    (marshals : ∀ event ∈ first :: rest, (∃ e, s.serializer.marshal event.data = .ok e) ∧
      ∃ m, SQL.marshalMetadata s.serializer event.metadata = .ok m) :
    ((s.save db Faults.none (first :: rest)).1 = .ok () ↔
      first.version = (aggregateRows db.rows first.aggregateID first.aggregateType).length + 1) ∧
    ((s.save db Faults.none (first :: rest)).1 ≠ .ok () →
      (s.save db Faults.none (first :: rest)).2.1 = db) := by
  refine ⟨?_, SQL.save_unchanged⟩
  rw [SQL.save_none_eq_ok_iff marshals, validateEvents_cons_eq_ok,
    currentVersion_eq reachable.versioned]
  constructor
  · exact fun ⟨_, continues⟩ => (numbered_cons.mp continues).1
  · intro continues
    exact ⟨same, continues ▸ numbered⟩

end Sql

end EventSourcing
