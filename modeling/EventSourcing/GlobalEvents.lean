import EventSourcing.Sql.Invariant
import EventSourcing.Memory.Invariant
import Mathlib.Data.String.Basic

/-
Module: EventSourcing.GlobalEvents
Purpose: `GlobalEvents` read in pages.  In every state the memory store or the SQL store
  reaches, the global order is numbered `1, 2, ...` with no gap, so a read of `count`
  events from `start` followed by a read from `start + count` reads what one read of both
  counts reads: a consumer paging with `start` advanced by `count` sees every event once,
  in order.  The memory store needs both counts positive (a count of 0 wraps); the SQL store
  needs the arguments below 2^63, which `database/sql` refuses otherwise.
Trusted boundary: the stores' models.
Main exports: toNat_add_of_lt, filter_le_key, Sql.Dense.filter_start,
  SQL.globalEvents_dense, SQL.eventsFromRows_append, sql_global_events_pages,
  sql_save_global_versions, Memory.Invariant.globalEvents, memory_global_events_pages
-/

namespace EventSourcing

/-! ### Keys numbered without gap -/

/-- A sum of `uint64`s that does not overflow is the sum of their values. -/
theorem toNat_add_of_lt {a b : UInt64} (fits : a.toNat + b.toNat < UInt64.size) :
    (a + b).toNat = a.toNat + b.toNat := by
  rw [UInt64.toNat_add, Nat.mod_eq_of_lt fits]

/-- In a list keyed `first, first + 1, ...`, the items with a key at or past `k` are the
list from position `k - first`. -/
theorem filter_le_key {β : Type} (key : β → Nat) (k : Nat) :
    ∀ (items : List β) (first : Nat), items.map key = List.range' first items.length →
      items.filter (fun item => k ≤ key item) = items.drop (k - first)
  | [], _, _ => by simp
  | item :: items, first, keys => by
    simp only [List.map_cons, List.length_cons, List.range'_succ, List.cons.injEq] at keys
    rw [List.filter_cons, filter_le_key key k items (first + 1) keys.2, keys.1]
    by_cases before : k ≤ first
    · simp [before, Nat.sub_eq_zero_of_le before, Nat.sub_eq_zero_of_le (Nat.le_succ_of_le before)]
    · have skip : k - first = k - (first + 1) + 1 := by omega
      simp [before, skip]

/-! ### The SQL store -/

/-- In a table with dense keys, the rows at or past key `start` are the rows from position
`start - 1`. -/
theorem Sql.Dense.filter_start {db : Sql.Database} (dense : Sql.Dense db) (start : Nat) :
    db.rows.filter (fun row => start ≤ row.seq) = db.rows.drop (start - 1) :=
  filter_le_key Sql.Row.seq start db.rows 1 dense.keys

namespace SQL

variable {α μ : Type}

/-- `eventsFromRows` over two runs of rows reads the first, then the second. -/
theorem eventsFromRows_append (s : SQL α μ) (rows rows' : List Sql.Row) :
    s.eventsFromRows (rows ++ rows') = (do
      let events ← s.eventsFromRows rows
      let events' ← s.eventsFromRows rows'
      pure (events ++ events')) := by
  rw [eventsFromRows_eq, eventsFromRows_eq, eventsFromRows_eq, List.mapM_append]
  cases rows.mapM (readRow s.serializer) <;> cases rows'.mapM (readRow s.serializer) <;>
    simp [Except.map, List.filterMap_append]

/-- On a table with dense keys, `GlobalEvents` on arguments `database/sql` accepts reads
`count` rows from position `start - 1`. -/
theorem globalEvents_dense (s : SQL α μ) {db : Sql.Database} (dense : Sql.Dense db)
    {start count : UInt64} (starts : start.toNat < 2 ^ 63) (counts : count.toNat < 2 ^ 63) :
    s.globalEvents db start count =
      s.eventsFromRows ((db.rows.drop (start.toNat - 1)).take count.toNat) := by
  rw [globalEvents_eq s db starts counts, dense.filter_start]

end SQL

variable {α μ : Type}

/-- **SQL `GlobalEvents` pages compose.**  In every table `Save` calls build, a read from
`start = 0` reads as one from 1.  For `start ≥ 1`, a read of `count` rows from `start`
followed by a read of `count'` from `start + count` gives what one read of
`count + count'` from `start` gives, the first error included, when the sums stay below
2^63; an argument of 2^63 or more is refused with an error. -/
theorem sql_global_events_pages [Reason α] (s : SQL α μ) {db : Sql.Database}
    (reachable : Sql.Reachable db) :
    (∀ count : UInt64, s.globalEvents db 0 count = s.globalEvents db 1 count) ∧
    (∀ start count count' : UInt64, 1 ≤ start.toNat → start.toNat + count.toNat < 2 ^ 63 →
      count.toNat + count'.toNat < 2 ^ 63 →
      (do
        let page ← s.globalEvents db start count
        let next ← s.globalEvents db (start + count) count'
        pure (page ++ next)) = s.globalEvents db start (count + count')) ∧
    ∀ start count : UInt64, 2 ^ 63 ≤ start.toNat ∨ 2 ^ 63 ≤ count.toNat →
      ∃ err, s.globalEvents db start count = .error err := by
  have dense := reachable.dense
  refine ⟨fun count => ?_, fun start count count' positive fits fits' => ?_,
    fun _ _ high => s.globalEvents_high_bit db high⟩
  · unfold SQL.globalEvents SQL.convertUint64
    simp only [show (0 : UInt64).toNat < 2 ^ 63 by decide, show (1 : UInt64).toNat < 2 ^ 63 by decide,
      if_true, except_ok_bind, dense.filter_start]
    rfl
  have sum : (start + count).toNat = start.toNat + count.toNat := toNat_add_of_lt (by
    simp only [UInt64.size]
    omega)
  have sum' : (count + count').toNat = count.toNat + count'.toNat := toNat_add_of_lt (by
    simp only [UInt64.size]
    omega)
  rw [s.globalEvents_dense dense (by omega) (by omega),
    s.globalEvents_dense dense (by omega) (by omega),
    s.globalEvents_dense dense (by omega) (by omega), sum, sum', List.take_add,
    SQL.eventsFromRows_append, List.drop_drop, show start.toNat + count.toNat - 1 =
      start.toNat - 1 + count.toNat by omega]

/-- The pages at a table holding one saved event: a page of one from 1 and a page of one
from 2 read as a page of two from 1. -/
theorem sql_global_events_pages_person :
    let s : SQL PersonEvent Unit := ⟨personSerializer⟩
    let born : Event PersonEvent Unit := ⟨"p", 1, 0, "Person", ⟨0, 0, by decide⟩, .born "", none⟩
    let db := (s.save Sql.Database.empty Sql.Faults.none [born]).2.1
    (do
      let page ← s.globalEvents db 1 1
      let next ← s.globalEvents db (1 + 1) 1
      pure (page ++ next)) = s.globalEvents db 1 (1 + 1) := by
  intro s born db
  exact (sql_global_events_pages s (Sql.Reachable.save s Sql.Faults.none [born] .empty)).2.1 1 1 1
    (by decide) (by decide) (by decide)

/-- The GlobalVersions of events stamped with their rows' keys are the keys. -/
theorem map_globalVersion_zipWith {events : List (Event α μ)} {rows : List Sql.Row}
    (lengths : events.length = rows.length) :
    (List.zipWith (fun event row => { event with globalVersion := row.seq }) events rows).map
      Event.globalVersion = rows.map Sql.Row.seq := by
  induction events generalizing rows with
  | nil => cases rows <;> simp_all
  | cons event events ih =>
    cases rows with
    | nil => simp at lengths
    | cons row rows => simp [ih (Nat.succ.inj lengths)]

/-- **An accepted SQL `Save` is read back by `GlobalEvents` under its GlobalVersions.**  In
every table `Save` calls build, holding `n` rows, a `Save` of `k` events that succeeds
gives the caller's events the GlobalVersions `n + 1, ..., n + k` and leaves `n + k` rows.
When the store reads the events back (registered, with four-digit years), `GlobalEvents`
from `n + 1` for `k` events, arguments `database/sql` accepts, returns the caller's slice,
each timestamp cut to its whole second. -/
theorem sql_save_global_versions [Reason α] (s : SQL α μ) {db : Sql.Database}
    (reachable : Sql.Reachable db) (faults : Sql.Faults) (events : List (Event α μ))
    (accepted : (s.save db faults events).1 = .ok ()) :
    let saved := s.save db faults events
    saved.2.2.map Event.globalVersion = List.range' (db.rows.length + 1) events.length ∧
      saved.2.1.rows.length = db.rows.length + events.length ∧
      ((∀ event ∈ events, SQL.RoundTrips s.serializer event) →
        ∀ start count : UInt64, start.toNat = db.rows.length + 1 →
          count.toNat = events.length → start.toNat < 2 ^ 63 → count.toNat < 2 ^ 63 →
          s.globalEvents saved.2.1 start count = .ok (saved.2.2.map fun event =>
            { event with timestamp := wholeSecond event.timestamp })) := by
  intro saved
  obtain ⟨newRows, rows, written, keys, sliceEq⟩ := reachable.save_ok accepted
  have lengths := written.length_eq
  have dense : Sql.Dense saved.2.1 := (reachable.save s faults events).dense
  refine ⟨by rw [sliceEq, map_globalVersion_zipWith lengths, keys, lengths],
    by rw [rows, List.length_append, lengths], fun roundTrips start count first number starts
      counts => ?_⟩
  rw [s.globalEvents_dense dense starts counts, first, number, rows]
  simp only [Nat.add_sub_cancel, List.drop_left, lengths, List.take_length]
  rw [SQL.eventsFromRows_written written roundTrips, sliceEq, List.map_zipWith]

/-- An accepted `Save` of one event on the empty table, read back by `GlobalEvents`. -/
theorem sql_save_global_versions_person :
    let s : SQL PersonEvent Unit := ⟨personSerializer⟩
    let born : Event PersonEvent Unit := ⟨"p", 1, 0, "Person", ⟨0, 0, by decide⟩, .born "", none⟩
    let saved := s.save Sql.Database.empty Sql.Faults.none [born]
    saved.1 = .ok () ∧ saved.2.2.map Event.globalVersion = [1] ∧
      s.globalEvents saved.2.1 1 1 = .ok (saved.2.2.map fun event =>
        { event with timestamp := wholeSecond event.timestamp }) := by
  intro s born saved
  have accepted : saved.1 = .ok () := by decide
  have roundTrips : ∀ event ∈ [born], SQL.RoundTrips s.serializer event := by
    simp only [List.mem_singleton, forall_eq]
    exact ⟨by decide, ⟨.born "", rfl, fun _ _ => rfl⟩, fun _ _ none => nomatch none⟩
  obtain ⟨versions, -, readBack⟩ :=
    sql_save_global_versions s .empty Sql.Faults.none [born] accepted
  exact ⟨accepted, versions, readBack roundTrips 1 1 rfl rfl (by decide) (by decide)⟩

/-! ### The memory store -/

/-- Under the memory store's invariant, `GlobalEvents` reads, from position `start - 1` of
the global order, `count` events, or `2^64` for a count of 0. -/
theorem Memory.Invariant.globalEvents {store : Memory α μ} (invariant : Memory.Invariant store)
    (start count : UInt64) :
    store.globalEvents start count =
      .ok ((store.eventsInOrder.drop (start.toNat - 1)).take
        (if count = 0 then UInt64.size else count.toNat)) := by
  rw [Memory.globalEvents_eq_take,
    filter_le_key Event.globalVersion start.toNat _ 1 invariant.globalVersions]

/-- **Memory `GlobalEvents` pages compose, for positive counts.**  In every state `Save`
calls reach, a read from `start = 0` reads as one from 1, and for `start ≥ 1` and positive
counts, a read of `count` events from `start` followed by a read of `count'` from
`start + count` gives what one read of `count + count'` from `start` gives, when the sums
do not overflow. -/
theorem memory_global_events_pages {store : Memory α μ} (reachable : Memory.Reachable store) :
    (∀ count : UInt64, store.globalEvents 0 count = store.globalEvents 1 count) ∧
    ∀ start count count' : UInt64, count ≠ 0 → count' ≠ 0 → 1 ≤ start.toNat →
      start.toNat + count.toNat < UInt64.size → count.toNat + count'.toNat < UInt64.size →
      (do
        let page ← store.globalEvents start count
        let next ← store.globalEvents (start + count) count'
        pure (page ++ next)) = store.globalEvents start (count + count') := by
  have invariant := Memory.Invariant.reachable reachable
  refine ⟨fun count => by rw [invariant.globalEvents, invariant.globalEvents]; rfl,
    fun start count count' nonzero nonzero' positive fits fits' => ?_⟩
  have sum : count + count' ≠ 0 := fun zero => by
    have total := congrArg UInt64.toNat zero
    rw [toNat_add_of_lt fits'] at total
    exact nonzero (UInt64.toNat.inj (by simp only [UInt64.toNat_zero] at total ⊢; omega))
  have shift : (start + count).toNat - 1 = start.toNat - 1 + count.toNat := by
    rw [toNat_add_of_lt fits]
    omega
  rw [invariant.globalEvents, invariant.globalEvents, invariant.globalEvents, if_neg nonzero,
    if_neg nonzero', if_neg sum, shift, toNat_add_of_lt fits', List.take_add, List.drop_drop]
  rfl

/-- The pages at a memory store holding one saved event. -/
theorem memory_global_events_pages_person :
    let born : Event PersonEvent Unit := ⟨"p", 1, 0, "Person", ⟨0, 0, by decide⟩, .born "", none⟩
    let store := (Memory.create.save [born]).2.1
    (do
      let page ← store.globalEvents 1 1
      let next ← store.globalEvents (1 + 1) 1
      pure (page ++ next)) = store.globalEvents 1 (1 + 1) := by
  intro born store
  exact (memory_global_events_pages (Memory.Reachable.save [born] .create)).2 1 1 1
    (by decide) (by decide) (by decide) (by decide) (by decide)

end EventSourcing
