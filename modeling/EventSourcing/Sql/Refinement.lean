import EventSourcing.Sql.Invariant
import EventSourcing.VersionLog

/-
Module: EventSourcing.Sql.Refinement
Purpose: The SQL store against the version log.  Per aggregate type, the table keeps a
  version log keyed by aggregate ID: over every run of `Save` calls, with any driver
  failures, each aggregate's rows are, in key order, the rows written for the events its log
  holds, and `Get` reads the rows written for the log past a Version, in Version order.
Trusted boundary: the store's model (`EventSourcing.Sql.Store`).
Main exports: Sql.extend, Sql.get_eq, Sql.Refines, Sql.Run, Sql.Refines.versioned,
  Sql.Refines.save, Sql.Run.refines, Sql.Refines.get
-/

namespace EventSourcing

namespace Sql

variable {α μ : Type}

/-!
[SRC eventstore/esdb/iterator.go:136-210].  The table has no stream names: `Save` and
`Get` select an aggregate's rows by its ID and type.  The abstract model is therefore a
version log per type, `log typ id` being the stream of the aggregate `(typ, id)`.
-/

/-- The log with `batch` appended to the stream of the aggregate `(typ, id)`. -/
def extend (log : String → VersionLog α μ) (typ id : String) (batch : List (Event α μ)) :
    String → VersionLog α μ :=
  Function.update log typ (Function.update (log typ) id (log typ id ++ batch))

@[simp] theorem extend_apply (log : String → VersionLog α μ) (typ id : String)
    (batch : List (Event α μ)) (typ' id' : String) :
    extend log typ id batch typ' id' =
      if typ' = typ ∧ id' = id then log typ' id' ++ batch else log typ' id' := by
  unfold extend
  by_cases sameTyp : typ' = typ
  · subst sameTyp
    by_cases sameID : id' = id <;> simp [sameID]
  · simp [sameTyp]

/-- Rows written for one aggregate belong to its selection and to no other. -/
theorem aggregateRows_of_keys {newRows : List Row} {id typ : String}
    (keys : ∀ row ∈ newRows, row.id = id ∧ row.typ = typ) (id' typ' : String) :
    aggregateRows newRows id' typ' = if typ' = typ ∧ id' = id then newRows else [] := by
  split
  · next same =>
    obtain ⟨rfl, rfl⟩ := same
    exact List.filter_eq_self.mpr fun row member => by simp [keys row member]
  · next other =>
    refine List.filter_eq_nil_iff.mpr fun row member => ?_
    obtain ⟨rowID, rowTyp⟩ := keys row member
    simp only [rowID, rowTyp, decide_eq_true_eq]
    exact fun same => other ⟨same.2.symm, same.1.symm⟩

/-- On a versioned table and a live context, `Get` returns the aggregate's rows past
`afterVersion` as the table holds them: its `order by version` changes nothing. -/
theorem get_eq {s : SQL α μ} {db : Database} (versioned : Versioned db.rows) {ctx : Context}
    (live : ctx.err = none) (id typ : String) (afterVersion : Nat) :
    s.get db ctx none id typ afterVersion = .ok
      ⟨(aggregateRows db.rows id typ).filter fun row => afterVersion < row.version,
        s.serializer⟩ := by
  have selected : (db.rows.filter fun row =>
      row.id = id ∧ row.typ = typ ∧ afterVersion < row.version) =
      (aggregateRows db.rows id typ).filter fun row => afterVersion < row.version := by
    rw [aggregateRows, List.filter_filter]
    exact List.filter_congr fun row _ => by
      simp only [Bool.decide_and, Bool.and_comm, Bool.and_left_comm, Bool.and_assoc]
  have sorted : ((aggregateRows db.rows id typ).filter fun row =>
      afterVersion < row.version).Sorted fun row row' => row.version ≤ row'.version := by
    have increasing := List.pairwise_lt_range' 1 (aggregateRows db.rows id typ).length
    rw [← versioned id typ, List.pairwise_map] at increasing
    exact (increasing.imp Nat.le_of_lt).filter _
  rw [SQL.get, live]
  simp only [selected, sorted.insertionSort_eq]

variable [Reason α]

/-- The table refines the logs: every log is numbered, and each aggregate's rows, in key
order, are the rows written for the events of its stream. -/
structure Refines (s : SQL α μ) (db : Database) (log : String → VersionLog α μ) : Prop where
  numbered : ∀ typ, (log typ).WellNumbered
  written : ∀ typ id,
    List.Forall₂ (SQL.Written s.serializer) (log typ id) (aggregateRows db.rows id typ)

/-- Tables reached from the empty one by `Save` calls of one store on non-empty batches,
with any driver failures, with the logs of the batches accepted.  (`Save` of no events
returns at once.) -/
inductive Run (s : SQL α μ) : Database → (String → VersionLog α μ) → Prop
  | empty : Run s Database.empty fun _ _ => []
  | save {db : Database} {log : String → VersionLog α μ} (faults : Faults) (first : Event α μ)
      (rest : List (Event α μ)) :
      Run s db log →
      Run s (s.save db faults (first :: rest)).2.1
        (if (s.save db faults (first :: rest)).1 = .ok () then
          extend log first.aggregateType first.aggregateID (first :: rest)
        else log)

/-- A refining table is versioned. -/
theorem Refines.versioned {s : SQL α μ} {db : Database} {log : String → VersionLog α μ}
    (refines : Refines s db log) : Versioned db.rows := fun id typ => by
  have written := refines.written typ id
  rw [SQL.versions_written written, ← written.length_eq]
  exact refines.numbered typ id

/-! ### `Save` -/

/-- A `Save` accepted on a refining table wrote a batch of one aggregate that the version
log of its type accepts under its ID. -/
theorem Refines.save_accepted {s : SQL α μ} {db : Database} {log : String → VersionLog α μ}
    (refines : Refines s db log) {faults : Faults} {first : Event α μ} {rest : List (Event α μ)}
    (accepted : (s.save db faults (first :: rest)).1 = .ok ()) :
    SameAggregate first.aggregateID first.aggregateType (first :: rest) ∧
      (log first.aggregateType).append first.aggregateID (first :: rest) =
        some (extend log first.aggregateType first.aggregateID (first :: rest)
          first.aggregateType) := by
  rcases saved : s.save db faults (first :: rest) with ⟨result, tx, slice⟩
  rw [saved] at accepted
  cases accepted
  obtain ⟨same, numbered⟩ := validateEvents_cons_eq_ok.mp (SQL.save_eq_ok saved).1
  rw [currentVersion_eq refines.versioned,
    ← (refines.written first.aggregateType first.aggregateID).length_eq] at numbered
  exact ⟨same, VersionLog.append_eq_some.mpr ⟨numbered, by simp [extend]⟩⟩

/-- On a driver that does not fail, a batch whose events marshal is accepted on a refining
table exactly when it belongs to one aggregate and the log of its type accepts it. -/
theorem Refines.save_none_iff {s : SQL α μ} {db : Database} {log : String → VersionLog α μ}
    (refines : Refines s db log) {first : Event α μ} {rest : List (Event α μ)}
    (marshals : ∀ event ∈ first :: rest, (∃ e, s.serializer.marshal event.data = .ok e) ∧
      ∃ m, SQL.marshalMetadata s.serializer event.metadata = .ok m) :
    (s.save db Faults.none (first :: rest)).1 = .ok () ↔
      SameAggregate first.aggregateID first.aggregateType (first :: rest) ∧
        ((log first.aggregateType).append first.aggregateID (first :: rest)).isSome := by
  rw [SQL.save_none_eq_ok_iff marshals, validateEvents_cons_eq_ok,
    currentVersion_eq refines.versioned,
    ← (refines.written first.aggregateType first.aggregateID).length_eq]
  simp only [VersionLog.append, VersionLog.current]
  split <;> simp [*]

/-- **`Save` keeps the refinement.**  An accepted batch extends its aggregate's stream by
itself, and the table gains the rows written for it; a refused one changes neither. -/
theorem Refines.save {s : SQL α μ} {db : Database} {log : String → VersionLog α μ}
    (refines : Refines s db log) (faults : Faults) (first : Event α μ)
    (rest : List (Event α μ)) :
    Refines s (s.save db faults (first :: rest)).2.1
      (if (s.save db faults (first :: rest)).1 = .ok () then
        extend log first.aggregateType first.aggregateID (first :: rest)
      else log) := by
  by_cases accepted : (s.save db faults (first :: rest)).1 = .ok ()
  · obtain ⟨same, appended⟩ := refines.save_accepted accepted
    rcases saved : s.save db faults (first :: rest) with ⟨result, tx, slice⟩
    rw [saved] at accepted
    cases accepted
    obtain ⟨-, newRows, rows, written⟩ := SQL.save_eq_ok saved
    have keys := SQL.keys_written written same
    rw [if_pos rfl]
    refine ⟨fun typ => ?_, fun typ id => ?_⟩
    · by_cases here : typ = first.aggregateType
      · subst here
        simpa [extend] using (refines.numbered _).append appended
      · simpa [extend, here] using refines.numbered typ
    · rw [extend_apply, rows, aggregateRows_append, aggregateRows_of_keys keys]
      split
      · next here =>
        obtain ⟨rfl, rfl⟩ := here
        exact List.rel_append (refines.written _ _) written
      · simpa using refines.written typ id
  · rw [if_neg accepted, SQL.save_unchanged accepted]
    exact refines

/-- **Every run refines the version logs.** -/
theorem Run.refines {s : SQL α μ} {db : Database} {log : String → VersionLog α μ}
    (run : Run s db log) : Refines s db log := by
  induction run with
  | empty => exact ⟨fun _ => VersionLog.WellNumbered.empty, fun _ _ => .nil⟩
  | save faults first rest _ refines => exact refines.save faults first rest

/-! ### `Get` -/

/-- **`Get` reads the log past a Version.**  On a refining table, a query that runs on a live
context selects the aggregate's rows past `afterVersion` in key order, which is already
their Version order, and these are the rows written for the events of the log past
`afterVersion`. -/
theorem Refines.get {s : SQL α μ} {db : Database} {log : String → VersionLog α μ}
    (refines : Refines s db log) {ctx : Context} (live : ctx.err = none)
    (id typ : String) (afterVersion : Nat) :
    let rows := (aggregateRows db.rows id typ).filter fun row => afterVersion < row.version
    s.get db ctx none id typ afterVersion = .ok ⟨rows, s.serializer⟩ ∧
      List.Forall₂ (SQL.Written s.serializer) ((log typ).after id afterVersion) rows :=
  ⟨get_eq refines.versioned live id typ afterVersion,
    List.rel_filter (fun _ _ written => by simp [written.version]) (refines.written typ id)⟩

/-! ### The store against the log -/

/-- **The SQL store refines the version log.**  Along every run of `Save` calls of one
store, with any driver failures, the table refines the per-type logs of the accepted
batches.  A `Save` accepted on it wrote a batch of one aggregate that the log of its type
accepts under its ID, appending it; on a driver that does not fail, a batch whose events
marshal is accepted exactly then.  `Get`, when its query runs on a live context, returns
the rows written for the log's events past `afterVersion`, in order, carrying the Versions
`afterVersion + 1, afterVersion + 2, ...`. -/
theorem sql_refines_version_log (s : SQL α μ) {db : Database} {log : String → VersionLog α μ}
    (run : Run s db log) :
    Refines s db log ∧
    (∀ (faults : Faults) (first : Event α μ) (rest : List (Event α μ)),
      (s.save db faults (first :: rest)).1 = .ok () →
        SameAggregate first.aggregateID first.aggregateType (first :: rest) ∧
          (log first.aggregateType).append first.aggregateID (first :: rest) =
            some (extend log first.aggregateType first.aggregateID (first :: rest)
              first.aggregateType)) ∧
    (∀ (first : Event α μ) (rest : List (Event α μ)),
      (∀ event ∈ first :: rest, (∃ e, s.serializer.marshal event.data = .ok e) ∧
        ∃ m, SQL.marshalMetadata s.serializer event.metadata = .ok m) →
      ((s.save db Faults.none (first :: rest)).1 = .ok () ↔
        SameAggregate first.aggregateID first.aggregateType (first :: rest) ∧
          ((log first.aggregateType).append first.aggregateID (first :: rest)).isSome)) ∧
    ∀ (ctx : Context) (id typ : String) (afterVersion : Nat), ctx.err = none →
      ∃ rows, s.get db ctx none id typ afterVersion = .ok ⟨rows, s.serializer⟩ ∧
        List.Forall₂ (SQL.Written s.serializer) ((log typ).after id afterVersion) rows ∧
        rows.map Row.version = List.range' (afterVersion + 1) rows.length := by
  have refines := run.refines
  refine ⟨refines, fun _ _ _ accepted => refines.save_accepted accepted,
    fun _ _ marshals => refines.save_none_iff marshals, fun ctx id typ afterVersion live => ?_⟩
  obtain ⟨read, written⟩ := refines.get live id typ afterVersion
  have numbered : Numbered (afterVersion + 1) ((log typ).after id afterVersion) := by
    rw [VersionLog.after_eq_drop (refines.numbered typ)]
    exact (refines.numbered typ id).drop_succ afterVersion
  refine ⟨_, read, written, ?_⟩
  rw [SQL.versions_written written, numbered, written.length_eq]

/-- The refinement along the run of one accepted `Save` of a `Born` event. -/
theorem sql_refines_version_log_person :
    let s : SQL PersonEvent Unit := ⟨personSerializer⟩
    let born : Event PersonEvent Unit := ⟨"p", 1, 0, "Person", ⟨0, 0, by decide⟩, .born "", none⟩
    let db := (s.save Database.empty Faults.none [born]).2.1
    Run s db (extend (fun _ _ => []) "Person" "p" [born]) ∧
      Refines s db (extend (fun _ _ => []) "Person" "p" [born]) := by
  intro s born db
  have run := Run.save Faults.none born [] (Run.empty : Run s _ _)
  rw [if_pos (by decide)] at run
  exact ⟨run, (sql_refines_version_log s run).1⟩

end Sql

end EventSourcing
