import EventSourcing.Validate

/-
Module: EventSourcing.AggregateRoot
Purpose: The aggregate root of spec §4.1: an aggregate's identity, Version and
  GlobalVersion, the buffer of events tracked and not yet saved, `TrackChange`,
  `BuildFromHistory`, `UnsavedEvents` and `setInternals`.  The buffer a root tracks is
  always a batch of one aggregate with contiguous Versions continuing the Version it was
  loaded at: the batch every store's validator is written for.
Trusted boundary: `AggregateRoot[T]` is not among the sources and is modelled from the
  spec; the aggregate's `Transition` and the ID generator are parameters.
Main exports: AggregateRoot, Aggregate, Aggregate.trackChange, Aggregate.buildFromHistory,
  Tracked, Tracked.loaded, Tracked.trackChange, Changes, Changes.tracked, Tracked.root_batch,
  Tracked.validateEvents_eq_ok
-/

namespace EventSourcing

/-!
The root embedded in every aggregate struct; the application's aggregate supplies
`Transition`, which folds an event into its own fields.  The README's `Person` aggregate
[SRC unnamed/part_000:24-98] calls `TrackChange` from its commands, one event each.
-/

/-- Modelled from the spec: `AggregateRoot[T]` is not among the sources.  Spec §4.1: the
identity, the Version and GlobalVersion of the last event applied, and the buffer of
events tracked but not saved. -/
structure AggregateRoot (α μ : Type) where
  aggregateID : String
  aggregateVersion : Nat
  aggregateGlobalVersion : Nat
  aggregateEvents : List (Event α μ)

namespace AggregateRoot

variable {α μ : Type}

/-- Modelled from the spec: `UnsavedEvents()` (spec §4.1), whether the buffer is not
empty. -/
def unsavedEvents (root : AggregateRoot α μ) : Bool :=
  !root.aggregateEvents.isEmpty

/-- Modelled from the spec: `setInternals(id, version, globalVersion)` is not among the
sources; spec §4.3 says it sets the aggregate's Version and GlobalVersion baseline from the
snapshot, with its identity. -/
def setInternals (root : AggregateRoot α μ) (id : String) (version globalVersion : Nat) :
    AggregateRoot α μ :=
  { root with
    aggregateID := id
    aggregateVersion := version
    aggregateGlobalVersion := globalVersion }

end AggregateRoot

/-- An aggregate: the name of its struct type (`reflect.TypeOf(a).Elem().Name()`, the
AggregateType of its events and the key of its snapshots), its own fields, and its root. -/
structure Aggregate (σ α μ : Type) where
  typeName : String
  fields : σ
  root : AggregateRoot α μ


variable {σ α μ : Type}

namespace Aggregate

/-- Modelled from the spec: `TrackChange` and `TrackChangeWithMetadata` are not among the
sources.  Spec §4.1: an aggregate without identity takes the one the ID generator gives
and fails with EmptyID when it stays empty; the event gets the next Version, the
aggregate's type name, the time `now`, the payload and the metadata; it is appended to the
buffer and folded through `Transition`, and the Version is incremented.  The GlobalVersion
is set only by a store. -/
def trackChange (transition : σ → Event α μ → σ) (generateID : String) (now : Time)
    (data : α) (metadata : Option μ) (a : Aggregate σ α μ) : Except Error (Aggregate σ α μ) :=
  let id := if a.root.aggregateID = "" then generateID else a.root.aggregateID
  if id = "" then .error .emptyID
  else
    let event : Event α μ := ⟨id, a.root.aggregateVersion + 1, 0, a.typeName, now, data, metadata⟩
    .ok { a with
      fields := transition a.fields event
      root := { a.root with
        aggregateID := id
        aggregateVersion := a.root.aggregateVersion + 1
        aggregateEvents := a.root.aggregateEvents ++ [event] } }

/-- Modelled from the spec: `BuildFromHistory` is not among the sources.  Spec §4.1: fold
the events in order through `Transition`, taking the Version and GlobalVersion of each;
the buffer is left alone. -/
def buildFromHistory (transition : σ → Event α μ → σ) (a : Aggregate σ α μ) :
    List (Event α μ) → Aggregate σ α μ
  | [] => a
  | event :: rest =>
    buildFromHistory transition
      { a with
        fields := transition a.fields event
        root := { a.root with
          aggregateVersion := event.version
          aggregateGlobalVersion := event.globalVersion } }
      rest

end Aggregate

/-! ### The buffer -/

/-- The buffer is a batch of this aggregate continuing the Version `base` the aggregate
stood at when it was saved or loaded: its events carry the aggregate's identity, never
empty, and type name, and the Versions `base + 1, ..., aggregateVersion`. -/
structure Tracked (a : Aggregate σ α μ) (base : Nat) : Prop where
  identified : a.root.aggregateEvents ≠ [] → a.root.aggregateID ≠ ""
  same : SameAggregate a.root.aggregateID a.typeName a.root.aggregateEvents
  numbered : Numbered (base + 1) a.root.aggregateEvents
  version : a.root.aggregateVersion = base + a.root.aggregateEvents.length

/-- An aggregate with an empty buffer tracks from its Version. -/
theorem Tracked.saved {a : Aggregate σ α μ} (empty : a.root.aggregateEvents = []) :
    Tracked a a.root.aggregateVersion where
  identified pending := absurd empty pending
  same := by simp [SameAggregate, empty]
  numbered := by simp [empty]
  version := by simp [empty]

/-- Loading from history leaves the type name, the identity and the buffer. -/
theorem buildFromHistory_root (transition : σ → Event α μ → σ) :
    ∀ (a : Aggregate σ α μ) (events : List (Event α μ)),
      (a.buildFromHistory transition events).typeName = a.typeName ∧
        (a.buildFromHistory transition events).root.aggregateID = a.root.aggregateID ∧
        (a.buildFromHistory transition events).root.aggregateEvents = a.root.aggregateEvents
  | _, [] => ⟨rfl, rfl, rfl⟩
  | _, _ :: rest => buildFromHistory_root transition _ rest

/-- Loading from history takes the Version of the last event. -/
theorem buildFromHistory_version (transition : σ → Event α μ → σ) :
    ∀ (a : Aggregate σ α μ) (events : List (Event α μ)),
      (a.buildFromHistory transition events).root.aggregateVersion =
        (events.getLast?.map Event.version).getD a.root.aggregateVersion
  | _, [] => rfl
  | _, [_] => rfl
  | _, _ :: next :: rest => by
    rw [Aggregate.buildFromHistory, buildFromHistory_version, List.getLast?_cons_cons,
      List.getLast?_eq_getLast (next :: rest) (List.cons_ne_nil _ _)]
    rfl

/-- **A loaded aggregate tracks from its log.**  An aggregate without Version or buffer,
loaded from a log numbered `1, ..., n`, tracks from Version `n`. -/
theorem Tracked.loaded (transition : σ → Event α μ → σ) {a : Aggregate σ α μ}
    (fresh : a.root.aggregateVersion = 0) (empty : a.root.aggregateEvents = [])
    {events : List (Event α μ)} (numbered : Numbered 1 events) :
    Tracked (a.buildFromHistory transition events) events.length := by
  have loaded := Tracked.saved (a := a.buildFromHistory transition events)
    (by rw [(buildFromHistory_root transition a events).2.2, empty])
  have version : (events.getLast?.map Event.version).getD a.root.aggregateVersion =
      events.length := by
    cases last : events.getLast? with
    | none => simp [List.getLast?_eq_none_iff.mp last, fresh]
    | some event =>
      have := numbered.length_add last
      simp only [Option.map_some', Option.getD_some]
      omega
  rwa [buildFromHistory_version, version] at loaded

/-- **Tracking keeps the buffer a batch.**  A `TrackChange` that succeeds appends an event
of the aggregate's identity and type with the next Version. -/
theorem Tracked.trackChange {a a' : Aggregate σ α μ} {base : Nat} (tracked : Tracked a base)
    {transition : σ → Event α μ → σ} {generateID : String} {now : Time} {data : α}
    {metadata : Option μ} (tracks : a.trackChange transition generateID now data metadata = .ok a') :
    Tracked a' base := by
  simp only [Aggregate.trackChange] at tracks
  generalize named : (if a.root.aggregateID = "" then generateID else a.root.aggregateID) = id
    at tracks
  have same : SameAggregate id a.typeName a.root.aggregateEvents := by
    by_cases empty : a.root.aggregateID = ""
    · have buffer : a.root.aggregateEvents = [] :=
        by_contra fun pending => tracked.identified pending empty
      simp [SameAggregate, buffer]
    · rw [← named, if_neg empty]
      exact tracked.same
  by_cases unnamed : id = ""
  · simp [unnamed] at tracks
  rw [if_neg unnamed] at tracks
  cases tracks
  refine ⟨fun _ => unnamed, fun event member => ?_, ?_, ?_⟩
  · rcases List.mem_append.mp member with old | new
    · exact same event old
    · rw [List.mem_singleton.mp new]
      exact ⟨rfl, rfl⟩
  · rw [numbered_append, numbered_cons]
    refine ⟨tracked.numbered, ?_, numbered_nil _⟩
    simp only [tracked.version]
    omega
  · simp only [List.length_append, List.length_singleton, tracked.version]
    omega

/-! ### Runs of `TrackChange` -/

/-- The aggregates that `TrackChange` calls which succeed make from `a`, one event each, at
any time and with any payload. -/
inductive Changes (transition : σ → Event α μ → σ) (a : Aggregate σ α μ) :
    Aggregate σ α μ → Prop
  | refl : Changes transition a a
  | trackChange {a' a'' : Aggregate σ α μ} (generateID : String) (now : Time) (data : α)
      (metadata : Option μ) : Changes transition a a' →
      a'.trackChange transition generateID now data metadata = .ok a'' →
      Changes transition a a''

/-- `TrackChange` keeps the type name, and the identity once there is one. -/
theorem trackChange_identity {transition : σ → Event α μ → σ} {generateID : String}
    {now : Time} {data : α} {metadata : Option μ} {a a' : Aggregate σ α μ}
    (tracks : a.trackChange transition generateID now data metadata = .ok a')
    (named : a.root.aggregateID ≠ "") :
    a'.typeName = a.typeName ∧ a'.root.aggregateID = a.root.aggregateID := by
  simp only [Aggregate.trackChange, if_neg named] at tracks
  cases tracks
  exact ⟨rfl, rfl⟩

/-- A run of `TrackChange` calls keeps the buffer tracked from the same Version, and the
aggregate's type name and identity once it has one. -/
theorem Changes.tracked {transition : σ → Event α μ → σ} {a a' : Aggregate σ α μ} {base : Nat}
    (changes : Changes transition a a') (tracked : Tracked a base)
    (named : a.root.aggregateID ≠ "") :
    Tracked a' base ∧ a'.typeName = a.typeName ∧ a'.root.aggregateID = a.root.aggregateID := by
  induction changes with
  | refl => exact ⟨tracked, rfl, rfl⟩
  | trackChange _ _ _ _ _ tracks ih =>
    obtain ⟨tracked', typeName, id⟩ := ih
    obtain ⟨typeName', id'⟩ := trackChange_identity tracks (id ▸ named)
    exact ⟨tracked'.trackChange tracks, typeName'.trans typeName, id'.trans id⟩

/-! ### What the stores receive -/

/-- **A tracked buffer is a root batch**: one aggregate, contiguous Versions, the first at
least 1, the hypotheses of the stores' refinement theorems. -/
theorem Tracked.root_batch {a : Aggregate σ α μ} {base : Nat} (tracked : Tracked a base)
    {first : Event α μ} {rest : List (Event α μ)} (buffer : a.root.aggregateEvents = first :: rest) :
    SameAggregate first.aggregateID first.aggregateType (first :: rest) ∧
      Numbered first.version (first :: rest) ∧ 1 ≤ first.version := by
  have same := tracked.same
  have numbered := tracked.numbered
  rw [buffer] at same numbered
  obtain ⟨id, typ⟩ := same first (List.mem_cons_self _ _)
  have version := (numbered_cons.mp numbered).1
  refine ⟨fun event member => ?_, version ▸ numbered, by omega⟩
  rw [id, typ]
  exact same event member

/-- A tracked buffer passes the validator against a store's current Version exactly when
that Version is the one the aggregate stood at. -/
theorem Tracked.validateEvents_eq_ok {a : Aggregate σ α μ} {base : Nat} (tracked : Tracked a base)
    (pending : a.root.aggregateEvents ≠ []) (current : Nat) :
    validateEvents a.root.aggregateID current a.root.aggregateEvents = .ok () ↔ current = base := by
  obtain ⟨first, rest, buffer⟩ := List.exists_cons_of_ne_nil pending
  obtain ⟨same, numbered, -⟩ := tracked.root_batch buffer
  have version := (numbered_cons.mp (buffer ▸ tracked.numbered)).1
  have id := (tracked.same first (buffer ▸ List.mem_cons_self _ _)).1
  rw [buffer, validateEvents_cons_eq_ok, ← id]
  constructor
  · exact fun ⟨_, continues⟩ => by have := (numbered_cons.mp continues).1; omega
  · intro stale
    exact ⟨same, by rw [stale, ← version]; exact numbered⟩

end EventSourcing
