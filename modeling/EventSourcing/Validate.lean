import EventSourcing.Event

/-
Module: EventSourcing.Validate
Purpose: The batch validator every store calls before it writes (spec §4.2), and the
  numbering predicate that states what a valid batch looks like.
Trusted boundary: `eventstore.ValidateEvents` and `ValidateEventsNoVersionCheck` are not
  among the sources; both are modelled from the spec.
Main exports: Numbered, SameAggregate, validateEvents, validateEventsNoVersionCheck,
  validateEvents_cons_eq_ok, validateEvents_stale
-/

namespace EventSourcing

variable {α μ : Type}

/-- The events carry the Versions `first, first + 1, ...` in order: contiguous ascending,
starting at `first`. -/
def Numbered (first : Nat) (events : List (Event α μ)) : Prop :=
  events.map Event.version = List.range' first events.length

instance (first : Nat) (events : List (Event α μ)) : Decidable (Numbered first events) :=
  inferInstanceAs (Decidable (_ = _))

/-- Every event belongs to the aggregate `(aggregateType, aggregateID)`. -/
def SameAggregate (aggregateID aggregateType : String) (events : List (Event α μ)) : Prop :=
  ∀ event ∈ events, event.aggregateID = aggregateID ∧ event.aggregateType = aggregateType

instance (aggregateID aggregateType : String) (events : List (Event α μ)) :
    Decidable (SameAggregate aggregateID aggregateType events) :=
  inferInstanceAs (Decidable (∀ _ ∈ _, _))

/-- Modelled from the spec: `eventstore.ValidateEvents` is not among the sources.  Spec §4.2
and §7: every event has the given AggregateID and the first event's AggregateType (else
MixedAggregate), the Versions are contiguous ascending (else NonContiguousVersion), and the
first Version is the current persisted Version plus one (else ConcurrencyConflict). -/
def validateEvents (aggregateID : String) (currentVersion : Nat) :
    List (Event α μ) → Except Error Unit
  | [] => .ok ()
  | first :: rest =>
    if ¬ SameAggregate aggregateID first.aggregateType (first :: rest) then
      .error .mixedAggregate
    else if ¬ Numbered first.version (first :: rest) then .error .nonContiguousVersion
    else if first.version ≠ currentVersion + 1 then .error .concurrency
    else .ok ()

/-- Modelled from the spec: `eventstore.ValidateEventsNoVersionCheck` is not among the
sources.  As its name says, it is `validateEvents` without the comparison with the current
Version, which is left to the store: spec §2 and §4.2 still require every batch sent to a
`Save` to belong to one aggregate (else MixedAggregate) and to carry contiguous ascending
Versions (else NonContiguousVersion). -/
def validateEventsNoVersionCheck (aggregateID : String) :
    List (Event α μ) → Except Error Unit
  | [] => .ok ()
  | first :: rest =>
    if ¬ SameAggregate aggregateID first.aggregateType (first :: rest) then
      .error .mixedAggregate
    else if ¬ Numbered first.version (first :: rest) then .error .nonContiguousVersion
    else .ok ()

/-! ### Numbering -/

@[simp] theorem numbered_nil (first : Nat) : Numbered first ([] : List (Event α μ)) :=
  rfl

@[simp] theorem numbered_cons {first : Nat} {event : Event α μ} {rest : List (Event α μ)} :
    Numbered first (event :: rest) ↔ event.version = first ∧ Numbered (first + 1) rest := by
  simp [Numbered, List.range'_succ]

theorem numbered_append {first : Nat} {front back : List (Event α μ)} :
    Numbered first (front ++ back) ↔
      Numbered first front ∧ Numbered (first + front.length) back := by
  rw [Numbered, Numbered, Numbered, List.map_append, List.length_append, Nat.add_comm,
    ← List.range'_append_1]
  exact ⟨fun split => List.append_inj split (by simp), fun ⟨front, back⟩ => by rw [front, back]⟩

theorem Numbered.length_add {first : Nat} {events : List (Event α μ)}
    (numbered : Numbered first events) {event : Event α μ} (last : events.getLast? = some event) :
    event.version + 1 = first + events.length := by
  induction events generalizing first with
  | nil => simp at last
  | cons head rest ih =>
    rw [numbered_cons] at numbered
    cases rest with
    | nil =>
      simp only [List.getLast?_singleton, Option.some.injEq] at last
      simp [← last, numbered.1]
    | cons second tail =>
      rw [List.getLast?_cons_cons] at last
      have := ih numbered.2 last
      simp only [List.length_cons] at this ⊢
      omega

/-! ### What the validator accepts -/

/-- `validateEvents` accepts a non-empty batch exactly when it belongs to one aggregate and
continues the current Version without gap. -/
theorem validateEvents_cons_eq_ok {aggregateID : String} {currentVersion : Nat}
    {first : Event α μ} {rest : List (Event α μ)} :
    validateEvents aggregateID currentVersion (first :: rest) = .ok () ↔
      SameAggregate aggregateID first.aggregateType (first :: rest) ∧
        Numbered (currentVersion + 1) (first :: rest) := by
  unfold validateEvents
  by_cases same : SameAggregate aggregateID first.aggregateType (first :: rest) <;>
    by_cases numbered : Numbered first.version (first :: rest) <;>
    by_cases stale : first.version = currentVersion + 1 <;>
    simp_all [numbered_cons]

/-- A batch of one aggregate, contiguous, whose first Version is not the current one plus
one, is a concurrency conflict. -/
theorem validateEvents_stale {aggregateID : String} {currentVersion : Nat}
    {first : Event α μ} {rest : List (Event α μ)}
    (same : SameAggregate aggregateID first.aggregateType (first :: rest))
    (numbered : Numbered first.version (first :: rest))
    (stale : first.version ≠ currentVersion + 1) :
    validateEvents aggregateID currentVersion (first :: rest) = .error .concurrency := by
  simp [validateEvents, same, numbered, stale]

/-- `validateEventsNoVersionCheck` accepts a non-empty batch exactly when it belongs to one
aggregate and its Versions are contiguous, wherever they start. -/
theorem validateEventsNoVersionCheck_cons_eq_ok {aggregateID : String}
    {first : Event α μ} {rest : List (Event α μ)} :
    validateEventsNoVersionCheck aggregateID (first :: rest) = .ok () ↔
      SameAggregate aggregateID first.aggregateType (first :: rest) ∧
        Numbered first.version (first :: rest) := by
  unfold validateEventsNoVersionCheck
  by_cases same : SameAggregate aggregateID first.aggregateType (first :: rest) <;>
    by_cases numbered : Numbered first.version (first :: rest) <;> simp [same, numbered]

end EventSourcing
