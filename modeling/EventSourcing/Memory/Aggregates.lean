import EventSourcing.Memory.Invariant
import EventSourcing.AggregateRoot

/-
Module: EventSourcing.Memory.Aggregates
Purpose: What one aggregate sees of the memory store: what `Get` returns in a reachable
  state, when two aggregates share a bucket, and how two batches built from the same
  stale Version race through the store's lock, also when they are the buffers of two
  aggregate roots loaded at the same Version.
Trusted boundary: the validator and the aggregate root are modelled from the spec
  (`EventSourcing.Validate`, `EventSourcing.AggregateRoot`).
Main exports: Memory.drain_get_reachable, Memory.memory_refines_version_log,
  Memory.aggregateKey_collision,
  Memory.aggregateKey_injective, Memory.save_then_stale,
  Memory.memory_stale_batches_conflict, Memory.tracked_roots_race,
  Memory.aggregate_roots_race
-/

namespace EventSourcing

namespace Memory

variable {α μ : Type}

/-! ### Reading an aggregate back -/

/-- In a reachable state a bucket read past a Version is the global order read with the
bucket's key and past that Version. -/
theorem Invariant.bucket_filter {store : Memory α μ} (invariant : Invariant store)
    (key : String) (afterVersion : Nat) :
    (store.aggregateEvents key).filter (fun event => afterVersion < event.version) =
      store.eventsInOrder.filter (fun event =>
        aggregateKey event.aggregateType event.aggregateID = key ∧ afterVersion < event.version) := by
  rw [invariant.buckets, List.filter_filter]
  congr 1
  funext event
  simp [Bool.and_comm]

/-- In a reachable state, `Get` followed by draining its iterator returns the events saved
under the aggregate's key past `afterVersion`, in saved order, numbered
`afterVersion + 1, afterVersion + 2, ...`, and `ErrNoEvents` exactly when there is none. -/
theorem drain_get_reachable {store : Memory α μ} (reachable : Reachable store)
    (id aggregateType : String) (afterVersion : Nat) :
    let saved := store.eventsInOrder.filter (fun event =>
      aggregateKey event.aggregateType event.aggregateID = aggregateKey aggregateType id ∧
        afterVersion < event.version)
    (store.get id aggregateType afterVersion).bind (drain Iterator.next (saved.length + 1)) =
        (if saved.length = 0 then .error .noEvents else .ok saved) ∧
      Numbered (afterVersion + 1) saved := by
  intro saved
  have invariant := Invariant.reachable reachable
  have bucket : (store.aggregateEvents (aggregateKey aggregateType id)).filter
      (fun event => afterVersion < event.version) = saved :=
    invariant.bucket_filter (aggregateKey aggregateType id) afterVersion
  have read := drain_get store id aggregateType afterVersion
  dsimp only at read
  rw [bucket] at read
  refine ⟨read, ?_⟩
  rw [← bucket]
  by_cases within : afterVersion ≤ VersionLog.current store.aggregateEvents (aggregateKey aggregateType id)
  · exact VersionLog.after_numbered invariant.numbered _ within
  · have none := (VersionLog.after_eq_nil invariant.numbered (aggregateKey aggregateType id)
      afterVersion).mpr (by omega)
    simp only [VersionLog.after] at none
    rw [none]
    exact numbered_nil _

/-- **The memory store refines the version log under its bucket keys.**  In every
reachable state the buckets form a numbered version log.  A `Save` of a non-empty batch is
accepted exactly when the batch belongs to one aggregate and the log accepts the stamped
batch under its bucket key, and the buckets then are the log after that append.  `Get`
followed by draining its iterator returns the log under the key past `afterVersion`, and
`ErrNoEvents` when that is empty. -/
theorem memory_refines_version_log {store : Memory α μ} (reachable : Reachable store) :
    VersionLog.WellNumbered store.aggregateEvents ∧
    (∀ (first : Event α μ) (rest : List (Event α μ)),
      let key := aggregateKey first.aggregateType first.aggregateID
      let stamped := stamp store.eventsInOrder.length (first :: rest)
      ((store.save (first :: rest)).1 = .ok () ↔
        SameAggregate first.aggregateID first.aggregateType (first :: rest) ∧
          (VersionLog.append store.aggregateEvents key stamped).isSome) ∧
      ((store.save (first :: rest)).1 = .ok () →
        VersionLog.append store.aggregateEvents key stamped =
          some (store.save (first :: rest)).2.1.aggregateEvents)) ∧
    ∀ (id aggregateType : String) (afterVersion : Nat),
      let after := VersionLog.after store.aggregateEvents (aggregateKey aggregateType id)
        afterVersion
      (store.get id aggregateType afterVersion).bind (drain Iterator.next (after.length + 1)) =
        if after.length = 0 then .error .noEvents else .ok after := by
  have invariant := Invariant.reachable reachable
  refine ⟨invariant.numbered, fun first rest => save_refines invariant first rest,
    fun id aggregateType afterVersion => ?_⟩
  have read := (drain_get_reachable reachable id aggregateType afterVersion).1
  rw [← invariant.bucket_filter (aggregateKey aggregateType id) afterVersion] at read
  exact read

/-- The refinement in the state after one accepted `Save` of a `Born` event: the buckets
are numbered. -/
theorem memory_refines_version_log_person :
    let born : Event PersonEvent Unit := ⟨"p", 1, 0, "Person", ⟨0, 0, by decide⟩, .born "", none⟩
    VersionLog.WellNumbered (create.save [born]).2.1.aggregateEvents :=
  (memory_refines_version_log (Reachable.save _ .create)).1

/-- The aggregates `("a_b", "c")` and `("a", "b_c")` share the bucket `"a_b_c"`: once the
first has saved its first event, the second's first event is refused as a concurrency
conflict, and `Get` for the second returns the first's event. -/
theorem aggregateKey_collision :
    let first : Event Unit Unit := ⟨"c", 1, 0, "a_b", ⟨0, 0, by decide⟩, (), none⟩
    let second : Event Unit Unit := ⟨"b_c", 1, 0, "a", ⟨0, 0, by decide⟩, (), none⟩
    let store := (create.save [first]).2.1
    (store.save [second]).1 = .error .concurrency ∧
      (store.get "b_c" "a" 0).bind (drain Iterator.next 2) =
        .ok [{ first with globalVersion := 1 }] := by
  decide

private theorem append_sep_inj {separator : Char} :
    ∀ {front front' back back' : List Char}, separator ∉ front → separator ∉ front' →
      front ++ separator :: back = front' ++ separator :: back' → front = front' ∧ back = back'
  | [], [], _, _, _, _, joined => ⟨rfl, by simpa using joined⟩
  | [], _ :: _, _, _, _, absent', joined => by
    simp only [List.nil_append, List.cons_append, List.cons.injEq] at joined
    simp [joined.1] at absent'
  | _ :: _, [], _, _, absent, _, joined => by
    simp only [List.nil_append, List.cons_append, List.cons.injEq] at joined
    simp [joined.1] at absent
  | head :: front, head' :: front', _, _, absent, absent', joined => by
    simp only [List.cons_append, List.cons.injEq] at joined
    obtain ⟨rfl, rest⟩ := joined
    obtain ⟨rfl, rfl⟩ := append_sep_inj (List.not_mem_of_not_mem_cons absent)
      (List.not_mem_of_not_mem_cons absent') rest
    exact ⟨rfl, rfl⟩

/-- Where aggregate types contain no `_`, `aggregateKey` tells aggregates apart. -/
theorem aggregateKey_injective {aggregateType aggregateType' aggregateID aggregateID' : String}
    (separated : '_' ∉ aggregateType.toList) (separated' : '_' ∉ aggregateType'.toList)
    (same : aggregateKey aggregateType aggregateID = aggregateKey aggregateType' aggregateID') :
    aggregateType = aggregateType' ∧ aggregateID = aggregateID' := by
  have lists : aggregateType.toList ++ '_' :: aggregateID.toList =
      aggregateType'.toList ++ '_' :: aggregateID'.toList := by
    simpa [aggregateKey] using congrArg String.toList same
  obtain ⟨types, ids⟩ := append_sep_inj separated separated' lists
  exact ⟨String.ext types, String.ext ids⟩

/-! ### Two batches from one stale Version -/

/-- A batch accepted against a bucket's current Version makes any other non-empty batch of
the same aggregate built from that Version a concurrency conflict that changes nothing. -/
theorem save_then_stale {store : Memory α μ} {aggregateType aggregateID : String}
    {first second : Event α μ} {firstRest secondRest : List (Event α μ)}
    (firstFor : first.aggregateType = aggregateType ∧ first.aggregateID = aggregateID)
    (secondFor : second.aggregateType = aggregateType ∧ second.aggregateID = aggregateID)
    (firstValid : validateEvents aggregateID
      (lastVersion (store.aggregateEvents (aggregateKey aggregateType aggregateID)))
      (first :: firstRest) = .ok ())
    (secondValid : validateEvents aggregateID
      (lastVersion (store.aggregateEvents (aggregateKey aggregateType aggregateID)))
      (second :: secondRest) = .ok ()) :
    let saved := store.save (first :: firstRest)
    saved.1 = .ok () ∧ (saved.2.1.save (second :: secondRest)).1 = .error .concurrency ∧
      (saved.2.1.save (second :: secondRest)).2.1 = saved.2.1 := by
  obtain ⟨rfl, rfl⟩ := firstFor
  obtain ⟨secondID, version, globalVersion, secondType, timestamp, data, metadata⟩ := second
  obtain ⟨rfl, rfl⟩ := secondFor
  obtain ⟨-, firstNumbered⟩ := validateEvents_cons_eq_ok.mp firstValid
  obtain ⟨secondSame, secondNumbered⟩ := validateEvents_cons_eq_ok.mp secondValid
  rw [numbered_cons] at secondNumbered
  dsimp only at secondNumbered
  have grown := lastVersion_append
    (store.aggregateEvents (aggregateKey first.aggregateType first.aggregateID))
    (numbered_stamp.mpr firstNumbered : Numbered _ (stamp store.eventsInOrder.length _))
    (by simp [stamp])
  simp only [save_of_validate_ok firstValid, true_and]
  rw [save_of_validate_error]
  · exact ⟨rfl, rfl⟩
  · dsimp only
    rw [Function.update_same]
    apply validateEvents_stale secondSame
    · exact numbered_cons.mpr ⟨rfl, secondNumbered.1 ▸ secondNumbered.2⟩
    · simp only [length_stamp, List.length_cons] at grown
      simp only
      omega

/-- **Stale batches conflict.**  Two non-empty batches of one aggregate, both accepted by
the validator against the bucket's current Version: whichever `Save` the lock lets in first
returns nil, the other returns `ErrConcurrency`, and the store is left as the first left
it. -/
theorem memory_stale_batches_conflict {store : Memory α μ} {aggregateType aggregateID : String}
    {first second : Event α μ} {firstRest secondRest : List (Event α μ)}
    (firstFor : first.aggregateType = aggregateType ∧ first.aggregateID = aggregateID)
    (secondFor : second.aggregateType = aggregateType ∧ second.aggregateID = aggregateID)
    (firstValid : validateEvents aggregateID
      (lastVersion (store.aggregateEvents (aggregateKey aggregateType aggregateID)))
      (first :: firstRest) = .ok ())
    (secondValid : validateEvents aggregateID
      (lastVersion (store.aggregateEvents (aggregateKey aggregateType aggregateID)))
      (second :: secondRest) = .ok ()) :
    (let saved := store.save (first :: firstRest)
     saved.1 = .ok () ∧ (saved.2.1.save (second :: secondRest)).1 = .error .concurrency ∧
       (saved.2.1.save (second :: secondRest)).2.1 = saved.2.1) ∧
    (let saved := store.save (second :: secondRest)
     saved.1 = .ok () ∧ (saved.2.1.save (first :: firstRest)).1 = .error .concurrency ∧
       (saved.2.1.save (first :: firstRest)).2.1 = saved.2.1) :=
  ⟨save_then_stale firstFor secondFor firstValid secondValid,
    save_then_stale secondFor firstFor secondValid firstValid⟩

/-- Two callers that both start the aggregate `("Person", "p")` from nothing race: one
wins. -/
theorem memory_stale_batches_conflict_person :
    let born : Event Unit Unit := ⟨"p", 1, 0, "Person", ⟨0, 0, by decide⟩, (), none⟩
    let aged : Event Unit Unit := { born with version := 2 }
    (let saved := (create : Memory Unit Unit).save [born]
     saved.1 = .ok () ∧ (saved.2.1.save [born, aged]).1 = .error .concurrency ∧
       (saved.2.1.save [born, aged]).2.1 = saved.2.1) ∧
    (let saved := (create : Memory Unit Unit).save [born, aged]
     saved.1 = .ok () ∧ (saved.2.1.save [born]).1 = .error .concurrency ∧
       (saved.2.1.save [born]).2.1 = saved.2.1) :=
  memory_stale_batches_conflict ⟨rfl, rfl⟩ ⟨rfl, rfl⟩ (by decide) (by decide)

/-! ### Roots saved to the memory store -/

/-- **Two roots loaded at the same Version race.**  In a reachable state, take two aggregates
of one type and identity whose buffers are tracked from the number of events in their
bucket.  Whichever buffer is saved first is accepted; the other then gets `ErrConcurrency`
and changes nothing. -/
theorem tracked_roots_race {σ : Type} {store : Memory α μ} (reachable : Reachable store)
    {a b : Aggregate σ α μ} {base : Nat} (trackedA : Tracked a base) (trackedB : Tracked b base)
    (sameType : b.typeName = a.typeName) (sameID : b.root.aggregateID = a.root.aggregateID)
    (loadedAt : VersionLog.current store.aggregateEvents
      (aggregateKey a.typeName a.root.aggregateID) = base)
    (pendingA : a.root.aggregateEvents ≠ []) (pendingB : b.root.aggregateEvents ≠ []) :
    let saved := store.save a.root.aggregateEvents
    saved.1 = .ok () ∧ (saved.2.1.save b.root.aggregateEvents).1 = .error .concurrency ∧
      (saved.2.1.save b.root.aggregateEvents).2.1 = saved.2.1 := by
  obtain ⟨first, firstRest, bufferA⟩ := List.exists_cons_of_ne_nil pendingA
  obtain ⟨second, secondRest, bufferB⟩ := List.exists_cons_of_ne_nil pendingB
  have forA := trackedA.same first (bufferA ▸ List.mem_cons_self _ _)
  have forB := trackedB.same second (bufferB ▸ List.mem_cons_self _ _)
  have current : lastVersion (store.aggregateEvents
      (aggregateKey a.typeName a.root.aggregateID)) = base := by
    rw [lastVersion_eq_length ((Invariant.reachable reachable).numbered _)]
    exact loadedAt
  have validA := (trackedA.validateEvents_eq_ok pendingA base).mpr rfl
  have validB := (trackedB.validateEvents_eq_ok pendingB base).mpr rfl
  rw [bufferA] at validA ⊢
  rw [bufferB, sameID] at validB
  rw [bufferB]
  exact save_then_stale ⟨forA.2, forA.1⟩ ⟨forB.2.trans sameType, forB.1.trans sameID⟩
    (by rw [current]; exact validA) (by rw [current]; exact validB)

/-- **Two roots loaded from the same state race.**  In a reachable state, load an aggregate
twice from its bucket, the events `Get` drains to: two aggregates of one type and identity,
without Version or buffer, replay the bucket with `BuildFromHistory`.  Then track changes
on each.  Whichever root's buffer is saved first is accepted; the other then gets
`ErrConcurrency` and changes nothing. -/
theorem aggregate_roots_race {σ : Type} {store : Memory α μ} (reachable : Reachable store)
    (transition : σ → Event α μ → σ) (a₀ b₀ a b : Aggregate σ α μ)
    (freshA : a₀.root.aggregateVersion = 0 ∧ a₀.root.aggregateEvents = [])
    (freshB : b₀.root.aggregateVersion = 0 ∧ b₀.root.aggregateEvents = [])
    (sameType : b₀.typeName = a₀.typeName) (sameID : b₀.root.aggregateID = a₀.root.aggregateID)
    (named : a₀.root.aggregateID ≠ "")
    (changesA : Changes transition (a₀.buildFromHistory transition
      (store.aggregateEvents (aggregateKey a₀.typeName a₀.root.aggregateID))) a)
    (changesB : Changes transition (b₀.buildFromHistory transition
      (store.aggregateEvents (aggregateKey a₀.typeName a₀.root.aggregateID))) b)
    (pendingA : a.root.aggregateEvents ≠ []) (pendingB : b.root.aggregateEvents ≠ []) :
    let saved := store.save a.root.aggregateEvents
    saved.1 = .ok () ∧ (saved.2.1.save b.root.aggregateEvents).1 = .error .concurrency ∧
      (saved.2.1.save b.root.aggregateEvents).2.1 = saved.2.1 := by
  have numbered := (Invariant.reachable reachable).numbered
    (aggregateKey a₀.typeName a₀.root.aggregateID)
  have rootA := buildFromHistory_root transition a₀
    (store.aggregateEvents (aggregateKey a₀.typeName a₀.root.aggregateID))
  have rootB := buildFromHistory_root transition b₀
    (store.aggregateEvents (aggregateKey a₀.typeName a₀.root.aggregateID))
  obtain ⟨trackedA, typeA, idA⟩ := changesA.tracked
    (Tracked.loaded transition freshA.1 freshA.2 numbered) (by rw [rootA.2.1]; exact named)
  obtain ⟨trackedB, typeB, idB⟩ := changesB.tracked
    (Tracked.loaded transition freshB.1 freshB.2 numbered) (by rw [rootB.2.1, sameID]; exact named)
  rw [rootA.1] at typeA
  rw [rootA.2.1] at idA
  rw [rootB.1, sameType] at typeB
  rw [rootB.2.1, sameID] at idB
  refine tracked_roots_race reachable trackedA trackedB (typeB.trans typeA.symm)
    (idB.trans idA.symm) ?_ pendingA pendingB
  rw [typeA, idA]
  rfl

/-- Two `Person` roots loaded from the empty store, one tracking `Born "Alice"` and the
other `Born "Bob"`: the first saved wins. -/
theorem aggregate_roots_race_person :
    let alice : Event PersonEvent Unit :=
      ⟨"p", 1, 0, "Person", ⟨0, 0, by decide⟩, .born "Alice", none⟩
    let bob : Event PersonEvent Unit := { alice with data := .born "Bob" }
    let saved := (create : Memory PersonEvent Unit).save [alice]
    saved.1 = .ok () ∧ (saved.2.1.save [bob]).1 = .error .concurrency ∧
      (saved.2.1.save [bob]).2.1 = saved.2.1 := by
  intro alice bob
  exact aggregate_roots_race .create (fun _ _ => ()) ⟨"Person", (), ⟨"p", 0, 0, []⟩⟩
    ⟨"Person", (), ⟨"p", 0, 0, []⟩⟩
    ⟨"Person", (), ⟨"p", 1, 0, [alice]⟩⟩ ⟨"Person", (), ⟨"p", 1, 0, [bob]⟩⟩
    ⟨rfl, rfl⟩ ⟨rfl, rfl⟩ rfl rfl (by decide)
    (.trackChange "" alice.timestamp (.born "Alice") none .refl rfl)
    (.trackChange "" alice.timestamp (.born "Bob") none .refl rfl)
    (List.cons_ne_nil _ _) (List.cons_ne_nil _ _)

end Memory

end EventSourcing
