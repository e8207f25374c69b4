import EventSourcing.VersionLog
import EventSourcing.Iterator

/-
Module: EventSourcing.Memory.Store
Purpose: The in-memory event store: its two structures, `Save` with its stamping loop,
  `Get` with its iterator, `GlobalEvents` with its `uint64` countdown, and one spec lemma
  per operation.
Trusted boundary: the validator (`EventSourcing.Validate`) is modelled from the spec.
Main exports: Memory, aggregateKey, create, save, get, Iterator.next, globalEvents,
  save_of_validate_ok, save_of_validate_error, drain_get, globalEvents_eq_take
-/

namespace EventSourcing

/-!
[SRC unnamed/part_002:11-133].  The store's mutex is taken for the whole body of every
call, so each call is one atomic step of the state; the model drops the lock and the
`context.Context` that `Get` ignores.  A call returns the error it returns, the store after
it, and, for `Save`, the caller's slice after it (the source writes each event's
`GlobalVersion` back into that slice).
-/

variable {α μ : Type}

/-- `memory.Memory[T]`: the buckets keyed by `aggregateKey`, and the global order. -/
structure Memory (α μ : Type) where
  aggregateEvents : String → List (Event α μ)
  eventsInOrder : List (Event α μ)

namespace Memory

/-- `aggregateKey`: the bucket of an aggregate, `aggregateType + "_" + aggregateID`. -/
def aggregateKey (aggregateType aggregateID : String) : String :=
  aggregateType ++ "_" ++ aggregateID

/-- `Create`: no bucket holds an event and the global order is empty. -/
def create : Memory α μ :=
  ⟨fun _ => [], []⟩

/-- The current Version `Save` reads from a bucket: its last event's, `0` when empty. -/
def lastVersion (evBucket : List (Event α μ)) : Nat :=
  match evBucket.getLast? with
  | some lastEvent => lastEvent.version
  | none => 0

/-- The loop of `Save`: stamp each event with the global position it takes, append it to
the bucket and to the global order, and return the caller's slice with the stamps. -/
def appendEvents : List (Event α μ) → List (Event α μ) → List (Event α μ) →
    List (Event α μ) × List (Event α μ) × List (Event α μ)
  | [], evBucket, eventsInOrder => (evBucket, eventsInOrder, [])
  | event :: rest, evBucket, eventsInOrder =>
    let event := { event with globalVersion := eventsInOrder.length + 1 }
    let (evBucket, eventsInOrder, stamped) :=
      appendEvents rest (evBucket ++ [event]) (eventsInOrder ++ [event])
    (evBucket, eventsInOrder, event :: stamped)

/-- `Memory.Save`. -/
def save (store : Memory α μ) (events : List (Event α μ)) :
    Except Error Unit × Memory α μ × List (Event α μ) :=
  match events with
  | [] => (.ok (), store, events)
  | first :: _ =>
    let bucketName := aggregateKey first.aggregateType first.aggregateID
    let evBucket := store.aggregateEvents bucketName
    match validateEvents first.aggregateID (lastVersion evBucket) events with
    | .error err => (.error err, store, events)
    | .ok () =>
      let (evBucket, eventsInOrder, events) :=
        appendEvents events evBucket store.eventsInOrder
      (.ok (),
        { aggregateEvents := Function.update store.aggregateEvents bucketName evBucket,
          eventsInOrder := eventsInOrder },
        events)

/-- The memory iterator: the events `Get` selected and the index of the next one. -/
structure Iterator (α μ : Type) where
  events : List (Event α μ)
  position : Nat

/-- `iterator.Next`. -/
def Iterator.next (iterator : Iterator α μ) : Except Error (Event α μ) × Iterator α μ :=
  match iterator.events[iterator.position]? with
  | none => (.error .noMoreEvents, iterator)
  | some event => (.ok event, { iterator with position := iterator.position + 1 })

/-- `iterator.Close`. -/
def Iterator.close (_ : Iterator α μ) : Iterator α μ :=
  ⟨[], 0⟩

/-- `Memory.Get`: the bucket's events past `afterVersion`, or `ErrNoEvents` when there is
none. -/
def get (store : Memory α μ) (id aggregateType : String) (afterVersion : Nat) :
    Except Error (Iterator α μ) :=
  let events := (store.aggregateEvents (aggregateKey aggregateType id)).filter
    (fun event => afterVersion < event.version)
  if events.length = 0 then .error .noEvents else .ok ⟨events, 0⟩

/-- The loop of `Memory.GlobalEvents`: collect, in global order, the events whose
GlobalVersion is at least `start`; after each one the `uint64` counter is decremented and
the loop stops when it reads 0.  (`uint64(e.GlobalVersion)` is the GlobalVersion itself:
it is below `2^64`.) -/
def globalEventsLoop (start : UInt64) :
    List (Event α μ) → UInt64 → List (Event α μ) → List (Event α μ)
  | [], _, events => events
  | event :: rest, count, events =>
    if start.toNat ≤ event.globalVersion then
      if count - 1 = 0 then events ++ [event]
      else globalEventsLoop start rest (count - 1) (events ++ [event])
    else globalEventsLoop start rest count events

/-- `Memory.GlobalEvents`; its error is always nil. -/
def globalEvents (store : Memory α μ) (start count : UInt64) :
    Except Error (List (Event α μ)) :=
  .ok (globalEventsLoop start store.eventsInOrder count [])

/-! ### Save -/

/-- The batch as `Save` writes it when the global order holds `base` events: the `i`-th
event with GlobalVersion `base + i + 1`, every other field unchanged. -/
def stamp (base : Nat) : List (Event α μ) → List (Event α μ)
  | [] => []
  | event :: rest => { event with globalVersion := base + 1 } :: stamp (base + 1) rest

@[simp] theorem stamp_nil (base : Nat) : stamp base ([] : List (Event α μ)) = [] := rfl

@[simp] theorem length_stamp (base : Nat) (events : List (Event α μ)) :
    (stamp base events).length = events.length := by
  induction events generalizing base <;> simp [stamp, *]

/-- Stamping changes GlobalVersions only. -/
theorem map_stamp {β : Type} (field : Event α μ → β)
    (unchanged : ∀ event n, field { event with globalVersion := n } = field event)
    (base : Nat) (events : List (Event α μ)) :
    (stamp base events).map field = events.map field := by
  induction events generalizing base <;> simp [stamp, unchanged, *]

theorem globalVersions_stamp (base : Nat) (events : List (Event α μ)) :
    (stamp base events).map Event.globalVersion = List.range' (base + 1) events.length := by
  induction events generalizing base with
  | nil => rfl
  | cons event rest ih => simp [stamp, ih, List.range'_succ]

theorem numbered_stamp {first base : Nat} {events : List (Event α μ)} :
    Numbered first (stamp base events) ↔ Numbered first events := by
  simp only [Numbered, length_stamp, map_stamp Event.version (fun _ _ => rfl)]

theorem sameAggregate_stamp {aggregateID aggregateType : String} {base : Nat}
    {events : List (Event α μ)} :
    SameAggregate aggregateID aggregateType (stamp base events) ↔
      SameAggregate aggregateID aggregateType events := by
  induction events generalizing base with
  | nil => simp [SameAggregate]
  | cons event rest ih =>
    simp only [SameAggregate, stamp, List.mem_cons, forall_eq_or_imp] at ih ⊢
    rw [ih]

theorem appendEvents_eq (events evBucket eventsInOrder : List (Event α μ)) :
    appendEvents events evBucket eventsInOrder =
      (evBucket ++ stamp eventsInOrder.length events,
        eventsInOrder ++ stamp eventsInOrder.length events,
        stamp eventsInOrder.length events) := by
  induction events generalizing evBucket eventsInOrder with
  | nil => simp [appendEvents]
  | cons event rest ih => simp [appendEvents, ih, stamp]

@[simp] theorem save_nil (store : Memory α μ) : store.save [] = (.ok (), store, []) := rfl

/-- A refused batch leaves the store and the caller's slice as they were. -/
theorem save_of_validate_error {store : Memory α μ} {first : Event α μ}
    {rest : List (Event α μ)} {err : Error}
    (refused : validateEvents first.aggregateID
      (lastVersion (store.aggregateEvents (aggregateKey first.aggregateType first.aggregateID)))
      (first :: rest) = .error err) :
    store.save (first :: rest) = (.error err, store, first :: rest) := by
  simp [save, refused]

/-- An accepted batch is stamped, appended to its bucket and to the global order, and the
stamps are written into the caller's slice. -/
theorem save_of_validate_ok {store : Memory α μ} {first : Event α μ} {rest : List (Event α μ)}
    (accepted : validateEvents first.aggregateID
      (lastVersion (store.aggregateEvents (aggregateKey first.aggregateType first.aggregateID)))
      (first :: rest) = .ok ()) :
    let bucketName := aggregateKey first.aggregateType first.aggregateID
    let stamped := stamp store.eventsInOrder.length (first :: rest)
    store.save (first :: rest) =
      (.ok (),
        { aggregateEvents := Function.update store.aggregateEvents bucketName
            (store.aggregateEvents bucketName ++ stamped),
          eventsInOrder := store.eventsInOrder ++ stamped },
        stamped) := by
  simp only [save, accepted, appendEvents_eq]

/-- Whatever `Save` returns, an error leaves everything as it was. -/
theorem save_error {store : Memory α μ} {events : List (Event α μ)} {err : Error}
    (failed : (store.save events).1 = .error err) :
    (store.save events).2 = (store, events) := by
  match events, failed with
  | first :: rest, failed =>
    cases accepted : validateEvents first.aggregateID
      (lastVersion (store.aggregateEvents (aggregateKey first.aggregateType first.aggregateID)))
      (first :: rest) with
    | error err' => rw [save_of_validate_error accepted]
    | ok u => simp [save_of_validate_ok accepted] at failed

theorem save_unchanged {store : Memory α μ} {events : List (Event α μ)}
    (failed : (store.save events).1 ≠ .ok ()) : (store.save events).2.1 = store := by
  cases result : (store.save events).1 with
  | error err => rw [save_error result]
  | ok u => exact absurd result failed

/-- What an accepted batch does to the store, whatever `validateEvents` checked. -/
theorem save_accepted {store : Memory α μ} {first : Event α μ} {rest : List (Event α μ)}
    (accepted : (store.save (first :: rest)).1 = .ok ()) :
    let bucketName := aggregateKey first.aggregateType first.aggregateID
    let stamped := stamp store.eventsInOrder.length (first :: rest)
    (store.save (first :: rest)).2.1 =
      { aggregateEvents := Function.update store.aggregateEvents bucketName
          (store.aggregateEvents bucketName ++ stamped),
        eventsInOrder := store.eventsInOrder ++ stamped } := by
  cases valid : validateEvents first.aggregateID
      (lastVersion (store.aggregateEvents (aggregateKey first.aggregateType first.aggregateID)))
      (first :: rest) with
  | error err => simp [save_of_validate_error valid] at accepted
  | ok u => rw [save_of_validate_ok valid]

/-! ### Get -/

/-- Draining a memory iterator reads its events from the position on. -/
theorem drain_next {events : List (Event α μ)} {position fuel : Nat}
    (enough : events.length < position + fuel) :
    drain Iterator.next fuel ⟨events, position⟩ = .ok (events.drop position) := by
  induction fuel generalizing position with
  | zero => simp [List.drop_eq_nil_of_le (by omega : events.length ≤ position), drain]
  | succ fuel ih =>
    cases found : events[position]? with
    | none =>
      have beyond : events.length ≤ position := by simpa using found
      simp [drain, Iterator.next, found, List.drop_eq_nil_of_le beyond]
    | some event =>
      obtain ⟨within, rfl⟩ := List.getElem?_eq_some.mp found
      simp only [drain, Iterator.next, found, ih (by omega : events.length < position + 1 + fuel)]
      rw [List.drop_eq_getElem_cons within]
      rfl

/-- `Get` followed by draining its iterator: the bucket's events past `afterVersion`, in
bucket order, or `ErrNoEvents` when there is none. -/
theorem drain_get (store : Memory α μ) (id aggregateType : String) (afterVersion : Nat) :
    let events := (store.aggregateEvents (aggregateKey aggregateType id)).filter
      (fun event => afterVersion < event.version)
    (store.get id aggregateType afterVersion).bind
        (drain Iterator.next (events.length + 1)) =
      if events.length = 0 then .error .noEvents else .ok events := by
  intro events
  by_cases empty : events.length = 0
  · simp only [get, events] at empty ⊢
    simp [empty, Except.bind]
  · simp only [get, events] at empty ⊢
    simp [empty, Except.bind, drain_next]

/-! ### GlobalEvents -/

/-- A `uint64` counter that is not 0 loses exactly one when decremented. -/
theorem toNat_pred_add_one {count : UInt64} (positive : count ≠ 0) :
    (count - 1).toNat + 1 = count.toNat := by
  have bound : count.toNat < UInt64.size := count.toBitVec.isLt
  have nonzero : count.toNat ≠ 0 := fun zero => positive (UInt64.toNat.inj (by simpa using zero))
  have wraps : (count - 1).toNat = (count.toNat + (UInt64.size - 1)) % UInt64.size := by
    rw [UInt64.sub_def]
    simp only [UInt64.toNat, BitVec.toNat_sub, UInt64.size]
    simp
    omega
  simp only [UInt64.size] at bound wraps
  omega

/-- The loop of `GlobalEvents` takes, from the events at or past `start`, one more than
the decremented counter: `count` of them when `count` is positive, and `2^64` when it is 0,
since the first decrement wraps. -/
theorem globalEventsLoop_eq (start : UInt64) (events : List (Event α μ)) (count : UInt64)
    (collected : List (Event α μ)) :
    globalEventsLoop start events count collected =
      collected ++ (events.filter (fun event => start.toNat ≤ event.globalVersion)).take
        ((count - 1).toNat + 1) := by
  induction events generalizing count collected with
  | nil => simp [globalEventsLoop]
  | cons event rest ih =>
    by_cases selected : start.toNat ≤ event.globalVersion
    · by_cases last : count - 1 = 0
      · simp [globalEventsLoop, selected, last]
      · simp only [globalEventsLoop, selected, last, if_true, if_false, ih,
          toNat_pred_add_one last, List.filter_cons, decide_True, List.take_succ_cons,
          List.append_assoc, List.singleton_append]
    · simp [globalEventsLoop, selected, ih]

/-- `GlobalEvents` returns the first `count` events at or past `start` in global order,
except that a `count` of 0 reads as `2^64`. -/
theorem globalEvents_eq_take (store : Memory α μ) (start count : UInt64) :
    store.globalEvents start count =
      .ok ((store.eventsInOrder.filter (fun event => start.toNat ≤ event.globalVersion)).take
        (if count = 0 then UInt64.size else count.toNat)) := by
  rw [globalEvents, globalEventsLoop_eq, List.nil_append]
  split
  · subst count
    rfl
  · rw [toNat_pred_add_one ‹_›]

/-- With `count = 0` the countdown wraps before it is tested: `GlobalEvents` returns the
events at or past `start` instead of none. -/
theorem globalEvents_count_zero :
    let born : Event Unit Unit := ⟨"p", 1, 0, "Person", ⟨0, 0, by decide⟩, (), none⟩
    (create.save [born]).2.1.globalEvents 0 0 = .ok [{ born with globalVersion := 1 }] := by
  decide

end Memory

end EventSourcing
