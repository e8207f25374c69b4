import EventSourcing.Event

/-
Module: EventSourcing.Iterator
Purpose: Reading a store's event iterator to its end (spec §6: `Next` until
  `ErrNoMoreEvents`), and the shape shared by the EventStoreDB and bbolt iterators, whose
  `Next` skips a record the registry does not know by calling itself on the rest.
Trusted boundary: none
Main exports: drain, nextOf, readAll, drain_nextOf
-/

namespace EventSourcing

variable {α μ ι ρ κ β : Type}

/-- The reader's loop over an iterator: call `Next` until it returns `ErrNoMoreEvents`,
and stop at the first other error.  `fuel` bounds the number of calls. -/
def drain (next : ι → Except Error (Event α μ) × ι) : Nat → ι → Except Error (List (Event α μ))
  | 0, _ => .ok []
  | fuel + 1, iterator =>
    match next iterator with
    | (.error .noMoreEvents, _) => .ok []
    | (.error err, _) => .error err
    | (.ok event, rest) => (drain next fuel rest).map (event :: ·)

/-- `Next` over the records left to read.  `lookup` reads a record's registry entry (it
may fail first, as bbolt's envelope decoding does); a record without one is skipped by
calling `Next` again, and a known one is decoded. -/
def nextOf (lookup : ρ → Except Error (Option κ)) (decode : κ → Except Error (Event α μ)) :
    List ρ → Except Error (Event α μ) × List ρ
  | [] => (.error .noMoreEvents, [])
  | record :: records =>
    match lookup record with
    | .error err => (.error err, records)
    | .ok none => nextOf lookup decode records
    | .ok (some found) => (decode found, records)

/-- Decoding in order as the reader's loop sees it: the first error stops the read, quietly
when it is `ErrNoMoreEvents`. -/
def readAll (decode : κ → Except Error β) : List κ → Except Error (List β)
  | [] => .ok []
  | found :: rest =>
    match decode found with
    | .error .noMoreEvents => .ok []
    | .error err => .error err
    | .ok value => (readAll decode rest).map (value :: ·)

@[simp] theorem readAll_nil (decode : κ → Except Error β) : readAll decode [] = .ok [] := rfl

/-- Where every decoding succeeds, the read returns every decoded record. -/
theorem readAll_eq_ok_map {decode : κ → Except Error β} {decoded : κ → β} :
    ∀ {founds : List κ}, (∀ found ∈ founds, decode found = .ok (decoded found)) →
      readAll decode founds = .ok (founds.map decoded)
  | [], _ => rfl
  | found :: rest, decodes => by
    simp only [List.mem_cons, forall_eq_or_imp] at decodes
    simp [readAll, decodes.1, readAll_eq_ok_map decodes.2, Except.map]

/-- A record without a registry entry is invisible to the reader. -/
theorem drain_nextOf_skip {lookup : ρ → Except Error (Option κ)}
    {decode : κ → Except Error (Event α μ)} {record : ρ} (skipped : lookup record = .ok none)
    (fuel : Nat) (records : List ρ) :
    drain (nextOf lookup decode) fuel (record :: records) =
      drain (nextOf lookup decode) fuel records := by
  cases fuel with
  | zero => rfl
  | succ fuel => simp only [drain, nextOf, skipped]

/-- **Draining terminates and reads the registered records.**  With one call more than
there are records, draining an iterator whose lookup succeeds on every record reads
exactly the records that have a registry entry, each decoded, in stored order. -/
theorem drain_nextOf {lookup : ρ → Except Error (Option κ)} {find : ρ → Option κ}
    {decode : κ → Except Error (Event α μ)} {records : List ρ}
    (found : ∀ record ∈ records, lookup record = .ok (find record)) {fuel : Nat}
    (enough : records.length < fuel) :
    drain (nextOf lookup decode) fuel records = readAll decode (records.filterMap find) := by
  induction records generalizing fuel with
  | nil =>
    obtain ⟨fuel, rfl⟩ := Nat.exists_eq_add_one_of_ne_zero (by omega : fuel ≠ 0)
    rfl
  | cons record records rest =>
    obtain ⟨fuel, rfl⟩ := Nat.exists_eq_add_one_of_ne_zero (by omega : fuel ≠ 0)
    simp only [List.length_cons] at enough
    simp only [List.mem_cons, forall_eq_or_imp] at found
    cases entry : find record with
    | none =>
      rw [drain_nextOf_skip (by rw [found.1, entry]), rest found.2 (by omega),
        List.filterMap_cons_none entry]
    | some entry' =>
      rw [List.filterMap_cons_some entry]
      simp only [drain, nextOf, found.1, entry, readAll]
      rcases decode entry' with err | event
      · cases err <;> rfl
      · simp only [rest found.2 (by omega : records.length < fuel)]

end EventSourcing
