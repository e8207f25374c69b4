import EventSourcing.Validate
import Mathlib.Logic.Function.Basic

/-
Module: EventSourcing.VersionLog
Purpose: What an event store is for.  Each stream keeps an append-only log whose Versions
  count 1, 2, ...; a batch is appended only when it continues that count, and a read after
  Version `a` returns the log past `a`.  The memory store and the EventStoreDB store are
  shown to refine this model in their own modules.
Trusted boundary: none
Main exports: VersionLog, VersionLog.WellNumbered, VersionLog.append, VersionLog.after,
  VersionLog.WellNumbered.append, VersionLog.after_eq_drop
-/

namespace EventSourcing

variable {α μ : Type}

/-! ### Numbered lists of events -/

namespace Numbered

/-- Past Version `a`, a list numbered from `first` is the list without its first
`a + 1 - first` events. -/
theorem filter_lt {first : Nat} {events : List (Event α μ)} (numbered : Numbered first events)
    (a : Nat) : events.filter (fun event => a < event.version) = events.drop (a + 1 - first) := by
  induction events generalizing first with
  | nil => simp
  | cons event rest ih =>
    rw [numbered_cons] at numbered
    obtain ⟨version, numberedRest⟩ := numbered
    by_cases keep : a < first
    · have drop : a + 1 - first = 0 := by omega
      have dropRest : a + 1 - (first + 1) = 0 := by omega
      simp [List.filter_cons, version, keep, drop, ih numberedRest, dropRest]
    · have drop : a + 1 - first = a + 1 - (first + 1) + 1 := by omega
      simp [List.filter_cons, version, keep, drop, ih numberedRest]

theorem drop {first : Nat} {events : List (Event α μ)} (numbered : Numbered first events)
    {count : Nat} (within : count ≤ events.length) :
    Numbered (first + count) (events.drop count) := by
  rw [← List.take_append_drop count events, numbered_append] at numbered
  simpa [List.length_take, Nat.min_eq_left within] using numbered.2

/-- A list numbered from 1, read from position `count`, is numbered from `count + 1`. -/
theorem drop_succ {events : List (Event α μ)} (numbered : Numbered 1 events) (count : Nat) :
    Numbered (count + 1) (events.drop count) := by
  by_cases within : count ≤ events.length
  · simpa [Nat.add_comm] using numbered.drop within
  · simp [List.drop_eq_nil_of_le (by omega : events.length ≤ count)]

end Numbered

/-- Per stream key, the events saved under it, in saved order. -/
abbrev VersionLog (α μ : Type) := String → List (Event α μ)

namespace VersionLog

/-- Every stream's Versions count `1, 2, ...` with no gap. -/
def WellNumbered (log : VersionLog α μ) : Prop :=
  ∀ key, Numbered 1 (log key)

/-- The current Version of a stream: how many events it holds. -/
def current (log : VersionLog α μ) (key : String) : Nat :=
  (log key).length

/-- Optimistic append: the batch is accepted exactly when it continues the stream's count. -/
def append (log : VersionLog α μ) (key : String) (batch : List (Event α μ)) :
    Option (VersionLog α μ) :=
  if Numbered (log.current key + 1) batch then
    some (Function.update log key (log key ++ batch))
  else none

/-- The events of a stream past Version `afterVersion`, in saved order. -/
def after (log : VersionLog α μ) (key : String) (afterVersion : Nat) : List (Event α μ) :=
  (log key).filter (fun event => afterVersion < event.version)

theorem append_eq_some {log log' : VersionLog α μ} {key : String} {batch : List (Event α μ)} :
    log.append key batch = some log' ↔
      Numbered (log.current key + 1) batch ∧
        log' = Function.update log key (log key ++ batch) := by
  unfold append
  split <;> simp_all [eq_comm]

theorem WellNumbered.empty : WellNumbered (fun _ => [] : VersionLog α μ) :=
  fun _ => numbered_nil 1

/-- Appending keeps every stream numbered. -/
theorem WellNumbered.append {log log' : VersionLog α μ} (numbered : WellNumbered log)
    {key : String} {batch : List (Event α μ)} (appended : log.append key batch = some log') :
    WellNumbered log' := by
  obtain ⟨continues, rfl⟩ := append_eq_some.mp appended
  intro other
  by_cases same : other = key
  · subst same
    rw [Function.update_same, numbered_append]
    exact ⟨numbered other, by simpa [current, Nat.add_comm] using continues⟩
  · rw [Function.update_noteq same]
    exact numbered other

/-- In a numbered log, the events past Version `a` are the stream without its first `a`
events, and they carry the Versions `a + 1, a + 2, ...`. -/
theorem after_eq_drop {log : VersionLog α μ} (numbered : WellNumbered log) (key : String)
    (a : Nat) : log.after key a = (log key).drop a := by
  simpa using (numbered key).filter_lt a

theorem after_numbered {log : VersionLog α μ} (numbered : WellNumbered log) (key : String)
    {a : Nat} (within : a ≤ log.current key) : Numbered (a + 1) (log.after key a) := by
  rw [after_eq_drop numbered, Nat.add_comm]
  exact (numbered key).drop within

theorem after_eq_nil {log : VersionLog α μ} (numbered : WellNumbered log) (key : String)
    (a : Nat) : log.after key a = [] ↔ log.current key ≤ a := by
  simp [after_eq_drop numbered, current]

end VersionLog

end EventSourcing
