import EventSourcing.Esdb.Store
import EventSourcing.VersionLog
import Mathlib.Data.List.Forall2

/-
Module: EventSourcing.Esdb.Refinement
Purpose: The EventStoreDB store against the version log, keyed by stream name.  The
  1-based Version and the 0-based event number meet in three places (`Save`'s expected
  revision, `Get`'s `From = afterVersion`, `Next`'s `EventNumber + 1`).  For batches of one
  aggregate whose first Version is at least 1 the three agree: the validator refuses a
  gapped batch, the expected revision admits a contiguous one exactly when it continues its
  stream, every stream holds the encoded log of its saves, and `Get` reads the log past a
  Version.  Below Version 1 no revision is expected at all.
Trusted boundary: the server is modelled (`EventSourcing.Esdb.Client`).
Main exports: ESDB.Encodes, ESDB.Refines, ESDB.Run, ESDB.save_root_batch,
  ESDB.Refines.save, ESDB.Refines.get, ESDB.Run.refines
-/

namespace EventSourcing

open Esdb

namespace ESDB

variable {α μ : Type} [Reason α]

/-- A stored record is the encoded form of an event. -/
def Encodes (es : ESDB α μ) (event : Event α μ) (stored : StoredEvent) : Prop :=
  ∃ data, es.eventData event = .ok data ∧ stored.eventType = data.eventType ∧
    stored.data = data.data ∧ stored.userMetadata = data.metadata

/-- The server refines the version log keyed by stream name: every stream of the log is
numbered and holds events of aggregates whose stream it is, and every stream of the server
holds, in order, the encoded events of the log's stream. -/
structure Refines (es : ESDB α μ) (server : Server) (log : VersionLog α μ) : Prop where
  numbered : log.WellNumbered
  keyed : ∀ name, ∀ event ∈ log name, stream event.aggregateType event.aggregateID = name
  encoded : ∀ name, List.Forall₂ es.Encodes (log name) (server.streams name)

/-- Server states reached from the empty server by `Save` calls on batches whose first
Version is at least 1, at any clock and commit position, with the version log of what was
accepted. -/
inductive Run (es : ESDB α μ) : Server → VersionLog α μ → Prop
  | empty : Run es Server.empty fun _ => []
  | save {server : Server} {log : VersionLog α μ} (now : Time) (position : Nat)
      {first : Event α μ} {rest : List (Event α μ)} (versioned : 1 ≤ first.version) :
      Run es server log →
      Run es (es.save server now position (first :: rest)).2.1
        (if (es.save server now position (first :: rest)).1 = .ok () then
          Function.update log (stream first.aggregateType first.aggregateID)
            (log (stream first.aggregateType first.aggregateID) ++ first :: rest)
        else log)

/-! ### Encoding -/

theorem forall₂_mapM_eventData {es : ESDB α μ} :
    ∀ {events : List (Event α μ)} {esdbEvents : List EventData},
      events.mapM es.eventData = .ok esdbEvents →
        List.Forall₂ (fun event data => es.eventData event = .ok data) events esdbEvents
  | [], _, encoded => by
    cases encoded
    exact .nil
  | event :: rest, esdbEvents, encoded => by
    rw [List.mapM_cons] at encoded
    cases head : es.eventData event <;> cases tail : rest.mapM es.eventData <;>
      rw [head, tail] at encoded <;> cases encoded
    exact .cons head (forall₂_mapM_eventData tail)

theorem encodes_stored {es : ESDB α μ} {events : List (Event α μ)}
    {esdbEvents : List EventData} (encoded : events.mapM es.eventData = .ok esdbEvents)
    (now : Time) : List.Forall₂ es.Encodes events (stored esdbEvents now) := by
  rw [stored, List.forall₂_map_right_iff]
  exact (forall₂_mapM_eventData encoded).imp fun _ data made => ⟨data, made, rfl, rfl, rfl⟩

/-! ### Save -/

/-- `Save` on a batch of one aggregate with contiguous Versions from at least 1: a
marshalling error comes back with the server unchanged; otherwise the encoded batch is
appended to the aggregate's stream exactly when the first Version continues the stream,
and else the server is unchanged. -/
theorem save_root_batch (es : ESDB α μ) (server : Server) (now : Time) (position : Nat)
    {first : Event α μ} {rest : List (Event α μ)}
    (same : SameAggregate first.aggregateID first.aggregateType (first :: rest))
    (numbered : Numbered first.version (first :: rest)) (versioned : 1 ≤ first.version) :
    let key := stream first.aggregateType first.aggregateID
    let result := es.save server now position (first :: rest)
    (∀ err, (first :: rest).mapM es.eventData = .error err →
      result.1 = .error err ∧ result.2.1 = server) ∧
    ∀ esdbEvents, (first :: rest).mapM es.eventData = .ok esdbEvents →
      (result.1 = .ok () ↔ first.version = (server.streams key).length + 1) ∧
      (result.1 = .ok () → result.2.1.streams =
        Function.update server.streams key (server.streams key ++ stored esdbEvents now)) ∧
      (result.1 ≠ .ok () → result.2.1 = server) := by
  dsimp only
  rw [save_cons es server now position same numbered]
  refine ⟨fun err failed => by rw [failed]; exact ⟨rfl, rfl⟩, fun esdbEvents encoded => ?_⟩
  rw [encoded]
  dsimp only
  cases appended : appendToStream server (stream first.aggregateType first.aggregateID)
      (expectedRevision first.version) esdbEvents now position with
  | error err =>
    obtain ⟨refused, -⟩ := appendToStream_eq_error.mp appended
    rw [expectedRevision_admits versioned] at refused
    simp [refused]
  | ok written =>
    obtain ⟨admitted, streams, -⟩ := appendToStream_eq_ok.mp appended
    rw [expectedRevision_admits versioned] at admitted
    simp [admitted, streams]

/-- An accepted `Save` gives every event of the caller's slice the commit position the
server reported. -/
theorem save_slice (es : ESDB α μ) (server : Server) (now : Time) (position : Nat)
    {first : Event α μ} {rest : List (Event α μ)}
    (accepted : (es.save server now position (first :: rest)).1 = .ok ()) :
    (es.save server now position (first :: rest)).2.2 =
      (first :: rest).map fun event => { event with globalVersion := position } := by
  cases valid : validateEventsNoVersionCheck first.aggregateID (first :: rest) with
  | error err => rw [save_invalid es server now position valid] at accepted; cases accepted
  | ok _ =>
    obtain ⟨same, numbered⟩ := validateEventsNoVersionCheck_cons_eq_ok.mp valid
    rw [save_cons es server now position same numbered] at accepted ⊢
    cases encoded : (first :: rest).mapM es.eventData with
    | error err => rw [encoded] at accepted; cases accepted
    | ok esdbEvents =>
      rcases appended : appendToStream server (stream first.aggregateType first.aggregateID)
          (expectedRevision first.version) esdbEvents now position with _ | ⟨wr, server'⟩
      · simp only [encoded, appended] at accepted
        cases accepted
      · obtain ⟨-, -, commit⟩ := appendToStream_eq_ok.mp appended
        simp only [encoded, appended, commit]

/-! ### The refinement over runs -/

/-- A read from event number `start` numbers each encoded event one below its Version. -/
theorem forall₂_recorded {es : ESDB α μ} {name : String} :
    ∀ {start : Nat} {events : List (Event α μ)} {stored : List StoredEvent},
      List.Forall₂ es.Encodes events stored → Numbered (start + 1) events →
        List.Forall₂ (fun event record =>
            es.Encodes event record.toStored ∧ record.eventNumber + 1 = event.version)
          events (recorded name start stored)
  | _, [], [], .nil, _ => .nil
  | start, _ :: _, _ :: _, .cons head tail, numbered => by
    rw [numbered_cons] at numbered
    exact .cons ⟨head, numbered.1.symm⟩ (forall₂_recorded tail numbered.2)

/-- One `Save` of a batch whose first Version is at least 1 keeps the refinement: the
validator or the server refuses it, leaving the server as it was, or the encoded batch
continues its stream. -/
theorem Refines.save {es : ESDB α μ} {server : Server} {log : VersionLog α μ}
    (refines : Refines es server log) (now : Time) (position : Nat) {first : Event α μ}
    {rest : List (Event α μ)} (versioned : 1 ≤ first.version) :
    Refines es (es.save server now position (first :: rest)).2.1
      (if (es.save server now position (first :: rest)).1 = .ok () then
        Function.update log (stream first.aggregateType first.aggregateID)
          (log (stream first.aggregateType first.aggregateID) ++ first :: rest)
      else log) := by
  cases valid : validateEventsNoVersionCheck first.aggregateID (first :: rest) with
  | error err =>
    rw [save_invalid es server now position valid, if_neg (by simp)]
    exact refines
  | ok _ =>
    obtain ⟨same, numbered⟩ := validateEventsNoVersionCheck_cons_eq_ok.mp valid
    obtain ⟨marshalFails, marshalled⟩ := save_root_batch es server now position same numbered
      versioned
    cases encoded : (first :: rest).mapM es.eventData with
    | error err =>
      obtain ⟨failed, unchanged⟩ := marshalFails err encoded
      rw [unchanged, if_neg (by simp [failed])]
      exact refines
    | ok esdbEvents =>
      obtain ⟨accepts, appends, refuses⟩ := marshalled esdbEvents encoded
      by_cases accepted : (es.save server now position (first :: rest)).1 = .ok ()
      · rw [if_pos accepted]
        have lengths := (refines.encoded (stream first.aggregateType first.aggregateID)).length_eq
        refine ⟨refines.numbered.append (VersionLog.append_eq_some.mpr ⟨?_, rfl⟩),
          fun name => ?_, fun name => ?_⟩
        · rw [VersionLog.current, lengths, ← accepts.mp accepted]
          exact numbered
        · by_cases here : name = stream first.aggregateType first.aggregateID
          · subst here
            intro event member
            rw [Function.update_same] at member
            rcases List.mem_append.mp member with old | new
            · exact refines.keyed _ event old
            · rw [(same event new).1, (same event new).2]
          · simp only [Function.update_noteq here]
            exact refines.keyed name
        · rw [appends accepted]
          by_cases here : name = stream first.aggregateType first.aggregateID
          · subst here
            simp only [Function.update_same]
            exact List.rel_append (refines.encoded _) (encodes_stored encoded now)
          · simp only [Function.update_noteq here]
            exact refines.encoded name
      · rw [if_neg accepted, refuses accepted]
        exact refines

/-- Under the refinement, `Get` on a live context reads the records of the aggregate's
stream from event number `afterVersion`: the encoded events of the log past that Version,
each one event number below its Version. -/
theorem Refines.get {es : ESDB α μ} {server : Server} {log : VersionLog α μ}
    (refines : Refines es server log) (id aggregateType : String) (afterVersion : Nat) :
    let key := stream aggregateType id
    es.get server Context.background id aggregateType afterVersion =
        .ok ⟨readStream server key afterVersion, es.serializer⟩ ∧
      List.Forall₂ (fun event record =>
          es.Encodes event record.toStored ∧ record.eventNumber + 1 = event.version)
        (log.after key afterVersion) (readStream server key afterVersion) := by
  intro key
  refine ⟨rfl, ?_⟩
  rw [VersionLog.after_eq_drop refines.numbered, readStream]
  exact forall₂_recorded (List.forall₂_drop afterVersion (refines.encoded key))
    ((refines.numbered key).drop_succ afterVersion)

/-- **Every run refines the version log.** -/
theorem Run.refines {es : ESDB α μ} {server : Server} {log : VersionLog α μ}
    (run : Run es server log) : Refines es server log := by
  induction run with
  | empty => exact ⟨VersionLog.WellNumbered.empty, fun _ _ member => (nomatch member),
      fun _ => .nil⟩
  | save now position versioned _ refines => exact refines.save now position versioned

/-! ### What `Save` and `Get` promise -/

/-- A batch whose first Version is 0 is appended whatever its stream holds: after the
stream's first event, an `AgedOneYear` event with Version 0, which the validator refuses as
a conflict, is accepted and read back with Version 2. -/
theorem esdb_save_version_zero :
    let born : Event PersonEvent Unit :=
      ⟨"p", 1, 0, "Person", ⟨0, 0, by decide⟩, .born "Alice", none⟩
    let aged : Event PersonEvent Unit := { born with version := 0, data := .agedOneYear }
    let es := ESDB.open personSerializer true
    let server := (es.save Server.empty born.timestamp 1 [born]).2.1
    let result := es.save server born.timestamp 2 [aged]
    validateEvents "p" 1 [aged] = .error .concurrency ∧ result.1 = .ok () ∧
      (readStream result.2.1 (stream "Person" "p") 0).map (·.eventNumber + 1) = [1, 2] := by
  decide

end ESDB

end EventSourcing
