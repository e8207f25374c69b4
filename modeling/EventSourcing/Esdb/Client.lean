import EventSourcing.Event
import Mathlib.Logic.Function.Basic

/-
Module: EventSourcing.Esdb.Client
Purpose: The part of EventStoreDB the store talks to.  Streams are lists whose event
  numbers start at 0; `AppendToStream` checks its expected revision (an unset one always
  passes, `NoStream` passes on an empty stream, `StreamRevision r` when the stream's last
  event number is `r`) and appends all events or none; `ReadStream(From r)` reads the
  stream from event number `r`.
Trusted boundary: the server and its Go client are external; this module is their model,
  not a translation of sources.
Main exports: ContentType, EventData, RecordedEvent, ExpectedRevision, Server,
  appendToStream, readStream, appendToStream_eq_ok
-/

namespace EventSourcing

namespace Esdb

/-- `esdb.ContentType`: the zero value is binary. -/
inductive ContentType where
  | binary
  | json
deriving DecidableEq, Repr

/-- `esdb.EventData`: an event as the store sends it. -/
structure EventData where
  contentType : ContentType
  eventType : String
  data : Bytes
  metadata : Option Bytes
deriving DecidableEq, Repr

/-- An event as a stream keeps it: what was sent, and the server's time of the append. -/
structure StoredEvent where
  eventType : String
  data : Bytes
  userMetadata : Option Bytes
  createdDate : Time
deriving DecidableEq, Repr

/-- `esdb.RecordedEvent`: a stored event as `ReadStream` delivers it, with its stream and
its event number. -/
structure RecordedEvent where
  streamID : String
  eventNumber : Nat
  eventType : String
  data : Bytes
  userMetadata : Option Bytes
  createdDate : Time
deriving DecidableEq, Repr

/-- A record without its stream and event number: the stored event. -/
def RecordedEvent.toStored (record : RecordedEvent) : StoredEvent :=
  ⟨record.eventType, record.data, record.userMetadata, record.createdDate⟩

/-- `AppendToStreamOptions.ExpectedRevision`: unset, `esdb.NoStream{}`, or
`esdb.StreamRevision{Value: r}`. -/
inductive ExpectedRevision where
  | any
  | noStream
  | streamRevision (value : Nat)
deriving DecidableEq, Repr

/-- The expected revision admits a stream of this length. -/
def ExpectedRevision.Admits : ExpectedRevision → Nat → Prop
  | .any, _ => True
  | .noStream, length => length = 0
  | .streamRevision value, length => length = value + 1

instance (expected : ExpectedRevision) (length : Nat) : Decidable (expected.Admits length) :=
  match expected with
  | .any => isTrue trivial
  | .noStream => inferInstanceAs (Decidable (length = 0))
  | .streamRevision value => inferInstanceAs (Decidable (length = value + 1))

/-- The server: its streams. -/
structure Server where
  streams : String → List StoredEvent

/-- `esdb.WriteResult`. -/
structure WriteResult where
  commitPosition : Nat
deriving DecidableEq, Repr

/-- A server with no stream. -/
def Server.empty : Server :=
  ⟨fun _ => []⟩

/-- The events of one append as the stream keeps them. -/
def stored (events : List EventData) (now : Time) : List StoredEvent :=
  events.map fun event => ⟨event.eventType, event.data, event.metadata, now⟩

/-- `AppendToStream`: all events or none, after the expected-revision check.  The server
stamps the append with its clock `now` and reports the position `position` of the commit in
its transaction log, a number this model leaves free. -/
def appendToStream (server : Server) (streamID : String) (expected : ExpectedRevision)
    (events : List EventData) (now : Time) (position : Nat) :
    Except Error (WriteResult × Server) :=
  if expected.Admits (server.streams streamID).length then
    .ok (⟨position⟩, ⟨Function.update server.streams streamID
      (server.streams streamID ++ stored events now)⟩)
  else .error .wrongExpectedVersion

/-- Number the stored events of a stream from `eventNumber` on. -/
def recorded (streamID : String) : Nat → List StoredEvent → List RecordedEvent
  | _, [] => []
  | eventNumber, event :: rest =>
    ⟨streamID, eventNumber, event.eventType, event.data, event.userMetadata, event.createdDate⟩ ::
      recorded streamID (eventNumber + 1) rest

/-- `ReadStream(From r)`: the stream from event number `r` on.  A stream that does not
exist reads as empty: the client reports it on the first receive, which the iterator
treats as the end. -/
def readStream (server : Server) (streamID : String) (revision : Nat) : List RecordedEvent :=
  recorded streamID revision ((server.streams streamID).drop revision)

@[simp] theorem length_stored (events : List EventData) (now : Time) :
    (stored events now).length = events.length := by
  simp [stored]

theorem appendToStream_eq_ok {server server' : Server} {streamID : String}
    {expected : ExpectedRevision} {events : List EventData} {now : Time} {position : Nat}
    {result : WriteResult} :
    appendToStream server streamID expected events now position = .ok (result, server') ↔
      expected.Admits (server.streams streamID).length ∧
        server'.streams = Function.update server.streams streamID
          (server.streams streamID ++ stored events now) ∧
        result.commitPosition = position := by
  unfold appendToStream
  split
  · constructor
    · rintro ⟨⟩
      exact ⟨‹_›, rfl, rfl⟩
    · rintro ⟨-, streams, commit⟩
      cases server'
      cases result
      simp_all
  · simp_all

theorem appendToStream_eq_error {server : Server} {streamID : String}
    {expected : ExpectedRevision} {events : List EventData} {now : Time} {position : Nat}
    {err : Error} :
    appendToStream server streamID expected events now position = .error err ↔
      ¬ expected.Admits (server.streams streamID).length ∧ err = .wrongExpectedVersion := by
  unfold appendToStream
  split <;> simp_all [eq_comm]

end Esdb

end EventSourcing
