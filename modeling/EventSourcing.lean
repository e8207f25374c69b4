import EventSourcing.Event
import EventSourcing.Rfc3339
import EventSourcing.Validate
import EventSourcing.VersionLog
import EventSourcing.Iterator
import EventSourcing.Memory.Store
import EventSourcing.Memory.Invariant
import EventSourcing.Memory.Aggregates
import EventSourcing.Esdb.Client
import EventSourcing.Esdb.Store
import EventSourcing.Esdb.Refinement
import EventSourcing.Sql.Store
import EventSourcing.Sql.Invariant
import EventSourcing.Sql.Refinement
import EventSourcing.GlobalEvents
import EventSourcing.Backends
import EventSourcing.Bbolt.Iterator
import EventSourcing.ReadPaths
import EventSourcing.AggregateRoot
import EventSourcing.Snapshot
