import AreaFlow.Construction.Project.Database
import AreaFlow.Library.Cursor
import AreaFlow.Library.Run

namespace AreaFlow.Project
open Go

/-- This is the filter of an event stream; a zero stands for no restriction. -/
structure EventStreamFilter where
  projectID : ID := 0
  runID : ID := 0
  afterID : ID := 0
  limit : Int := 0
  deriving DecidableEq

/-- An event is in the scope of a filter. -/
def EventStreamFilter.matches (filter : EventStreamFilter) (event : EventRow) : Bool :=
  (filter.projectID == 0 || event.projectID == some filter.projectID) &&
    (filter.runID == 0 || event.runID == some filter.runID)

/-- This is the limit of one query. -/
def EventStreamFilter.rows (filter : EventStreamFilter) : Nat := (if filter.limit ≤ 0 then 20 else filter.limit).toNat

def listEventsAfter (filter : EventStreamFilter) (events : List EventRow) : List EventRow :=
  Cursor.batch (·.id) filter.rows filter.afterID (events.filter filter.matches)

def listLatestEventsAscending (filter : EventStreamFilter) (events : List EventRow) : List EventRow :=
  Cursor.latest (·.id) filter.rows (events.filter filter.matches)

def listEventStream (filter : EventStreamFilter) (events : List EventRow) : List EventRow :=
  if 0 < filter.afterID then listEventsAfter filter events else listLatestEventsAscending filter events

/-- This is a stream with its client: the filter with its cursor, the committed events, and the events that the client has
received. -/
structure EventStream where
  filter : EventStreamFilter
  committed : Table EventRow (·.id)
  received : List EventRow := []
  deriving DecidableEq

/-- This is one round of the loop of a stream. -/
def EventStream.poll (stream : EventStream) : EventStream :=
  let events := listEventStream stream.filter stream.committed.rows
  { stream with
    filter := { stream.filter with afterID := Cursor.advance (·.id) stream.filter.afterID events }
    received := stream.received ++ events }

/-- A transaction commits an event under the identifier that it got when the row was inserted. -/
def EventStream.commit (stream : EventStream) (event : EventRow) : EventStream :=
  if fresh : event.id ∈ stream.committed.rows.map (·.id) then stream
  else
    { stream with
      committed := { rows := stream.committed.rows ++ [event]
                     distinct := Table.nodup_append_fresh stream.committed.distinct fresh } }

/-- A transaction commits an event, or the stream asks for new events. -/
inductive StreamMove where
  | commit (event : EventRow)
  | poll
  deriving DecidableEq

def EventStream.step (stream : EventStream) : StreamMove → EventStream × Unit
  | .commit event => (stream.commit event, ())
  | .poll => (stream.poll, ())

/-- A stream starts with its first round. -/
def openEventStream (filter : EventStreamFilter) (committed : Table EventRow (·.id)) : EventStream :=
  EventStream.poll { filter := filter, committed := committed }

end AreaFlow.Project
