import AreaFlow.Library.NetIP
import AreaFlow.Construction.Schema
import AreaFlow.Construction.Api.Request

namespace AreaFlow.Api
open Go

/-- A client has made a number of attempts since its window started. -/
structure RateWindow where
  started : Time
  count : Int
  deriving DecidableEq

/-- This limiter has one window for each key. -/
structure IPRateLimiter where
  limit : Int
  window : Int
  entries : List (GoString × RateWindow) := []
  maxEntries : Nat := 10000
  distinct : (entries.map Prod.fst).Nodup := by first | exact List.nodup_nil | decide
  deriving DecidableEq

namespace IPRateLimiter

/-- This is the assignment to a map entry. -/
def put (l : IPRateLimiter) (key : GoString) (entry : RateWindow) : IPRateLimiter where
  limit := l.limit
  window := l.window
  entries := (key, entry) :: l.entries.filter fun other => other.1 != key
  maxEntries := l.maxEntries
  distinct := by
    rw [List.map_cons, List.nodup_cons]
    refine ⟨fun member => ?_, l.distinct.sublist (List.filter_sublist.map Prod.fst)⟩
    obtain ⟨other, kept, same⟩ := List.mem_map.mp member
    simp [same] at kept

/-- The window of an entry is over. -/
def ended (l : IPRateLimiter) (now : Time) (entry : RateWindow) : Bool := l.window ≤ (now : Int) - entry.started

/-- This loop deletes the entries whose window is over. -/
def sweep (l : IPRateLimiter) (now : Time) : IPRateLimiter where
  limit := l.limit
  window := l.window
  entries := l.entries.filter fun entry => !l.ended now entry.2
  maxEntries := l.maxEntries
  distinct := l.distinct.sublist (List.filter_sublist.map Prod.fst)

/-- This function admits an attempt, or it returns the time to wait. -/
def allow (l : IPRateLimiter) (key : GoString) (now : Time) : IPRateLimiter × Option Int :=
  match l.entries.lookup key with
  | some entry =>
      if l.ended now entry then (l.put key { started := now, count := 1 }, none)
      else if l.limit ≤ entry.count then (l, some (l.window - ((now : Int) - entry.started)))
      else (l.put key { entry with count := entry.count + 1 }, none)
  | none =>
      if l.maxEntries ≤ l.entries.length then
        if l.maxEntries ≤ (l.sweep now).entries.length then (l.sweep now, some l.window)
        else ((l.sweep now).put key { started := now, count := 1 }, none)
      else (l.put key { started := now, count := 1 }, none)

end IPRateLimiter

/-- These are the seconds that the middleware sends with a refusal, `max(1, int(wait.Seconds()))`. The sum of the seconds
and their fraction is exact enough below 2^24 seconds; the float of a longer wait may be rounded up to the next second. -/
def retryAfterSeconds (wait : Int) : Int := max 1 (wait.tdiv 1000000000)

def newIPRateLimiter (limit window : Int) : IPRateLimiter where
  limit := limit
  window := window

end AreaFlow.Api
