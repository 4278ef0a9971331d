import Mathlib.Tactic

/-- Events are counted in windows of one length. An event has the start of its window and its time: it lies in its window,
different windows do not overlap, and no window has more events than the limit. -/
structure Windowed (limit window : Int) (events : List (Int × Int)) : Prop where
  inside : ∀ event ∈ events, event.1 ≤ event.2 ∧ event.2 < event.1 + window
  apart : ∀ first ∈ events, ∀ second ∈ events,
    first.1 = second.1 ∨ first.1 + window ≤ second.1 ∨ second.1 + window ≤ first.1
  few : ∀ start, (events.countP (·.1 = start) : Int) ≤ limit

namespace Windowed

variable {limit window : Int} {events : List (Int × Int)}

theorem nil (nonneg : 0 ≤ limit) : Windowed limit window [] := ⟨by simp, by simp, by simpa using nonneg⟩

/-- Events of one window are not more than the limit. -/
theorem countP_le (windowed : Windowed limit window events) (nonneg : 0 ≤ limit) {chosen : Int × Int → Bool}
    (same : ∀ first ∈ events, ∀ second ∈ events, chosen first = true → chosen second = true → first.1 = second.1) :
    (events.countP chosen : Int) ≤ limit := by
  by_cases none : ∀ event ∈ events, ¬chosen event = true
  · rw [List.countP_eq_zero.mpr none]
    exact nonneg
  · push Not at none
    obtain ⟨event, member, picked⟩ := none
    have fewer : events.countP chosen ≤ events.countP (·.1 = event.1) := by
      apply List.countP_mono_left
      intro other listed also
      simpa using same other listed event member also picked
    have bound := windowed.few event.1
    omega

/-- In a time of the length of a window there are at most twice as many events as the limit allows. -/
theorem interval (windowed : Windowed limit window events) (nonneg : 0 ≤ limit) (start : Int) :
    (events.countP (fun event => decide (start ≤ event.2) && decide (event.2 < start + window)) : Int) ≤ 2 * limit := by
  let within (event : Int × Int) : Bool := decide (start ≤ event.2) && decide (event.2 < start + window)
  -- The events of the windows that began before the interval are of one window, and so are the later ones.
  have half (old : Bool) : (events.countP (fun event => within event && decide (event.1 ≤ start ↔ old)) : Int) ≤ limit := by
    apply windowed.countP_le nonneg
    intro first one second two
    have := windowed.inside first one
    have := windowed.inside second two
    have := windowed.apart first one second two
    cases old <;> simp only [within, Bool.and_eq_true, decide_eq_true_eq, iff_true, Bool.false_eq_true, iff_false] <;> omega
  have old := half true
  have new := half false
  simp only [iff_true, Bool.false_eq_true, iff_false] at old new
  have split : events.countP within = events.countP (fun event => within event && decide (event.1 ≤ start)) +
      events.countP (fun event => within event && decide (¬event.1 ≤ start)) := by
    rw [List.countP_eq_length_filter, List.countP_eq_length_filter, List.countP_eq_length_filter,
      List.length_eq_countP_add_countP fun event : Int × Int => decide (event.1 ≤ start)]
    simp [Bool.and_comm, List.countP_eq_length_filter]
  change (events.countP within : Int) ≤ 2 * limit
  omega

/-- In the window of an event there are at most as many events as the limit allows. -/
theorem recorded (windowed : Windowed limit window events) {start : Int} (known : ∃ event ∈ events, event.1 = start) :
    (events.countP (fun event => decide (start ≤ event.2) && decide (event.2 < start + window)) : Int) ≤ limit := by
  obtain ⟨event, member, rfl⟩ := known
  have fewer : events.countP (fun other => decide (event.1 ≤ other.2) && decide (other.2 < event.1 + window)) ≤
      events.countP (·.1 = event.1) := by
    apply List.countP_mono_left
    intro other listed within
    simp only [Bool.and_eq_true, decide_eq_true_eq] at within ⊢
    have := windowed.inside other listed
    have := windowed.apart other listed event member
    omega
  have bound := windowed.few event.1
  omega

/-- An event in a window that is known, or in a new one after all others, can be added if there is room. -/
theorem snoc (windowed : Windowed limit window events) {event : Int × Int}
    (inside : event.1 ≤ event.2 ∧ event.2 < event.1 + window)
    (apart : ∀ other ∈ events, other.1 = event.1 ∨ other.1 + window ≤ event.1)
    (room : (events.countP (·.1 = event.1) : Int) + 1 ≤ limit) : Windowed limit window (events ++ [event]) where
  inside := by
    intro other member
    rcases List.mem_append.mp member with old | last
    · exact windowed.inside other old
    · rw [List.mem_singleton.mp last]
      exact inside
  apart := by
    intro first one second two
    rcases List.mem_append.mp one with one | one <;> rcases List.mem_append.mp two with two | two
    · exact windowed.apart first one second two
    · rw [List.mem_singleton.mp two]
      have := apart first one
      omega
    · rw [List.mem_singleton.mp one]
      have := apart second two
      omega
    · rw [List.mem_singleton.mp one, List.mem_singleton.mp two]
      exact Or.inl rfl
  few := by
    intro start
    rw [List.countP_append, List.countP_singleton]
    by_cases same : event.1 = start
    · subst same
      simpa using room
    · have := windowed.few start
      simpa [same] using this

end Windowed
