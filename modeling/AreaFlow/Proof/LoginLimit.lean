import AreaFlow.Library.Run
import AreaFlow.Construction.Api.Security

namespace AreaFlow.Api
open Go

section Limiter

variable (l : IPRateLimiter) (now : Time)

theorem lookup_filter_ne {key other : GoString} (differs : other ≠ key) (entries : List (GoString × RateWindow)) :
    (entries.filter fun entry => entry.1 != key).lookup other = entries.lookup other := by
  induction entries with
  | nil => rfl
  | cons entry rest ih =>
      obtain ⟨name, window⟩ := entry
      by_cases same : name = key
      · subst same
        rw [List.filter_cons_of_neg (by simp), ih, List.lookup_cons, beq_false_of_ne differs]
      · rw [List.filter_cons_of_pos (by simpa using same), List.lookup_cons, List.lookup_cons, ih]

theorem lookup_eq_none_of_not_mem {key : GoString} {entries : List (GoString × RateWindow)}
    (absent : key ∉ entries.map Prod.fst) : entries.lookup key = none := by
  induction entries with
  | nil => rfl
  | cons entry rest ih =>
      rw [List.map_cons, List.mem_cons, not_or] at absent
      rw [List.lookup_cons, beq_false_of_ne absent.1]
      exact ih absent.2

/-- With distinct keys a filter by the windows filters what is found. -/
theorem lookup_filter {keep : RateWindow → Bool} (key : GoString) {entries : List (GoString × RateWindow)}
    (distinct : (entries.map Prod.fst).Nodup) :
    (entries.filter fun entry => keep entry.2).lookup key = (entries.lookup key).filter keep := by
  induction entries with
  | nil => rfl
  | cons entry rest ih =>
      obtain ⟨name, window⟩ := entry
      rw [List.map_cons, List.nodup_cons] at distinct
      by_cases same : key = name
      · subst same
        have absent := lookup_eq_none_of_not_mem distinct.1
        cases kept : keep window with
        | true => simp [kept, Option.filter_some]
        | false =>
            have dropped : ((key, window) :: rest).filter (fun entry => keep entry.2) = rest.filter fun entry => keep entry.2 :=
              List.filter_cons_of_neg (by simp [kept])
            rw [dropped, ih distinct.2, absent, List.lookup_cons_self, Option.filter_some, kept]
            rfl
      · have other := beq_false_of_ne same
        cases kept : keep window <;> simp [kept, List.lookup_cons, other, ih distinct.2]

namespace IPRateLimiter

@[simp] theorem put_lookup_self (key : GoString) (entry : RateWindow) : (l.put key entry).entries.lookup key = some entry :=
  List.lookup_cons_self

theorem put_lookup_other {key other : GoString} (differs : other ≠ key) (entry : RateWindow) :
    (l.put key entry).entries.lookup other = l.entries.lookup other := by
  rw [put, List.lookup_cons, beq_false_of_ne differs]
  exact lookup_filter_ne differs l.entries

theorem sweep_lookup (key : GoString) :
    (l.sweep now).entries.lookup key = (l.entries.lookup key).filter fun entry => !l.ended now entry :=
  @lookup_filter (fun entry => !l.ended now entry) key l.entries l.distinct

end IPRateLimiter

/-- This is the limit of one client alone. -/
def clientAllow (limit window : Int) (held : Option RateWindow) (now : Time) : RateWindow × Option Int :=
  match held.filter fun entry => !decide (window ≤ (now : Int) - entry.started) with
  | some entry =>
      if limit ≤ entry.count then (entry, some (window - ((now : Int) - entry.started)))
      else ({ entry with count := entry.count + 1 }, none)
  | none => ({ started := now, count := 1 }, none)

/-- There is room for a key: it has a window, or the windows that are not over leave room for one more. -/
def IPRateLimiter.Room (key : GoString) : Prop :=
  l.entries.lookup key = none → (l.sweep now).entries.length < l.maxEntries

instance (key : GoString) : Decidable (l.Room now key) :=
  inferInstanceAs (Decidable (l.entries.lookup key = none → (l.sweep now).entries.length < l.maxEntries))

/-- Two views of a window agree from a time on: they are the same, or one has lost a window that is over. -/
def WindowAgrees (window : Int) (now : Time) (kept full : Option RateWindow) : Prop :=
  kept = full ∨ kept = none ∧ ∀ entry ∈ full, window ≤ (now : Int) - entry.started

theorem WindowAgrees.later {window : Int} {now late : Time} {kept full : Option RateWindow}
    (agrees : WindowAgrees window now kept full) (waits : now ≤ late) : WindowAgrees window late kept full := by
  rcases agrees with same | ⟨lost, passed⟩
  · exact Or.inl same
  · refine Or.inr ⟨lost, fun entry held => ?_⟩
    exact (passed entry held).trans (Int.sub_le_sub_right (Int.ofNat_le.mpr waits) _)

/-- A client that has lost a window that is over is treated alike. -/
theorem WindowAgrees.clientAllow {window : Int} {now : Time} {kept full : Option RateWindow}
    (agrees : WindowAgrees window now kept full) (limit : Int) :
    clientAllow limit window kept now = clientAllow limit window full now := by
  rcases agrees with rfl | ⟨rfl, passed⟩
  · rfl
  · cases full with
    | none => rfl
    | some entry =>
        have gone : (some entry).filter (fun entry => !decide (window ≤ (now : Int) - entry.started)) = none := by
          rw [Option.filter_some, decide_eq_true (passed entry rfl)]
          rfl
        rw [Api.clientAllow, Api.clientAllow, gone]
        rfl

namespace IPRateLimiter

variable {l now}

/-- With room the limiter treats a key as that client alone. -/
theorem allow_self {key : GoString} (room : l.Room now key) :
    (l.allow key now).2 = (clientAllow l.limit l.window (l.entries.lookup key) now).2 ∧
      (l.allow key now).1.entries.lookup key = some (clientAllow l.limit l.window (l.entries.lookup key) now).1 := by
  unfold allow clientAllow
  cases held : l.entries.lookup key with
  | none =>
      have room := room held
      simp only [Option.filter_none]
      split
      · rw [if_neg (Nat.not_le.mpr room)]
        exact ⟨rfl, put_lookup_self _ _ _⟩
      · exact ⟨rfl, put_lookup_self _ _ _⟩
  | some entry =>
      by_cases past : l.window ≤ (now : Int) - entry.started
      · simp [ended, past, Option.filter_some]
      · by_cases full : l.limit ≤ entry.count
        · simp [ended, past, full, held, Option.filter_some]
        · simp [ended, past, full, Option.filter_some]

/-- Another key keeps its window, or it loses one that is over. -/
theorem allow_other {key other : GoString} (differs : other ≠ key) :
    WindowAgrees l.window now ((l.allow key now).1.entries.lookup other) (l.entries.lookup other) := by
  have swept : WindowAgrees l.window now ((l.sweep now).entries.lookup other) (l.entries.lookup other) := by
    rw [sweep_lookup]
    cases l.entries.lookup other with
    | none => exact Or.inl rfl
    | some entry =>
        rw [Option.filter_some]
        by_cases past : l.window ≤ (now : Int) - entry.started
        · refine Or.inr ⟨by simp [ended, past], fun held same => ?_⟩
          cases same
          exact past
        · exact Or.inl (by simp [ended, past])
  unfold allow
  split
  · split
    · exact Or.inl (put_lookup_other _ differs _)
    · split
      · exact Or.inl rfl
      · exact Or.inl (put_lookup_other _ differs _)
  · split
    · split
      · exact swept
      · rw [put_lookup_other _ differs]
        exact swept
    · exact Or.inl (put_lookup_other _ differs _)

theorem allow_settings (key : GoString) :
    (l.allow key now).1.limit = l.limit ∧ (l.allow key now).1.window = l.window := by
  unfold allow
  split
  · split
    · exact ⟨rfl, rfl⟩
    · split <;> exact ⟨rfl, rfl⟩
  · split
    · split <;> exact ⟨rfl, rfl⟩
    · exact ⟨rfl, rfl⟩

end IPRateLimiter

end Limiter

section Clients

/-- This is what one attempt of a client can do. -/
inductive ClientMove (limit window : Int) (now : Time) : Option RateWindow → Option RateWindow → Bool → Prop where
  | refused (held : Option RateWindow) : ClientMove limit window now held held false
  | opened (held : Option RateWindow) (free : ∀ entry ∈ held, window ≤ (now : Int) - entry.started) :
      ClientMove limit window now held (some { started := now, count := 1 }) true
  | counted (entry : RateWindow) (live : (now : Int) - entry.started < window) (room : entry.count < limit) :
      ClientMove limit window now (some entry) (some { entry with count := entry.count + 1 }) true

/-- This limiter admits one attempt in a minute. -/
def onceLimiter : IPRateLimiter := newIPRateLimiter 1 60000000000

end Clients

end AreaFlow.Api
