import AreaFlow.Library.Windows
import AreaFlow.Proof.LoginLimit

namespace AreaFlow.Api
open Go

/-- This is one call of the limiter. -/
structure AllowCall where
  key : GoString
  now : Time
  deriving DecidableEq

def allowStep (l : IPRateLimiter) (call : AllowCall) : IPRateLimiter × Option Int := l.allow call.key call.now

section Table

variable {l : IPRateLimiter} {now : Time}

theorem put_length_of_known {key : GoString} {held : RateWindow} (known : l.entries.lookup key = some held)
    (entry : RateWindow) : (l.put key entry).entries.length ≤ l.entries.length := by
  have present : (key, held) ∈ l.entries := by
    obtain ⟨before, after, split, _⟩ := List.lookup_eq_some_iff.mp known
    simp [split]
  have fewer : (l.entries.filter fun other => other.1 != key).length < l.entries.length := by
    rw [List.length_filter_lt_length_iff_exists]
    exact ⟨_, present, by simp⟩
  simpa [IPRateLimiter.put] using fewer

theorem put_length_le (key : GoString) (entry : RateWindow) : (l.put key entry).entries.length ≤ l.entries.length + 1 := by
  simpa [IPRateLimiter.put] using List.length_filter_le _ _

/-- One call keeps the number of entries within its bound. -/
theorem allowStep_length (l : IPRateLimiter) (call : AllowCall) (bound : l.entries.length ≤ l.maxEntries) :
    (allowStep l call).1.entries.length ≤ l.maxEntries ∧ (allowStep l call).1.maxEntries = l.maxEntries := by
  have swept : (l.sweep call.now).entries.length ≤ l.entries.length := List.length_filter_le _ _
  unfold allowStep IPRateLimiter.allow
  cases held : l.entries.lookup call.key with
  | some entry =>
      dsimp only
      split
      · exact ⟨(put_length_of_known held _).trans bound, rfl⟩
      · split
        · exact ⟨bound, rfl⟩
        · exact ⟨(put_length_of_known held _).trans bound, rfl⟩
  | none =>
      dsimp only
      split
      · split
        · exact ⟨swept.trans bound, rfl⟩
        · rename_i room
          exact ⟨(put_length_le _ _).trans (Nat.lt_of_not_le room), rfl⟩
      · rename_i room
        exact ⟨(put_length_le _ _).trans (Nat.lt_of_not_le room), rfl⟩

theorem final_length (calls : List AllowCall) (l : IPRateLimiter) (bound : l.entries.length ≤ l.maxEntries) :
    (Run.final allowStep l calls).entries.length ≤ l.maxEntries := by
  induction calls generalizing l with
  | nil => exact bound
  | cons call rest ih =>
      obtain ⟨kept, same⟩ := allowStep_length l call bound
      have later := ih (allowStep l call).1 (by rw [same]; exact kept)
      rwa [same] at later

theorem final_settings (calls : List AllowCall) (l : IPRateLimiter) :
    (Run.final allowStep l calls).limit = l.limit ∧ (Run.final allowStep l calls).window = l.window := by
  induction calls generalizing l with
  | nil => exact ⟨rfl, rfl⟩
  | cons call rest ih =>
      obtain ⟨limit, window⟩ : (l.allow call.key call.now).1.limit = l.limit ∧ (l.allow call.key call.now).1.window = l.window :=
        IPRateLimiter.allow_settings call.key
      obtain ⟨limits, windows⟩ := ih (allowStep l call).1
      exact ⟨limits.trans limit, windows.trans window⟩

/-- A call of a key is a move of that client. -/
theorem allow_move (l : IPRateLimiter) (key : GoString) (now : Time) :
    ClientMove l.limit l.window now (l.entries.lookup key) ((l.allow key now).1.entries.lookup key)
      (l.allow key now).2.isNone := by
  unfold IPRateLimiter.allow
  cases held : l.entries.lookup key with
  | some entry =>
      dsimp only
      split
      · rename_i past
        rw [IPRateLimiter.put_lookup_self]
        refine .opened (some entry) fun other same => ?_
        cases same
        simpa [IPRateLimiter.ended] using past
      · rename_i live
        split
        · rw [held]
          exact .refused (some entry)
        · rename_i room
          rw [IPRateLimiter.put_lookup_self]
          refine .counted entry ?_ (not_le.mp room)
          simpa [IPRateLimiter.ended] using live
  | none =>
      dsimp only
      split
      · split
        · rw [IPRateLimiter.sweep_lookup, held]
          exact .refused none
        · rw [IPRateLimiter.put_lookup_self]
          exact .opened none fun other same => by cases same
      · rw [IPRateLimiter.put_lookup_self]
        exact .opened none fun other same => by cases same

end Table

section Counting

/-- These are the admitted calls of a key with the starts of their windows. -/
def admissions (key : GoString) : IPRateLimiter → List AllowCall → List (Int × Int)
  | _, [] => []
  | l, call :: rest =>
      (if call.key = key ∧ (allowStep l call).2 = none then
        ((allowStep l call).1.entries.lookup key).toList.map fun entry => ((entry.started : Int), (call.now : Int))
      else []) ++ admissions key (allowStep l call).1 rest

/-- What a key was admitted is counted by its window, and every other window of it is over. -/
structure Ledger (limit window : Int) (now : Time) (held : Option RateWindow) (events : List (Int × Int)) : Prop where
  windowed : Windowed limit window events
  closed : ∀ event ∈ events, event.1 + window ≤ now ∨ ∃ entry ∈ held, event.1 = entry.started
  known : ∀ entry ∈ held, ∃ event ∈ events, event.1 = entry.started
  past : ∀ entry ∈ held, entry.started ≤ now
  counts : ∀ entry ∈ held, (events.countP (·.1 = (entry.started : Int)) : Int) ≤ entry.count

variable {limit window : Int} {now late : Time} {held next : Option RateWindow} {events : List (Int × Int)}

theorem Ledger.later (ledger : Ledger limit window now held events) (waits : now ≤ late) :
    Ledger limit window late held events where
  windowed := ledger.windowed
  closed := by
    intro event member
    rcases ledger.closed event member with passed | current
    · exact .inl (passed.trans (Int.ofNat_le.mpr waits))
    · exact .inr current
  known := ledger.known
  past entry same := (ledger.past entry same).trans waits
  counts := ledger.counts

/-- A window that is over may be lost. -/
theorem Ledger.agrees (ledger : Ledger limit window now held events) (agrees : WindowAgrees window now next held) :
    Ledger limit window now next events := by
  rcases agrees with rfl | ⟨rfl, passed⟩
  · exact ledger
  · refine ⟨ledger.windowed, ?_, nofun, nofun, nofun⟩
    intro event member
    rcases ledger.closed event member with gone | ⟨entry, same, start⟩
    · exact .inl gone
    · have := passed entry same
      exact .inl (by omega)

/-- One move of the client keeps the account. -/
theorem Ledger.move (limited : 1 ≤ limit) (positive : 0 < window) (ledger : Ledger limit window now held events) {passes : Bool}
    (move : ClientMove limit window now held next passes) :
    Ledger limit window now next
      (events ++ if passes then next.toList.map fun entry => ((entry.started : Int), (now : Int)) else []) := by
  cases move with
  | refused => simpa using ledger
  | opened _ free =>
      -- every earlier window is over, so the new one overlaps none
      have earlier : ∀ event ∈ events, event.1 + window ≤ now := by
        intro event member
        rcases ledger.closed event member with gone | ⟨entry, same, start⟩
        · exact gone
        · have := free entry same
          omega
      have fresh : events.countP (fun event => decide (event.1 = ((now : Int), (now : Int)).1)) = 0 := by
        rw [List.countP_eq_zero]
        intro event member same
        have := earlier event member
        have : event.1 = now := by simpa using same
        omega
      refine ⟨ledger.windowed.snoc ⟨le_rfl, by dsimp only; omega⟩ (fun other member => .inr (earlier other member)) ?_, ?_, ?_,
        ?_, ?_⟩
      · rw [fresh]
        simpa using limited
      · intro event member
        rcases List.mem_append.mp member with old | last
        · exact .inl (earlier event old)
        · exact .inr ⟨_, rfl, by rw [List.mem_singleton.mp last]⟩
      · intro entry same
        cases same
        exact ⟨_, List.mem_append_right _ List.mem_cons_self, rfl⟩
      · intro entry same
        cases same
        exact le_rfl
      · intro entry same
        cases same
        rw [List.countP_append]
        dsimp only at fresh ⊢
        rw [fresh]
        simp
  | counted entry live room =>
      have started := ledger.past entry rfl
      have count := ledger.counts entry rfl
      refine ⟨ledger.windowed.snoc ⟨Int.ofNat_le.mpr started, by dsimp only; omega⟩ ?_ ?_, ?_, ?_, ?_, ?_⟩
      · intro other member
        obtain ⟨event, listed, start⟩ := ledger.known entry rfl
        rcases ledger.closed other member with gone | ⟨current, same, start'⟩
        · have := ledger.windowed.apart other member event listed
          dsimp only
          omega
        · cases same
          exact .inl start'
      · dsimp only
        omega
      · intro event member
        rcases List.mem_append.mp member with old | last
        · rcases ledger.closed event old with gone | ⟨current, same, start⟩
          · exact .inl gone
          · cases same
            exact .inr ⟨_, rfl, start⟩
        · exact .inr ⟨_, rfl, by rw [List.mem_singleton.mp last]⟩
      · intro current same
        cases same
        exact ⟨_, List.mem_append_right _ List.mem_cons_self, rfl⟩
      · intro current same
        cases same
        exact started
      · intro current same
        cases same
        rw [List.countP_append]
        dsimp only
        simp only [if_true, Option.toList_some, List.map_cons, List.map_nil, List.countP_singleton, decide_true]
        push_cast
        omega

/-- One call, of this key or of another one, keeps the account of a key. -/
theorem Ledger.step {l : IPRateLimiter} {key : GoString} (call : AllowCall) (limited : 1 ≤ l.limit) (positive : 0 < l.window)
    (ledger : Ledger l.limit l.window now (l.entries.lookup key) events) (waits : now ≤ call.now) :
    Ledger l.limit l.window call.now ((allowStep l call).1.entries.lookup key)
      (events ++ if call.key = key ∧ (allowStep l call).2 = none then
        ((allowStep l call).1.entries.lookup key).toList.map fun entry => ((entry.started : Int), (call.now : Int)) else []) := by
  have current := ledger.later waits
  by_cases own : call.key = key
  · subst own
    have moved := current.move limited positive (allow_move l call.key call.now)
    simpa only [true_and, allowStep, Option.isNone_iff_eq_none] using moved
  · have agrees : WindowAgrees l.window call.now ((l.allow call.key call.now).1.entries.lookup key) (l.entries.lookup key) :=
      IPRateLimiter.allow_other (Ne.symm own)
    rw [if_neg (fun both => own both.1), List.append_nil]
    exact current.agrees agrees

theorem Ledger.run {key : GoString} {calls : List AllowCall} {l : IPRateLimiter} (limited : 1 ≤ l.limit)
    (positive : 0 < l.window) (ledger : Ledger l.limit l.window now (l.entries.lookup key) events)
    (after : ∀ call ∈ calls, now ≤ call.now) (ordered : calls.Pairwise fun first second => first.now ≤ second.now) :
    ∃ last, Ledger l.limit l.window last ((Run.final allowStep l calls).entries.lookup key)
      (events ++ admissions key l calls) := by
  induction calls generalizing l now events with
  | nil => exact ⟨now, by simpa [admissions, Run.final] using ledger⟩
  | cons call rest ih =>
      obtain ⟨later, sorted⟩ := List.pairwise_cons.mp ordered
      obtain ⟨limit, window⟩ : (allowStep l call).1.limit = l.limit ∧ (allowStep l call).1.window = l.window :=
        IPRateLimiter.allow_settings call.key
      have next := ledger.step call limited positive (after call List.mem_cons_self)
      rw [← limit, ← window] at next
      obtain ⟨last, done⟩ := ih (by rw [limit]; exact limited) (by rw [window]; exact positive) next later sorted
      rw [limit, window, List.append_assoc] at done
      exact ⟨last, done⟩

theorem admissions_append (key : GoString) (l : IPRateLimiter) (first second : List AllowCall) :
    admissions key l (first ++ second) = admissions key l first ++ admissions key (Run.final allowStep l first) second := by
  induction first generalizing l with
  | nil => rfl
  | cons call rest ih => rw [List.cons_append, admissions, admissions, ih, List.append_assoc, Run.final]

/-- The admitted calls of a key in a time are its events in that time. -/
theorem countP_admissions (key : GoString) (inside : Int → Bool) (l : IPRateLimiter) (calls : List AllowCall) :
    (Run.trace allowStep l calls).countP (fun entry => entry.1.key == key && entry.2.isNone && inside entry.1.now) =
      (admissions key l calls).countP fun event => inside event.2 := by
  induction calls generalizing l with
  | nil => rfl
  | cons call rest ih =>
      rw [Run.trace, List.countP_cons, ih, admissions, List.countP_append, Nat.add_comm]
      congr 1
      by_cases own : call.key = key
      · subst own
        have move := allow_move l call.key call.now
        cases answer : (allowStep l call).2 with
        | some wait => simp
        | none =>
            have passed : (l.allow call.key call.now).2.isNone = true := by
              rw [show (l.allow call.key call.now).2 = none from answer]
              rfl
            rw [passed] at move
            obtain ⟨entry, found⟩ : ∃ entry, (l.allow call.key call.now).1.entries.lookup call.key = some entry := by
              generalize l.entries.lookup call.key = before at move
              generalize (l.allow call.key call.now).1.entries.lookup call.key = held at move
              cases move with
              | opened => exact ⟨_, rfl⟩
              | counted => exact ⟨_, rfl⟩
            simp [allowStep, found, List.countP_singleton]
      · simp [own]

end Counting

section Hints

/-- A call of a key after the seconds that were sent with a refusal is admitted, if the key made no other call and there is
room for it. -/
def HonestHint (l : IPRateLimiter) (call : AllowCall) (wait : Int) : Prop :=
  ∀ (between : List AllowCall) (late : Time), (∀ other ∈ between, other.key ≠ call.key) →
    (call :: (between ++ [{ call with now := late }])).Pairwise (fun first second => first.now ≤ second.now) →
    (call.now : Int) + retryAfterSeconds wait * 1000000000 ≤ late →
    (Run.final allowStep (allowStep l call).1 between).Room late call.key →
    ((Run.final allowStep (allowStep l call).1 between).allow call.key late).2 = none

/-- The rest of the window of a key is at most one second or a whole number of seconds. -/
def WholeSeconds (l : IPRateLimiter) (call : AllowCall) : Prop :=
  ∀ entry, l.entries.lookup call.key = some entry →
    l.window - ((call.now : Int) - entry.started) ≤ 1000000000 ∨
      (1000000000 : Int) ∣ l.window - ((call.now : Int) - entry.started)

variable {l : IPRateLimiter} {call : AllowCall} {wait : Int}

/-- A refused call of a key that has a window changes nothing. -/
theorem refused_known {entry : RateWindow} (held : l.entries.lookup call.key = some entry)
    (refused : (allowStep l call).2 = some wait) :
    (allowStep l call).1 = l ∧ wait = l.window - ((call.now : Int) - entry.started) ∧
      (call.now : Int) - entry.started < l.window ∧ l.limit ≤ entry.count := by
  unfold allowStep IPRateLimiter.allow at refused ⊢
  rw [held] at refused ⊢
  dsimp only at refused ⊢
  split at refused
  · cases refused
  · rename_i live
    split at refused
    · rename_i full
      cases refused
      rw [if_neg live, if_pos full]
      exact ⟨rfl, rfl, by simpa [IPRateLimiter.ended] using live, full⟩
    · cases refused

/-- Calls of other keys leave the window of a key, or they remove it when it is over. -/
theorem run_others {between : List AllowCall} {key : GoString} {last : Time} {l : IPRateLimiter}
    (others : ∀ other ∈ between, other.key ≠ key) (before : ∀ other ∈ between, other.now ≤ last) :
    WindowAgrees l.window last ((Run.final allowStep l between).entries.lookup key) (l.entries.lookup key) := by
  induction between generalizing l with
  | nil => exact .inl rfl
  | cons other rest ih =>
      have window : (allowStep l other).1.window = l.window := (IPRateLimiter.allow_settings other.key).2
      have first : WindowAgrees l.window last ((allowStep l other).1.entries.lookup key) (l.entries.lookup key) :=
        (IPRateLimiter.allow_other (Ne.symm (others other List.mem_cons_self))).later (before other List.mem_cons_self)
      have later := @ih (allowStep l other).1 (fun call member => others call (List.mem_cons_of_mem _ member))
        (fun call member => before call (List.mem_cons_of_mem _ member))
      rw [window] at later
      rcases later with same | ⟨gone, passed⟩
      · rw [← same] at first
        exact first
      · rcases first with same | ⟨_, lost⟩
        · rw [same] at passed
          exact .inr ⟨gone, passed⟩
        · exact .inr ⟨gone, lost⟩

theorem retryAfterSeconds_enough_iff {wait : Int} (positive : 0 < wait) :
    wait ≤ retryAfterSeconds wait * 1000000000 ↔ wait ≤ 1000000000 ∨ (1000000000 : Int) ∣ wait := by
  unfold retryAfterSeconds
  rw [Int.tdiv_eq_ediv_of_nonneg positive.le]
  rcases le_total 1 (wait / 1000000000) with large | small
  · rw [max_eq_right large]
    omega
  · rw [max_eq_left small]
    omega

theorem refused_unknown (absent : l.entries.lookup call.key = none) (refused : (allowStep l call).2 = some wait) :
    (allowStep l call).1.entries.lookup call.key = none := by
  have move := allow_move l call.key call.now
  rw [show (l.allow call.key call.now).2 = some wait from refused, absent] at move
  change (l.allow call.key call.now).1.entries.lookup call.key = none
  generalize (l.allow call.key call.now).1.entries.lookup call.key = next at move
  cases move with
  | refused => rfl

/-- The hint of a refusal is honest exactly if it was not rounded down. -/
theorem honestHint_iff (refused : (allowStep l call).2 = some wait) : HonestHint l call wait ↔ WholeSeconds l call := by
  constructor
  · intro hint entry held
    obtain ⟨same, rfl, live, full⟩ := refused_known held refused
    rw [← retryAfterSeconds_enough_iff (by omega)]
    by_contra short
    -- the first call at the time of the hint finds the same window
    set seconds := retryAfterSeconds (l.window - ((call.now : Int) - entry.started)) with named
    have positive : 1 ≤ seconds := le_max_left _ _
    let late : Time := call.now + (seconds * 1000000000).toNat
    have delay : (late : Int) = call.now + seconds * 1000000000 := by
      have : ((seconds * 1000000000).toNat : Int) = seconds * 1000000000 := Int.toNat_of_nonneg (by omega)
      change ((call.now + (seconds * 1000000000).toNat : Nat) : Int) = _
      push_cast
      omega
    have admitted := hint [] late (by simp) (by simp [late]) (by omega) (by
      intro absent
      change (allowStep l call).1.entries.lookup call.key = none at absent
      rw [same, held] at absent
      cases absent)
    change ((allowStep l call).1.allow call.key late).2 = none at admitted
    have running : l.ended late entry = false := by
      simp only [IPRateLimiter.ended, decide_eq_false_iff_not, not_le]
      omega
    rw [same, IPRateLimiter.allow, held] at admitted
    dsimp only at admitted
    rw [running, if_neg (by simp), if_pos full] at admitted
    cases admitted
  · intro whole between late others ordered enough room
    obtain ⟨after, sorted⟩ := List.pairwise_cons.mp ordered
    have before : ∀ other ∈ between, other.now ≤ late := by
      intro other member
      exact (List.pairwise_append.mp sorted).2.2 other member _ List.mem_cons_self
    have agrees := @run_others between call.key late (allowStep l call).1 others before
    have settings := final_settings between (allowStep l call).1
    have window : (allowStep l call).1.window = l.window := (IPRateLimiter.allow_settings call.key).2
    rw [(IPRateLimiter.allow_self room).1]
    cases held : l.entries.lookup call.key with
    | none =>
        have none : (Run.final allowStep (allowStep l call).1 between).entries.lookup call.key = none := by
          rw [refused_unknown held refused] at agrees
          rcases agrees with same | ⟨gone, _⟩
          · exact same
          · exact gone
        rw [none]
        rfl
    | some entry =>
        obtain ⟨same, rfl, live, full⟩ := refused_known held refused
        have wait := (retryAfterSeconds_enough_iff (by omega)).mpr (whole entry held)
        have passed : l.window ≤ (late : Int) - entry.started := by omega
        have forgotten : WindowAgrees (allowStep l call).1.window late none
            ((Run.final allowStep (allowStep l call).1 between).entries.lookup call.key) := by
          refine .inr ⟨rfl, fun other found => ?_⟩
          rcases agrees with kept | ⟨gone, _⟩
          · rw [kept, same, held] at found
            cases found
            rw [window]
            exact passed
          · rw [gone] at found
            cases found
        rw [settings.2, ← forgotten.clientAllow]
        rfl

end Hints

/-- The table keeps its bound. A key is admitted at most twice the limit in any time of the length of a window and at most
the limit in a recorded window. The hint of a refusal is honest exactly if the rest of the window is at most one second or
a whole number of seconds. -/
theorem limiter_bounds (l : IPRateLimiter) (empty : l.entries = []) (limited : 1 ≤ l.limit) (positive : 0 < l.window)
    (calls : List AllowCall) (ordered : calls.Pairwise fun first second => first.now ≤ second.now) :
    (∀ first rest, calls = first ++ rest → (Run.final allowStep l first).entries.length ≤ l.maxEntries) ∧
    (∀ key (start : Int), ((Run.trace allowStep l calls).countP (fun entry => entry.1.key == key && entry.2.isNone &&
      (decide (start ≤ entry.1.now) && decide ((entry.1.now : Int) < start + l.window))) : Int) ≤ 2 * l.limit) ∧
    (∀ first rest key entry, calls = first ++ rest → (Run.final allowStep l first).entries.lookup key = some entry →
      ((Run.trace allowStep l calls).countP (fun other => other.1.key == key && other.2.isNone &&
        (decide ((entry.started : Int) ≤ other.1.now) && decide ((other.1.now : Int) < entry.started + l.window))) : Int) ≤
          l.limit) ∧
    (∀ first call rest wait, calls = first ++ call :: rest → (allowStep (Run.final allowStep l first) call).2 = some wait →
      (HonestHint (Run.final allowStep l first) call wait ↔ WholeSeconds (Run.final allowStep l first) call)) := by
  have start (key : GoString) : Ledger l.limit l.window 0 (l.entries.lookup key) [] := by
    rw [empty]
    exact ⟨.nil (by omega), by simp, nofun, nofun, nofun⟩
  have account (key : GoString) {some : List AllowCall} (sorted : some.Pairwise fun first second => first.now ≤ second.now) :
      ∃ last, Ledger l.limit l.window last ((Run.final allowStep l some).entries.lookup key) (admissions key l some) :=
    (start key).run limited positive (fun _ _ => Nat.zero_le _) sorted
  refine ⟨?_, ?_, ?_, ?_⟩
  · intro first rest _
    exact final_length first l (by simp [empty])
  · intro key time
    obtain ⟨last, ledger⟩ := account key ordered
    rw [countP_admissions key (fun now => decide (time ≤ now) && decide (now < time + l.window))]
    exact ledger.windowed.interval (by omega) time
  · rintro first rest key entry rfl held
    obtain ⟨_, early⟩ := account key (List.pairwise_append.mp ordered).1
    obtain ⟨event, listed, opened⟩ := early.known entry held
    obtain ⟨last, ledger⟩ := account key ordered
    rw [countP_admissions key (fun now => decide ((entry.started : Int) ≤ now) && decide (now < entry.started + l.window))]
    apply ledger.windowed.recorded
    rw [admissions_append]
    exact ⟨event, List.mem_append_left _ listed, opened⟩
  · intro first call rest wait _ refused
    exact honestHint_iff refused

section Rounded

def minuteCall (now : Time) : AllowCall := ⟨bytes "k", now⟩

/-- The hint of fifty-nine and a half seconds is rounded down, and the call after fifty-nine seconds is refused. -/
theorem halfSecond_refusedAgain :
    (Run.trace allowStep onceLimiter [minuteCall 0, minuteCall 500000000, minuteCall 59500000000]).map (·.2) =
        [none, some 59500000000, some 500000000] ∧
      retryAfterSeconds 59500000000 = 59 ∧
      ¬HonestHint (Run.final allowStep onceLimiter [minuteCall 0]) (minuteCall 500000000) 59500000000 := by
  refine ⟨by decide +kernel, by decide, fun hint => ?_⟩
  have admitted := hint [] 59500000000 (by simp) (by decide) (by decide) (by decide +kernel)
  revert admitted
  decide +kernel

/-- A hint of whole seconds is judged by the rest of the window. -/
theorem wholeSeconds_hint :
    HonestHint (Run.final allowStep onceLimiter [minuteCall 0]) (minuteCall 1000000000) 59000000000 ↔
      WholeSeconds (Run.final allowStep onceLimiter [minuteCall 0]) (minuteCall 1000000000) :=
  (limiter_bounds onceLimiter rfl (by decide) (by decide) [minuteCall 0, minuteCall 1000000000] (by decide)).2.2.2
    [minuteCall 0] (minuteCall 1000000000) [] 59000000000 rfl (by decide +kernel)

end Rounded

end AreaFlow.Api
