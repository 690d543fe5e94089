import Mathlib.Data.List.Induction

/-!
# Deterministic machines and invariants over their history

A machine consumes events one after the other. An invariant may mention the
events consumed so far; it holds after every sequence as soon as it holds at
the start and one more event preserves it.
-/

namespace Machine

universe u v

variable {State : Type u} {Event : Type v}

def after (step : State → Event → State) (start : State) (events : List Event) : State :=
  events.foldl step start

variable (step : State → Event → State) (start : State)

@[simp]
theorem after_nil : after step start [] = start := rfl

@[simp]
theorem after_cons (event : Event) (rest : List Event) :
    after step start (event :: rest) = after step (step start event) rest := rfl

theorem after_append (first second : List Event) :
    after step start (first ++ second) = after step (after step start first) second :=
  List.foldl_append

theorem after_concat (before : List Event) (event : Event) :
    after step start (before ++ [event]) = step (after step start before) event := by
  rw [after_append, after_cons, after_nil]

/-- The rule for invariants that mention the history. -/
theorem history_invariant {step : State → Event → State} {start : State}
    (invariant : List Event → State → Prop) (initial : invariant [] start)
    (preserved : ∀ before event, invariant before (after step start before) →
      invariant (before ++ [event]) (step (after step start before) event))
    (events : List Event) : invariant events (after step start events) := by
  induction events using List.reverseRecOn with
  | nil => exact initial
  | append_singleton before event ih =>
      rw [after_concat]
      exact preserved before event ih

/-- What every step of a run meets, every step before the last one meets, and so does the last. -/
theorem meets_concat {step : State → Event → State} {start : State}
    (condition : State → Event → Prop) {before : List Event} {event : Event}
    (meets : ∀ turn next, (before ++ [event])[turn]? = some next →
      condition (after step start ((before ++ [event]).take turn)) next) :
    (∀ turn next, before[turn]? = some next →
      condition (after step start (before.take turn)) next) ∧
    condition (after step start before) event := by
  constructor
  · intro turn next isNext
    have inside : turn < before.length := (List.getElem?_eq_some_iff.mp isNext).1
    have met := meets turn next (by rw [List.getElem?_append_left inside, isNext])
    rw [List.take_append_of_le_length (Nat.le_of_lt inside)] at met
    exact met
  · have last := meets before.length event (by simp)
    rw [List.take_left] at last
    exact last

/-- The rule for invariants of the runs whose steps all meet a condition. -/
theorem conditional_invariant {step : State → Event → State} {start : State}
    (condition : State → Event → Prop) (invariant : List Event → State → Prop)
    (initial : invariant [] start)
    (preserved : ∀ before event, invariant before (after step start before) →
      condition (after step start before) event →
      invariant (before ++ [event]) (step (after step start before) event))
    {events : List Event}
    (meets : ∀ turn next, events[turn]? = some next →
      condition (after step start (events.take turn)) next) :
    invariant events (after step start events) := by
  induction events using List.reverseRecOn with
  | nil => exact initial
  | append_singleton before event ih =>
      rcases meets_concat condition meets with ⟨earlier, last⟩
      rw [after_concat]
      exact preserved before event (ih earlier) last

/-- How many events of a kind there are in a run. -/
def tally (step : State → Event → State) (happens : State → Event → Bool) :
    State → List Event → ℕ
  | _, [] => 0
  | state, event :: rest =>
      (happens state event).toNat + tally step happens (step state event) rest

theorem tally_append {step : State → Event → State} (happens : State → Event → Bool)
    (start : State) (first second : List Event) :
    tally step happens start (first ++ second) =
      tally step happens start first + tally step happens (after step start first) second := by
  induction first generalizing start with
  | nil => simp only [List.nil_append, tally, after_nil, Nat.zero_add]
  | cons event rest ih =>
      simp only [List.cons_append, tally, after_cons, ih]
      omega

/-- A run in the order of time has a part before any instant and a part from it on. -/
theorem exists_split {time : Event → ℕ} (instant : ℕ) {events : List Event}
    (ordered : events.Pairwise fun first second => time first ≤ time second) :
    ∃ early late, events = early ++ late ∧ (∀ event ∈ early, time event < instant) ∧
      ∀ event ∈ late, instant ≤ time event := by
  induction ordered with
  | nil => exact ⟨[], [], rfl, by simp, by simp⟩
  | @cons event rest least _ ih =>
      by_cases before : time event < instant
      · rcases ih with ⟨early, late, rfl, below, above⟩
        refine ⟨event :: early, late, rfl, ?_, above⟩
        intro other mem
        rcases List.mem_cons.mp mem with rfl | mem
        · exact before
        · exact below other mem
      · refine ⟨[], event :: rest, rfl, by simp, ?_⟩
        intro other mem
        rcases List.mem_cons.mp mem with rfl | mem
        · exact Nat.le_of_not_lt before
        · exact Nat.le_trans (Nat.le_of_not_lt before) (least other mem)

end Machine
