import RateLimiter.Lib.Machine

/-!
# What can be observed of a machine that answers

A reactive machine answers every event it consumes. Two machines give the same
answers as soon as a relation between their states survives every event and
makes the two answers equal. Of one machine, the answers to some of the events
are those of the run without the others as soon as the others leave what these
answers depend on as it is.
-/

namespace Machine

universe u v w x

variable {State : Type u} {Other : Type x} {Event : Type v} {Output : Type w}

/-- The answers to a sequence of events. -/
def outputs (react : State → Event → Output × State) (start : State) : List Event → List Output
  | [] => []
  | event :: rest => (react start event).1 :: outputs react (react start event).2 rest

/-- The answers to the visible events of a sequence. -/
def visibleOutputs (react : State → Event → Output × State) (visible : Event → Bool)
    (start : State) : List Event → List Output
  | [] => []
  | event :: rest =>
      if visible event then
        (react start event).1 :: visibleOutputs react visible (react start event).2 rest
      else visibleOutputs react visible (react start event).2 rest

theorem visibleOutputs_append (react : State → Event → Output × State) (visible : Event → Bool)
    (first second : List Event) :
    ∀ start, visibleOutputs react visible start (first ++ second) =
      visibleOutputs react visible start first ++ visibleOutputs react visible
        (after (fun state event => (react state event).2) start first) second := by
  induction first with
  | nil => exact fun _ => rfl
  | cons event rest ih =>
      intro start
      simp only [List.cons_append, visibleOutputs, after_cons, ih]
      split <;> rfl

theorem visibleOutputs_eq_nil {react : State → Event → Output × State} {visible : Event → Bool}
    {events : List Event} : ∀ {start : State}, (∀ event ∈ events, visible event = false) →
      visibleOutputs react visible start events = [] := by
  induction events with
  | nil =>
      intros
      rfl
  | cons event rest ih =>
      intro start hidden
      have here := hidden event (List.mem_cons_self ..)
      simp only [visibleOutputs, here, Bool.false_eq_true, if_false]
      exact ih fun later mem => hidden later (List.mem_cons_of_mem _ mem)

/-- A relation that every event keeps, and under which the answers are equal. -/
structure Simulates (react : State → Event → Output × State)
    (spec : Other → Event → Output × Other) (condition : Event → Prop)
    (related : State → Other → Prop) : Prop where
  output : ∀ state other event, condition event → related state other →
    (react state event).1 = (spec other event).1
  next : ∀ state other event, condition event → related state other →
    related (react state event).2 (spec other event).2

theorem Simulates.outputs_eq {react : State → Event → Output × State}
    {spec : Other → Event → Output × Other} {condition : Event → Prop}
    {related : State → Other → Prop} (simulates : Simulates react spec condition related)
    {events : List Event} : ∀ {state : State} {other : Other},
      (∀ event ∈ events, condition event) → related state other →
      outputs react state events = outputs spec other events := by
  induction events with
  | nil =>
      intros
      rfl
  | cons event rest ih =>
      intro state other conditions start
      have here := conditions event (List.mem_cons_self ..)
      simp only [outputs, simulates.output state other event here start]
      apply congrArg
      apply ih
      · exact fun later mem => conditions later (List.mem_cons_of_mem _ mem)
      · exact simulates.next state other event here start

/-- A relation that hides what the invisible events do. -/
structure Unwinding (react : State → Event → Output × State) (visible : Event → Bool)
    (condition : Event → Prop) (agree : State → State → Prop) : Prop where
  output : ∀ first second event, condition event → visible event = true → agree first second →
    (react first event).1 = (react second event).1
  next : ∀ first second event, condition event → visible event = true → agree first second →
    agree (react first event).2 (react second event).2
  hidden : ∀ first second event, condition event → visible event = false → agree first second →
    agree (react first event).2 second

/-- What is visible of a run is the run of its visible events. -/
theorem Unwinding.visibleOutputs_eq {react : State → Event → Output × State}
    {visible : Event → Bool} {condition : Event → Prop} {agree : State → State → Prop}
    (unwinding : Unwinding react visible condition agree) {events : List Event} :
    ∀ {first second : State}, (∀ event ∈ events, condition event) → agree first second →
      visibleOutputs react visible first events =
        outputs react second (events.filter visible) := by
  induction events with
  | nil =>
      intros
      rfl
  | cons event rest ih =>
      intro first second conditions start
      have here := conditions event (List.mem_cons_self ..)
      have later : ∀ event ∈ rest, condition event :=
        fun event mem => conditions event (List.mem_cons_of_mem _ mem)
      cases seen : visible event with
      | true =>
          simp only [visibleOutputs, seen, if_true, List.filter_cons, outputs,
            unwinding.output first second event here seen start]
          apply congrArg
          exact ih later (unwinding.next first second event here seen start)
      | false =>
          simp only [visibleOutputs, seen, Bool.false_eq_true, if_false, List.filter_cons]
          exact ih later (unwinding.hidden first second event here seen start)

/-- The states that the two runs reach agree. -/
theorem Unwinding.after_agree {react : State → Event → Output × State} {visible : Event → Bool}
    {condition : Event → Prop} {agree : State → State → Prop}
    (unwinding : Unwinding react visible condition agree) {events : List Event} :
    ∀ {first second : State}, (∀ event ∈ events, condition event) → agree first second →
      agree (after (fun state event => (react state event).2) first events)
        (after (fun state event => (react state event).2) second (events.filter visible)) := by
  induction events with
  | nil =>
      intro first second _ start
      exact start
  | cons event rest ih =>
      intro first second conditions start
      have here := conditions event (List.mem_cons_self ..)
      have later : ∀ event ∈ rest, condition event :=
        fun event mem => conditions event (List.mem_cons_of_mem _ mem)
      cases seen : visible event with
      | true =>
          simp only [List.filter_cons, seen, if_true, after_cons]
          exact ih later (unwinding.next first second event here seen start)
      | false =>
          simp only [List.filter_cons, seen, Bool.false_eq_true, if_false, after_cons]
          exact ih later (unwinding.hidden first second event here seen start)

end Machine
