import Mathlib.Data.List.Induction
import TapeMachine.Proofs.Readings

/-!
What a host does with a sandbox before it runs it. The calls may come in any order and any number
and some may be refused; what the run is told by them is the last depth that was accepted, the last
output limit and the pushed texts one after the other. Readings of a clock that the host shares with
the sandbox only set the start of the run later: a run takes differences of readings, and these are
the same wherever the run starts, as long as no reading is held at the greatest span.
-/

namespace TapeMachine

/-- What a host may do with a sandbox and the clock that it will run on. -/
inductive SetUpCall where
  | setLoopDepth (depth : Nat)
  | setOutputLimit (limit : Option Nat)
  | pushInput (text : String)
  | enableDebug
  /-- A reading of the clock. -/
  | tick

namespace SetUpCall

variable {σ : Type} [Clock σ]

def apply (state : Sandbox × σ) : SetUpCall → Sandbox × σ
  | setLoopDepth depth =>
      match state.1.setLoopDepth depth with
      | .ok sandbox => (sandbox, state.2)
      | .error _ => state
  | setOutputLimit limit => (state.1.setOutputLimit limit, state.2)
  | pushInput text => (state.1.pushInput text, state.2)
  | enableDebug => (state.1.enableDebug, state.2)
  | tick => (state.1, (Clock.read state.2).2)

@[simp] def acceptedDepth? : SetUpCall → Option Nat
  | setLoopDepth depth => if Limits.Allowed depth then some depth else none
  | _ => none

@[simp] def outputLimit? : SetUpCall → Option (Option Nat)
  | setOutputLimit limit => some limit
  | _ => none

@[simp] def text? : SetUpCall → Option String
  | pushInput text => some text
  | _ => none

@[simp] def isTick : SetUpCall → Bool
  | tick => true
  | _ => false

@[simp] def isEnableDebug : SetUpCall → Bool
  | enableDebug => true
  | _ => false

end SetUpCall

/-- What a sequence of calls tells a run. -/
structure SetUp where
  loopDepth : Nat
  outputLimit : Option Nat
  input : String
  deriving DecidableEq

namespace SetUp

/-- The last depth that is accepted, the last output limit, and all texts in order. -/
def ofCalls (calls : List SetUpCall) : SetUp where
  loopDepth := (calls.filterMap SetUpCall.acceptedDepth?).getLast?.getD Limits.defaultLoopDepth
  outputLimit := (calls.filterMap SetUpCall.outputLimit?).getLast?.join
  input := String.join (calls.filterMap SetUpCall.text?)

/-- The sandbox that knows of a program, a budget and a set-up, and of nothing else. -/
def sandbox (setUp : SetUp) (source : String) (timeout : Duration) : Sandbox where
  program := .ofText source
  session := { timeout := timeout, startedAt := .zero, input := setUp.input.toList, debug := false }
  limits := { loopDepth := setUp.loopDepth, output := setUp.outputLimit }

end SetUp

theorem Session.ofMilliseconds_eq_ok_iff {milliseconds : UInt64} {session : Session} :
    Session.ofMilliseconds milliseconds = .ok session ↔
      milliseconds ≠ 0 ∧ session = {
        timeout := .ofMilliseconds milliseconds.toNat
        startedAt := .zero
        input := []
        debug := false } := by
  unfold Session.ofMilliseconds
  split <;> simp_all [eq_comm]

namespace Sandbox

variable {σ : Type} [Clock σ] {source : String} {session : Session} {calls others : List SetUpCall}

/-- The sandbox and the clock after a sequence of calls. -/
def setUp (calls : List SetUpCall) (state : Sandbox × σ) : Sandbox × σ :=
  calls.foldl SetUpCall.apply state

theorem setUp_concat (calls : List SetUpCall) (call : SetUpCall) (state : Sandbox × σ) :
    setUp (calls ++ [call]) state = call.apply (setUp calls state) := by
  simp [setUp]

theorem setLoopDepth_eq_ok_iff {sandbox sandbox' : Sandbox} {depth : Nat} :
    sandbox.setLoopDepth depth = .ok sandbox' ↔
      Limits.Allowed depth ∧
        sandbox' = { sandbox with limits := { sandbox.limits with loopDepth := depth } } := by
  unfold setLoopDepth
  split <;> simp_all [eq_comm]

theorem apply_setLoopDepth_of_not_allowed {depth : Nat} (h : ¬ Limits.Allowed depth)
    (state : Sandbox × σ) : SetUpCall.apply state (.setLoopDepth depth) = state := by
  simp [SetUpCall.apply, setLoopDepth, h]

/-- Nothing but what the calls come to gets into the sandbox, the clock, and the switch for the
log. -/
theorem setUp_ofText (hstarted : session.startedAt = .zero) (hinput : session.input = [])
    (calls : List SetUpCall) (clock : σ) :
    setUp calls (ofText source session, clock) =
      ({ (SetUp.ofCalls calls).sandbox source session.timeout with
          session :=
            { ((SetUp.ofCalls calls).sandbox source session.timeout).session with
              debug := session.debug || calls.any SetUpCall.isEnableDebug } },
        Clock.after clock (calls.countP SetUpCall.isTick)) := by
  induction calls using List.reverseRecOn with
  | nil =>
      cases session
      simp_all [setUp, SetUp.ofCalls, SetUp.sandbox, ofText, Limits.default, Clock.after]
  | append_singleton calls call ih =>
      rw [setUp_concat, ih]
      cases call with
      | setLoopDepth depth =>
          by_cases hallowed : Limits.Allowed depth
          · simp [SetUpCall.apply, setLoopDepth, hallowed, SetUp.ofCalls, SetUp.sandbox]
          · rw [apply_setLoopDepth_of_not_allowed hallowed]
            simp [hallowed, SetUp.ofCalls, SetUp.sandbox]
      | setOutputLimit limit =>
          simp [SetUpCall.apply, setOutputLimit, SetUp.ofCalls, SetUp.sandbox]
      | pushInput text =>
          simp [SetUpCall.apply, pushInput, Session.pushInput, SetUp.ofCalls, SetUp.sandbox]
      | enableDebug =>
          simp [SetUpCall.apply, enableDebug, Session.enableDebug, SetUp.ofCalls, SetUp.sandbox]
      | tick => simp [SetUpCall.apply, SetUp.ofCalls, SetUp.sandbox, Clock.after_succ]

/-! ### Readings before the run -/

variable {sandbox : Sandbox} {step : Duration} {j k n checks : Nat} {m : Machine}
  {status : Status} {o : Outcome}

/-- How a run ends and how many readings of its clock that takes: one for the start, one for every
check of the budget and one for the end. -/
def EndsWithReadings (sandbox : Sandbox) (clock : σ) (readings : Nat) (o : Outcome) : Prop :=
  ∃ n m checks, sandbox.after? n = some m ∧ (∀ j < n, sandbox.expiresAt clock j = false) ∧
    sandbox.Cut clock n m o.status checks ∧ readings = checks + 2 ∧
    o = (sandbox.start clock).1.outcome ⟨o.status, m, min n greatestCount⟩
      (Clock.read (Clock.after clock (checks + 1))).1

theorem yields_iff_endsWithReadings {clock clock' : σ} :
    sandbox.Yields clock o clock' ↔
      ∃ readings, sandbox.EndsWithReadings clock readings o ∧
        clock' = Clock.after clock readings := by
  rw [yields_iff]
  constructor
  · rintro ⟨n, m, status, checks, hm, hbudget, hcut, rfl, rfl⟩
    exact ⟨checks + 2, ⟨n, m, checks, hm, hbudget, hcut, rfl, rfl⟩, rfl⟩
  · rintro ⟨readings, ⟨n, m, checks, hm, hbudget, hcut, rfl, ho⟩, rfl⟩
    exact ⟨n, m, o.status, checks, hm, hbudget, hcut, ho, rfl⟩

theorem SameTask.symm {first second : Sandbox} (h : SameTask first second) :
    SameTask second first :=
  ⟨h.program.symm, h.limits.symm, h.input.symm⟩

theorem SameTask.trans {first second third : Sandbox} (h : SameTask first second)
    (h' : SameTask second third) : SameTask first third :=
  ⟨h'.program.trans h.program, h'.limits.trans h.limits, h'.input.trans h.input⟩

theorem SameTask.endsWithReadings {first second : Sandbox} (h : SameTask first second)
    (htimeout : second.session.timeout = first.session.timeout) {clock : σ} {readings : Nat}
    (hends : first.EndsWithReadings clock readings o) :
    second.EndsWithReadings clock readings o := by
  obtain ⟨n, m, checks, hm, hbudget, hcut, rfl, ho⟩ := hends
  have hcheck : ∀ i, second.expiresAt clock i = first.expiresAt clock i :=
    expiresAt_congr htimeout fun _ => rfl
  refine ⟨n, m, checks, (h.after?_eq n).trans hm, fun i hi => (hcheck i).trans (hbudget i hi),
    h.cut (hcheck n) hcut, rfl, ?_⟩
  rw [outcome_congr first second fun _ => rfl]
  exact ho

/-- As long as readings are not held at the greatest span, a check compares the budget with the
steps since the start. -/
theorem expiresAt_iff_of_le (h : (k + (n + 1)) * step.nanoseconds ≤ Duration.greatest) :
    sandbox.expiresAt (Clock.after (SteppingClock.new step) k) n = true ↔
      sandbox.session.timeout.nanoseconds ≤ (n + 1) * step.nanoseconds := by
  have hstart : (Clock.read (Clock.after (SteppingClock.new step) k)).1.nanoseconds =
      min (k * step.nanoseconds) Duration.greatest :=
    SteppingClock.nanoseconds_read_after_new step k 0
  have hnow := SteppingClock.nanoseconds_read_after_new step k (n + 1)
  rw [Nat.add_mul] at hnow h
  rw [expiresAt_iff, hnow, hstart]
  omega

theorem expiresAt_eq_of_le (hj : (j + (n + 1)) * step.nanoseconds ≤ Duration.greatest)
    (hk : (k + (n + 1)) * step.nanoseconds ≤ Duration.greatest) :
    sandbox.expiresAt (Clock.after (SteppingClock.new step) j) n =
      sandbox.expiresAt (Clock.after (SteppingClock.new step) k) n := by
  rw [Bool.eq_iff_iff, expiresAt_iff_of_le hj, expiresAt_iff_of_le hk]

theorem outcome_eq_of_le (ending : Ending)
    (hj : (j + (n + 1)) * step.nanoseconds ≤ Duration.greatest)
    (hk : (k + (n + 1)) * step.nanoseconds ≤ Duration.greatest) :
    let clock := fun i => Clock.after (SteppingClock.new step) i
    (sandbox.start (clock j)).1.outcome ending (Clock.read (Clock.after (clock j) (n + 1))).1 =
      (sandbox.start (clock k)).1.outcome ending
        (Clock.read (Clock.after (clock k) (n + 1))).1 := by
  intro clock
  have hstart : ∀ i, (Clock.read (clock i)).1.nanoseconds =
      min (i * step.nanoseconds) Duration.greatest :=
    fun i => SteppingClock.nanoseconds_read_after_new step i 0
  have hnow := fun i => SteppingClock.nanoseconds_read_after_new step i (n + 1)
  have helapsed : (Clock.read (Clock.after (clock j) (n + 1))).1 - (Clock.read (clock j)).1 =
      (Clock.read (Clock.after (clock k) (n + 1))).1 - (Clock.read (clock k)).1 := by
    apply Duration.ext
    rw [Duration.nanoseconds_sub, Duration.nanoseconds_sub, hnow, hnow, hstart, hstart]
    rw [Nat.add_mul] at hj hk ⊢
    rw [Nat.add_mul k]
    omega
  simp only [Run.outcome, start, Session.start, Session.elapsedAt, helapsed]

/-- A run whose readings are not held at the greatest span ends alike wherever its clock starts, if
the readings are not held there either. -/
theorem EndsWithReadings.of_le {readings : Nat}
    (h : sandbox.EndsWithReadings (Clock.after (SteppingClock.new step) k) readings o)
    (hk : ∀ i < readings, (k + i) * step.nanoseconds ≤ Duration.greatest)
    (hj : ∀ i < readings, (j + i) * step.nanoseconds ≤ Duration.greatest) :
    sandbox.EndsWithReadings (Clock.after (SteppingClock.new step) j) readings o := by
  obtain ⟨n, m, checks, hm, hbudget, hcut, rfl, ho⟩ := h
  have hcheck : ∀ i < checks,
      sandbox.expiresAt (Clock.after (SteppingClock.new step) j) i =
        sandbox.expiresAt (Clock.after (SteppingClock.new step) k) i :=
    fun i hi => expiresAt_eq_of_le (hj (i + 1) (by omega)) (hk (i + 1) (by omega))
  have hle : n ≤ checks := by
    rw [Run.Cut.checks_eq hcut]
    split <;> omega
  have hcut' : sandbox.Cut (Clock.after (SteppingClock.new step) j) n m o.status checks := by
    generalize o.status = status at hcut
    cases hcut with
    | completed here => exact .completed here
    | timedOut here expired => exact .timedOut here ((hcheck n (by omega)).trans expired)
    | faulted here inTime raised =>
        exact .faulted here ((hcheck n (by omega)).trans inTime) raised
  refine ⟨n, m, checks, hm, ?_, hcut', rfl, ?_⟩
  · intro i hi
    exact (hcheck i (by omega)).trans (hbudget i hi)
  · rw [outcome_eq_of_le _ (hj (checks + 1) (by omega)) (hk (checks + 1) (by omega))]
    exact ho

/-! ### Calls before the run -/

/-- What a sandbox is set up for is the task of its set-up: the switch for the log has no part in
it. -/
theorem sameTask_setUp (hstarted : session.startedAt = .zero) (hinput : session.input = [])
    (calls : List SetUpCall) (clock : σ) :
    SameTask ((SetUp.ofCalls calls).sandbox source session.timeout)
      (setUp calls (ofText source session, clock)).1 := by
  rw [setUp_ofText hstarted hinput]
  exact ⟨rfl, rfl, rfl⟩

theorem clock_setUp (hstarted : session.startedAt = .zero) (hinput : session.input = [])
    (calls : List SetUpCall) (clock : σ) :
    (setUp calls (ofText source session, clock)).2 =
      Clock.after clock (calls.countP SetUpCall.isTick) := by
  rw [setUp_ofText hstarted hinput]

theorem timeout_setUp (hstarted : session.startedAt = .zero) (hinput : session.input = [])
    (calls : List SetUpCall) (clock : σ) :
    (setUp calls (ofText source session, clock)).1.session.timeout = session.timeout := by
  rw [setUp_ofText hstarted hinput]
  rfl

theorem setUp_of_usable {config : Config} (h : config.limitError? = none) :
    ∃ session ready, Session.ofMilliseconds config.timeout = .ok session ∧
      ofConfig source config = .ok ready ∧
      ∀ clock : σ, setUp
        [.setLoopDepth config.maxLoopDepth.toNat,
          .setOutputLimit (config.maxOutput.map UInt64.toNat)]
        (ofText source session, clock) = (ready, clock) := by
  obtain ⟨htimeout, hallowed⟩ := Config.limitError?_eq_none_iff.mp h
  obtain ⟨session, hsession⟩ : ∃ session, Session.ofMilliseconds config.timeout = .ok session :=
    ⟨_, Session.ofMilliseconds_eq_ok_iff.mpr ⟨htimeout, rfl⟩⟩
  refine ⟨session, { ofText source session with limits := config.limits }, hsession, ?_, ?_⟩
  · simp only [ofConfig, h, hsession, Except.map]
  · intro clock
    simp [setUp, SetUpCall.apply, setLoopDepth, hallowed, setOutputLimit, ofText, Config.limits]

/-- Setting a sandbox up is a matter of what the calls come to. A depth is accepted exactly within
its range, and a call that is refused changes nothing. The outcome is that of the program under its
budget, from the clock as it stands when the run begins, with the last accepted depth, the last
output limit and all texts in order; so sequences of calls that agree on these have one outcome.
Where the clock stands does not matter either, as long as no reading is held at the greatest span.
A config has the effect of the calls that set its limits. -/
theorem set_up_calls_compose {source : String} {milliseconds : UInt64} {session : Session}
    (hsession : Session.ofMilliseconds milliseconds = .ok session) :
    let ready := fun calls (clock : SteppingClock) => setUp calls (ofText source session, clock)
    (∀ (state : Sandbox × SteppingClock) (depth : Nat),
      ((∃ changed, state.1.setLoopDepth depth = .ok changed) ↔ 1 ≤ depth ∧ depth ≤ 4096) ∧
        (¬ (1 ≤ depth ∧ depth ≤ 4096) →
          state.1.setLoopDepth depth = .error (.invalidLoopDepth depth) ∧
            SetUpCall.apply state (.setLoopDepth depth) = state)) ∧
      (∀ calls clock bound, (ready calls clock).1.outcome? bound (ready calls clock).2 =
        ((SetUp.ofCalls calls).sandbox source session.timeout).outcome? bound
          (ready calls clock).2) ∧
      (∀ calls others, SetUp.ofCalls others = SetUp.ofCalls calls →
        ∀ clock clock', (ready others clock').2 = (ready calls clock).2 → ∀ bound,
          (ready others clock').1.outcome? bound (ready others clock').2 =
            (ready calls clock).1.outcome? bound (ready calls clock).2) ∧
      (∀ calls others, SetUp.ofCalls others = SetUp.ofCalls calls →
        ∀ (step : Duration) (k : Nat),
          let clock := Clock.after (SteppingClock.new step) k
          let inRange := fun (calls : List SetUpCall) (readings : Nat) => ∀ i < readings,
            (k + calls.countP SetUpCall.isTick + i) * step.nanoseconds ≤ Duration.greatest
          ∀ o last, (ready calls clock).1.Yields (ready calls clock).2 o last →
            ∃ readings, (ready calls clock).1.EndsWithReadings (ready calls clock).2 readings o ∧
              last = Clock.after (ready calls clock).2 readings ∧
              (inRange calls readings → inRange others readings →
                (ready others clock).1.Yields (ready others clock).2 o
                  (Clock.after (ready others clock).2 readings))) ∧
      ∀ config : Config, config.limitError? = none →
        ∃ session' sandbox, Session.ofMilliseconds config.timeout = .ok session' ∧
          ofConfig source config = .ok sandbox ∧
          ∀ clock : SteppingClock, setUp
            [.setLoopDepth config.maxLoopDepth.toNat,
              .setOutputLimit (config.maxOutput.map UInt64.toNat)]
            (ofText source session', clock) = (sandbox, clock) := by
  intro ready
  obtain ⟨hstarted, hinput⟩ : session.startedAt = .zero ∧ session.input = [] := by
    obtain ⟨-, rfl⟩ := Session.ofMilliseconds_eq_ok_iff.mp hsession
    exact ⟨rfl, rfl⟩
  have htask : ∀ calls clock, SameTask ((SetUp.ofCalls calls).sandbox source session.timeout)
      (ready calls clock).1 := sameTask_setUp hstarted hinput
  have htimeout : ∀ calls clock, (ready calls clock).1.session.timeout = session.timeout :=
    timeout_setUp hstarted hinput
  have hfunction : ∀ calls clock bound,
      (ready calls clock).1.outcome? bound (ready calls clock).2 =
        ((SetUp.ofCalls calls).sandbox source session.timeout).outcome? bound
          (ready calls clock).2 :=
    fun calls clock _ => (htask calls clock).outcome?_eq (htimeout calls clock) fun _ => rfl
  refine ⟨?_, hfunction, ?_, ?_, fun config => setUp_of_usable⟩
  · intro state depth
    constructor
    · constructor
      · rintro ⟨changed, hchanged⟩
        exact (setLoopDepth_eq_ok_iff.mp hchanged).1
      · intro hallowed
        exact ⟨_, setLoopDepth_eq_ok_iff.mpr ⟨hallowed, rfl⟩⟩
    · intro hrefused
      exact ⟨if_neg hrefused, apply_setLoopDepth_of_not_allowed hrefused state⟩
  · intro calls others hsame clock clock' hclock bound
    rw [hfunction, hfunction, hsame, hclock]
  · intro calls others hsame step k clock inRange o last hyields
    obtain ⟨readings, hends, hlast⟩ := yields_iff_endsWithReadings.mp hyields
    refine ⟨readings, hends, hlast, fun hinRange hinRange' => ?_⟩
    have hclock : ∀ calls, (ready calls clock).2 =
        Clock.after (SteppingClock.new step) (k + calls.countP SetUpCall.isTick) := by
      intro calls
      rw [Clock.after_add]
      exact clock_setUp hstarted hinput calls clock
    have hother : SameTask (ready calls clock).1 (ready others clock).1 :=
      (htask calls clock).symm.trans (hsame ▸ htask others clock)
    rw [hclock] at hends
    have hshifted := hends.of_le hinRange hinRange'
    rw [← hclock others] at hshifted
    exact yields_iff_endsWithReadings.mpr ⟨readings, hother.endsWithReadings
      ((htimeout others clock).trans (htimeout calls clock).symm) hshifted, rfl⟩

/-- Many calls, two of them refused and one a reading of the clock, come to as much as two calls. -/
theorem set_up_calls_compose_of_refused_calls :
    let session : Session :=
      { timeout := .ofMilliseconds 20, startedAt := .zero, input := [], debug := false }
    let calls : List SetUpCall :=
      [.setLoopDepth 2, .pushInput "x", .setLoopDepth 4097, .enableDebug, .setOutputLimit (some 7),
        .tick, .pushInput "yz", .setLoopDepth 0, .setOutputLimit none]
    let others : List SetUpCall := [.pushInput "xyz", .setLoopDepth 2]
    let ready := fun calls =>
      setUp calls (ofText "[[,.]]" session, SteppingClock.perMillisecond)
    Session.ofMilliseconds 20 = .ok session ∧ SetUp.ofCalls others = SetUp.ofCalls calls ∧
      SetUp.ofCalls calls = ⟨2, none, "xyz"⟩ ∧
      SetUpCall.apply (ready calls) (.setLoopDepth 4097) = ready calls ∧
      ∃ o last, (ready calls).1.Yields (ready calls).2 o last ∧ o.status = .timedOut ∧
        o.output = "xyzzzz" ∧ ∃ last', (ready others).1.Yields (ready others).2 o last' := by
  intro session calls others ready
  have hsession : Session.ofMilliseconds 20 = .ok session := rfl
  have hsame : SetUp.ofCalls others = SetUp.ofCalls calls := by decide +kernel
  obtain ⟨hdepth, -, -, hticks, -⟩ := @set_up_calls_compose "[[,.]]" 20 session hsession
  have hrun : ((ready calls).1.run 40 (ready calls).2).map
      (fun answer => (answer.1.status, answer.1.output, answer.1.executed)) =
        some (.timedOut, "xyzzzz", 19) := by
    decide +kernel
  obtain ⟨⟨o, last⟩, hanswer, htriple⟩ := Option.map_eq_some_iff.mp hrun
  obtain ⟨hstatus, houtput, hexecuted⟩ := by simpa only [Prod.mk.injEq] using htriple
  obtain ⟨readings, hends, -, hother⟩ :=
    hticks calls others hsame (.ofMilliseconds 1) 0 o last ⟨40, hanswer⟩
  have hfew : readings ≤ 22 := by
    obtain ⟨n, m, checks, -, -, hcut, rfl, ho⟩ := hends
    have hn : o.executed = min n greatestCount := congrArg Outcome.executed ho
    have hchecks := Run.Cut.checks_eq hcut
    rw [hexecuted, greatestCount] at hn
    split at hchecks <;> omega
  have hstep : (Duration.ofMilliseconds 1).nanoseconds = 1000000 := by decide
  have hinRange : ∀ ticks ≤ 1, ∀ i < readings,
      (0 + ticks + i) * (Duration.ofMilliseconds 1).nanoseconds ≤ Duration.greatest := by
    intro ticks hticks i hi
    rw [hstep, Duration.greatest]
    omega
  exact ⟨hsession, hsame, by decide +kernel, ((hdepth _ 4097).2 (by decide)).2, o, last,
    ⟨40, hanswer⟩, hstatus, houtput, _, hother (hinRange 1 (by decide)) (hinRange 0 (by decide))⟩

end Sandbox

end TapeMachine
