import TapeMachine.Proofs.Session.Clocks
import TapeMachine.Proofs.SetUp

/-!
What a session answers over any history of calls. The host and the session share a clock, and four
of the calls read it, so what a reading shows is a matter of how many of these came before. Times
are counted from the latest start, or from zero before any; between starts they never decrease, and
a budget that is used up stays used up. Of the input, no character is lost or comes out of order:
what was returned and what is still queued are the pushed texts.
-/

namespace TapeMachine.Session

/-- What a host may ask of a session and of the clock that they share. -/
inductive Call where
  | start
  /-- A reading of the clock by the host. -/
  | tick
  | elapsed
  | isExpired
  | timeout
  | pushInput (text : String)
  | readInput
  | enableDebug
  | debug

/-- What a call gives back. -/
inductive Answer where
  | done
  | span (d : Duration)
  | decision (b : Bool)
  | character (c : Option Char)
  deriving DecidableEq

variable {σ τ : Type} [Clock σ] [Clock τ]

namespace Call

/-- The answer to a call, and what the session and the clock are then. -/
def perform (state : Session × σ) : Call → Answer × Session × σ
  | start => (.done, state.1.start state.2)
  | tick =>
      let (now, clock) := Clock.read state.2
      (.span now, state.1, clock)
  | elapsed =>
      let (time, clock) := state.1.elapsed state.2
      (.span time, state.1, clock)
  | isExpired =>
      let (expired, clock) := state.1.isExpired state.2
      (.decision expired, state.1, clock)
  | timeout => (.span state.1.timeout, state)
  | pushInput text => (.done, state.1.pushInput text, state.2)
  | readInput =>
      let (c, session) := state.1.readInput
      (.character c, session, state.2)
  | enableDebug => (.done, state.1.enableDebug, state.2)
  | debug => (.decision state.1.debug, state)

def readsClock : Call → Bool
  | start | tick | elapsed | isExpired => true
  | _ => false

/-- The characters that a call adds to the input. -/
def characters : Call → List Char
  | pushInput text => text.toList
  | _ => []

end Call

/-- The characters of the input that an answer gives away. -/
def Answer.characters : Answer → List Char
  | character (some c) => [c]
  | _ => []

/-- The session and the clock after a sequence of calls. -/
def after (calls : List Call) (state : Session × σ) : Session × σ :=
  calls.foldl (fun state call => (call.perform state).2) state

/-- The answers to a sequence of calls, in order. -/
def answers : List Call → Session × σ → List Answer
  | [], _ => []
  | call :: rest, state => (call.perform state).1 :: answers rest (call.perform state).2

/-- The reading from which a history counts time: the one of its latest start, or zero if it has no
start. The readings are numbered from zero. -/
inductive CountsFrom (reading : Nat → Duration) : List Call → Duration → Prop where
  | never {calls : List Call} (unstarted : .start ∉ calls) : CountsFrom reading calls .zero
  | latest {earlier later : List Call} (last : .start ∉ later) :
      CountsFrom reading (earlier ++ .start :: later) (reading (earlier.countP Call.readsClock))

variable {session : Session} {state : Session × σ} {clock : σ} {clock' : τ} {call : Call}
  {calls later : List Call} {reading : Nat → Duration} {origin : Duration}

theorem after_append (calls later : List Call) (state : Session × σ) :
    after (calls ++ later) state = after later (after calls state) :=
  List.foldl_append

theorem after_concat (calls : List Call) (call : Call) (state : Session × σ) :
    after (calls ++ [call]) state = (call.perform (after calls state)).2 :=
  after_append calls [call] state

theorem answers_concat (calls : List Call) (call : Call) (state : Session × σ) :
    answers (calls ++ [call]) state =
      answers calls state ++ [(call.perform (after calls state)).1] := by
  induction calls generalizing state with
  | nil => rfl
  | cons first rest ih => exact congrArg ((first.perform state).1 :: ·) (ih _)

/-! ### Readings of the clock -/

theorem clock_perform (call : Call) (state : Session × σ) :
    (call.perform state).2.2 =
      Clock.after state.2 (if call.readsClock then 1 else 0) := by
  cases call <;> rfl

/-- Some calls read the clock once, and the others leave it alone. -/
theorem clock_after (calls : List Call) (state : Session × σ) :
    (after calls state).2 = Clock.after state.2 (calls.countP Call.readsClock) := by
  induction calls using List.reverseRecOn with
  | nil => rfl
  | append_singleton calls call ih =>
      rw [after_concat, clock_perform, ih, ← Clock.after_add, List.countP_append,
        List.countP_singleton]

theorem read_after (calls : List Call) (state : Session × σ) :
    (Clock.read (after calls state).2).1 =
      Clock.reading state.2 (calls.countP Call.readsClock) := by
  rw [clock_after]
  rfl

/-- What a watched clock has shown by the end of a history. -/
theorem shown_after (calls : List Call) (session : Session) (clock : σ) :
    (after calls (session, WatchedClock.new clock)).2.shown =
      Clock.readings clock (calls.countP Call.readsClock) := by
  rw [clock_after, WatchedClock.shown_after]
  rfl

/-- A call that reads the clock sees the reading that comes after those of the calls before it. -/
theorem shown_concat (calls : List Call) (call : Call) (session : Session) (clock : σ) :
    (after (calls ++ [call]) (session, WatchedClock.new clock)).2.shown =
      (after calls (session, WatchedClock.new clock)).2.shown ++
        if call.readsClock then [Clock.reading clock (calls.countP Call.readsClock)] else [] := by
  rw [shown_after, shown_after, List.countP_append, List.countP_singleton]
  cases call.readsClock with
  | true => exact Clock.readings_succ clock _
  | false => exact (List.append_nil _).symm

/-- On clocks that show the same a call has the same answer, and it leaves clocks behind that show
the same. -/
theorem perform_congr (hreadings : ∀ n, Clock.readings clock' n = Clock.readings clock n)
    (call : Call) (session : Session) :
    (call.perform (session, clock')).1 = (call.perform (session, clock)).1 ∧
      (call.perform (session, clock')).2.1 = (call.perform (session, clock)).2.1 ∧
      ∀ n, Clock.readings (call.perform (session, clock')).2.2 n =
        Clock.readings (call.perform (session, clock)).2.2 n := by
  obtain ⟨hnow, hrest⟩ := Clock.read_congr hreadings
  cases call with
  | start => exact ⟨rfl, by simp only [Call.perform, start, hnow], hrest⟩
  | tick => exact ⟨congrArg Answer.span hnow, rfl, hrest⟩
  | elapsed => exact ⟨by simp only [Call.perform, Session.elapsed, hnow], rfl, hrest⟩
  | isExpired => exact ⟨by simp only [Call.perform, Session.isExpired, hnow], rfl, hrest⟩
  | _ => exact ⟨rfl, rfl, hreadings⟩

theorem answers_congr (hreadings : ∀ n, Clock.readings clock' n = Clock.readings clock n)
    (calls : List Call) (session : Session) :
    answers calls (session, clock') = answers calls (session, clock) := by
  induction calls generalizing session clock clock' with
  | nil => rfl
  | cons call rest ih =>
      obtain ⟨hanswer, hsession, hrest⟩ := perform_congr hreadings call session
      have hstate : (call.perform (session, clock')).2 =
          ((call.perform (session, clock)).2.1, (call.perform (session, clock')).2.2) :=
        Prod.ext hsession rfl
      rw [answers, answers, hanswer, hstate, ih hrest]

theorem perform_tick (calls : List Call) (state : Session × σ) :
    (Call.tick.perform (after calls state)).1 =
      .span (Clock.reading state.2 (calls.countP Call.readsClock)) := by
  rw [← read_after]
  rfl

/-! ### Times and the budget -/

/-- A session without input has nothing to return and stays as it is. -/
theorem readInput_eq (session : Session) :
    session.readInput = (session.input.head?, { session with input := session.input.tail }) := by
  cases session with
  | mk timeout startedAt input debug => cases input <;> rfl

theorem timeout_perform (call : Call) (state : Session × σ) :
    (call.perform state).2.1.timeout = state.1.timeout := by
  cases call with
  | readInput => simp only [Call.perform, readInput_eq]
  | _ => rfl

theorem timeout_after (calls : List Call) (state : Session × σ) :
    (after calls state).1.timeout = state.1.timeout := by
  induction calls using List.reverseRecOn with
  | nil => rfl
  | append_singleton calls call ih => rw [after_concat, timeout_perform, ih]

theorem startedAt_perform (h : call ≠ .start) (state : Session × σ) :
    (call.perform state).2.1.startedAt = state.1.startedAt := by
  cases call with
  | start => contradiction
  | readInput => simp only [Call.perform, readInput_eq]
  | _ => rfl

theorem startedAt_after (h : .start ∉ calls) (state : Session × σ) :
    (after calls state).1.startedAt = state.1.startedAt := by
  induction calls generalizing state with
  | nil => rfl
  | cons call rest ih =>
      obtain ⟨hcall, hrest⟩ := not_or.mp (List.mem_cons.not.mp h)
      exact (ih hrest _).trans (startedAt_perform (Ne.symm hcall) state)

theorem debug_perform (call : Call) (state : Session × σ) :
    (call.perform state).2.1.debug = true ↔ state.1.debug = true ∨ call = .enableDebug := by
  cases call with
  | readInput => simp [Call.perform, readInput_eq]
  | _ => simp [Call.perform, start, pushInput, enableDebug]

theorem debug_after (calls : List Call) (state : Session × σ) :
    (after calls state).1.debug = true ↔ state.1.debug = true ∨ .enableDebug ∈ calls := by
  induction calls using List.reverseRecOn with
  | nil => simp [after]
  | append_singleton calls call ih =>
      rw [after_concat, debug_perform, ih, or_assoc, List.mem_append, List.mem_singleton,
        eq_comm (a := call)]

theorem perform_debug_iff (hquiet : session.debug = false) (calls : List Call) (clock : σ) :
    (Call.debug.perform (after calls (session, clock))).1 = .decision true ↔
      .enableDebug ∈ calls := by
  have hdebug := debug_after calls (session, clock)
  rw [hquiet] at hdebug
  simpa [Call.perform] using hdebug

namespace CountsFrom

/-- Calls that are no starts leave the reading where it is. -/
theorem append (h : CountsFrom reading calls origin) (hlater : .start ∉ later) :
    CountsFrom reading (calls ++ later) origin := by
  cases h with
  | never unstarted => exact .never (by simp [unstarted, hlater])
  | latest last =>
      rw [List.append_assoc, List.cons_append]
      exact .latest (by simp [last, hlater])

theorem startedAt (h : CountsFrom (Clock.reading clock) calls origin)
    (hfresh : session.startedAt = .zero) :
    (after calls (session, clock)).1.startedAt = origin := by
  cases h with
  | never unstarted => exact (startedAt_after unstarted _).trans hfresh
  | @latest earlier later last =>
      rw [after_append]
      exact (startedAt_after last _).trans (read_after earlier (session, clock))

end CountsFrom

theorem exists_countsFrom (reading : Nat → Duration) (calls : List Call) :
    ∃ origin, CountsFrom reading calls origin := by
  -- From the end: a call is the latest start itself or leaves the one before it the latest.
  induction calls using List.reverseRecOn with
  | nil => exact ⟨_, .never List.not_mem_nil⟩
  | append_singleton calls call ih =>
      obtain ⟨origin, h⟩ := ih
      cases call with
      | start => exact ⟨_, .latest List.not_mem_nil⟩
      | _ => exact ⟨origin, h.append (by simp)⟩

/-- The time on which the answers about the budget rest. -/
theorem elapsedAt_after (h : CountsFrom (Clock.reading clock) calls origin)
    (hfresh : session.startedAt = .zero) :
    (after calls (session, clock)).1.elapsedAt
        (Clock.read (after calls (session, clock)).2).1 =
      Clock.reading clock (calls.countP Call.readsClock) - origin := by
  rw [elapsedAt, h.startedAt hfresh, read_after]

theorem perform_elapsed (h : CountsFrom (Clock.reading clock) calls origin)
    (hfresh : session.startedAt = .zero) :
    (Call.elapsed.perform (after calls (session, clock))).1 =
      .span (Clock.reading clock (calls.countP Call.readsClock) - origin) :=
  congrArg Answer.span (elapsedAt_after h hfresh)

theorem perform_isExpired (h : CountsFrom (Clock.reading clock) calls origin)
    (hfresh : session.startedAt = .zero) :
    (Call.isExpired.perform (after calls (session, clock))).1 =
      .decision (decide (session.timeout.nanoseconds ≤
        (Clock.reading clock (calls.countP Call.readsClock) - origin).nanoseconds)) := by
  rw [← elapsedAt_after h hfresh, ← timeout_after calls (session, clock)]
  rfl

theorem elapsed_le_of_append (hadvances : Clock.Advances clock) (calls later : List Call)
    (origin : Duration) :
    Clock.reading clock (calls.countP Call.readsClock) - origin ≤
      Clock.reading clock ((calls ++ later).countP Call.readsClock) - origin := by
  have hcount : calls.countP Call.readsClock ≤ (calls ++ later).countP Call.readsClock := by
    rw [List.countP_append]
    exact Nat.le_add_right ..
  exact Nat.sub_le_sub_right (hadvances _ _ hcount) origin.nanoseconds

/-- On a clock that never goes back, the answers to `elapsed` never decrease before the next
start. -/
theorem perform_elapsed_le (hadvances : Clock.Advances clock) (hfresh : session.startedAt = .zero)
    (calls : List Call) (hlater : .start ∉ later) :
    ∃ d d', (Call.elapsed.perform (after calls (session, clock))).1 = .span d ∧
      (Call.elapsed.perform (after (calls ++ later) (session, clock))).1 = .span d' ∧
      d ≤ d' := by
  obtain ⟨origin, h⟩ := exists_countsFrom (Clock.reading clock) calls
  exact ⟨_, _, perform_elapsed h hfresh, perform_elapsed (h.append hlater) hfresh,
    elapsed_le_of_append hadvances calls later origin⟩

/-- On a clock that never goes back, a budget that is used up stays so until the next start. -/
theorem perform_isExpired_stays (hadvances : Clock.Advances clock)
    (hfresh : session.startedAt = .zero) (hlater : .start ∉ later)
    (hexpired : (Call.isExpired.perform (after calls (session, clock))).1 = .decision true) :
    (Call.isExpired.perform (after (calls ++ later) (session, clock))).1 = .decision true := by
  obtain ⟨origin, h⟩ := exists_countsFrom (Clock.reading clock) calls
  rw [perform_isExpired h hfresh, Answer.decision.injEq, decide_eq_true_iff] at hexpired
  rw [perform_isExpired (h.append hlater) hfresh, Answer.decision.injEq, decide_eq_true_iff]
  exact Nat.le_trans hexpired (elapsed_le_of_append hadvances calls later origin)

/-! ### Input -/

/-- What a call gives away and what it leaves in the queue is what was there and what it adds. -/
theorem characters_perform (call : Call) (state : Session × σ) :
    (call.perform state).1.characters ++ (call.perform state).2.1.input =
      state.1.input ++ call.characters := by
  cases call with
  | readInput =>
      simp only [Call.perform, readInput_eq, Call.characters, List.append_nil]
      cases state.1.input <;> rfl
  | pushInput text => rfl
  | _ => exact (List.append_nil _).symm

theorem characters_answers (calls : List Call) (state : Session × σ) :
    (answers calls state).flatMap Answer.characters ++ (after calls state).1.input =
      state.1.input ++ calls.flatMap Call.characters := by
  induction calls generalizing state with
  | nil => exact (List.append_nil _).symm
  | cons call rest ih =>
      have hrest := ih (call.perform state).2
      calc (answers (call :: rest) state).flatMap Answer.characters ++
            (after (call :: rest) state).1.input
        _ = (call.perform state).1.characters ++
              ((answers rest (call.perform state).2).flatMap Answer.characters ++
                (after rest (call.perform state).2).1.input) := List.append_assoc ..
        _ = (call.perform state).1.characters ++ (call.perform state).2.1.input ++
              rest.flatMap Call.characters := by rw [hrest, List.append_assoc]
        _ = state.1.input ++ (call.characters ++ rest.flatMap Call.characters) := by
              rw [characters_perform, List.append_assoc]

theorem perform_readInput_eq_none_iff (state : Session × σ) :
    (Call.readInput.perform state).1 = .character none ↔ state.1.input = [] := by
  simp [Call.perform, readInput_eq]

/-- With some budget a session can be made, and all its answers follow from the history of calls.
A call that reads the clock sees the product of the step and the number of readings before it, held
at the greatest span, and the other calls read nothing; a clock that is watched, or that keeps
seconds and nanoseconds with carries, changes no answer. The time elapsed is the reading less the
one of the latest start, and the budget is used up when that fills it; until the next start the
former never decreases and the latter never changes back. What was returned of the input and what is
still queued are together the pushed texts, and none is answered only when nothing is queued. -/
theorem answers_follow_from_history (step : Duration.Parts) {milliseconds : UInt64}
    (hbudget : 1 ≤ milliseconds.toNat) :
    ∃ session, Session.ofMilliseconds milliseconds = .ok session ∧
      let clock := SteppingClock.new step.span
      let watched := WatchedClock.new clock
      let reading := fun i =>
        Duration.ofNanoseconds (i * (step.seconds.toNat * 1000000000 + step.nanoseconds))
      let answer := fun calls (call : Call) => (call.perform (after calls (session, clock))).1
      (∀ calls, answers calls (session, watched) = answers calls (session, clock) ∧
        answers calls (session, PartedClock.new step) = answers calls (session, clock)) ∧
      ∀ calls,
        let now := reading (calls.countP Call.readsClock)
        let queue := (after calls (session, clock)).1.input
        (∀ call, answers (calls ++ [call]) (session, clock) =
            answers calls (session, clock) ++ [answer calls call] ∧
          (after (calls ++ [call]) (session, watched)).2.shown =
            (after calls (session, watched)).2.shown ++ if call.readsClock then [now] else []) ∧
        answer calls .tick = .span now ∧
        (∃ origin, CountsFrom reading calls origin) ∧
        (∀ origin, CountsFrom reading calls origin →
          answer calls .elapsed = .span (now - origin) ∧
          answer calls .isExpired =
            .decision (decide (milliseconds.toNat * 1000000 ≤ (now - origin).nanoseconds))) ∧
        (∀ later, .start ∉ later →
          (∃ d d', answer calls .elapsed = .span d ∧
            answer (calls ++ later) .elapsed = .span d' ∧ d ≤ d') ∧
          (answer calls .isExpired = .decision true →
            answer (calls ++ later) .isExpired = .decision true)) ∧
        answer calls .timeout = .span (.ofMilliseconds milliseconds.toNat) ∧
        (answer calls .debug = .decision true ↔ .enableDebug ∈ calls) ∧
        (answers calls (session, clock)).flatMap Answer.characters ++ queue =
          calls.flatMap Call.characters ∧
        (answer calls .readInput = .character none ↔ queue = []) := by
  have hsome : milliseconds ≠ 0 := by
    rintro rfl
    contradiction
  refine ⟨_, ofMilliseconds_eq_ok_iff.mpr ⟨hsome, rfl⟩, ?_⟩
  intro clock watched reading answer
  have hreading : Clock.reading clock = reading := by
    funext i
    rw [SteppingClock.reading_new, Duration.Parts.nanoseconds_span]
  have hadvances : Clock.Advances clock := SteppingClock.advances_new step.span
  refine ⟨fun calls => ⟨answers_congr (WatchedClock.readings_eq watched) calls _,
    answers_congr (PartedClock.readings_new step) calls _⟩, ?_⟩
  intro calls now queue
  have hnow : now = Clock.reading clock (calls.countP Call.readsClock) := by rw [hreading]
  refine ⟨?_, ?_, exists_countsFrom reading calls, ?_, ?_, ?_, ?_, ?_,
    perform_readInput_eq_none_iff _⟩
  · intro call
    rw [hnow]
    exact ⟨answers_concat calls call _, shown_concat calls call _ clock⟩
  · rw [hnow]
    exact perform_tick calls _
  · intro origin h
    rw [← hreading] at h
    rw [hnow]
    refine ⟨perform_elapsed h rfl, (perform_isExpired h rfl).trans ?_⟩
    rw [Duration.nanoseconds_ofMilliseconds]
  · intro later hlater
    exact ⟨perform_elapsed_le hadvances rfl calls hlater,
      perform_isExpired_stays hadvances rfl hlater⟩
  · exact congrArg Answer.span (timeout_after calls _)
  · exact perform_debug_iff rfl calls clock
  · exact characters_answers calls _

/-- Three steps are more seconds than can be counted only by the nanoseconds that carry over, so the
reading is held at the greatest span; the time elapsed is counted from the reading of the start. -/
theorem answers_follow_from_history_at_carry :
    let step : Duration.Parts := ⟨6148914691236517205, 600000000, by decide⟩
    let session : Session :=
      { timeout := .ofMilliseconds 7, startedAt := .zero, input := [], debug := false }
    let clock := SteppingClock.new step.span
    let watched := WatchedClock.new clock
    let reading := fun i =>
      Duration.ofNanoseconds (i * (step.seconds.toNat * 1000000000 + step.nanoseconds))
    let calls : List Call := [.isExpired, .pushInput "hé", .start, .elapsed, .readInput]
    let later : List Call := [.isExpired, .pushInput "!"]
    let answer := fun calls (call : Call) => (call.perform (after calls (session, clock))).1
    1 ≤ (7 : UInt64).toNat ∧ Session.ofMilliseconds 7 = .ok session ∧
      answers calls (session, PartedClock.new step) = answers calls (session, clock) ∧
      (after (calls ++ [.elapsed]) (session, watched)).2.shown =
        (after calls (session, watched)).2.shown ++ [.ofNanoseconds Duration.greatest] ∧
      CountsFrom reading calls (reading 1) ∧
      answer calls .elapsed = .span (.ofNanoseconds 12297829382473034410399999999) ∧
      .start ∉ later ∧ answer [] .isExpired = .decision false ∧
      answer calls .isExpired = .decision true ∧
      answer (calls ++ later) .isExpired = .decision true ∧
      (answers calls (session, clock)).flatMap Answer.characters = ['h'] ∧
      'h' :: (after calls (session, clock)).1.input = ['h', 'é'] := by
  intro step session clock watched reading calls later answer
  have hbudget : 1 ≤ (7 : UInt64).toNat := by decide
  obtain ⟨session', hsession, hclocks, hhistory⟩ := answers_follow_from_history step hbudget
  obtain rfl : session' = session := Except.ok.inj (hsession.symm.trans rfl)
  obtain ⟨hcalls, -, -, htimes, hstays, -, -, hinput, -⟩ := hhistory calls
  obtain ⟨-, hshown⟩ := hcalls .elapsed
  have hnow : reading (calls.countP Call.readsClock) = .ofNanoseconds Duration.greatest := by
    decide
  have hfull := hshown.trans (congrArg ((after calls (session, watched)).2.shown ++ [·]) hnow)
  have hlast : .start ∉ [Call.elapsed, .readInput] := by simp
  have horigin : CountsFrom reading calls (reading 1) :=
    @CountsFrom.latest reading [.isExpired, .pushInput "hé"] _ hlast
  obtain ⟨helapsed, hexpired⟩ := htimes _ horigin
  have hspan : reading (calls.countP Call.readsClock) - reading 1 =
      .ofNanoseconds 12297829382473034410399999999 := by decide
  have hused := hexpired.trans (by decide +kernel : _ = Answer.decision true)
  have hlater : .start ∉ later := by simp [later]
  have hreturned : (answers calls (session, clock)).flatMap Answer.characters = ['h'] := by
    decide +kernel
  rw [hreturned] at hinput
  exact ⟨hbudget, hsession, (hclocks calls).2, hfull, horigin,
    helapsed.trans (congrArg Answer.span hspan), hlater, by decide +kernel, hused,
    (hstays later hlater).2 hused, hreturned, hinput.trans (by decide +kernel)⟩

end TapeMachine.Session
