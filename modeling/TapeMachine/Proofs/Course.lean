import TapeMachine.Sandbox
import TapeMachine.Proofs.Steps

/-!
The course of a run on a clock: the machines it stands at between two turns, the ways it stops and
what it leaves. A bound on the turns decides whether an answer is given and never which one, so a
run has at most one outcome. The machines of a run are those of the steps without a budget, as far
as no check of the budget fires.
-/

namespace TapeMachine

variable {σ : Type} [Clock σ]

theorem Clock.after_succ (clock : σ) (n : Nat) :
    Clock.after clock (n + 1) = (Clock.read (Clock.after clock n)).2 := by
  induction n generalizing clock with
  | zero => rfl
  | succ n ih => exact ih (Clock.read clock).2

theorem Clock.after_add (clock : σ) (j k : Nat) :
    Clock.after clock (j + k) = Clock.after (Clock.after clock j) k := by
  induction k with
  | zero => rfl
  | succ k ih => rw [← Nat.add_assoc, after_succ, after_succ, ih]

theorem Clock.readings_succ (clock : σ) (n : Nat) :
    Clock.readings clock (n + 1) =
      Clock.readings clock n ++ [(Clock.read (Clock.after clock n)).1] := by
  induction n generalizing clock with
  | zero => rfl
  | succ n ih =>
      rw [Clock.readings, ih]
      rfl

/-- Clocks with the same readings show the same at every reading. -/
theorem Clock.read_after_congr {τ : Type} [Clock τ] {clock : σ} {clock' : τ}
    (h : ∀ n, Clock.readings clock' n = Clock.readings clock n) (n : Nat) :
    (Clock.read (Clock.after clock' n)).1 = (Clock.read (Clock.after clock n)).1 := by
  have hlist := h (n + 1)
  rw [Clock.readings_succ, Clock.readings_succ, h n] at hlist
  exact List.singleton_inj.mp (List.append_cancel_left hlist)

theorem countOn_min (n : Nat) :
    countOn (min n greatestCount) = min (n + 1) greatestCount := by
  unfold countOn
  split <;> omega

namespace Run

/-- A run that began with one machine and clock stands before its next turn, after a number of
executed instructions, with another machine and clock. -/
inductive Reaches (run : Run) (m₀ : Machine) (clock₀ : σ) : Nat → Machine → σ → Prop where
  | start : Reaches run m₀ clock₀ 0 m₀ clock₀
  | turn {n : Nat} {m m' : Machine} {clock : σ} {i : Instruction}
      (before : Reaches run m₀ clock₀ n m clock)
      (here : run.program.get? m.position = some i)
      (goesOn : run.turn (Clock.read clock).1 i m = .running m') :
      Reaches run m₀ clock₀ (n + 1) m' (Clock.read clock).2

/-- A run that stands at a machine stops there: at the end of the program without another reading
of the clock, or in the turn that follows. -/
inductive Stops (run : Run) (m : Machine) (clock : σ) : Status → σ → Prop where
  | ended (here : run.program.get? m.position = none) : Stops run m clock .completed clock
  | turn {i : Instruction} {status : Status}
      (here : run.program.get? m.position = some i)
      (stopped : run.turn (Clock.read clock).1 i m = .stopped status m) :
      Stops run m clock status (Clock.read clock).2

def expiresAt (run : Run) (clock : σ) (n : Nat) : Bool :=
  run.session.expiredAt (Clock.read (Clock.after clock n)).1

/-- How a run ends that stands at a machine after a number of executed instructions, and how often
its budget was checked by then. The end of the program comes before a check, a fault after one. -/
inductive Cut (run : Run) (clock : σ) (n : Nat) (m : Machine) : Status → Nat → Prop where
  | completed (here : run.program.get? m.position = none) : Cut run clock n m .completed n
  | timedOut {i : Instruction} (here : run.program.get? m.position = some i)
      (expired : run.expiresAt clock n = true) : Cut run clock n m .timedOut (n + 1)
  | faulted {i : Instruction} {fault : Fault} (here : run.program.get? m.position = some i)
      (inTime : run.expiresAt clock n = false) (raised : m.fault? run.limits i = some fault) :
      Cut run clock n m (.faulted fault) (n + 1)

variable {run : Run} {m m' m₀ : Machine} {clock clock' clock₀ : σ}

theorem turn_eq_running_iff {now : Duration} {i : Instruction} :
    run.turn now i m = .running m' ↔
      run.session.expiredAt now = false ∧ m.fault? run.limits i = none ∧ m' = m.execute i := by
  unfold turn
  cases run.session.expiredAt now with
  | true => simp
  | false => cases m.fault? run.limits i <;> simp [eq_comm]

theorem turn_eq_stopped_iff {now : Duration} {i : Instruction} {status : Status} :
    run.turn now i m = .stopped status m' ↔
      m' = m ∧ ((run.session.expiredAt now = true ∧ status = .timedOut) ∨
        (run.session.expiredAt now = false ∧
          ∃ fault, m.fault? run.limits i = some fault ∧ status = .faulted fault)) := by
  unfold turn
  cases run.session.expiredAt now with
  | true => simp [and_comm, eq_comm]
  | false => cases m.fault? run.limits i <;> simp [and_comm, eq_comm]

/-- A run that has read its clock once for every executed instruction stops as the check before
the next one decides. -/
theorem stops_after_iff {n : Nat} {status : Status} :
    run.Stops m (Clock.after clock₀ n) status clock' ↔
      ∃ checks, run.Cut clock₀ n m status checks ∧ clock' = Clock.after clock₀ checks := by
  constructor
  · intro h
    cases h with
    | ended here => exact ⟨n, .completed here, rfl⟩
    | turn here stopped =>
        refine ⟨n + 1, ?_, (Clock.after_succ clock₀ n).symm⟩
        obtain ⟨-, ⟨hexpired, rfl⟩ | ⟨hnow, fault, hfault, rfl⟩⟩ := turn_eq_stopped_iff.mp stopped
        · exact .timedOut here hexpired
        · exact .faulted here hnow hfault
  · rintro ⟨checks, hcut, rfl⟩
    cases hcut with
    | completed here => exact .ended here
    | timedOut here expired =>
        rw [Clock.after_succ]
        exact .turn here (turn_eq_stopped_iff.mpr ⟨rfl, .inl ⟨expired, rfl⟩⟩)
    | faulted here inTime raised =>
        rw [Clock.after_succ]
        exact .turn here (turn_eq_stopped_iff.mpr ⟨rfl, .inr ⟨inTime, _, raised, rfl⟩⟩)

theorem Reaches.turns_eq {n : Nat} (h : run.Reaches m₀ clock₀ n m clock) (bound : Nat) :
    run.turns (n + bound) 0 m₀ clock₀ = run.turns bound (min n greatestCount) m clock := by
  induction h generalizing bound with
  | start => simp
  | @turn n m m' clock i before here goesOn ih =>
      have hturn : run.turns (bound + 1) (min n greatestCount) m clock =
          run.turns bound (countOn (min n greatestCount)) m' (Clock.read clock).2 := by
        simp [turns, here, goesOn]
      rw [show n + 1 + bound = n + (bound + 1) by omega, ih, hturn, countOn_min]

theorem Stops.turns_eq {status : Status} (h : run.Stops m clock status clock')
    (bound executed : Nat) :
    run.turns (bound + 1) executed m clock = some (⟨status, m, executed⟩, clock') := by
  cases h with
  | ended here => simp [turns, here]
  | turn here stopped => simp [turns, here, stopped]

private theorem exists_stop_of_turns {n bound : Nat} {ending : Ending}
    (hreach : run.Reaches m₀ clock₀ n m clock)
    (h : run.turns bound (min n greatestCount) m clock = some (ending, clock')) :
    ∃ k mid clock₁, n ≤ k ∧ k < n + bound ∧ run.Reaches m₀ clock₀ k mid clock₁ ∧
      run.Stops mid clock₁ ending.status clock' ∧
      ending = ⟨ending.status, mid, min k greatestCount⟩ := by
  induction bound generalizing n m clock with
  | zero => simp [turns] at h
  | succ bound ih =>
      cases hget : run.program.get? m.position with
      | none =>
          rw [(Stops.ended hget).turns_eq] at h
          cases h
          exact ⟨n, m, _, by omega, by omega, hreach, .ended hget, rfl⟩
      | some i =>
          cases hturn : run.turn (Clock.read clock).1 i m with
          | stopped status left =>
              obtain ⟨rfl, -⟩ := turn_eq_stopped_iff.mp hturn
              rw [(Stops.turn hget hturn).turns_eq] at h
              cases h
              exact ⟨n, left, clock, by omega, by omega, hreach, .turn hget hturn, rfl⟩
          | running next =>
              have hnext := hreach.turn hget hturn
              have hrest : run.turns bound (min (n + 1) greatestCount) next
                  (Clock.read clock).2 = some (ending, clock') := by
                rw [← countOn_min]
                simpa [turns, hget, hturn] using h
              obtain ⟨k, mid, clock₁, hk, hlt, rest⟩ := ih hnext hrest
              exact ⟨k, mid, clock₁, by omega, by omega, rest⟩

theorem turns_eq_some_iff {bound : Nat} {ending : Ending} :
    run.turns bound 0 m₀ clock₀ = some (ending, clock') ↔
      ∃ n m clock, n < bound ∧ run.Reaches m₀ clock₀ n m clock ∧
        run.Stops m clock ending.status clock' ∧
        ending = ⟨ending.status, m, min n greatestCount⟩ := by
  constructor
  · intro h
    obtain ⟨k, mid, clock₁, -, hlt, rest⟩ :=
      exists_stop_of_turns (n := 0) .start (by simpa using h)
    exact ⟨k, mid, clock₁, by omega, rest⟩
  · rintro ⟨n, m, clock, hlt, hreach, hstop, hending⟩
    obtain ⟨rest, rfl⟩ := Nat.exists_eq_add_of_lt hlt
    rw [Nat.add_assoc, hreach.turns_eq, hstop.turns_eq, ← hending]

/-- A run on a clock goes through the steps without a budget, as far as no check fires, and every
executed instruction costs one reading. -/
theorem reaches_iff {n : Nat} :
    run.Reaches m₀ clock₀ n m clock ↔
      run.program.after? run.limits n m₀ = some m ∧
        (∀ j < n, run.expiresAt clock₀ j = false) ∧ clock = Clock.after clock₀ n := by
  constructor
  · intro h
    induction h with
    | start => exact ⟨rfl, by simp, rfl⟩
    | @turn n m m' clock i before here goesOn ih =>
        obtain ⟨hsteps, hbudget, rfl⟩ := ih
        obtain ⟨hnow, hfault, rfl⟩ := turn_eq_running_iff.mp goesOn
        refine ⟨?_, ?_, (Clock.after_succ clock₀ n).symm⟩
        · exact Program.after?_succ_eq_some_iff.mpr
            ⟨m, hsteps, Program.next?_of_get? here hfault⟩
        · intro j hj
          rcases Nat.lt_succ_iff_lt_or_eq.mp hj with hlt | rfl
          · exact hbudget j hlt
          · exact hnow
  · rintro ⟨hsteps, hbudget, rfl⟩
    induction n generalizing m with
    | zero =>
        cases hsteps
        exact .start
    | succ n ih =>
        obtain ⟨mid, hmid, hnext⟩ := Program.after?_succ_eq_some_iff.mp hsteps
        obtain ⟨i, hget, hfault, rfl⟩ := Program.next?_eq_some_iff.mp hnext
        have hbefore := ih hmid fun j hj => hbudget j (Nat.lt_succ_of_lt hj)
        have hturn : run.turn (Clock.read (Clock.after clock₀ n)).1 i mid =
            .running (mid.execute i) :=
          turn_eq_running_iff.mpr ⟨hbudget n (Nat.lt_succ_self n), hfault, rfl⟩
        rw [Clock.after_succ]
        exact .turn hbefore hget hturn

theorem Cut.halts {n checks : Nat} {status : Status} (h : run.Cut clock n m status checks)
    (hstatus : status ≠ .timedOut) : run.program.Halts run.limits m status := by
  cases h with
  | completed here => exact .completed here
  | timedOut here expired => exact absurd rfl hstatus
  | faulted here inTime raised => exact .faulted here raised

theorem Cut.halts_or_expired {n checks : Nat} {status : Status}
    (h : run.Cut clock n m status checks) :
    run.program.Halts run.limits m status ∨ run.expiresAt clock n = true := by
  cases h with
  | completed here => exact .inl (.completed here)
  | timedOut here expired => exact .inr expired
  | faulted here inTime raised => exact .inl (.faulted here raised)

theorem Reaches.induction {P : Machine → Prop} {n : Nat}
    (h : run.Reaches m₀ clock₀ n m clock) (start : P m₀)
    (step : ∀ m m', P m → run.program.next? run.limits m = some m' → P m') : P m :=
  Program.after?_induction step start (reaches_iff.mp h).1

/-- A run whose machines are the images of those of another run, with the same budget, ends when
the other one does and with the image of its machine. -/
theorem turns_map {run' : Run} {I : Machine → Prop} {f : Machine → Machine}
    (hbudget : ∀ now, run'.session.expiredAt now = run.session.expiredAt now)
    (hend : ∀ m, I m → run.program.get? m.position = none →
      run'.program.get? (f m).position = none)
    (hstep : ∀ m i, I m → run.program.get? m.position = some i →
      ∃ i', run'.program.get? (f m).position = some i' ∧
        (f m).fault? run'.limits i' = m.fault? run.limits i ∧
        (m.fault? run.limits i = none → (f m).execute i' = f (m.execute i) ∧ I (m.execute i)))
    (bound executed : Nat) (hm : I m) :
    run'.turns bound executed (f m) clock =
      (run.turns bound executed m clock).map fun (ending, clock) =>
        ({ ending with machine := f ending.machine }, clock) := by
  induction bound generalizing executed m clock with
  | zero => rfl
  | succ bound ih =>
      cases hget : run.program.get? m.position with
      | none => simp [turns, hget, hend m hm hget]
      | some i =>
          obtain ⟨i', hget', hfault, hnext⟩ := hstep m i hm hget
          cases hnow : run.session.expiredAt (Clock.read clock).1 with
          | true => simp [turns, turn, hget, hget', hbudget, hnow]
          | false =>
              cases hraised : m.fault? run.limits i with
              | some fault => simp [turns, turn, hget, hget', hbudget, hnow, hfault, hraised]
              | none =>
                  obtain ⟨hexecute, hkeep⟩ := hnext hraised
                  simpa [turns, turn, hget, hget', hbudget, hnow, hfault, hraised, hexecute] using
                    ih (countOn executed) hkeep

/-- Two runs with the same budget and program are the same run as long as the same faults are
raised in both. -/
theorem turns_congr {run' : Run} {I : Machine → Prop} (hprogram : run'.program = run.program)
    (hsession : run'.session = run.session)
    (hfault : ∀ m i, I m → run.program.get? m.position = some i →
      m.fault? run'.limits i = m.fault? run.limits i)
    (hkeep : ∀ m i, I m → run.program.get? m.position = some i →
      m.fault? run.limits i = none → I (m.execute i))
    (bound executed : Nat) (hm : I m) :
    run'.turns bound executed m clock = run.turns bound executed m clock := by
  have hmap : run'.turns bound executed (id m) clock =
      (run.turns bound executed m clock).map fun (ending, clock) =>
        ({ ending with machine := id ending.machine }, clock) := by
    apply turns_map (I := I)
    · intro now
      rw [hsession]
    · intro m _ hget
      rw [hprogram]
      exact hget
    · intro m i hm hget
      exact ⟨i, by rw [hprogram]; exact hget, hfault m i hm hget,
        fun hnone => ⟨rfl, hkeep m i hm hget hnone⟩⟩
    · exact hm
  simpa using hmap

end Run

namespace Sandbox

def Reaches (sandbox : Sandbox) (clock : σ) (n : Nat) (m : Machine) (clock' : σ) : Prop :=
  (sandbox.start clock).1.Reaches sandbox.machine (sandbox.start clock).2 n m clock'

def Yields (sandbox : Sandbox) (clock : σ) (o : Outcome) (clock' : σ) : Prop :=
  ∃ bound, sandbox.run bound clock = some (o, clock')

def expiresAt (sandbox : Sandbox) (clock : σ) (n : Nat) : Bool :=
  (sandbox.start clock).1.expiresAt (sandbox.start clock).2 n

def Cut (sandbox : Sandbox) (clock : σ) (n : Nat) (m : Machine) (status : Status)
    (checks : Nat) : Prop :=
  (sandbox.start clock).1.Cut (sandbox.start clock).2 n m status checks

/-- The machine after a number of instructions when no budget stops it. -/
def after? (sandbox : Sandbox) (n : Nat) : Option Machine :=
  sandbox.program.after? sandbox.limits n sandbox.machine

variable {sandbox : Sandbox} {clock clock' : σ} {m : Machine} {o : Outcome}

@[simp] theorem limits_start (sandbox : Sandbox) (clock : σ) :
    (sandbox.start clock).1.limits = sandbox.limits := rfl

theorem reaches_iff {n : Nat} :
    sandbox.Reaches clock n m clock' ↔
      sandbox.after? n = some m ∧ (∀ j < n, sandbox.expiresAt clock j = false) ∧
        clock' = Clock.after clock (n + 1) :=
  Run.reaches_iff

theorem Reaches.induction {P : Machine → Prop} {n : Nat} (h : sandbox.Reaches clock n m clock')
    (start : P sandbox.machine)
    (step : ∀ m m', P m → sandbox.program.next? sandbox.limits m = some m' → P m') : P m :=
  Run.Reaches.induction h start step

theorem run_eq_map (sandbox : Sandbox) (bound : Nat) (clock : σ) :
    sandbox.run bound clock =
      ((sandbox.start clock).1.turns bound 0 sandbox.machine (sandbox.start clock).2).map
        fun (ending, clock') => ((sandbox.start clock).1.outcome ending (Clock.read clock').1,
          (Clock.read clock').2) := rfl

theorem run_eq_some_iff {bound : Nat} :
    sandbox.run bound clock = some (o, clock') ↔
      ∃ n m clock₁ status clock₂, n < bound ∧ sandbox.Reaches clock n m clock₁ ∧
        (sandbox.start clock).1.Stops m clock₁ status clock₂ ∧
        o = (sandbox.start clock).1.outcome ⟨status, m, min n greatestCount⟩
          (Clock.read clock₂).1 ∧
        clock' = (Clock.read clock₂).2 := by
  rw [run_eq_map]
  simp only [Option.map_eq_some_iff, Prod.exists, Prod.mk.injEq]
  constructor
  · rintro ⟨ending, clock₂, hturns, ho, hclock⟩
    obtain ⟨n, m, clock₁, hlt, hreach, hstop, hending⟩ := Run.turns_eq_some_iff.mp hturns
    rw [hending] at ho
    exact ⟨n, m, clock₁, ending.status, clock₂, hlt, hreach, hstop, ho.symm, hclock.symm⟩
  · rintro ⟨n, m, clock₁, status, clock₂, hlt, hreach, hstop, ho, hclock⟩
    exact ⟨⟨status, m, min n greatestCount⟩, clock₂,
      Run.turns_eq_some_iff.mpr ⟨n, m, clock₁, hlt, hreach, hstop, rfl⟩, ho.symm, hclock.symm⟩

/-- A run whose bound leaves room for the turn in which it is cut ends with the machine of that
turn. -/
theorem turns_of_cut {n bound checks : Nat} {status : Status} (hsteps : sandbox.after? n = some m)
    (hbudget : ∀ j < n, sandbox.expiresAt clock j = false)
    (hcut : sandbox.Cut clock n m status checks) (hlt : n < bound) :
    (sandbox.start clock).1.turns bound 0 sandbox.machine (sandbox.start clock).2 =
      some (⟨status, m, min n greatestCount⟩, Clock.after clock (checks + 1)) := by
  have hreach : (sandbox.start clock).1.Reaches sandbox.machine (sandbox.start clock).2 n m
      (Clock.after (sandbox.start clock).2 n) :=
    Run.reaches_iff.mpr ⟨hsteps, hbudget, rfl⟩
  have hstop := Run.stops_after_iff.mpr ⟨checks, hcut, rfl⟩
  obtain ⟨rest, rfl⟩ := Nat.exists_eq_add_of_lt hlt
  rw [Nat.add_assoc, hreach.turns_eq, hstop.turns_eq]
  rfl

theorem run_of_cut {n bound checks : Nat} {status : Status} (hsteps : sandbox.after? n = some m)
    (hbudget : ∀ j < n, sandbox.expiresAt clock j = false)
    (hcut : sandbox.Cut clock n m status checks) (hlt : n < bound) :
    sandbox.run bound clock =
      some ((sandbox.start clock).1.outcome ⟨status, m, min n greatestCount⟩
        (Clock.read (Clock.after clock (checks + 1))).1, Clock.after clock (checks + 2)) := by
  rw [run_eq_map, turns_of_cut hsteps hbudget hcut hlt, Clock.after_succ clock (checks + 1)]
  rfl

/-- A bound on the turns asks for nothing but to be above the number of executed instructions. -/
theorem run_eq_some_iff_cut {bound : Nat} :
    sandbox.run bound clock = some (o, clock') ↔
      ∃ n m status checks, n < bound ∧ sandbox.after? n = some m ∧
        (∀ j < n, sandbox.expiresAt clock j = false) ∧
        sandbox.Cut clock n m status checks ∧
        o = (sandbox.start clock).1.outcome ⟨status, m, min n greatestCount⟩
          (Clock.read (Clock.after clock (checks + 1))).1 ∧
        clock' = Clock.after clock (checks + 2) := by
  constructor
  · intro h
    obtain ⟨n, m, clock₁, status, clock₂, hlt, hreach, hstop, ho, hclock⟩ := run_eq_some_iff.mp h
    obtain ⟨hsteps, hbudget, rfl⟩ := reaches_iff.mp hreach
    have hstop' : (sandbox.start clock).1.Stops m (Clock.after (sandbox.start clock).2 n) status
        clock₂ := hstop
    obtain ⟨checks, hcut, rfl⟩ := Run.stops_after_iff.mp hstop'
    exact ⟨n, m, status, checks, hlt, hsteps, hbudget, hcut, ho,
      hclock.trans (Clock.after_succ _ _).symm⟩
  · rintro ⟨n, m, status, checks, hlt, hsteps, hbudget, hcut, rfl, rfl⟩
    exact run_of_cut hsteps hbudget hcut hlt

/-- Everything about the outcome of a run, from the steps without a budget and the checks of the
budget: the start costs one reading, every check one and the end another. -/
theorem yields_iff :
    sandbox.Yields clock o clock' ↔
      ∃ n m status checks, sandbox.after? n = some m ∧
        (∀ j < n, sandbox.expiresAt clock j = false) ∧
        sandbox.Cut clock n m status checks ∧
        o = (sandbox.start clock).1.outcome ⟨status, m, min n greatestCount⟩
          (Clock.read (Clock.after clock (checks + 1))).1 ∧
        clock' = Clock.after clock (checks + 2) := by
  constructor
  · rintro ⟨bound, h⟩
    obtain ⟨n, m, status, checks, -, hends⟩ := run_eq_some_iff_cut.mp h
    exact ⟨n, m, status, checks, hends⟩
  · rintro ⟨n, m, status, checks, hends⟩
    exact ⟨n + 1, run_eq_some_iff_cut.mpr ⟨n, m, status, checks, Nat.lt_succ_self n, hends⟩⟩

theorem Yields.exists_reaches (h : sandbox.Yields clock o clock') :
    ∃ n m clock₁ checks, sandbox.Reaches clock n m clock₁ ∧
      sandbox.Cut clock n m o.status checks ∧
      o.tape = m.tape.visible ∧ o.output = m.output ∧ o.executed = min n greatestCount := by
  obtain ⟨n, m, status, checks, hsteps, hbudget, hcut, rfl, -⟩ := yields_iff.mp h
  exact ⟨n, m, _, checks, reaches_iff.mpr ⟨hsteps, hbudget, rfl⟩, hcut, rfl, rfl, rfl⟩

/-- A run is cut within its budget only where the program comes to an end. -/
theorem Cut.halts_of_inTime {n checks : Nat} {status : Status}
    (h : sandbox.Cut clock n m status checks) (hinTime : sandbox.expiresAt clock n = false) :
    sandbox.program.Halts sandbox.limits m status := by
  apply (Run.Cut.halts_or_expired h).resolve_right
  intro hexpired
  exact Bool.false_ne_true (hinTime.symm.trans hexpired)

/-- A run does not go on from where it is cut. -/
theorem Cut.le_of_reaches {n k checks : Nat} {status : Status} {m' : Machine}
    (h : sandbox.Cut clock n m status checks) (hsteps : sandbox.after? n = some m)
    (hreach : sandbox.Reaches clock k m' clock') : k ≤ n := by
  obtain ⟨hsteps', hbudget, -⟩ := reaches_iff.mp hreach
  apply Nat.le_of_not_lt
  intro hlt
  have hle : k ≤ n := (h.halts_of_inTime (hbudget n hlt)).le_of_after? hsteps hsteps'
  exact Nat.not_lt_of_le hle hlt

/-- Where the program comes to an end in time, the run is cut with the same end. -/
theorem exists_cut_of_halts {n : Nat} {status : Status}
    (hinTime : sandbox.expiresAt clock n = false)
    (hhalts : sandbox.program.Halts sandbox.limits m status) :
    ∃ checks, sandbox.Cut clock n m status checks := by
  cases hhalts with
  | completed ended => exact ⟨n, .completed ended⟩
  | faulted here raised => exact ⟨n + 1, .faulted here hinTime raised⟩

theorem exists_yields_of_halts {n : Nat} {status : Status} (hsteps : sandbox.after? n = some m)
    (hbudget : ∀ j ≤ n, sandbox.expiresAt clock j = false)
    (hhalts : sandbox.program.Halts sandbox.limits m status) :
    ∃ o clock', sandbox.Yields clock o clock' ∧ o.status = status ∧
      o.tape = m.tape.visible ∧ o.output = m.output := by
  obtain ⟨checks, hcut⟩ := exists_cut_of_halts (hbudget n (Nat.le_refl n)) hhalts
  exact ⟨_, _, yields_iff.mpr ⟨n, m, status, checks, hsteps,
    fun j hj => hbudget j (Nat.le_of_lt hj), hcut, rfl, rfl⟩, rfl, rfl, rfl⟩

theorem Yields.exists_halts (h : sandbox.Yields clock o clock')
    (hbudget : ∀ j, sandbox.expiresAt clock j = false) :
    ∃ n m, sandbox.after? n = some m ∧ sandbox.program.Halts sandbox.limits m o.status ∧
      o.tape = m.tape.visible ∧ o.output = m.output := by
  obtain ⟨n, m, status, checks, hsteps, -, hcut, rfl, -⟩ := yields_iff.mp h
  exact ⟨n, m, hsteps, hcut.halts_of_inTime (hbudget n), rfl, rfl⟩

theorem run_of_le {j k : Nat} (hle : j ≤ k) (h : sandbox.run j clock = some (o, clock')) :
    sandbox.run k clock = some (o, clock') := by
  obtain ⟨n, m, clock₁, status, clock₂, hlt, rest⟩ := run_eq_some_iff.mp h
  exact run_eq_some_iff.mpr ⟨n, m, clock₁, status, clock₂, Nat.lt_of_lt_of_le hlt hle, rest⟩

theorem Yields.unique {o₁ o₂ : Outcome} {clock₁ clock₂ : σ}
    (h₁ : sandbox.Yields clock o₁ clock₁) (h₂ : sandbox.Yields clock o₂ clock₂) :
    o₁ = o₂ ∧ clock₁ = clock₂ := by
  obtain ⟨j, hj⟩ := h₁
  obtain ⟨k, hk⟩ := h₂
  have hj' := run_of_le (Nat.le_max_left j k) hj
  rw [run_of_le (Nat.le_max_right j k) hk] at hj'
  cases hj'
  exact ⟨rfl, rfl⟩

end Sandbox

end TapeMachine
