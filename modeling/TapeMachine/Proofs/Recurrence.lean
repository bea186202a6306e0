import TapeMachine.Proofs.Cuts
import TapeMachine.Proofs.Nesting.LoopStack

/-!
What the future of a run depends on. Two machines that stand at the same position, with the same
cells, the head on the same cell and the same characters left to read, go on in the same way,
whatever they have printed, however far their heads have been and however many instructions brought
them there. Their loop stacks need not be compared, since the text before the position says what
they are. So a run that comes back to such a state has come into a circle, and only a budget can
end it.
-/

namespace TapeMachine

namespace Tape

variable {tape tape' : Tape}

/-- Tapes that show the same are the same in every cell. -/
theorem Tidy.cells_eq_of_visible (h : tape.Tidy) (h' : tape'.Tidy)
    (hvisible : tape'.visible = tape.visible) : tape'.cells = tape.cells := by
  apply Vector.toList_inj.mp
  rw [← h.visible_append_zeros, ← h'.visible_append_zeros, hvisible]

end Tape

namespace Machine

/-- Two machines agree in all that decides what comes next, the loop stack apart. The output, its
count and the farthest cell may differ. -/
structure Agrees (m m' : Machine) : Prop where
  position : m'.position = m.position
  cells : m'.tape.cells = m.tape.cells
  head : m'.tape.head = m.tape.head
  input : m'.input = m.input

/-- The state of a machine in short: its position, the cells it shows, its head and its queue. -/
def shown (m : Machine) : Nat × List Int × Fin Tape.size × List Char :=
  (m.position, m.tape.cells.toList.take (m.tape.reach.val + 1), m.tape.head, m.input)

variable {program : Program} {limits : Limits} {m m' k : Machine} {i : Instruction}

/-- At one position of a program all machines have one loop stack. -/
theorem Follows.loopStack_eq (h : Follows program m) (h' : Follows program m')
    (hposition : m'.position = m.position) : m'.loopStack = m.loopStack := by
  apply Array.toList_inj.mp
  rw [h'.stack, h.stack, hposition]

namespace Agrees

theorem symm (h : m.Agrees m') : m'.Agrees m where
  position := h.position.symm
  cells := h.cells.symm
  head := h.head.symm
  input := h.input.symm

theorem current (h : m.Agrees m') : m'.tape.current = m.tape.current := by
  simp only [Tape.current, h.cells, h.head]

theorem advance (h : m.Agrees m') : m.advance.Agrees m'.advance where
  position := congrArg (· + 1) h.position
  cells := h.cells
  head := h.head
  input := h.input

theorem write (h : m.Agrees m') (value : Int) : (m.write value).Agrees (m'.write value) where
  position := h.position
  cells := by simp only [Machine.write, Tape.write, h.cells, h.head]
  head := h.head
  input := h.input

theorem moveRight (h : m.Agrees m') :
    Agrees { m with tape := m.tape.right } { m' with tape := m'.tape.right } where
  position := h.position
  cells := by simp only [Tape.cells_right, h.cells]
  head := by
    apply Fin.ext
    simp only [Tape.head_right, h.head]
  input := h.input

theorem moveLeft (h : m.Agrees m') :
    Agrees { m with tape := m.tape.left } { m' with tape := m'.tape.left } where
  position := h.position
  cells := h.cells
  head := by
    apply Fin.ext
    simp only [Tape.head_left, h.head]
  input := h.input

theorem receive (h : m.Agrees m') : m.receive.Agrees m'.receive := by
  cases hinput : m.input with
  | nil =>
      have hinput' := h.input.trans hinput
      simpa only [Machine.receive, hinput, hinput'] using h
  | cons c rest =>
      have hinput' := h.input.trans hinput
      have hwritten := h.write c.toNat
      simp only [Machine.receive, hinput, hinput']
      exact ⟨h.position, hwritten.cells, h.head, rfl⟩

/-- What an agreeing machine prints is the same, and it has no part in the agreement. -/
theorem print (h : m.Agrees m') : m.print.Agrees m'.print ∧
    ∃ text, m.print.output = m.output ++ text ∧ m'.print.output = m'.output ++ text := by
  cases hchar : charOfCell? m.tape.current with
  | none =>
      have hchar' : charOfCell? m'.tape.current = none := by rw [h.current, hchar]
      simp only [Machine.print, hchar, hchar']
      exact ⟨h, "", by simp, by simp⟩
  | some c =>
      have hchar' : charOfCell? m'.tape.current = some c := by rw [h.current, hchar]
      simp only [Machine.print, hchar, hchar']
      exact ⟨⟨h.position, h.cells, h.head, h.input⟩, String.singleton c, by simp, by simp⟩

theorem endLoop (h : m.Agrees m') (hstack : m'.loopStack = m.loopStack) :
    m.endLoop.Agrees m'.endLoop := by
  cases hback : m.loopStack.back? with
  | none =>
      simp only [Machine.endLoop, hstack, hback]
      exact h.advance
  | some start =>
      simp only [Machine.endLoop, hstack, hback, h.current]
      split
      · exact ⟨congrArg (· + 1) h.position, h.cells, h.head, h.input⟩
      · exact ⟨rfl, h.cells, h.head, h.input⟩

/-- One instruction leads agreeing machines with one loop stack to agreeing machines. -/
theorem execute (h : m.Agrees m') (hstack : m'.loopStack = m.loopStack) (i : Instruction) :
    (m.execute i).Agrees (m'.execute i) := by
  cases i with
  | increment =>
      simp only [Machine.execute, h.current]
      exact (h.write _).advance
  | decrement =>
      simp only [Machine.execute, h.current]
      exact (h.write _).advance
  | moveRight => exact h.moveRight.advance
  | moveLeft => exact h.moveLeft.advance
  | loopStart => exact ⟨congrArg (· + 1) h.position, h.cells, h.head, h.input⟩
  | loopEnd => exact h.endLoop hstack
  | output => exact h.print.1.advance
  | input => exact h.receive.advance
  | nop => exact h.advance

/-- The output of agreeing machines grows by the same text. -/
theorem output_execute (h : m.Agrees m') (i : Instruction) :
    ∃ text, (m.execute i).output = m.output ++ text ∧
      (m'.execute i).output = m'.output ++ text := by
  by_cases hout : i = .output
  · subst i
    exact h.print.2
  · refine ⟨"", ?_, ?_⟩
    · rw [(m.output_execute hout).1, String.append_empty]
    · rw [(m'.output_execute hout).1, String.append_empty]

/-- With no limit on the output, which is the only place where its count matters, agreeing machines
raise the same faults. -/
theorem fault?_eq (h : m.Agrees m') (hstack : m'.loopStack = m.loopStack)
    (hunlimited : limits.output = none) (i : Instruction) :
    m'.fault? limits i = m.fault? limits i := by
  have hend : m'.tape.atEnd = m.tape.atEnd := by rw [Tape.atEnd, Tape.atEnd, h.head]
  cases i <;> simp only [fault?, hend, h.current, h.position, h.head, hstack, hunlimited]

theorem halts {status : Status} (h : m.Agrees m') (hstack : m'.loopStack = m.loopStack)
    (hunlimited : limits.output = none) (hhalts : program.Halts limits m status) :
    program.Halts limits m' status := by
  cases hhalts with
  | completed ended =>
      apply Program.Halts.completed
      rw [h.position, ended]
  | faulted here raised =>
      apply Program.Halts.faulted
      · rw [h.position, here]
      · rw [h.fault?_eq hstack hunlimited, raised]

theorem next? (h : m.Agrees m') (hstack : m'.loopStack = m.loopStack)
    (hunlimited : limits.output = none) (hnext : program.next? limits m = some k) :
    ∃ k' text, program.next? limits m' = some k' ∧ k.Agrees k' ∧
      k.output = m.output ++ text ∧ k'.output = m'.output ++ text := by
  obtain ⟨i, hget, hfault, rfl⟩ := Program.next?_eq_some_iff.mp hnext
  obtain ⟨text, houtput, houtput'⟩ := h.output_execute i
  have hget' : program.get? m'.position = some i := by rw [h.position, hget]
  have hfault' : m'.fault? limits i = none := by rw [h.fault?_eq hstack hunlimited, hfault]
  exact ⟨m'.execute i, text, Program.next?_of_get? hget' hfault', h.execute hstack i, houtput,
    houtput'⟩

end Agrees

theorem Follows.after? {n : Nat} (h : Follows program m)
    (hk : program.after? limits n m = some k) : Follows program k :=
  Program.after?_induction (fun _ _ hfollows hnext => hfollows.next? hnext) h hk

/-- Agreeing machines stay together, step by step, and print the same. -/
theorem Agrees.after? {d : Nat} (h : m.Agrees m') (hm : Follows program m)
    (hm' : Follows program m') (hunlimited : limits.output = none)
    (hk : program.after? limits d m = some k) :
    ∃ k' text, program.after? limits d m' = some k' ∧ k.Agrees k' ∧
      k.output = m.output ++ text ∧ k'.output = m'.output ++ text := by
  induction d generalizing k with
  | zero =>
      cases hk
      exact ⟨m', "", rfl, h, by simp, by simp⟩
  | succ d ih =>
      obtain ⟨mid, hmid, hnext⟩ := Program.after?_succ_eq_some_iff.mp hk
      obtain ⟨mid', front, hmid', hagrees, hfront, hfront'⟩ := ih hmid
      have hstack := (hm.after? hmid).loopStack_eq (hm'.after? hmid') hagrees.position
      obtain ⟨k', last, hnext', hagrees', hlast, hlast'⟩ :=
        hagrees.next? hstack hunlimited hnext
      refine ⟨k', front ++ last, ?_, hagrees', ?_, ?_⟩
      · exact Program.after?_succ_eq_some_iff.mpr ⟨mid', hmid', hnext'⟩
      · rw [hlast, hfront, String.append_assoc]
      · rw [hlast', hfront', String.append_assoc]

end Machine

namespace Sandbox

variable {σ τ : Type} [Clock σ] [Clock τ]

/-- The run ends, and from a machine that it stands at after some instructions it executes so many
more and appends the text to the output. -/
def EndsFrom (sandbox : Sandbox) (clock : σ) (n : Nat) (m : Machine) (more : Nat)
    (status : Status) (text : String) : Prop :=
  ∃ o clock', sandbox.Yields clock o clock' ∧ o.status = status ∧ o.output = m.output ++ text ∧
    ∃ last clock₁ checks, sandbox.Reaches clock (n + more) last clock₁ ∧
      sandbox.Cut clock (n + more) last status checks

section OneRun

variable {sandbox other : Sandbox} {clock clock' : σ} {m m' : Machine} {o : Outcome}
  {status : Status} {text : String} {n k d : Nat}

theorem after?_add (hm : sandbox.after? n = some m) (d : Nat) :
    sandbox.after? (n + d) = sandbox.program.after? sandbox.limits d m := by
  have hsteps : sandbox.program.after? sandbox.limits n sandbox.machine = some m := hm
  rw [after?, Program.after?_add, hsteps, Option.bind_some]

/-- A run that is never out of time ends exactly as the program does. -/
theorem endsFrom_iff (hbudget : ∀ j, sandbox.expiresAt clock j = false) :
    sandbox.EndsFrom clock n m d status text ↔
      ∃ last, sandbox.after? (n + d) = some last ∧
        sandbox.program.Halts sandbox.limits last status ∧ last.output = m.output ++ text := by
  constructor
  · rintro ⟨o, clock', hyields, -, houtput, last, clock₁, checks, hreach, hcut⟩
    have hlast := (reaches_iff.mp hreach).1
    have hhalts := hcut.halts_of_inTime (hbudget _)
    obtain ⟨j, m', hm', hends, -, hshown⟩ := hyields.exists_halts hbudget
    obtain ⟨-, rfl, -⟩ := hhalts.after?_unique hlast hends hm'
    exact ⟨last, hlast, hhalts, hshown.symm.trans houtput⟩
  · rintro ⟨last, hlast, hhalts, houtput⟩
    obtain ⟨o, clock', hyields, hstatus, -, hshown⟩ :=
      exists_yields_of_halts hlast (fun j _ => hbudget j) hhalts
    obtain ⟨checks, hcut⟩ := exists_cut_of_halts (hbudget (n + d)) hhalts
    exact ⟨o, clock', hyields, hstatus, hshown.trans houtput, last, _, checks,
      reaches_iff.mpr ⟨hlast, fun j _ => hbudget j, rfl⟩, hcut⟩

/-- If the program never ends, only the budget can end a run of it. -/
theorem SameTask.timedOut (h : SameTask sandbox other)
    (hendless : ∀ j status, ¬ sandbox.EndsAfter j status)
    (hyields : other.Yields clock o clock') : o.status = .timedOut := by
  obtain ⟨n, m, clock₁, checks, hreach, hcut, -⟩ := hyields.exists_reaches
  apply Classical.byContradiction
  intro hstatus
  have hm : sandbox.after? n = some m := by
    rw [← h.after?_eq]
    exact (reaches_iff.mp hreach).1
  exact hendless n o.status ⟨m, hm, h.halts (Run.Cut.halts hcut hstatus)⟩

end OneRun

section TwoRuns

variable {first second : Sandbox} {clock₁ : σ} {clock₂ : τ} {n₁ n₂ d : Nat}
  {m₁ m₂ k₁ : Machine} {status : Status} {text : String}
  (hprogram : second.program = first.program) (hlimits : second.limits = first.limits)

theorem agrees_of_shown (hm₁ : first.after? n₁ = some m₁) (hm₂ : second.after? n₂ = some m₂)
    (hshown : m₂.shown = m₁.shown) : m₁.Agrees m₂ := by
  obtain ⟨hposition, hvisible, hhead, hinput⟩ := by
    simpa only [Machine.shown, ← Tape.visible_eq_take, Prod.mk.injEq] using hshown
  have htidy₁ := (coherent_of_after? hm₁).tidy
  have htidy₂ := (coherent_of_after? hm₂).tidy
  exact ⟨hposition, htidy₁.cells_eq_of_visible htidy₂ hvisible, hhead, hinput⟩

include hprogram

theorem loopStack_eq_of_agrees (hm₁ : first.after? n₁ = some m₁)
    (hm₂ : second.after? n₂ = some m₂) (h : m₁.Agrees m₂) : m₂.loopStack = m₁.loopStack := by
  have hfollows := follows_of_after? hm₂
  rw [hprogram] at hfollows
  exact (follows_of_after? hm₁).loopStack_eq hfollows h.position

variable (hunlimited : first.limits.output = none)

include hlimits hunlimited

/-- Runs that have come to agreeing machines go on together and print the same. -/
theorem after?_of_agrees (hm₁ : first.after? n₁ = some m₁) (hm₂ : second.after? n₂ = some m₂)
    (h : m₁.Agrees m₂) (hk : first.after? (n₁ + d) = some k₁) :
    ∃ k₂ text, second.after? (n₂ + d) = some k₂ ∧ k₁.Agrees k₂ ∧
      k₁.output = m₁.output ++ text ∧ k₂.output = m₂.output ++ text := by
  have hfollows := follows_of_after? hm₂
  rw [hprogram] at hfollows
  rw [after?_add hm₁] at hk
  rw [after?_add hm₂, hprogram, hlimits]
  exact h.after? (follows_of_after? hm₁) hfollows hunlimited hk

theorem EndsFrom.of_agrees (hbudget₁ : ∀ j, first.expiresAt clock₁ j = false)
    (hbudget₂ : ∀ j, second.expiresAt clock₂ j = false) (hm₁ : first.after? n₁ = some m₁)
    (hm₂ : second.after? n₂ = some m₂) (h : m₁.Agrees m₂)
    (hends : first.EndsFrom clock₁ n₁ m₁ d status text) :
    second.EndsFrom clock₂ n₂ m₂ d status text := by
  obtain ⟨last, hlast, hhalts, houtput⟩ := (endsFrom_iff hbudget₁).mp hends
  obtain ⟨last', text', hlast', hagrees, hshown, hshown'⟩ :=
    after?_of_agrees hprogram hlimits hunlimited hm₁ hm₂ h hlast
  obtain rfl : text = text' :=
    (String.append_right_inj m₁.output).mp (houtput.symm.trans hshown)
  have hstack := loopStack_eq_of_agrees hprogram hlast hlast' hagrees
  have hhalts' := hagrees.halts hstack hunlimited hhalts
  rw [← hprogram, ← hlimits] at hhalts'
  exact (endsFrom_iff hbudget₂).mpr ⟨last', hlast', hhalts', hshown'⟩

end TwoRuns

/-- A program that comes back to a state never ends: whatever steps lead from there to an end would
lead there from the later machine too, and so past the end. -/
theorem not_endsAfter_of_agrees {sandbox : Sandbox} {n k : Nat} {m m' : Machine}
    (hunlimited : sandbox.limits.output = none) (hm : sandbox.after? n = some m)
    (hm' : sandbox.after? k = some m') (hlt : n < k) (h : m.Agrees m') (j : Nat)
    (status : Status) : ¬ sandbox.EndsAfter j status := by
  rintro ⟨last, hlast, hhalts⟩
  have hle : n ≤ j := hhalts.le_of_after? hlast hm
  obtain ⟨d, rfl⟩ := Nat.exists_eq_add_of_le hle
  obtain ⟨later, -, hlater, -⟩ := after?_of_agrees rfl rfl hunlimited hm hm' h hlast
  have hpast : k + d ≤ n + d := hhalts.le_of_after? hlast hlater
  omega

variable {first second : Sandbox} {clock₁ : σ} {clock₂ : τ}

/-- What comes after a state depends on the position, the cells, the head and the remaining input
alone. Two runs of one program with one loop depth, no limit on the output and time without end,
each of which stands at some moment at such a state, have the same loop stack there, go on together
and print the same from there, and if one of them ends, the other one ends after as many further
instructions, in the same way and with the same fault. A run that stands at such a state at two
moments comes to no end of its own, so it is timed out whenever a clock and a budget end it. -/
theorem agreeing_machines_have_one_future (hprogram : second.program = first.program)
    (hlimits : second.limits = first.limits) (hunlimited : first.limits.output = none)
    (hbudget₁ : ∀ j, first.expiresAt clock₁ j = false)
    (hbudget₂ : ∀ j, second.expiresAt clock₂ j = false) :
    (∀ n₁ m₁ end₁ n₂ m₂ end₂, first.Reaches clock₁ n₁ m₁ end₁ →
      second.Reaches clock₂ n₂ m₂ end₂ → m₁.Agrees m₂ →
        m₂.loopStack = m₁.loopStack ∧
        (∀ d k₁ later₁, first.Reaches clock₁ (n₁ + d) k₁ later₁ →
          ∃ k₂ later₂ text, second.Reaches clock₂ (n₂ + d) k₂ later₂ ∧ k₁.Agrees k₂ ∧
            k₁.output = m₁.output ++ text ∧ k₂.output = m₂.output ++ text) ∧
        ∀ d status text, first.EndsFrom clock₁ n₁ m₁ d status text ↔
          second.EndsFrom clock₂ n₂ m₂ d status text) ∧
      ∀ n m clock k m' clock', first.Reaches clock₁ n m clock →
        first.Reaches clock₁ k m' clock' → n ≠ k → m.Agrees m' →
          (∀ j status, ¬ first.EndsAfter j status) ∧
          (∀ o clock', ¬ first.Yields clock₁ o clock') ∧
          ∀ (υ : Type) [Clock υ] (other : Sandbox) (clock : υ) o clock',
            SameTask first other → other.Yields clock o clock' → o.status = .timedOut := by
  constructor
  · intro n₁ m₁ end₁ n₂ m₂ end₂ hreach₁ hreach₂ hagrees
    have hm₁ := (reaches_iff.mp hreach₁).1
    have hm₂ := (reaches_iff.mp hreach₂).1
    have hunlimited₂ : second.limits.output = none := by rw [hlimits, hunlimited]
    refine ⟨loopStack_eq_of_agrees hprogram hm₁ hm₂ hagrees, ?_, ?_⟩
    · intro d k₁ later₁ hlater
      obtain ⟨k₂, text, hk₂, hrest⟩ := after?_of_agrees hprogram hlimits hunlimited hm₁ hm₂ hagrees
        (reaches_iff.mp hlater).1
      exact ⟨k₂, _, text, reaches_iff.mpr ⟨hk₂, fun j _ => hbudget₂ j, rfl⟩, hrest⟩
    · intro d status text
      constructor
      · exact .of_agrees hprogram hlimits hunlimited hbudget₁ hbudget₂ hm₁ hm₂ hagrees
      · exact .of_agrees hprogram.symm hlimits.symm hunlimited₂ hbudget₂ hbudget₁ hm₂ hm₁
          hagrees.symm
  · intro n m clock k m' clock' hreach hreach' hne hagrees
    have hm := (reaches_iff.mp hreach).1
    have hm' := (reaches_iff.mp hreach').1
    have hendless : ∀ j status, ¬ first.EndsAfter j status := by
      rcases Nat.lt_or_gt_of_ne hne with hlt | hgt
      · exact not_endsAfter_of_agrees hunlimited hm hm' hlt hagrees
      · exact not_endsAfter_of_agrees hunlimited hm' hm hgt hagrees.symm
    refine ⟨hendless, ?_, fun υ _ other clock o clock' htask hyields =>
      htask.timedOut hendless hyields⟩
    intro o clock' hyields
    obtain ⟨j, last, hlast, hhalts, -⟩ := hyields.exists_halts hbudget₁
    exact hendless j o.status ⟨last, hlast, hhalts⟩

/-- Two runs that count a different number down print the same afterwards, and a loop that prints
for ever is cut by any budget. -/
theorem agreeing_machines_have_one_future_after_counting_down :
    let fed (c : Char) := ofText ",[-]+."
      { timeout := .ofMilliseconds 1, startedAt := .zero, input := [c], debug := false }
    let looping (timeout : Nat) := ofText "+[.]"
      { timeout := .ofMilliseconds timeout, startedAt := .zero, input := [], debug := false }
    let clock := SteppingClock.new .zero
    (∃ m₁ end₁ m₂ end₂, (fed '\x02').Reaches clock 6 m₁ end₁ ∧
      (fed '\x03').Reaches clock 8 m₂ end₂ ∧ m₁.Agrees m₂ ∧ m₂.loopStack = m₁.loopStack ∧
      (fed '\x03').EndsFrom clock 8 m₂ 2 .completed "\x01") ∧
      (∀ o clock', ¬ (looping 1).Yields clock o clock') ∧
      ∃ o clock', (looping 9).Yields SteppingClock.perMillisecond o clock' ∧
        o.status = .timedOut := by
  intro fed looping clock
  have htimeout : 0 < (Duration.ofMilliseconds 1).nanoseconds := by decide
  have hfed : ∀ c j, (fed c).expiresAt clock j = false := fun _ => expiresAt_standing htimeout
  have hlooping : ∀ j, (looping 1).expiresAt clock j = false := expiresAt_standing htimeout
  constructor
  · have hfirst : ((fed '\x02').after? 6).map (fun m => (m.shown, m.output)) =
        some ((4, [0], Tape.blank.head, []), "") := by
      decide +kernel
    have hsecond : ((fed '\x03').after? 8).map Machine.shown =
        some (4, [0], Tape.blank.head, []) := by
      decide +kernel
    have hlast : ((fed '\x02').after? 8).map (fun m => (m.position, m.output)) =
        some (6, "\x01") := by
      decide +kernel
    obtain ⟨m₁, hm₁, hpair⟩ := Option.map_eq_some_iff.mp hfirst
    obtain ⟨hshown, houtput⟩ := Prod.mk.inj hpair
    obtain ⟨m₂, hm₂, hshown₂⟩ := Option.map_eq_some_iff.mp hsecond
    obtain ⟨last, hend, hlastPair⟩ := Option.map_eq_some_iff.mp hlast
    obtain ⟨hposition, hprinted⟩ := Prod.mk.inj hlastPair
    have hagrees := agrees_of_shown hm₁ hm₂ (hshown₂.trans hshown.symm)
    have hreach₁ : (fed '\x02').Reaches clock 6 m₁ _ :=
      reaches_iff.mpr ⟨hm₁, fun j _ => hfed _ j, rfl⟩
    have hreach₂ : (fed '\x03').Reaches clock 8 m₂ _ :=
      reaches_iff.mpr ⟨hm₂, fun j _ => hfed _ j, rfl⟩
    have hprogram : (fed '\x03').program = (fed '\x02').program := rfl
    obtain ⟨hfuture, -⟩ :=
      agreeing_machines_have_one_future hprogram rfl rfl (hfed '\x02') (hfed '\x03')
    obtain ⟨hstack, -, hends⟩ := hfuture 6 m₁ _ 8 m₂ _ hreach₁ hreach₂ hagrees
    have hhalts : (fed '\x02').program.Halts (fed '\x02').limits last .completed := by
      apply Program.Halts.completed
      rw [hposition]
      rfl
    have hends₁ : (fed '\x02').EndsFrom clock 6 m₁ 2 .completed "\x01" :=
      (endsFrom_iff (hfed _)).mpr ⟨last, hend, hhalts, by rw [hprinted, houtput]; rfl⟩
    exact ⟨m₁, _, m₂, _, hreach₁, hreach₂, hagrees, hstack, (hends 2 _ _).mp hends₁⟩
  · have hentered : ((looping 1).after? 2).map Machine.shown =
        some (2, [1], Tape.blank.head, []) := by
      decide +kernel
    have hagain : ((looping 1).after? 4).map Machine.shown =
        some (2, [1], Tape.blank.head, []) := by
      decide +kernel
    obtain ⟨m, hm, hshown⟩ := Option.map_eq_some_iff.mp hentered
    obtain ⟨m', hm', hshown'⟩ := Option.map_eq_some_iff.mp hagain
    have hagrees := agrees_of_shown hm hm' (hshown'.trans hshown.symm)
    have hprogram : (looping 1).program = (looping 1).program := rfl
    obtain ⟨-, hcircle⟩ :=
      agreeing_machines_have_one_future hprogram rfl rfl hlooping hlooping
    obtain ⟨-, hnone, htimedOut⟩ := hcircle 2 m _ 4 m' _
      (reaches_iff.mpr ⟨hm, fun j _ => hlooping j, rfl⟩)
      (reaches_iff.mpr ⟨hm', fun j _ => hlooping j, rfl⟩) (by decide) hagrees
    have hsome : ((looping 9).run 10 SteppingClock.perMillisecond).isSome = true := by
      decide +kernel
    obtain ⟨⟨o, clock'⟩, hrun⟩ := Option.isSome_iff_exists.mp hsome
    have hyields : (looping 9).Yields SteppingClock.perMillisecond o clock' := ⟨10, hrun⟩
    exact ⟨hnone, o, clock', hyields, htimedOut _ (looping 9) _ o clock' ⟨rfl, rfl, rfl⟩ hyields⟩

end Sandbox

end TapeMachine
