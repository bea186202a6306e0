import TapeMachine.Proofs.Cuts
import TapeMachine.Proofs.Trace

/-!
Comments do not change what a program does. Without its comments a program is shorter, so every
position in it has another number: how many signs stand before it. A machine with its position and
its loop stack renumbered in this way stands still while the program with comments executes one, and
makes the same step for every other instruction. Comments do cost time and are counted; but the text
has only so many, and going back to a loop start takes an instruction, so a program cannot be kept
from ending by them.
-/

namespace TapeMachine

/-- The eight characters that do something in a program. -/
def IsSign (c : Char) : Prop :=
  c ∈ ['+', '-', '>', '<', '[', ']', '.', ',']

instance (c : Char) : Decidable (IsSign c) :=
  inferInstanceAs (Decidable (_ ∈ _))

theorem isSign_iff {c : Char} : IsSign c ↔ Instruction.ofChar c ≠ .nop := by
  unfold Instruction.ofChar
  split <;> simp_all [IsSign]

/-- A program text without its comments. -/
def Text.withoutComments (source : String) : String :=
  String.ofList (source.toList.filter fun c => decide (IsSign c))

/-- How many signs there are among the first characters of a text. -/
def Text.signsBefore (source : String) (i : Nat) : Nat :=
  (source.toList.take i).countP fun c => decide (IsSign c)

namespace Program

variable {program : Program} {i : Instruction} {p : Nat}

def withoutComments (program : Program) : Program where
  instructions := program.instructions.filter fun i => decide (i ≠ .nop)

/-- How many instructions before a position are not comments. -/
def rank (program : Program) (p : Nat) : Nat :=
  (program.instructions.toList.take p).countP fun i => decide (i ≠ .nop)

theorem withoutComments_ofText (source : String) :
    (ofText source).withoutComments = ofText (Text.withoutComments source) := by
  simp [withoutComments, ofText, Text.withoutComments, List.filter_map, Function.comp_def,
    isSign_iff]

theorem rank_ofText (source : String) : (ofText source).rank = Text.signsBefore source := by
  funext p
  simp [rank, ofText, Text.signsBefore, ← List.map_take, List.countP_map, Function.comp_def,
    isSign_iff]

@[simp] theorem rank_zero (program : Program) : program.rank 0 = 0 := rfl

theorem rank_succ (hget : program.get? p = some i) :
    program.rank (p + 1) = program.rank p + if i = .nop then 0 else 1 := by
  have hlist : program.instructions.toList[p]? = some i := by
    simpa [get?] using hget
  rw [rank, List.take_add_one, hlist, List.countP_append]
  by_cases hnop : i = .nop <;> simp [rank, hnop]

/-- From the rank of a position on, the program without comments has what is left of the program
from this position on. -/
theorem drop_rank (program : Program) (p : Nat) :
    program.withoutComments.instructions.toList.drop (program.rank p) =
      (program.instructions.toList.drop p).filter fun i => decide (i ≠ .nop) := by
  have hsplit : program.withoutComments.instructions.toList =
      (program.instructions.toList.take p).filter (fun i => decide (i ≠ .nop)) ++
        (program.instructions.toList.drop p).filter fun i => decide (i ≠ .nop) := by
    rw [← List.filter_append, List.take_append_drop, withoutComments, Array.toList_filter]
  rw [hsplit, rank, List.countP_eq_length_filter, List.drop_left]

theorem get?_eq_head? (program : Program) (p : Nat) :
    program.get? p = (program.instructions.toList.drop p).head? := by
  simp [get?]

theorem get?_withoutComments (hget : program.get? p = some i) (hi : i ≠ .nop) :
    program.withoutComments.get? (program.rank p) = some i := by
  rw [get?_eq_head?] at hget
  obtain ⟨rest, hrest⟩ := List.head?_eq_some_iff.mp hget
  rw [get?_eq_head?, drop_rank, hrest, List.filter_cons_of_pos (by simpa using hi)]
  rfl

theorem get?_withoutComments_of_end (hget : program.get? p = none) :
    program.withoutComments.get? (program.rank p) = none := by
  rw [get?_eq_head?, List.head?_eq_none_iff] at hget
  rw [get?_eq_head?, drop_rank, hget]
  rfl

end Program

/-- A fault with its position renumbered. -/
def Fault.relocate (f : Nat → Nat) : Fault → Fault
  | unmatchedLoopEnd position => unmatchedLoopEnd (f position)
  | loopTooDeep position maxDepth => loopTooDeep (f position) maxDepth
  | tapeExhausted position last => tapeExhausted (f position) last
  | cellOverflow position cell => cellOverflow (f position) cell
  | notACharacter position value => notACharacter (f position) value
  | outputFull position limit => outputFull (f position) limit

def Status.relocate (f : Nat → Nat) : Status → Status
  | completed => completed
  | timedOut => timedOut
  | faulted fault => faulted (fault.relocate f)

namespace Machine

/-- A machine with the positions that it knows of renumbered. -/
def relocate (f : Nat → Nat) (m : Machine) : Machine :=
  { m with position := f m.position, loopStack := m.loopStack.map f }

variable {limits : Limits} {m : Machine} {i : Instruction} {f : Nat → Nat}

@[simp] theorem position_relocate (f : Nat → Nat) (m : Machine) :
    (m.relocate f).position = f m.position := rfl

@[simp] theorem loopStack_relocate (f : Nat → Nat) (m : Machine) :
    (m.relocate f).loopStack = m.loopStack.map f := rfl

@[simp] theorem tape_relocate (f : Nat → Nat) (m : Machine) : (m.relocate f).tape = m.tape := rfl

@[simp] theorem printed_relocate (f : Nat → Nat) (m : Machine) :
    (m.relocate f).printed = m.printed := rfl

/-- The numbers of the positions do not decide whether an instruction faults. -/
theorem fault?_relocate (f : Nat → Nat) (limits : Limits) (m : Machine) (i : Instruction) :
    (m.relocate f).fault? limits i = (m.fault? limits i).map (Fault.relocate f) := by
  cases i with
  | increment =>
      by_cases hroom : m.tape.current < Tape.greatestCell <;> simp [fault?, hroom, Fault.relocate]
  | decrement =>
      by_cases hroom : Tape.leastCell < m.tape.current <;> simp [fault?, hroom, Fault.relocate]
  | moveRight =>
      by_cases hend : m.tape.atEnd <;> simp [fault?, hend, Fault.relocate]
  | loopStart =>
      by_cases hroom : m.loopStack.size < limits.loopDepth <;> simp [fault?, hroom, Fault.relocate]
  | loopEnd =>
      by_cases hopen : m.loopStack = #[] <;> simp [fault?, hopen, Fault.relocate]
  | output =>
      cases hchar : charOfCell? m.tape.current with
      | none => simp [fault?, hchar, Fault.relocate]
      | some c =>
          cases hlimit : limits.output with
          | none => simp [fault?, hchar, hlimit]
          | some limit =>
              by_cases hroom : m.printed < limit <;>
                simp [fault?, hchar, hlimit, hroom, Fault.relocate]
  | moveLeft => rfl
  | input => rfl
  | nop => rfl

/-- An instruction does the same to a machine with other numbers, if the numbers go on by one where
the machine can go. -/
theorem relocate_execute (hhere : f (m.position + 1) = f m.position + 1)
    (hstarts : ∀ start ∈ m.loopStack, f (start + 1) = f start + 1) (i : Instruction) :
    (m.execute i).relocate f = (m.relocate f).execute i := by
  cases i with
  | loopEnd =>
      cases hback : m.loopStack.back? with
      | none => simp [execute, endLoop, relocate, hback, advance, hhere]
      | some start =>
          have hstart := hstarts start (Array.mem_of_back? hback)
          by_cases hzero : m.tape.current = 0
          · simp [execute, endLoop, relocate, hback, hzero, advance, hhere]
          · simp [execute, endLoop, relocate, hback, hzero, hstart]
  | output =>
      simp only [execute, print, relocate]
      split <;> simp [advance, hhere]
  | input =>
      simp only [execute, receive, relocate]
      split <;> simp [advance, hhere]
  | _ => simp [execute, relocate, advance, write, hhere]

theorem relocate_execute_nop (hhere : f (m.position + 1) = f m.position) :
    (m.execute .nop).relocate f = m.relocate f := by
  simp [execute, advance, relocate, hhere]

/-- The starts on a loop stack are signs, so a machine that follows its program can go only where
the ranks go on by one. -/
theorem Follows.relocate_execute {program : Program} (h : m.Follows program)
    (hget : program.get? m.position = some i) (hi : i ≠ .nop) :
    (m.execute i).relocate program.rank = (m.relocate program.rank).execute i := by
  apply Machine.relocate_execute
  · rw [Program.rank_succ hget, if_neg hi]
  · intro start hstart
    rw [← Array.mem_toList_iff, h.stack] at hstart
    obtain ⟨-, hloop⟩ := Program.mem_openBefore hstart
    rw [Program.rank_succ hloop, if_neg (by simp)]

end Machine

namespace Sandbox

variable {σ τ : Type} [Clock σ] [Clock τ] {sandbox : Sandbox} {m : Machine} {i : Instruction}
  {status : Status} {n k : Nat}

def withoutComments (sandbox : Sandbox) : Sandbox :=
  { sandbox with program := sandbox.program.withoutComments }

/-- How many of the first instructions that the program comes to are not comments. -/
def signsExecuted (sandbox : Sandbox) (n : Nat) : Nat :=
  (sandbox.trace n).countP fun i => decide (i ≠ .nop)

theorem signsExecuted_succ (hm : sandbox.after? n = some m)
    (hget : sandbox.program.get? m.position = some i) :
    sandbox.signsExecuted (n + 1) = sandbox.signsExecuted n + if i = .nop then 0 else 1 := by
  rw [signsExecuted, trace_succ hm hget, List.countP_append]
  by_cases hnop : i = .nop <;> simp [signsExecuted, hnop]

theorem machine_withoutComments (sandbox : Sandbox) :
    sandbox.withoutComments.machine = sandbox.machine.relocate sandbox.program.rank := by
  simp [machine, Machine.start, Machine.relocate, withoutComments]

/-- Without the comments, as many steps lead to the machine with the new numbers as the program with
comments makes for other instructions. -/
theorem after?_withoutComments (h : sandbox.after? n = some m) :
    sandbox.withoutComments.after? (sandbox.signsExecuted n) =
      some (m.relocate sandbox.program.rank) := by
  induction n generalizing m with
  | zero =>
      cases h
      exact congrArg some sandbox.machine_withoutComments
  | succ n ih =>
      obtain ⟨mid, hmid, hnext⟩ := Program.after?_succ_eq_some_iff.mp h
      obtain ⟨i, hget, hfault, rfl⟩ := Program.next?_eq_some_iff.mp hnext
      have hbefore := ih hmid
      rw [signsExecuted_succ hmid hget]
      by_cases hnop : i = .nop
      · subst i
        have hrank := Program.rank_succ hget
        rw [if_pos rfl] at hrank ⊢
        rw [Machine.relocate_execute_nop hrank]
        exact hbefore
      · rw [if_neg hnop, (follows_of_after? hmid).relocate_execute hget hnop]
        have hfault' : (mid.relocate sandbox.program.rank).fault? sandbox.limits i = none := by
          rw [Machine.fault?_relocate, hfault]
          rfl
        exact Program.after?_succ_eq_some_iff.mpr ⟨_, hbefore,
          Program.next?_of_get? (Program.get?_withoutComments hget hnop) hfault'⟩

theorem halts_withoutComments (h : sandbox.program.Halts sandbox.limits m status) :
    sandbox.withoutComments.program.Halts sandbox.limits (m.relocate sandbox.program.rank)
      (status.relocate sandbox.program.rank) := by
  cases h with
  | completed ended => exact .completed (Program.get?_withoutComments_of_end ended)
  | @faulted i fault here raised =>
      have hnop : i ≠ .nop := by
        rintro rfl
        simp [Machine.fault?] at raised
      apply Program.Halts.faulted (Program.get?_withoutComments here hnop)
      rw [Machine.fault?_relocate, raised]
      rfl

/-- Between two other instructions there are at most as many comments as the text has room for. -/
theorem le_signsExecuted_mul (h : sandbox.after? n = some m) :
    n ≤ sandbox.signsExecuted n * (sandbox.program.size + 1) + m.position := by
  induction n generalizing m with
  | zero => exact Nat.zero_le _
  | succ n ih =>
      obtain ⟨mid, hmid, hnext⟩ := Program.after?_succ_eq_some_iff.mp h
      obtain ⟨i, hget, hfault, rfl⟩ := Program.next?_eq_some_iff.mp hnext
      have hbefore := ih hmid
      have hlt := Program.lt_size_of_get? hget
      have hsucc := signsExecuted_succ hmid hget
      by_cases hnop : i = .nop
      · subst i
        rw [if_pos rfl] at hsucc
        rw [hsucc, mid.position_execute (by simp)]
        exact Nat.succ_le_succ hbefore
      · rw [if_neg hnop] at hsucc
        rw [hsucc, Nat.succ_mul]
        omega

/-- Comments cannot keep a program from ending that ends without them. -/
theorem exists_halts_of_withoutComments (hm : sandbox.withoutComments.after? k = some m)
    (hhalts : sandbox.withoutComments.program.Halts sandbox.limits m status) :
    ∃ n m' status', sandbox.after? n = some m' ∧
      sandbox.program.Halts sandbox.limits m' status' := by
  let far := (k + 1) * (sandbox.program.size + 1)
  rcases sandbox.program.after?_or_halts sandbox.limits sandbox.machine (far + 1) with
    ⟨m', hm'⟩ | ⟨j, -, m', status', hm', hend⟩
  · -- That many steps lead the program without comments past its end.
    obtain ⟨mid, hmid, hnext⟩ := Program.after?_succ_eq_some_iff.mp hm'
    obtain ⟨i, hget, -, -⟩ := Program.next?_eq_some_iff.mp hnext
    have hfar := le_signsExecuted_mul hmid
    have hlt := Program.lt_size_of_get? hget
    have hle : sandbox.signsExecuted far ≤ k :=
      hhalts.le_of_after? hm (after?_withoutComments hmid)
    have hmul := Nat.mul_le_mul_right (sandbox.program.size + 1) hle
    have hfew : far = k * (sandbox.program.size + 1) + (sandbox.program.size + 1) :=
      Nat.succ_mul _ _
    omega
  · exact ⟨j, m', status', hm', hend⟩

section

variable {first second : Sandbox} {clock₁ end₁ : σ} {clock₂ end₂ : τ} {o₁ o₂ : Outcome}

/-- Where the program with comments ends, the other one ends after as many steps as the first one
made for signs. -/
theorem SameTask.halts_withoutComments (h : SameTask first.withoutComments second)
    (hm : first.after? n = some m) (hhalts : first.program.Halts first.limits m status) :
    second.after? (first.signsExecuted n) = some (m.relocate first.program.rank) ∧
      second.program.Halts second.limits (m.relocate first.program.rank)
        (status.relocate first.program.rank) := by
  have hhalts' := Sandbox.halts_withoutComments hhalts
  have hlimits : second.limits = first.limits := h.limits
  rw [← h.program, ← hlimits] at hhalts'
  exact ⟨(h.after?_eq _).trans (after?_withoutComments hm), hhalts'⟩

theorem SameTask.yields_iff_withoutComments (h : SameTask first.withoutComments second)
    (hbudget₁ : ∀ j, first.expiresAt clock₁ j = false)
    (hbudget₂ : ∀ j, second.expiresAt clock₂ j = false) :
    (∃ o₁ end₁, first.Yields clock₁ o₁ end₁) ↔ ∃ o₂ end₂, second.Yields clock₂ o₂ end₂ := by
  constructor
  · rintro ⟨o₁, end₁, hyields⟩
    obtain ⟨n, m, hm, hhalts, -, -⟩ := hyields.exists_halts hbudget₁
    obtain ⟨hm₂, hhalts₂⟩ := h.halts_withoutComments hm hhalts
    obtain ⟨o₂, end₂, hyields₂, -⟩ := exists_yields_of_halts hm₂ (fun j _ => hbudget₂ j) hhalts₂
    exact ⟨o₂, end₂, hyields₂⟩
  · rintro ⟨o₂, end₂, hyields⟩
    obtain ⟨k, m, hm, hhalts, -, -⟩ := hyields.exists_halts hbudget₂
    rw [h.after?_eq] at hm
    obtain ⟨n, m', status, hm', hhalts'⟩ := exists_halts_of_withoutComments hm (h.halts hhalts)
    obtain ⟨o₁, end₁, hyields₁, -⟩ := exists_yields_of_halts hm' (fun j _ => hbudget₁ j) hhalts'
    exact ⟨o₁, end₁, hyields₁⟩

/-- Two runs that end by themselves, one of a program with comments and one without them, end with
the same machine but for the numbers of the positions. -/
theorem SameTask.outcome_withoutComments (h : SameTask first.withoutComments second)
    (hbudget₁ : ∀ j, first.expiresAt clock₁ j = false)
    (hbudget₂ : ∀ j, second.expiresAt clock₂ j = false)
    (hyields₁ : first.Yields clock₁ o₁ end₁) (hyields₂ : second.Yields clock₂ o₂ end₂) :
    o₂.status = o₁.status.relocate first.program.rank ∧ o₁.status ≠ .timedOut ∧
      o₂.tape = o₁.tape ∧ o₂.output = o₁.output ∧
      ∃ n m clock checks, first.Reaches clock₁ n m clock ∧
        first.Cut clock₁ n m o₁.status checks ∧ o₁.executed = min n greatestCount ∧
        o₂.executed = min (first.signsExecuted n) greatestCount := by
  obtain ⟨n, m, clock, checks, hreach, hcut, htape₁, houtput₁, hexecuted₁⟩ :=
    hyields₁.exists_reaches
  obtain ⟨k, m₂, _, checks₂, hreach₂, hcut₂, htape₂, houtput₂, hexecuted₂⟩ :=
    hyields₂.exists_reaches
  have hhalts₁ := hcut.halts_of_inTime (hbudget₁ n)
  have hhalts₂ := hcut₂.halts_of_inTime (hbudget₂ k)
  obtain ⟨hm, hhalts⟩ := h.halts_withoutComments (reaches_iff.mp hreach).1 hhalts₁
  obtain ⟨rfl, rfl, hstatus⟩ := hhalts.after?_unique hm hhalts₂ (reaches_iff.mp hreach₂).1
  have hself : o₁.status ≠ .timedOut := by
    intro htimedOut
    rw [htimedOut] at hhalts₁
    cases hhalts₁
  exact ⟨hstatus.symm, hself, htape₂.trans htape₁.symm, houtput₂.trans houtput₁.symm, n, m, clock,
    checks, hreach, hcut, hexecuted₁, hexecuted₂⟩

end

/-- Comments change nothing but the count and the numbers of the positions. With budgets that are
not used up, a program and the same program without its comments end or go on together, and where
they end they leave the same tape and the same output; both get to the end of their text, or both
raise the same fault at the same sign. What the program without comments executes are the other
instructions that the program with comments comes to. -/
theorem comments_change_nothing (source : String) (limits : Limits) (session₁ session₂ : Session)
    (hinput : session₂.input = session₁.input) (clock₁ : σ) (clock₂ : τ) :
    let first : Sandbox := ⟨.ofText source, session₁, limits⟩
    let second : Sandbox := ⟨.ofText (Text.withoutComments source), session₂, limits⟩
    (∀ j, first.expiresAt clock₁ j = false) → (∀ j, second.expiresAt clock₂ j = false) →
      ((∃ o₁ end₁, first.Yields clock₁ o₁ end₁) ↔ ∃ o₂ end₂, second.Yields clock₂ o₂ end₂) ∧
      ∀ o₁ end₁ o₂ end₂, first.Yields clock₁ o₁ end₁ → second.Yields clock₂ o₂ end₂ →
        o₂.tape = o₁.tape ∧ o₂.output = o₁.output ∧
        (o₁.status = .completed ∧ o₂.status = .completed ∨
          ∃ fault, o₁.status = .faulted fault ∧
            o₂.status = .faulted (fault.relocate (Text.signsBefore source))) ∧
        ∃ n m clock' checks, first.Reaches clock₁ n m clock' ∧
          first.Cut clock₁ n m o₁.status checks ∧ o₁.executed = min n greatestCount ∧
          o₂.executed = min (first.signsExecuted n) greatestCount := by
  intro first second hbudget₁ hbudget₂
  have htask : SameTask first.withoutComments second :=
    ⟨(Program.withoutComments_ofText source).symm, rfl, hinput⟩
  refine ⟨htask.yields_iff_withoutComments hbudget₁ hbudget₂, ?_⟩
  intro o₁ end₁ o₂ end₂ hyields₁ hyields₂
  obtain ⟨hstatus, hself, htape, houtput, hcount⟩ :=
    htask.outcome_withoutComments hbudget₁ hbudget₂ hyields₁ hyields₂
  refine ⟨htape, houtput, ?_, hcount⟩
  have hrank : first.program.rank = Text.signsBefore source := Program.rank_ofText source
  rw [hstatus, hrank]
  cases hended : o₁.status with
  | completed => exact .inl ⟨rfl, rfl⟩
  | timedOut => exact absurd hended hself
  | faulted fault => exact .inr ⟨fault, rfl, rfl⟩

/-- A loop with a comment in it that goes round twice. The stray loop end behind it is the tenth
character of the text and the seventh sign. -/
theorem comments_change_nothing_in_loop :
    let source := "x++y[-z].]"
    let session : Session :=
      { timeout := .ofMilliseconds 10, startedAt := .zero, input := [], debug := false }
    let first : Sandbox := ⟨.ofText source, session, .default⟩
    let second : Sandbox := ⟨.ofText (Text.withoutComments source), session, .default⟩
    let clock := SteppingClock.new .zero
    (∀ j, first.expiresAt clock j = false) ∧ (∀ j, second.expiresAt clock j = false) ∧
      ∃ o₁ end₁ o₂ end₂, first.Yields clock o₁ end₁ ∧ second.Yields clock o₂ end₂ ∧
        o₁.status = .faulted (.unmatchedLoopEnd 9) ∧ o₁.executed = 12 ∧
        o₂.status = .faulted (.unmatchedLoopEnd 6) ∧ o₂.executed = 8 ∧
        o₂.tape = o₁.tape ∧ o₂.output = o₁.output := by
  intro source session first second clock
  have htimeout : 0 < session.timeout.nanoseconds := by decide
  have hbudget₁ : ∀ j, first.expiresAt clock j = false := expiresAt_standing htimeout
  have hbudget₂ : ∀ j, second.expiresAt clock j = false := expiresAt_standing htimeout
  have hrun₁ : (first.run 13 clock).map (fun answer => (answer.1.status, answer.1.executed)) =
      some (.faulted (.unmatchedLoopEnd 9), 12) := by
    decide +kernel
  have hrun₂ : (second.run 9 clock).map (fun answer => answer.1.executed) = some 8 := by
    decide +kernel
  obtain ⟨⟨o₁, end₁⟩, hanswer₁, hpair⟩ := Option.map_eq_some_iff.mp hrun₁
  obtain ⟨⟨o₂, end₂⟩, hanswer₂, hexecuted₂⟩ := Option.map_eq_some_iff.mp hrun₂
  obtain ⟨hstatus₁, hexecuted₁⟩ := Prod.mk.inj hpair
  have hyields₁ : first.Yields clock o₁ end₁ := ⟨13, hanswer₁⟩
  have hyields₂ : second.Yields clock o₂ end₂ := ⟨9, hanswer₂⟩
  obtain ⟨-, hsame⟩ :=
    comments_change_nothing source .default session session rfl clock clock hbudget₁ hbudget₂
  obtain ⟨htape, houtput, hstatus, -⟩ := hsame o₁ end₁ o₂ end₂ hyields₁ hyields₂
  have hplace : Text.signsBefore source 9 = 6 := by decide
  refine ⟨hbudget₁, hbudget₂, o₁, end₁, o₂, end₂, hyields₁, hyields₂, hstatus₁, hexecuted₁, ?_,
    hexecuted₂, htape, houtput⟩
  rcases hstatus with ⟨hcompleted, -⟩ | ⟨fault, hfault, hmoved⟩
  · rw [hcompleted] at hstatus₁
    cases hstatus₁
  · rw [hfault] at hstatus₁
    cases hstatus₁
    rw [hmoved, Fault.relocate, hplace]

end Sandbox

end TapeMachine
