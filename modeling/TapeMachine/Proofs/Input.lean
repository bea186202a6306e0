import TapeMachine.Proofs.Trace

/-!
What a run reads. A program takes the characters that were pushed one by one and in order, however
they were divided among the pushes, and once there are none left an input instruction only moves
on. So after a number of input instructions the queue is what was pushed without as many characters
at its front, and a run takes no notice of the characters that it does not come to: with any others
in their place, or with none, it goes through the same machines but for the queue and has the same
outcome.
-/

namespace TapeMachine

namespace Machine

variable {limits : Limits} {m : Machine} {i : Instruction} {c : Char} {rest queue : List Char}

/-- A machine with other characters left to read. -/
def withInput (m : Machine) (queue : List Char) : Machine :=
  { m with input := queue }

@[simp] theorem input_endLoop (m : Machine) : m.endLoop.input = m.input := by
  unfold endLoop
  split
  · rfl
  · split <;> rfl

@[simp] theorem input_print (m : Machine) : m.print.input = m.input := by
  unfold print
  split <;> rfl

/-- No instruction faults for want of input. -/
@[simp] theorem fault?_withInput (limits : Limits) (m : Machine) (queue : List Char)
    (i : Instruction) : (m.withInput queue).fault? limits i = m.fault? limits i := by
  cases i <;> rfl

theorem endLoop_withInput (m : Machine) (queue : List Char) :
    (m.withInput queue).endLoop = m.endLoop.withInput queue := by
  cases hback : m.loopStack.back? with
  | none => simp [endLoop, withInput, hback, advance]
  | some start =>
      by_cases hzero : m.tape.current = 0
      · simp [endLoop, withInput, hback, hzero, advance]
      · simp [endLoop, withInput, hback, hzero]

theorem execute_withInput (m : Machine) (queue : List Char) (h : i ≠ .input) :
    (m.withInput queue).execute i = (m.execute i).withInput queue := by
  cases i with
  | input => contradiction
  | loopEnd => exact m.endLoop_withInput queue
  | output =>
      simp only [execute, print, withInput]
      split <;> rfl
  | _ => rfl

/-- Only one instruction reads. -/
theorem input_execute (m : Machine) (h : i ≠ .input) : (m.execute i).input = m.input := by
  cases i <;> simp_all [execute, advance, write]

theorem execute_input_of_nil (h : m.input = []) :
    m.execute .input = { m with position := m.position + 1 } := by
  simp [execute, receive, h, advance]

theorem execute_input_of_cons (h : m.input = c :: rest) :
    m.execute .input =
      { m with
        position := m.position + 1
        tape := m.tape.write c.toNat
        input := rest } := by
  simp [execute, receive, h, advance]

theorem input_execute_input (m : Machine) : (m.execute .input).input = m.input.tail := by
  cases h : m.input with
  | nil => simp [execute_input_of_nil h, h]
  | cons c rest => simp [execute_input_of_cons h]

end Machine

namespace Sandbox

variable {σ : Type} [Clock σ] {sandbox : Sandbox} {clock clock' : σ} {m : Machine} {o : Outcome}
  {i : Instruction} {n bound : Nat} {queue : List Char} {c : Char}

def withInput (sandbox : Sandbox) (queue : List Char) : Sandbox :=
  { sandbox with session := { sandbox.session with input := queue } }

def pushInputs (sandbox : Sandbox) (texts : List String) : Sandbox :=
  texts.foldl pushInput sandbox

/-- How many of the first instructions that the program comes to read the input. -/
def inputsRead (sandbox : Sandbox) (n : Nat) : Nat :=
  (sandbox.trace n).count .input

/-- Only what the texts are together gets into a sandbox. -/
theorem pushInputs_eq (sandbox : Sandbox) (texts : List String) :
    sandbox.pushInputs texts =
      sandbox.withInput (sandbox.session.input ++ (String.join texts).toList) := by
  induction texts generalizing sandbox with
  | nil => simp [pushInputs, withInput]
  | cons text rest ih =>
      have hrest : sandbox.pushInputs (text :: rest) = (sandbox.pushInput text).pushInputs rest :=
        rfl
      rw [hrest, ih]
      simp [withInput, pushInput, Session.pushInput, String.toList_join]

theorem inputsRead_succ (hm : sandbox.after? n = some m)
    (hget : sandbox.program.get? m.position = some i) :
    sandbox.inputsRead (n + 1) = sandbox.inputsRead n + if i = .input then 1 else 0 := by
  rw [inputsRead, trace_succ hm hget, List.count_append, List.count_singleton, inputsRead]
  simp

/-- The queue loses a character from its front for every instruction that reads. -/
theorem input_of_after? (h : sandbox.after? n = some m) :
    m.input = sandbox.session.input.drop (sandbox.inputsRead n) := by
  induction n generalizing m with
  | zero =>
      cases h
      rfl
  | succ n ih =>
      obtain ⟨mid, hmid, hnext⟩ := Program.after?_succ_eq_some_iff.mp h
      obtain ⟨i, hget, -, rfl⟩ := Program.next?_eq_some_iff.mp hnext
      rw [inputsRead_succ hmid hget]
      by_cases hin : i = .input
      · subst i
        rw [if_pos rfl, mid.input_execute_input, ih hmid, List.tail_drop]
      · rw [if_neg hin, mid.input_execute hin, ih hmid, Nat.add_zero]

theorem step_input (h : sandbox.after? n = some m)
    (hc : sandbox.session.input[sandbox.inputsRead n]? = some c) :
    m.step sandbox.limits .input = .ok { m with
      position := m.position + 1
      tape := m.tape.write c.toNat
      input := sandbox.session.input.drop (sandbox.inputsRead n + 1) } := by
  obtain ⟨hlt, rfl⟩ := List.getElem?_eq_some_iff.mp hc
  have hinput := input_of_after? h
  rw [List.drop_eq_getElem_cons hlt] at hinput
  exact congrArg Except.ok (Machine.execute_input_of_cons hinput)

theorem step_input_of_length_le (h : sandbox.after? n = some m)
    (hle : sandbox.session.input.length ≤ sandbox.inputsRead n) :
    m.step sandbox.limits .input = .ok { m with position := m.position + 1 } := by
  have hinput := input_of_after? h
  rw [List.drop_eq_nil_of_le hle] at hinput
  exact congrArg Except.ok (Machine.execute_input_of_nil hinput)

private theorem exists_drop_eq_cons {k : Nat} (hk : k < queue.length) {queue' : List Char}
    (hfront : queue'.take (k + 1) = queue.take (k + 1)) :
    ∃ c, queue.drop k = c :: queue.drop (k + 1) ∧ queue'.drop k = c :: queue'.drop (k + 1) := by
  have hsame : queue'[k]? = queue[k]? := by
    rw [← List.getElem?_take_of_lt (Nat.lt_succ_self k), hfront,
      List.getElem?_take_of_lt (Nat.lt_succ_self k)]
  have hget : queue[k]? = some queue[k] := List.getElem?_eq_getElem hk
  rw [hget] at hsame
  obtain ⟨hk', hget'⟩ := List.getElem?_eq_some_iff.mp hsame
  refine ⟨queue[k], List.drop_eq_getElem_cons hk, ?_⟩
  rw [List.drop_eq_getElem_cons hk', hget']

/-- As long as a run reads only characters that another input has as well, the machines are those
of the run on the other input, but for the queue. -/
theorem after?_withInput (h : sandbox.after? n = some m)
    (hread : sandbox.inputsRead n ≤ sandbox.session.input.length)
    (hfront : queue.take (sandbox.inputsRead n) =
      sandbox.session.input.take (sandbox.inputsRead n)) :
    (sandbox.withInput queue).after? n =
      some (m.withInput (queue.drop (sandbox.inputsRead n))) := by
  induction n generalizing m with
  | zero =>
      cases h
      rfl
  | succ n ih =>
      obtain ⟨mid, hmid, hnext⟩ := Program.after?_succ_eq_some_iff.mp h
      obtain ⟨i, hget, hfault, rfl⟩ := Program.next?_eq_some_iff.mp hnext
      have hqueue := input_of_after? hmid
      have hsucc := inputsRead_succ hmid hget
      have hle : sandbox.inputsRead n ≤ sandbox.inputsRead (n + 1) := by omega
      have hfront' : queue.take (sandbox.inputsRead n) =
          sandbox.session.input.take (sandbox.inputsRead n) := by
        have hshorter := congrArg (List.take (sandbox.inputsRead n)) hfront
        simpa only [List.take_take, Nat.min_eq_left hle] using hshorter
      have hbefore := ih hmid (Nat.le_trans hle hread) hfront'
      refine Program.after?_succ_eq_some_iff.mpr ⟨_, hbefore, ?_⟩
      have hnext' : (sandbox.withInput queue).program.next? (sandbox.withInput queue).limits
          (mid.withInput (queue.drop (sandbox.inputsRead n))) =
            some ((mid.withInput (queue.drop (sandbox.inputsRead n))).execute i) :=
        Program.next?_of_get? hget ((Machine.fault?_withInput _ _ _ _).trans hfault)
      rw [hnext', hsucc]
      -- A read takes the same character from both queues: it is among those that are read.
      by_cases hin : i = .input
      · subst i
        rw [if_pos rfl] at hsucc ⊢
        rw [hsucc] at hread hfront
        obtain ⟨c, hhere, hthere⟩ := exists_drop_eq_cons hread hfront
        rw [Machine.execute_input_of_cons (hqueue.trans hhere),
          Machine.execute_input_of_cons (m := mid.withInput _) hthere]
        rfl
      · rw [if_neg hin, Nat.add_zero, Machine.execute_withInput _ _ hin]

/-- Characters that a run does not come to have no part in its outcome. -/
theorem run_withInput {status : Status} {checks : Nat} (hm : sandbox.after? n = some m)
    (hbudget : ∀ j < n, sandbox.expiresAt clock j = false)
    (hcut : sandbox.Cut clock n m status checks) (hlt : n < bound)
    (hread : sandbox.inputsRead n ≤ sandbox.session.input.length)
    (hfront : queue.take (sandbox.inputsRead n) =
      sandbox.session.input.take (sandbox.inputsRead n)) :
    (sandbox.withInput queue).run bound clock = sandbox.run bound clock := by
  have hcut' : (sandbox.withInput queue).Cut clock n
      (m.withInput (queue.drop (sandbox.inputsRead n))) status checks := by
    cases hcut with
    | completed here => exact .completed here
    | timedOut here expired => exact .timedOut here expired
    | faulted here inTime raised =>
        exact .faulted here inTime ((Machine.fault?_withInput _ _ _ _).trans raised)
  rw [run_of_cut hm hbudget hcut hlt,
    run_of_cut (after?_withInput hm hread hfront) hbudget hcut' hlt]
  rfl

/-- Input is taken in order and without loss, and only what is taken matters. In a run the input
instruction that comes after some others stores the character of the queue that stands behind as
many, and with none left it does nothing but move on; it never faults. How the text was divided
among the pushes makes no difference. A run that reads no more characters than there are has the
same outcome on every other text that begins with the characters that it reads. -/
theorem input_is_read_in_order (sandbox : Sandbox) (hfresh : sandbox.session.input = [])
    (texts : List String) (clock : σ) :
    let queue := (String.join texts).toList
    let fed := sandbox.pushInputs texts
    (∀ n m clock', fed.Reaches clock n m clock' →
      fed.program.get? m.position = some .input →
        (∀ c, queue[fed.inputsRead n]? = some c →
          m.step fed.limits .input = .ok { m with
            position := m.position + 1
            tape := m.tape.write c.toNat
            input := queue.drop (fed.inputsRead n + 1) }) ∧
        (queue.length ≤ fed.inputsRead n →
          m.step fed.limits .input = .ok { m with position := m.position + 1 })) ∧
    (∀ others, String.join others = String.join texts → ∀ bound,
      (sandbox.pushInputs others).run bound clock = fed.run bound clock) ∧
    ∀ bound o clock', fed.run bound clock = some (o, clock') →
      ∃ n m clock₁ checks, fed.Reaches clock n m clock₁ ∧ fed.Cut clock n m o.status checks ∧
        o.executed = min n greatestCount ∧
        (fed.inputsRead n ≤ queue.length → ∀ others,
          (String.join others).toList.take (fed.inputsRead n) =
              queue.take (fed.inputsRead n) →
            (sandbox.pushInputs others).run bound clock = some (o, clock')) := by
  intro queue fed
  have hpushed : ∀ others, sandbox.pushInputs others =
      sandbox.withInput (String.join others).toList := by
    intro others
    rw [pushInputs_eq, hfresh, List.nil_append]
  have hfed : fed = sandbox.withInput queue := hpushed texts
  have hqueue : fed.session.input = queue := by
    rw [hfed]
    rfl
  refine ⟨?_, ?_, ?_⟩
  · intro n m clock' hreach _
    have hm := (reaches_iff.mp hreach).1
    rw [← hqueue]
    exact ⟨fun _ hc => step_input hm hc, step_input_of_length_le hm⟩
  · intro others htexts bound
    rw [hpushed, hfed, htexts]
  · intro bound o clock' hrun
    obtain ⟨n, m, status, checks, hlt, hm, hbudget, hcut, rfl, rfl⟩ :=
      run_eq_some_iff_cut.mp hrun
    refine ⟨n, m, _, checks, reaches_iff.mpr ⟨hm, hbudget, rfl⟩, hcut, rfl, ?_⟩
    intro hread others hfront
    have hothers : sandbox.pushInputs others = fed.withInput (String.join others).toList := by
      rw [hpushed, hfed]
      rfl
    rw [← hqueue] at hread hfront
    rw [hothers, run_withInput hm hbudget hcut hlt hread hfront, hrun]

/-- Two pushes of three characters for a program that reads two: the third one may be another, and
the first two may come in one push. -/
theorem input_is_read_in_order_from_two_pushes :
    let sandbox := ofText ",>,."
      { timeout := .ofMilliseconds 10, startedAt := .zero, input := [], debug := false }
    let fed := sandbox.pushInputs ["x", "yz"]
    let clock := SteppingClock.perMillisecond
    sandbox.session.input = [] ∧
      (∃ m clock₁, fed.Reaches clock 2 m clock₁ ∧ fed.inputsRead 2 = 1 ∧
        m.step fed.limits .input = .ok { m with
          position := m.position + 1
          tape := m.tape.write 'y'.toNat
          input := ['z'] }) ∧
      ∃ o clock', fed.run 5 clock = some (o, clock') ∧ o.status = .completed ∧ o.output = "y" ∧
        fed.inputsRead 4 = 2 ∧ (sandbox.pushInputs ["xy!"]).run 5 clock = some (o, clock') := by
  intro sandbox fed clock
  obtain ⟨hsteps, -, hend⟩ :=
    input_is_read_in_order sandbox rfl ["x", "yz"] SteppingClock.perMillisecond
  have hmid : (fed.after? 2).map Machine.position = some 2 := by decide +kernel
  have hread : fed.inputsRead 2 = 1 := by decide +kernel
  have hall : fed.inputsRead 4 = 2 := by decide +kernel
  have hrun : (fed.run 5 clock).map
      (fun answer => (answer.1.status, answer.1.output, answer.1.executed)) =
        some (.completed, "y", 4) := by
    decide +kernel
  obtain ⟨m, hm, hposition⟩ := Option.map_eq_some_iff.mp hmid
  have hbudget : ∀ j < 2, fed.expiresAt clock j = false := by decide
  have hreach : fed.Reaches clock 2 m _ := reaches_iff.mpr ⟨hm, hbudget, rfl⟩
  have hget : fed.program.get? m.position = some .input := by
    rw [hposition]
    rfl
  have hstores := (hsteps 2 m _ hreach hget).1 'y' (by decide +kernel)
  obtain ⟨⟨o, clock'⟩, hanswer, htriple⟩ := Option.map_eq_some_iff.mp hrun
  obtain ⟨hstatus, houtput, hexecuted⟩ := by simpa only [Prod.mk.injEq] using htriple
  obtain ⟨n, last, clock₁, checks, -, -, hcount, hsame⟩ := hend 5 o clock' hanswer
  obtain rfl : n = 4 := by
    rw [hexecuted] at hcount
    simp only [greatestCount] at hcount
    omega
  refine ⟨rfl, ⟨m, _, hreach, hread, ?_⟩, o, clock', hanswer, hstatus, houtput, hall, ?_⟩
  · have hrest : (String.join ["x", "yz"]).toList.drop (fed.inputsRead 2 + 1) = ['z'] := by
      decide +kernel
    rw [hrest] at hstores
    exact hstores
  · exact hsame (by decide +kernel) ["xy!"] (by decide +kernel)

end Sandbox

end TapeMachine
