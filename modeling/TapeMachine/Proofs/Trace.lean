import TapeMachine.Proofs.Coherence

/-!
The instructions that a run goes through. Every instruction comes from the position of the machine
that stands before it, so the steps of a machine give a list of instructions, one for each step. A
run is accounted for by this list: what it has printed is as long as the list has outputs, and each
character of it was under the head at one of them.
-/

namespace TapeMachine

namespace Program

/-- The instruction that a machine comes to after a number of steps. -/
def upcoming? (program : Program) (limits : Limits) (m : Machine) (n : Nat) : Option Instruction :=
  (program.after? limits n m).bind fun mid => program.get? mid.position

/-- The instructions that a machine comes to within a number of steps, in order. -/
def trace (program : Program) (limits : Limits) (m : Machine) (n : Nat) : List Instruction :=
  (List.range n).filterMap (program.upcoming? limits m)

variable {program : Program} {limits : Limits} {m mid m' : Machine} {i : Instruction} {n : Nat}

theorem upcoming?_of_after? (hmid : program.after? limits n m = some mid) :
    program.upcoming? limits m n = program.get? mid.position := by
  simp [upcoming?, hmid]

theorem trace_succ (hmid : program.after? limits n m = some mid)
    (hget : program.get? mid.position = some i) :
    program.trace limits m (n + 1) = program.trace limits m n ++ [i] := by
  have hlast : program.upcoming? limits m n = some i := (upcoming?_of_after? hmid).trans hget
  simp [trace, List.range_succ, hlast]

end Program

namespace Sandbox

variable {σ : Type} [Clock σ] {sandbox : Sandbox} {clock clock' : σ} {m : Machine} {o : Outcome}
  {i : Instruction} {n : Nat}

/-- The instructions that the program comes to within a number of steps when no budget stops it. -/
def trace (sandbox : Sandbox) (n : Nat) : List Instruction :=
  sandbox.program.trace sandbox.limits sandbox.machine n

theorem trace_succ (hm : sandbox.after? n = some m)
    (hget : sandbox.program.get? m.position = some i) :
    sandbox.trace (n + 1) = sandbox.trace n ++ [i] :=
  Program.trace_succ hm hget

/-- After some steps the output has a character for every instruction among them that prints. -/
theorem length_output_of_after? (h : sandbox.after? n = some m) :
    m.output.length = (sandbox.trace n).count .output := by
  induction n generalizing m with
  | zero =>
      cases h
      rfl
  | succ n ih =>
      obtain ⟨mid, hmid, hnext⟩ := Program.after?_succ_eq_some_iff.mp h
      obtain ⟨i, hget, hfault, rfl⟩ := Program.next?_eq_some_iff.mp hnext
      rw [trace_succ hmid hget, List.count_append, ← ih hmid]
      by_cases hout : i = .output
      · subst i
        obtain ⟨c, -, houtput, -⟩ := Machine.output_execute_output hfault
        rw [houtput, String.length_push]
        rfl
      · rw [(mid.output_execute hout).1, List.count_singleton, if_neg (by simpa using hout)]
        rfl

/-- The output has the characters that were under the head when an instruction printed. -/
theorem mem_output_iff {c : Char} (h : sandbox.after? n = some m) :
    c ∈ m.output.toList ↔
      ∃ j < n, ∃ mid, sandbox.after? j = some mid ∧
        sandbox.program.get? mid.position = some .output ∧
        charOfCell? mid.tape.current = some c := by
  induction n generalizing m with
  | zero =>
      cases h
      simp [machine, Machine.start]
  | succ n ih =>
      obtain ⟨mid, hmid, hnext⟩ := Program.after?_succ_eq_some_iff.mp h
      obtain ⟨i, hget, hfault, rfl⟩ := Program.next?_eq_some_iff.mp hnext
      have hearlier := ih hmid
      -- What the last step adds is a character exactly if its instruction prints.
      have hlast : c ∈ (mid.execute i).output.toList ↔ c ∈ mid.output.toList ∨
          (i = .output ∧ charOfCell? mid.tape.current = some c) := by
        by_cases hout : i = .output
        · subst i
          obtain ⟨d, hchar, houtput, -⟩ := Machine.output_execute_output hfault
          simp [houtput, hchar, eq_comm]
        · simp [(mid.output_execute hout).1, hout]
      rw [hlast, hearlier]
      constructor
      · rintro (⟨j, hj, hprints⟩ | ⟨rfl, hchar⟩)
        · exact ⟨j, Nat.lt_succ_of_lt hj, hprints⟩
        · exact ⟨n, Nat.lt_succ_self n, mid, hmid, hget, hchar⟩
      · rintro ⟨j, hj, m', hm', hget', hchar⟩
        rcases Nat.lt_succ_iff_lt_or_eq.mp hj with hlt | rfl
        · exact .inl ⟨j, hlt, m', hm', hget', hchar⟩
        · obtain rfl : mid = m' := Option.some.inj (hmid.symm.trans hm')
          exact .inr ⟨Option.some.inj (hget.symm.trans hget'), hchar⟩

/-- At some point of its course the run prints a character: it stands before an output with the
character under the head, and goes on from there. -/
def Prints (sandbox : Sandbox) (clock : σ) (c : Char) : Prop :=
  ∃ n m m' clock₁ clock₂, sandbox.Reaches clock n m clock₁ ∧
    sandbox.Reaches clock (n + 1) m' clock₂ ∧
    sandbox.program.get? m.position = some .output ∧ charOfCell? m.tape.current = some c

/-- A run that ends does not go on from where it ended. -/
theorem Yields.exists_last (h : sandbox.Yields clock o clock') :
    ∃ n m clock₁, sandbox.Reaches clock n m clock₁ ∧ o.output = m.output ∧
      ∀ k m' clock₂, sandbox.Reaches clock k m' clock₂ → k ≤ n := by
  obtain ⟨n, m, clock₁, checks, hreach, hcut, -, houtput, -⟩ := h.exists_reaches
  exact ⟨n, m, clock₁, hreach, houtput, fun k m' clock₂ hk =>
    hcut.le_of_reaches (reaches_iff.mp hreach).1 hk⟩

theorem Yields.mem_output_iff {c : Char} (h : sandbox.Yields clock o clock') :
    c ∈ o.output.toList ↔ sandbox.Prints clock c := by
  obtain ⟨n, m, clock₁, hreach, houtput, hlast⟩ := h.exists_last
  obtain ⟨hsteps, hbudget, -⟩ := reaches_iff.mp hreach
  rw [houtput, Sandbox.mem_output_iff hsteps]
  constructor
  · rintro ⟨j, hj, mid, hmid, hget, hchar⟩
    obtain ⟨next, hnext⟩ := Program.after?_of_le (Nat.succ_le_of_lt hj) hsteps
    exact ⟨j, mid, next, _, _,
      reaches_iff.mpr ⟨hmid, fun k hk => hbudget k (Nat.lt_trans hk hj), rfl⟩,
      reaches_iff.mpr ⟨hnext, fun k hk => hbudget k (Nat.lt_of_lt_of_le hk hj), rfl⟩,
      hget, hchar⟩
  · rintro ⟨j, mid, next, _, _, hmid, hnext, hget, hchar⟩
    exact ⟨j, hlast (j + 1) next _ hnext, mid, (reaches_iff.mp hmid).1, hget, hchar⟩

end Sandbox

end TapeMachine
