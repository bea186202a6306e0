import TapeMachine.Proofs.Coherence

/-!
What a fault says. The rules below give, for each instruction, the states in which it faults and the
fault that it raises there; they speak of the state alone, not of the order in which a machine looks
at it. The fault that ends a run is the one that these rules give, and since a fault is found before
anything is changed, what a faulted run leaves behind is the work of the instructions before.
-/

namespace TapeMachine

/-- The values that stand for a character: all code points but the surrogates. -/
def IsCharacterCode (value : Int) : Prop :=
  0 ≤ value ∧ value < 0xD800 ∨ 0xDFFF < value ∧ value < 0x110000

theorem charOfCell?_eq_none_iff {value : Int} :
    charOfCell? value = none ↔ ¬ IsCharacterCode value := by
  cases value with
  | ofNat n =>
      have hvalid := Text.charOfCode?_isSome_iff (n := n)
      rw [charOfCell?, ← Option.not_isSome_iff_eq_none, hvalid]
      simp only [IsCharacterCode, Nat.isValidChar, Int.ofNat_eq_natCast]
      omega
  | negSucc n =>
      simp only [charOfCell?, IsCharacterCode, true_iff]
      omega

theorem isCharacterCode_iff {value : Int} :
    IsCharacterCode value ↔ ∃ c, charOfCell? value = some c := by
  constructor
  · intro hcode
    apply Option.ne_none_iff_exists'.mp
    intro hnone
    exact charOfCell?_eq_none_iff.mp hnone hcode
  · rintro ⟨c, hchar⟩
    apply Classical.byContradiction
    intro hcode
    rw [charOfCell?_eq_none_iff.mpr hcode] at hchar
    cases hchar

namespace Machine

/-- The fault that an instruction raises in a state. -/
inductive Raises (limits : Limits) (m : Machine) : Instruction → Fault → Prop where
  | unmatchedLoopEnd (noneOpen : m.loopStack.size = 0) :
      Raises limits m .loopEnd (.unmatchedLoopEnd m.position)
  | loopTooDeep (allOpen : m.loopStack.size = limits.loopDepth) :
      Raises limits m .loopStart (.loopTooDeep m.position limits.loopDepth)
  | tapeExhausted (last : m.tape.head.val = 29999) :
      Raises limits m .moveRight (.tapeExhausted m.position 29999)
  | overflow (greatest : m.tape.current = Tape.greatestCell) :
      Raises limits m .increment (.cellOverflow m.position m.tape.head.val)
  | underflow (least : m.tape.current = Tape.leastCell) :
      Raises limits m .decrement (.cellOverflow m.position m.tape.head.val)
  | notACharacter (noCode : ¬ IsCharacterCode m.tape.current) :
      Raises limits m .output (.notACharacter m.position m.tape.current)
  | outputFull {limit : Nat} (code : IsCharacterCode m.tape.current)
      (limited : limits.output = some limit) (full : m.output.length = limit) :
      Raises limits m .output (.outputFull m.position limit)

variable {limits : Limits} {m : Machine} {i : Instruction} {fault fault' : Fault}

/-- An instruction raises one fault at most. -/
theorem Raises.unique (h : m.Raises limits i fault) (h' : m.Raises limits i fault') :
    fault = fault' := by
  cases h with
  | notACharacter noCode =>
      cases h' with
      | notACharacter => rfl
      | outputFull code => exact absurd code noCode
  | outputFull code limited =>
      cases h' with
      | notACharacter noCode => exact absurd code noCode
      | outputFull _ limited' =>
          rw [limited] at limited'
          cases limited'
          rfl
  | _ =>
      cases h'
      rfl

theorem Raises.position_eq (h : m.Raises limits i fault) : fault.position = m.position := by
  cases h <;> rfl

/-- A coherent machine faults by the rules. That a stack or an output is full, and not more than
full, and that a cell is at the end of its range, and not past it, comes from the invariant. -/
theorem Coherent.raises (h : Coherent limits m) (hfault : m.fault? limits i = some fault) :
    m.Raises limits i fault := by
  obtain ⟨hleast, hgreatest⟩ := h.tidy.current_in_range
  cases i with
  | increment =>
      simp only [fault?, Option.ite_none_left_eq_some, Option.some.injEq] at hfault
      obtain ⟨hge, rfl⟩ := hfault
      exact .overflow (by omega)
  | decrement =>
      simp only [fault?, Option.ite_none_left_eq_some, Option.some.injEq] at hfault
      obtain ⟨hle, rfl⟩ := hfault
      exact .underflow (by omega)
  | moveRight =>
      simp only [fault?, Tape.atEnd, decide_eq_true_eq, Option.ite_none_right_eq_some,
        Option.some.injEq] at hfault
      obtain ⟨hend, rfl⟩ := hfault
      have hlast : m.tape.head.val = 29999 := by
        have hlt : m.tape.head.val < 30000 := m.tape.head.isLt
        simp only [Tape.size] at hend
        omega
      rw [hlast]
      exact .tapeExhausted hlast
  | moveLeft => simp [fault?] at hfault
  | loopStart =>
      simp only [fault?, Option.ite_none_left_eq_some, Nat.not_lt, Option.some.injEq] at hfault
      obtain ⟨hdeep, rfl⟩ := hfault
      exact .loopTooDeep (Nat.le_antisymm h.stack_le hdeep)
  | loopEnd =>
      simp only [fault?, Array.isEmpty_iff_size_eq_zero, Option.ite_none_right_eq_some,
        Option.some.injEq] at hfault
      obtain ⟨hempty, rfl⟩ := hfault
      exact .unmatchedLoopEnd hempty
  | output =>
      cases hchar : charOfCell? m.tape.current with
      | none =>
          simp only [fault?, hchar, Option.some.injEq] at hfault
          subst fault
          exact .notACharacter (charOfCell?_eq_none_iff.mp hchar)
      | some c =>
          have hcode : IsCharacterCode m.tape.current := isCharacterCode_iff.mpr ⟨c, hchar⟩
          cases hlimited : limits.output with
          | none => simp [fault?, hchar, hlimited] at hfault
          | some limit =>
              simp only [fault?, hchar, hlimited, Option.ite_none_left_eq_some, Nat.not_lt,
                Option.some.injEq] at hfault
              obtain ⟨hfull, rfl⟩ := hfault
              -- The counter has come to the limit, so the limit is one that it can show.
              have hprinted := h.printed_eq
              have hle := h.output_le limit (by omega) hlimited
              exact .outputFull hcode hlimited (by omega)
  | input => simp [fault?] at hfault
  | nop => simp [fault?] at hfault

end Machine

namespace Sandbox

variable {σ : Type} [Clock σ] {sandbox : Sandbox} {clock clock' : σ} {o : Outcome} {fault : Fault}

/-- A faulted run ends with the machine that the instructions before the fault have made, unchanged
and with the fault not counted, and reports what this machine shows. The fault names the position of
an instruction of the program, and it is the one that the rules give for this instruction there; a
head on the last cell shows the whole tape. -/
theorem fault_is_atomic_and_exact (h : sandbox.Yields clock o clock')
    (hstatus : o.status = .faulted fault) :
    ∃ n m clock₁ clock₂ i, sandbox.Reaches clock n m clock₁ ∧
      (sandbox.start clock).1.turns (n + 1) 0 sandbox.machine (sandbox.start clock).2 =
        some (⟨.faulted fault, m, min n greatestCount⟩, clock₂) ∧
      o.tape = m.tape.visible ∧ o.output = m.output ∧ o.executed = min n greatestCount ∧
      sandbox.program.get? m.position = some i ∧ m.position < sandbox.program.size ∧
      fault.position = m.position ∧ o.tape[m.tape.head.val]? = some m.tape.current ∧
      (∀ fault', fault = fault' ↔ m.Raises sandbox.limits i fault') ∧
      ∀ p last, fault = .tapeExhausted p last → o.tape.length = 30000 := by
  obtain ⟨n, m, status, checks, hsteps, hbudget, hcut, rfl, -⟩ := yields_iff.mp h
  obtain rfl : status = .faulted fault := hstatus
  have hreach : sandbox.Reaches clock n m (Clock.after clock (n + 1)) :=
    reaches_iff.mpr ⟨hsteps, hbudget, rfl⟩
  have hturns := turns_of_cut hsteps hbudget hcut (Nat.lt_succ_self n)
  have hcoherent := hreach.coherent
  cases Run.Cut.halts hcut (by simp) with
  | @faulted i _ here raised =>
      have hraises := hcoherent.raises raised
      refine ⟨n, m, _, _, i, hreach, hturns, rfl, rfl, rfl, here, Program.lt_size_of_get? here,
        hraises.position_eq, hcoherent.tidy.getElem?_visible, ?_, ?_⟩
      · intro fault'
        constructor
        · rintro rfl
          exact hraises
        · exact hraises.unique
      · rintro p last rfl
        have hlength := m.tape.length_visible
        have hhead := hcoherent.tidy.head_le_reach
        have hlt : m.tape.reach.val < 30000 := m.tape.reach.isLt
        have hshown : m.tape.visible.length = 30000 := by
          cases hraises with
          | tapeExhausted hlast => omega
        exact hshown

/-- A loop prints until its output is full; the character that does not fit is not counted. -/
theorem fault_is_atomic_and_exact_at_full_output :
    let session : Session :=
      { timeout := .ofMilliseconds 10, startedAt := .zero, input := [], debug := false }
    let sandbox := (ofText "+[.]" session).setOutputLimit (some 2)
    ∃ o clock', sandbox.Yields SteppingClock.perMillisecond o clock' ∧
      o.status = .faulted (.outputFull 2 2) ∧ o.executed = 6 ∧
      ∃ n m clock₁, sandbox.Reaches SteppingClock.perMillisecond n m clock₁ ∧
        min n greatestCount = 6 ∧ m.position = 2 ∧ o.output = m.output ∧
        m.Raises sandbox.limits .output (.outputFull 2 2) := by
  intro session sandbox
  have hrun : (sandbox.run 8 SteppingClock.perMillisecond).map
      (fun answer => (answer.1.status, answer.1.executed)) =
        some (.faulted (.outputFull 2 2), 6) := by
    decide +kernel
  obtain ⟨answer, hanswer, hpair⟩ := Option.map_eq_some_iff.mp hrun
  obtain ⟨hstatus, hexecuted⟩ := Prod.mk.inj hpair
  have hyields : sandbox.Yields SteppingClock.perMillisecond answer.1 answer.2 := ⟨8, hanswer⟩
  obtain ⟨n, m, clock₁, clock₂, i, hreach, -, -, houtput, hcount, hget, -, hposition, -, hrule,
    -⟩ := fault_is_atomic_and_exact hyields hstatus
  have hraises := (hrule _).mp rfl
  have htwo : m.position = 2 := hposition.symm
  obtain rfl : i = .output := by
    rw [htwo] at hget
    exact (Option.some.inj hget).symm
  exact ⟨answer.1, answer.2, hyields, hstatus, hexecuted, n, m, clock₁, hreach,
    hcount.symm.trans hexecuted, htwo, houtput, hraises⟩

end Sandbox

end TapeMachine
