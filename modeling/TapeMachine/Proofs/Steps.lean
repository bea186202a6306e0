import TapeMachine.Machine
import TapeMachine.Outcome

/-!
The steps of a machine that no budget stops. A program leads a machine from state to state until
the text ends or an instruction faults, and this sequence is determined by the program, the limits
and the first machine alone. A run on a clock goes through the same states and at most stops
earlier, so what holds along this sequence holds in every run.
-/

namespace TapeMachine

theorem Machine.step_eq_error_iff {limits : Limits} {m : Machine} {i : Instruction}
    {fault : Fault} : m.step limits i = .error fault ↔ m.fault? limits i = some fault := by
  unfold step
  cases m.fault? limits i <;> simp

namespace Program

/-- The machine after the instruction it stands before. There is none after the end of the program
and none after a fault. -/
def next? (program : Program) (limits : Limits) (m : Machine) : Option Machine :=
  match program.get? m.position with
  | none => none
  | some i => (m.step limits i).toOption

def after? (program : Program) (limits : Limits) : Nat → Machine → Option Machine
  | 0, m => some m
  | n + 1, m => (after? program limits n m).bind (program.next? limits)

/-- How a machine stands that has no next state: at the end of the program, or before an
instruction that faults. -/
inductive Halts (program : Program) (limits : Limits) (m : Machine) : Status → Prop where
  | completed (ended : program.get? m.position = none) : Halts program limits m .completed
  | faulted {i : Instruction} {fault : Fault} (here : program.get? m.position = some i)
      (raised : m.fault? limits i = some fault) : Halts program limits m (.faulted fault)

variable {program : Program} {limits : Limits} {m m' : Machine}

/-- All that a step can be: the instruction at the position raises no fault and is executed. -/
theorem next?_eq_some_iff :
    program.next? limits m = some m' ↔
      ∃ i, program.get? m.position = some i ∧ m.fault? limits i = none ∧ m' = m.execute i := by
  unfold next? Machine.step
  cases program.get? m.position with
  | none => simp
  | some i =>
      cases hfault : m.fault? limits i with
      | none => simp [Except.toOption, hfault, eq_comm]
      | some fault => simp [Except.toOption, hfault]

theorem next?_of_get? {i : Instruction} (hget : program.get? m.position = some i)
    (hfault : m.fault? limits i = none) :
    program.next? limits m = some (m.execute i) :=
  next?_eq_some_iff.mpr ⟨i, hget, hfault, rfl⟩

theorem Halts.next?_eq_none {status : Status} (h : program.Halts limits m status) :
    program.next? limits m = none := by
  cases h with
  | completed ended => simp [next?, ended]
  | faulted here raised => simp [next?, here, Machine.step, raised, Except.toOption]

theorem next?_or_halts (program : Program) (limits : Limits) (m : Machine) :
    (∃ m', program.next? limits m = some m') ∨ ∃ status, program.Halts limits m status := by
  cases hget : program.get? m.position with
  | none => exact .inr ⟨.completed, .completed hget⟩
  | some i =>
      cases hfault : m.fault? limits i with
      | none => exact .inl ⟨m.execute i, next?_of_get? hget hfault⟩
      | some fault => exact .inr ⟨.faulted fault, .faulted hget hfault⟩

theorem Halts.unique {s t : Status} (hs : program.Halts limits m s)
    (ht : program.Halts limits m t) : s = t := by
  cases hs with
  | completed ended =>
      cases ht with
      | completed _ => rfl
      | faulted here _ => simp [ended] at here
  | faulted here raised =>
      cases ht with
      | completed ended => simp [ended] at here
      | faulted here' raised' =>
          rw [here] at here'
          cases here'
          rw [raised] at raised'
          cases raised'
          rfl

theorem after?_succ_eq_some_iff {n : Nat} :
    program.after? limits (n + 1) m = some m' ↔
      ∃ mid, program.after? limits n m = some mid ∧ program.next? limits mid = some m' :=
  Option.bind_eq_some_iff

theorem after?_add (j k : Nat) (m : Machine) :
    program.after? limits (j + k) m =
      (program.after? limits j m).bind (program.after? limits k) := by
  induction k with
  | zero => simp [after?]
  | succ k ih =>
      rw [← Nat.add_assoc, after?, ih]
      cases program.after? limits j m <;> rfl

theorem after?_trans {j k : Nat} {mid : Machine} (hmid : program.after? limits j m = some mid)
    (h : program.after? limits k mid = some m') : program.after? limits (j + k) m = some m' := by
  rw [after?_add, hmid]
  exact h

theorem after?_one (h : program.next? limits m = some m') :
    program.after? limits 1 m = some m' := by
  simp [after?, h]

theorem after?_succ_of_next? {n : Nat} (h : program.next? limits m = some m') :
    program.after? limits (n + 1) m = program.after? limits n m' := by
  rw [Nat.add_comm, after?_add]
  simp [after?, h]

theorem after?_of_le {j k : Nat} (hle : j ≤ k) (h : program.after? limits k m = some m') :
    ∃ mid, program.after? limits j m = some mid := by
  obtain ⟨d, rfl⟩ := Nat.exists_eq_add_of_le hle
  rw [after?_add] at h
  cases hmid : program.after? limits j m with
  | none => simp [hmid] at h
  | some mid => exact ⟨mid, rfl⟩

theorem exists_after?_of_rest {k n : Nat} {mid : Machine}
    (hmid : program.after? limits k m = some mid)
    (hrest : ∀ j, k + j = n → ∃ m', program.after? limits j mid = some m') :
    ∃ m', program.after? limits n m = some m' := by
  rcases Nat.le_total n k with hle | hle
  · exact after?_of_le hle hmid
  · obtain ⟨j, rfl⟩ := Nat.exists_eq_add_of_le hle
    obtain ⟨m', hm'⟩ := hrest j rfl
    exact ⟨m', after?_trans hmid hm'⟩

theorem Halts.le_of_after? {j k : Nat} {mid : Machine} {status : Status}
    (hhalts : program.Halts limits mid status) (hmid : program.after? limits j m = some mid)
    (h : program.after? limits k m = some m') : k ≤ j := by
  apply Nat.le_of_not_lt
  intro hlt
  obtain ⟨later, hlater⟩ := after?_of_le (Nat.succ_le_of_lt hlt) h
  simp [after?, hmid, hhalts.next?_eq_none] at hlater

/-- A sequence of steps comes to at most one end. -/
theorem Halts.after?_unique {j k : Nat} {mj mk : Machine} {s t : Status}
    (hs : program.Halts limits mj s) (hj : program.after? limits j m = some mj)
    (ht : program.Halts limits mk t) (hk : program.after? limits k m = some mk) :
    j = k ∧ mj = mk ∧ s = t := by
  have hjk : j = k := Nat.le_antisymm (ht.le_of_after? hk hj) (hs.le_of_after? hj hk)
  subst hjk
  have hm : mj = mk := Option.some.inj (hj.symm.trans hk)
  subst hm
  exact ⟨rfl, rfl, hs.unique ht⟩

theorem after?_induction {P : Machine → Prop}
    (step : ∀ m m', P m → program.next? limits m = some m' → P m')
    {n : Nat} (start : P m) (h : program.after? limits n m = some m') : P m' := by
  induction n generalizing m' with
  | zero =>
      cases h
      exact start
  | succ n ih =>
      obtain ⟨mid, hmid, hnext⟩ := after?_succ_eq_some_iff.mp h
      exact step mid m' (ih hmid) hnext

end Program

end TapeMachine
