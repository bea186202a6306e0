import TapeMachine.Proofs.Trace

/-!
What a limit on the output does to a run. It forbids one thing, a character past the last one that
it allows, so a run within a limit is the run without one as long as that has not printed more. If
it never prints more, nothing at all is different, whichever way it ends; otherwise the run with the
limit stops before the first output that is too many and shows what had been made by then.
-/

namespace TapeMachine

namespace Machine

variable {limits : Limits} {m : Machine} {i : Instruction} {limit : Nat} {fault : Fault}

/-- A limit adds a single fault, to an output that raises no other. -/
theorem fault?_limited (limits : Limits) (m : Machine) (i : Instruction) (limit : Nat) :
    m.fault? { limits with output := some limit } i =
      if i = .output ∧ limit ≤ m.printed ∧ m.fault? { limits with output := none } i = none
      then some (.outputFull m.position limit)
      else m.fault? { limits with output := none } i := by
  cases i with
  | output =>
      cases hchar : charOfCell? m.tape.current with
      | none => simp [fault?, hchar]
      | some c =>
          rcases Nat.lt_or_ge m.printed limit with hroom | hfull
          · simp [fault?, hchar, hroom, Nat.not_le_of_lt hroom]
          · simp [fault?, hchar, hfull, Nat.not_lt_of_le hfull]
  | _ => simp [fault?]

theorem fault?_limited_of_room (hroom : i = .output → m.printed < limit) :
    m.fault? { limits with output := some limit } i =
      m.fault? { limits with output := none } i := by
  rw [fault?_limited, if_neg]
  rintro ⟨hout, hfull, -⟩
  exact Nat.not_lt_of_le hfull (hroom hout)

theorem fault?_limited_of_fault? (h : m.fault? { limits with output := none } i = some fault) :
    m.fault? { limits with output := some limit } i = some fault := by
  rw [fault?_limited, if_neg, h]
  rintro ⟨-, -, hnone⟩
  rw [h] at hnone
  cases hnone

theorem fault?_limited_of_full (hfull : limit ≤ m.printed)
    (hnone : m.fault? { limits with output := none } .output = none) :
    m.fault? { limits with output := some limit } .output =
      some (.outputFull m.position limit) := by
  rw [fault?_limited, if_pos ⟨rfl, hfull, hnone⟩]

end Machine

namespace Sandbox

variable {σ : Type} [Clock σ] {sandbox : Sandbox} {clock : σ} {m : Machine} {status : Status}
  {limit n checks : Nat}

/-- Within the limit the steps are the same. -/
theorem after?_limited (h : (sandbox.setOutputLimit none).after? n = some m)
    (hlength : m.output.length ≤ limit) :
    (sandbox.setOutputLimit (some limit)).after? n = some m := by
  induction n generalizing m with
  | zero => exact h
  | succ n ih =>
      obtain ⟨mid, hmid, hnext⟩ := Program.after?_succ_eq_some_iff.mp h
      obtain ⟨i, hget, hfault, rfl⟩ := Program.next?_eq_some_iff.mp hnext
      have hgrown := (extends_of_after? (Nat.le_succ n) hmid h).output.length_le
      rw [String.length_toList, String.length_toList] at hgrown
      have hsame := ih hmid (Nat.le_trans hgrown hlength)
      have hroom : i = .output → mid.printed < limit := by
        rintro rfl
        obtain ⟨c, -, houtput, -⟩ := Machine.output_execute_output hfault
        have hprinted := (coherent_of_after? hmid).printed_eq
        rw [houtput, String.length_push] at hlength
        omega
      have hfault' : mid.fault? (sandbox.setOutputLimit (some limit)).limits i = none :=
        (Machine.fault?_limited_of_room hroom).trans hfault
      exact Program.after?_succ_eq_some_iff.mpr
        ⟨mid, hsame, Program.next?_of_get? hget hfault'⟩

/-- Where a run without a limit is cut, a run with one is cut likewise if it gets there. -/
theorem cut_limited (h : (sandbox.setOutputLimit none).Cut clock n m status checks) :
    (sandbox.setOutputLimit (some limit)).Cut clock n m status checks := by
  cases h with
  | completed here => exact .completed here
  | timedOut here expired => exact .timedOut here expired
  | faulted here inTime raised =>
      exact .faulted here inTime (Machine.fault?_limited_of_fault? raised)

/-- An output that comes to be longer than a limit goes past it in one step, which prints. -/
theorem exists_step_past (hm : sandbox.after? n = some m) (hlength : limit < m.output.length) :
    ∃ k < n, ∃ mid next, sandbox.after? k = some mid ∧ sandbox.after? (k + 1) = some next ∧
      sandbox.program.get? mid.position = some .output ∧
      mid.fault? sandbox.limits .output = none ∧ mid.output.length = limit := by
  induction n generalizing m with
  | zero =>
      cases hm
      exact absurd hlength (Nat.not_lt_zero _)
  | succ n ih =>
      obtain ⟨mid, hmid, hnext⟩ := Program.after?_succ_eq_some_iff.mp hm
      rcases Nat.lt_or_ge limit mid.output.length with hpast | hwithin
      · obtain ⟨k, hk, hstep⟩ := ih hmid hpast
        exact ⟨k, Nat.lt_succ_of_lt hk, hstep⟩
      · obtain ⟨i, hget, hfault, rfl⟩ := Program.next?_eq_some_iff.mp hnext
        obtain rfl : i = .output := by
          apply Classical.byContradiction
          intro hne
          rw [(mid.output_execute hne).1] at hlength
          omega
        obtain ⟨c, -, houtput, -⟩ := Machine.output_execute_output hfault
        rw [houtput, String.length_push] at hlength
        exact ⟨n, Nat.lt_succ_self n, mid, _, hmid, hm, hget, hfault, by omega⟩

/-- A limit on the output cuts a run and does nothing else. A run that prints no more than the
limit allows has the same outcome under it, also if it faults right after its last character. Of a
run that prints more, the limit leaves what was made before the first output that is too many: the
fault names the position of this output, and the tape, the count and the first characters of the
output are those of the machine that stands before it. -/
theorem output_limit_only_cuts (sandbox : Sandbox) (clock : σ) {bound limit : Nat}
    (hlimit : limit ≤ greatestCount) :
    let free := sandbox.setOutputLimit none
    let limited := sandbox.setOutputLimit (some limit)
    ∀ o clock', free.run bound clock = some (o, clock') →
      (o.output.length ≤ limit → limited.run bound clock = some (o, clock')) ∧
      (limit < o.output.length →
        ∃ n m m' clock₁ clock₂, free.Reaches clock n m clock₁ ∧
          free.Reaches clock (n + 1) m' clock₂ ∧
          free.program.get? m.position = some .output ∧ (free.trace n).count .output = limit ∧
          ∃ r end', limited.run bound clock = some (r, end') ∧
            r.status = .faulted (.outputFull m.position limit) ∧
            r.output.toList = o.output.toList.take limit ∧
            r.tape = m.tape.visible ∧ r.executed = min n greatestCount) := by
  intro free limited o clock' hrun
  obtain ⟨n, m, status, checks, hlt, hm, hbudget, hcut, rfl, rfl⟩ := run_eq_some_iff_cut.mp hrun
  constructor
  · intro hlength
    exact run_of_cut (after?_limited hm hlength) hbudget (cut_limited hcut) hlt
  · intro hlength
    obtain ⟨k, hk, mid, next, hmid, hnext, hget, hfault, hfull⟩ := exists_step_past hm hlength
    have hprinted : limit ≤ mid.printed := by
      rw [(coherent_of_after? hmid).printed_eq]
      omega
    have hbefore : ∀ j < k + 1, free.expiresAt clock j = false :=
      fun j hj => hbudget j (by omega)
    have hcut' : limited.Cut clock k mid (.faulted (.outputFull mid.position limit)) (k + 1) :=
      .faulted hget (hbefore k (Nat.lt_succ_self k))
        (Machine.fault?_limited_of_full hprinted hfault)
    have hrun' := run_of_cut (after?_limited hmid (Nat.le_of_eq hfull))
      (fun j hj => hbefore j (Nat.lt_succ_of_lt hj)) hcut' (Nat.lt_trans hk hlt)
    have hfront := (extends_of_after? (Nat.le_of_lt hk) hmid hm).output
    refine ⟨k, mid, next, _, _,
      reaches_iff.mpr ⟨hmid, fun j hj => hbefore j (Nat.lt_succ_of_lt hj), rfl⟩,
      reaches_iff.mpr ⟨hnext, hbefore, rfl⟩, hget, ?_, _, _, hrun', rfl, ?_, rfl, rfl⟩
    · rw [← length_output_of_after? hmid, hfull]
    · have htake := List.prefix_iff_eq_take.mp hfront
      rw [String.length_toList, hfull] at htake
      exact htake

/-- A loop that prints for ever is killed by its budget. A limit of two stops it before the third
character. -/
theorem output_limit_only_cuts_loop :
    let sandbox := ofText "+[.]"
      { timeout := .ofMilliseconds 10, startedAt := .zero, input := [], debug := false }
    2 ≤ greatestCount ∧
      ∃ o clock' r end',
        (sandbox.setOutputLimit none).run 10 SteppingClock.perMillisecond = some (o, clock') ∧
        o.status = .timedOut ∧ 2 < o.output.length ∧
        (sandbox.setOutputLimit (some 2)).run 10 SteppingClock.perMillisecond = some (r, end') ∧
        r.status = .faulted (.outputFull 2 2) ∧ r.executed = 6 ∧
        r.output.toList = o.output.toList.take 2 := by
  intro sandbox
  have hlimit : 2 ≤ greatestCount := by decide
  have hrun : ((sandbox.setOutputLimit none).run 10 SteppingClock.perMillisecond).map
      (fun answer => (answer.1.status, decide (2 < answer.1.output.length))) =
        some (.timedOut, true) := by
    decide +kernel
  have hrun' : ((sandbox.setOutputLimit (some 2)).run 10 SteppingClock.perMillisecond).map
      (fun answer => (answer.1.status, answer.1.executed)) =
        some (.faulted (.outputFull 2 2), 6) := by
    decide +kernel
  obtain ⟨⟨o, clock'⟩, hanswer, hpair⟩ := Option.map_eq_some_iff.mp hrun
  obtain ⟨hstatus, hlength⟩ := Prod.mk.inj hpair
  obtain ⟨⟨r, end'⟩, hcapped, hpair'⟩ := Option.map_eq_some_iff.mp hrun'
  obtain ⟨hfault, hexecuted⟩ := Prod.mk.inj hpair'
  have hmore : 2 < o.output.length := of_decide_eq_true hlength
  obtain ⟨-, hcut⟩ := output_limit_only_cuts sandbox SteppingClock.perMillisecond hlimit o clock'
    hanswer
  obtain ⟨n, m, m', clock₁, clock₂, -, -, -, -, r', end₁, hsame, -, houtput, -, -⟩ := hcut hmore
  rw [hcapped] at hsame
  cases hsame
  exact ⟨hlimit, o, clock', r, end', hanswer, hstatus, hmore, hcapped, hfault, hexecuted, houtput⟩

end Sandbox

end TapeMachine
