import TapeMachine.Proofs.Coherence
import TapeMachine.Proofs.Nesting.Barrier
import TapeMachine.Proofs.Readings

/-!
What a program does with more text behind it. An instruction looks at its own position and at the
loop starts before it, never at the text ahead, so a run takes no notice of text that it does not
come to. A run that is killed or faults is the same with any text appended. A run that completes
stands at the end of its text with the loops open that the text leaves open, and a longer text goes
on from there.
-/

namespace TapeMachine

namespace Program

variable {front whole : Program} {limits : Limits} {m m' : Machine} {n : Nat}

/-- A program has all the instructions of another one in their places. -/
def Continues (whole front : Program) : Prop :=
  ∀ p i, front.get? p = some i → whole.get? p = some i

theorem continues_append (front back : String) :
    (ofText (front ++ back)).Continues (ofText front) := by
  intro p i hget
  have hlt := lt_size_of_get? hget
  rw [size_ofText, ← String.length_toList] at hlt
  rw [get?_ofText] at hget
  rw [get?_ofText, String.toList_append, List.getElem?_append_left hlt, hget]

theorem Continues.next? (h : whole.Continues front) (hnext : front.next? limits m = some m') :
    whole.next? limits m = some m' := by
  obtain ⟨i, hget, hfault, rfl⟩ := next?_eq_some_iff.mp hnext
  exact next?_of_get? (h m.position i hget) hfault

theorem Continues.after? (h : whole.Continues front) (hm : front.after? limits n m = some m') :
    whole.after? limits n m = some m' := by
  induction n generalizing m' with
  | zero => exact hm
  | succ n ih =>
      obtain ⟨mid, hmid, hnext⟩ := after?_succ_eq_some_iff.mp hm
      exact after?_succ_eq_some_iff.mpr ⟨mid, ih hmid, h.next? hnext⟩

end Program

namespace Sandbox

variable {σ τ : Type} [Clock σ] [Clock τ] {sandbox front whole : Sandbox} {clock₁ : σ}
  {clock₂ : τ} {m : Machine} {status : Status} {n checks bound : Nat} {o : Outcome}

theorem position_le_size (h : sandbox.after? n = some m) : m.position ≤ sandbox.program.size := by
  cases n with
  | zero =>
      cases h
      exact Nat.zero_le _
  | succ n =>
      obtain ⟨mid, hmid, hnext⟩ := Program.after?_succ_eq_some_iff.mp h
      obtain ⟨i, hget, -, -⟩ := Program.next?_eq_some_iff.mp hnext
      have hlt := Program.lt_size_of_get? hget
      exact Nat.le_trans ((follows_of_after? hmid).position_next?_le hnext) hlt

/-- A machine that has completed stands right behind its program, with the loops open that the text
leaves open. -/
theorem after_last_position (h : sandbox.after? n = some m)
    (hend : sandbox.program.get? m.position = none) :
    m.position = sandbox.program.size ∧
      m.loopStack = sandbox.program.brackets.unmatchedStarts := by
  have hposition : m.position = sandbox.program.size :=
    Nat.le_antisymm (position_le_size h) (Program.get?_eq_none_iff.mp hend)
  refine ⟨hposition, ?_⟩
  apply Array.toList_inj.mp
  rw [(follows_of_after? h).stack, Program.openBefore, hposition,
    Program.bracketsBefore_of_size_le (Nat.le_refl _)]

/-- A sandbox is set up like another one, with a program that continues the other one's. -/
structure Continues (whole front : Sandbox) : Prop where
  program : whole.program.Continues front.program
  limits : whole.limits = front.limits
  session : whole.session = front.session

namespace Continues

theorem after? (h : whole.Continues front) (hm : front.after? n = some m) :
    whole.after? n = some m := by
  have hsame : whole.program.after? front.limits n front.machine = some m := h.program.after? hm
  unfold Sandbox.after? machine
  rw [h.limits, h.session]
  exact hsame

/-- As long as the shorter program has steps, they are those of the longer one. -/
theorem after?_eq (h : whole.Continues front) (hm : front.after? n = some m) {j : Nat}
    (hj : j ≤ n) : whole.after? j = front.after? j := by
  obtain ⟨mid, hmid⟩ := Program.after?_of_le hj hm
  have hmid' : front.after? j = some mid := hmid
  rw [hmid', h.after? hmid']

/-- Unless it is cut at the end of the shorter program, the longer one is cut likewise. -/
theorem cut (h : whole.Continues front)
    (hcheck : whole.expiresAt clock₂ n = front.expiresAt clock₁ n)
    (hcut : front.Cut clock₁ n m status checks) (hstatus : status ≠ .completed) :
    whole.Cut clock₂ n m status checks :=
  hcut.transport h.limits hcheck (fun hcompleted => absurd hcompleted hstatus)
    (h.program m.position)

theorem outcome?_eq (h : whole.Continues front)
    (hreadings : ∀ n, Clock.readings clock₂ n = Clock.readings clock₁ n)
    (ho : front.outcome? bound clock₁ = some o) (hstatus : o.status ≠ .completed) :
    whole.outcome? bound clock₂ = some o :=
  outcome?_transport (congrArg Session.timeout h.session) hreadings (fun _ _ => h.after?)
    (fun _ _ _ hcheck hcut => h.cut hcheck hcut hstatus) ho

/-- The longer program goes through the machines of the shorter one. -/
theorem reaches_iff (h : whole.Continues front)
    (hreadings : ∀ n, Clock.readings clock₂ n = Clock.readings clock₁ n)
    (hm : front.after? n = some m) {j : Nat} (hj : j ≤ n) (m' : Machine) :
    (∃ clock', whole.Reaches clock₂ j m' clock') ↔
      ∃ clock', front.Reaches clock₁ j m' clock' := by
  have hcheck : ∀ j, whole.expiresAt clock₂ j = front.expiresAt clock₁ j :=
    expiresAt_congr (congrArg Session.timeout h.session) hreadings
  simp [Sandbox.reaches_iff, h.after?_eq hm hj, hcheck]

end Continues

/-- Text behind a program matters only once the program has completed. A run that is killed or
faults has the same outcome with any text appended. A run that completes stands at the end of its
text, with the loops open that the text leaves open; with more text the run makes the same steps,
comes to the same machine and goes on from it, so it shows at least as much. -/
theorem appended_text_only_continues (text more : String) (session : Session) (limits : Limits)
    {clock₁ : σ} {clock₂ : τ}
    (hreadings : ∀ n, Clock.readings clock₂ n = Clock.readings clock₁ n) :
    let front : Sandbox := ⟨.ofText text, session, limits⟩
    let whole : Sandbox := ⟨.ofText (text ++ more), session, limits⟩
    ∀ bound o, front.outcome? bound clock₁ = some o →
      (o.status ≠ .completed → whole.outcome? bound clock₂ = some o) ∧
      (o.status = .completed →
        ∃ n m end₁ end₂, front.Reaches clock₁ n m end₁ ∧
          front.Cut clock₁ n m .completed n ∧ o.executed = min n greatestCount ∧
          o.tape = m.tape.visible ∧ o.output = m.output ∧
          (∀ j ≤ n, ∀ m', (∃ clock', whole.Reaches clock₂ j m' clock') ↔
            ∃ clock', front.Reaches clock₁ j m' clock') ∧
          whole.Reaches clock₂ n m end₂ ∧ m.position = text.length ∧
          m.loopStack = (Program.ofText text).brackets.unmatchedStarts ∧
          (∀ rest, (whole.start clock₂).1.turns (n + rest) 0 whole.machine
              (whole.start clock₂).2 =
            (whole.start clock₂).1.turns rest (min n greatestCount) m end₂) ∧
          ∀ o' clock', whole.Yields clock₂ o' clock' →
            o.output.toList <+: o'.output.toList ∧ o.tape.length ≤ o'.tape.length ∧
              o.executed ≤ o'.executed) := by
  intro front whole bound o ho
  have hcontinues : whole.Continues front := ⟨Program.continues_append text more, rfl, rfl⟩
  refine ⟨hcontinues.outcome?_eq hreadings ho, ?_⟩
  intro hcompleted
  obtain ⟨clock', hrun⟩ := outcome?_eq_some_iff.mp ho
  have hyields : front.Yields clock₁ o clock' := ⟨bound, hrun⟩
  obtain ⟨n, m, end₁, checks, hreach, hcut, htape, houtput, hexecuted⟩ := hyields.exists_reaches
  have hm := (reaches_iff.mp hreach).1
  rw [hcompleted] at hcut
  cases hcut with
  | completed here =>
      obtain ⟨end₂, hreach'⟩ :=
        (hcontinues.reaches_iff hreadings hm (Nat.le_refl n) m).mpr ⟨end₁, hreach⟩
      obtain ⟨hposition, hstack⟩ := after_last_position hm here
      have hlength : m.position = text.length := by
        rw [hposition]
        exact Program.size_ofText text
      refine ⟨n, m, end₁, end₂, hreach, .completed here, hexecuted, htape, houtput,
        fun j hj m' => hcontinues.reaches_iff hreadings hm hj m', hreach', hlength, hstack,
        hreach'.turns_eq, ?_⟩
      intro o' last hlast
      obtain ⟨k, m', clock, checks, hk, hcut', htape', houtput', hexecuted'⟩ :=
        hlast.exists_reaches
      have hm' := (reaches_iff.mp hk).1
      have hle : n ≤ k := hcut'.le_of_reaches hm' hreach'
      have hgrown := extends_of_after? hle (reaches_iff.mp hreach').1 hm'
      rw [htape, houtput, hexecuted, htape', houtput', hexecuted']
      exact ⟨hgrown.output, hgrown.length_visible_le, by omega⟩

/-- A loop that is left open at the end of a text and closed behind it. -/
theorem appended_text_only_continues_into_loop :
    let session : Session :=
      { timeout := .ofMilliseconds 20, startedAt := .zero, input := [], debug := false }
    let front : Sandbox := ⟨.ofText "++[-.", session, .default⟩
    let whole : Sandbox := ⟨.ofText ("++[-." ++ ">+<]"), session, .default⟩
    let clock := SteppingClock.perMillisecond
    (∀ n, Clock.readings clock n = Clock.readings clock n) ∧
      ∃ o, front.outcome? 6 clock = some o ∧ o.status = .completed ∧ o.executed = 5 ∧
        ∃ n m end', whole.Reaches clock n m end' ∧ m.position = 5 ∧ m.loopStack = #[2] ∧
          ∃ o', whole.outcome? 20 clock = some o' ∧ o'.status = .completed ∧
            o'.executed = 15 ∧ o.output.toList <+: o'.output.toList ∧
            o.tape.length ≤ o'.tape.length := by
  intro session front whole clock
  have hreadings : ∀ n, Clock.readings clock n = Clock.readings clock n := fun _ => rfl
  have hfront : (front.outcome? 6 clock).map (fun o => (o.status, o.executed)) =
      some (.completed, 5) := by
    decide +kernel
  have hwhole : (whole.run 20 clock).map (fun answer => (answer.1.status, answer.1.executed)) =
      some (.completed, 15) := by
    decide +kernel
  obtain ⟨o, ho, hpair⟩ := Option.map_eq_some_iff.mp hfront
  obtain ⟨hstatus, hexecuted⟩ := Prod.mk.inj hpair
  obtain ⟨⟨o', last⟩, hanswer, hpair'⟩ := Option.map_eq_some_iff.mp hwhole
  obtain ⟨hstatus', hexecuted'⟩ := Prod.mk.inj hpair'
  have hopen : (Program.ofText "++[-.").brackets.unmatchedStarts = #[2] := by decide +kernel
  obtain ⟨-, hcompleted⟩ :=
    appended_text_only_continues "++[-." ">+<]" session .default hreadings 6 o ho
  obtain ⟨n, m, end₁, end₂, -, -, -, -, -, -, hreach, hposition, hstack, -, hgrown⟩ :=
    hcompleted hstatus
  obtain ⟨houtput, htape, -⟩ := hgrown o' last ⟨20, hanswer⟩
  exact ⟨hreadings, o, ho, hstatus, hexecuted, n, m, end₂, hreach, hposition, hstack.trans hopen,
    o', outcome?_eq_some_iff.mpr ⟨last, hanswer⟩, hstatus', hexecuted', houtput, htape⟩

end Sandbox

end TapeMachine
