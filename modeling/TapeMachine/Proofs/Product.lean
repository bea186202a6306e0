import TapeMachine.Proofs.Coherence
import TapeMachine.Proofs.Readings
import TapeMachine.Proofs.Structured.Simulation

/-!
A loop that multiplies. The first cell counts the rounds down and every round adds the same number
to the second cell, so a text of counts before and inside the loop leaves the product. What a part
of the text does is a contract between two stages: wherever a machine stands as the one says, a
number of steps leads it to where it stands as the other says. Contracts of parts make the contract
of a round, by induction on the rounds left that of the loop, and that of the whole text. Its number
of steps is exact, so it says on which side of a budget the program ends.
-/

namespace TapeMachine

namespace Tape

def firstCell : Fin size := ⟨0, size_pos⟩

def secondCell : Fin size := ⟨1, by decide⟩

end Tape

/-- Where a machine stands that works on the first two cells. -/
structure Stage where
  position : Nat
  stack : Array Nat
  head : Fin Tape.size
  first : Int
  second : Int

namespace Machine

variable {m : Machine} {s : Stage}

/-- A machine stands as a stage says. It has been on no cell beyond the two and has printed
nothing. -/
structure Shows (m : Machine) (s : Stage) : Prop where
  position : m.position = s.position
  loopStack : m.loopStack = s.stack
  head : m.tape.head = s.head
  head_le_reach : m.tape.head.val ≤ m.tape.reach.val
  reach_le : m.tape.reach.val ≤ 1
  first : m.tape.cells[Tape.firstCell] = s.first
  second : m.tape.cells[Tape.secondCell] = s.second
  output : m.output = ""

namespace Shows

theorem start (input : List Char) :
    (Machine.start input).Shows ⟨0, #[], Tape.firstCell, 0, 0⟩ where
  position := rfl
  loopStack := rfl
  head := rfl
  head_le_reach := Nat.le_refl 0
  reach_le := Nat.zero_le 1
  first := by simp [Machine.start, Tape.blank]
  second := by simp [Machine.start, Tape.blank]
  output := rfl

theorem current_first (h : m.Shows s) (hhead : s.head = Tape.firstCell) :
    m.tape.current = s.first := by
  simp only [Tape.current, h.head, hhead, h.first]

theorem current_second (h : m.Shows s) (hhead : s.head = Tape.secondCell) :
    m.tape.current = s.second := by
  simp only [Tape.current, h.head, hhead, h.second]

/-- Going on in the text without touching the tape. -/
theorem goTo (h : m.Shows s) (p : Nat) (stack : Array Nat) :
    { m with position := p, loopStack := stack }.Shows { s with position := p, stack := stack } :=
  { h with position := rfl, loopStack := rfl }

theorem write_first (h : m.Shows s) (hhead : s.head = Tape.firstCell) (p : Nat) (value : Int) :
    { m with position := p, tape := m.tape.write value }.Shows
      { s with position := p, first := value } where
  position := rfl
  loopStack := h.loopStack
  head := h.head
  head_le_reach := h.head_le_reach
  reach_le := h.reach_le
  first := by rw [Tape.getElem_cells_write, h.head, hhead, if_pos rfl]
  second := by
    rw [Tape.getElem_cells_write, h.head, hhead, if_neg (by decide)]
    exact h.second
  output := h.output

theorem write_second (h : m.Shows s) (hhead : s.head = Tape.secondCell) (p : Nat) (value : Int) :
    { m with position := p, tape := m.tape.write value }.Shows
      { s with position := p, second := value } where
  position := rfl
  loopStack := h.loopStack
  head := h.head
  head_le_reach := h.head_le_reach
  reach_le := h.reach_le
  first := by
    rw [Tape.getElem_cells_write, h.head, hhead, if_neg (by decide)]
    exact h.first
  second := by rw [Tape.getElem_cells_write, h.head, hhead, if_pos rfl]
  output := h.output

theorem right (h : m.Shows s) (hhead : s.head = Tape.firstCell) (p : Nat) :
    { m with position := p, tape := m.tape.right }.Shows
      { s with position := p, head := Tape.secondCell } := by
  have hval : m.tape.head.val = 0 := by
    rw [h.head, hhead]
    rfl
  have hmoved : m.tape.right.head.val = 1 := by
    rw [Tape.head_right, hval, if_pos (by decide)]
  have hreach := Tape.reach_right h.head_le_reach
  have hle := h.reach_le
  refine ⟨rfl, h.loopStack, Fin.ext hmoved, ?_, ?_, ?_, ?_, h.output⟩
  · simp only
    omega
  · simp only
    omega
  · simpa only [Tape.cells_right] using h.first
  · simpa only [Tape.cells_right] using h.second

theorem left (h : m.Shows s) (hhead : s.head = Tape.secondCell) (p : Nat) :
    { m with position := p, tape := m.tape.left }.Shows
      { s with position := p, head := Tape.firstCell } := by
  have hval : m.tape.head.val = 1 := by
    rw [h.head, hhead]
    rfl
  have hmoved : m.tape.left.head.val = 0 := by
    rw [Tape.head_left, hval]
  refine ⟨rfl, h.loopStack, Fin.ext hmoved, ?_, h.reach_le, h.first, h.second, h.output⟩
  simp only
  omega

/-- With the head on the second cell, the two cells are all that is shown. -/
theorem visible (h : m.Shows s) (hhead : s.head = Tape.secondCell) :
    m.tape.visible = [s.first, s.second] := by
  have hval : m.tape.head.val = 1 := by
    rw [h.head, hhead]
    rfl
  have hreach : m.tape.reach.val = 1 :=
    Nat.le_antisymm h.reach_le (hval ▸ h.head_le_reach)
  have hcell : ∀ p : Fin Tape.size, m.tape.cells.toList[p.val]? = some m.tape.cells[p] := by
    intro p
    simp
  have hfirst : m.tape.cells.toList[0]? = some s.first :=
    (hcell Tape.firstCell).trans (by rw [h.first])
  have hsecond : m.tape.cells.toList[1]? = some s.second :=
    (hcell Tape.secondCell).trans (by rw [h.second])
  rw [Tape.visible_eq_take, hreach, List.take_add_one, List.take_add_one, hfirst, hsecond]
  rfl

end Shows

end Machine

namespace Program

variable {program : Program} {limits : Limits} {s t u : Stage} {stack : Array Nat}
  {i : Instruction} {a : Int} {b j k n p q : Nat}

/-- Wherever a machine stands as one stage says, so many steps lead it to the other. -/
def Leads (program : Program) (limits : Limits) (n : Nat) (s t : Stage) : Prop :=
  ∀ m : Machine, m.Shows s → ∃ m', program.after? limits n m = some m' ∧ m'.Shows t

/-- The counts of a round, and the end of the loop with what follows it. -/
def productRound (k : Nat) : List Instruction :=
  .moveRight :: (List.replicate k .increment ++ [.moveLeft, .decrement, .loopEnd, .moveRight])

namespace Leads

theorem trans (h : program.Leads limits j s t) (h' : program.Leads limits k t u) :
    program.Leads limits (j + k) s u := by
  intro m hm
  obtain ⟨mid, hmid, hshows⟩ := h m hm
  obtain ⟨m', hm', hshows'⟩ := h' mid hshows
  exact ⟨m', after?_trans hmid hm', hshows'⟩

theorem of_execute (hget : program.get? s.position = some i)
    (hfault : ∀ m : Machine, m.Shows s → m.fault? limits i = none)
    (hshows : ∀ m : Machine, m.Shows s → (m.execute i).Shows t) :
    program.Leads limits 1 s t := by
  intro m hm
  rw [← hm.position] at hget
  exact ⟨m.execute i, after?_one (next?_of_get? hget (hfault m hm)), hshows m hm⟩

theorem moveRight (hget : program.get? p = some .moveRight) :
    program.Leads limits 1 ⟨p, stack, Tape.firstCell, a, b⟩
      ⟨p + 1, stack, Tape.secondCell, a, b⟩ := by
  apply of_execute hget
  · intro m hm
    have hhead := congrArg Fin.val hm.head
    simp [Machine.fault?, Tape.atEnd, hhead, Tape.firstCell, Tape.size]
  · intro m hm
    have hposition : m.position = p := hm.position
    rw [← hposition]
    exact hm.right rfl (m.position + 1)

theorem moveLeft (hget : program.get? p = some .moveLeft) :
    program.Leads limits 1 ⟨p, stack, Tape.secondCell, a, b⟩
      ⟨p + 1, stack, Tape.firstCell, a, b⟩ := by
  apply of_execute hget
  · exact fun _ _ => rfl
  · intro m hm
    have hposition : m.position = p := hm.position
    rw [← hposition]
    exact hm.left rfl (m.position + 1)

theorem decrement (hget : program.get? p = some .decrement) (ha : Tape.leastCell < a) :
    program.Leads limits 1 ⟨p, stack, Tape.firstCell, a, b⟩
      ⟨p + 1, stack, Tape.firstCell, a - 1, b⟩ := by
  apply of_execute hget
  · intro m hm
    have hcurrent : m.tape.current = a := hm.current_first rfl
    simp [Machine.fault?, hcurrent, ha]
  · intro m hm
    have hcurrent : m.tape.current = a := hm.current_first rfl
    have hposition : m.position = p := hm.position
    rw [← hposition, ← hcurrent]
    exact hm.write_first rfl (m.position + 1) (m.tape.current - 1)

theorem increment_first {c : Nat} (hget : program.get? p = some .increment)
    (hless : (c : Int) < Tape.greatestCell) :
    program.Leads limits 1 ⟨p, stack, Tape.firstCell, c, b⟩
      ⟨p + 1, stack, Tape.firstCell, (c + 1 : Nat), b⟩ := by
  apply of_execute hget
  · intro m hm
    have hcurrent : m.tape.current = c := hm.current_first rfl
    simp [Machine.fault?, hcurrent, hless]
  · intro m hm
    have hcurrent : m.tape.current = c := hm.current_first rfl
    have hposition : m.position = p := hm.position
    rw [← hposition, Int.natCast_add, ← hcurrent]
    exact hm.write_first rfl (m.position + 1) (m.tape.current + 1)

theorem increment_second (hget : program.get? p = some .increment)
    (hless : (b : Int) < Tape.greatestCell) :
    program.Leads limits 1 ⟨p, stack, Tape.secondCell, a, b⟩
      ⟨p + 1, stack, Tape.secondCell, a, (b + 1 : Nat)⟩ := by
  apply of_execute hget
  · intro m hm
    have hcurrent : m.tape.current = b := hm.current_second rfl
    simp [Machine.fault?, hcurrent, hless]
  · intro m hm
    have hcurrent : m.tape.current = b := hm.current_second rfl
    have hposition : m.position = p := hm.position
    rw [← hposition, Int.natCast_add, ← hcurrent]
    exact hm.write_second rfl (m.position + 1) (m.tape.current + 1)

/-- Counts in a row raise the cell that they count on by as many. -/
theorem increments (stage : Nat → Nat → Stage)
    (hone : ∀ p c : Nat, program.get? p = some .increment → (c : Int) < Tape.greatestCell →
      program.Leads limits 1 (stage p c) (stage (p + 1) (c + 1)))
    (hholds : program.Holds p (List.replicate k .increment))
    (hroom : (b + k : Int) ≤ Tape.greatestCell) :
    program.Leads limits k (stage p b) (stage (p + k) (b + k)) := by
  induction k generalizing p b with
  | zero => exact fun m hm => ⟨m, rfl, hm⟩
  | succ k ih =>
      have hfirst := hone p b hholds.head (by omega)
      have hrest := ih (p := p + 1) (b := b + 1) hholds.tail (by omega)
      rw [show p + (k + 1) = p + 1 + k by omega, show b + (k + 1) = b + 1 + k by omega,
        Nat.add_comm k 1]
      exact hfirst.trans hrest

theorem loopStart (hget : program.get? p = some .loopStart)
    (hdepth : stack.size < limits.loopDepth) :
    program.Leads limits 1 ⟨p, stack, Tape.firstCell, a, b⟩
      ⟨p + 1, stack.push p, Tape.firstCell, a, b⟩ := by
  apply of_execute hget
  · intro m hm
    have hstack : m.loopStack = stack := hm.loopStack
    simp [Machine.fault?, hstack, hdepth]
  · intro m hm
    have hposition : m.position = p := hm.position
    have hstack : m.loopStack = stack := hm.loopStack
    rw [← hposition, ← hstack]
    exact hm.goTo (m.position + 1) (m.loopStack.push m.position)

/-- The end of the loop goes back to its body as long as the first cell is not zero. -/
theorem loopEnd (hget : program.get? q = some .loopEnd) :
    program.Leads limits 1 ⟨q, stack.push p, Tape.firstCell, a, b⟩
      (if a = 0 then ⟨q + 1, stack, Tape.firstCell, a, b⟩
        else ⟨p + 1, stack.push p, Tape.firstCell, a, b⟩) := by
  apply of_execute hget
  · intro m hm
    have hstack : m.loopStack = stack.push p := hm.loopStack
    simp [Machine.fault?, hstack]
  · intro m hm
    have hcurrent : m.tape.current = a := hm.current_first rfl
    have hposition : m.position = q := hm.position
    have hstack : m.loopStack = stack.push p := hm.loopStack
    by_cases hzero : a = 0
    · have hleave : m.execute .loopEnd = { m with position := q + 1, loopStack := stack } := by
        simp [Machine.execute, Machine.endLoop, hstack, hcurrent, hzero, Machine.advance,
          hposition]
      rw [if_pos hzero, hleave]
      exact hm.goTo (q + 1) stack
    · have hback : m.execute .loopEnd = { m with position := p + 1 } := by
        simp [Machine.execute, Machine.endLoop, hstack, hcurrent, hzero]
      rw [if_neg hzero, hback, ← hstack]
      exact hm.goTo (p + 1) m.loopStack

/-- A round takes one off the first cell and adds to the second one, and then leaves the loop or
begins again. -/
theorem round (hholds : program.Holds (q + 1) (productRound k))
    (ha : Tape.leastCell < a) (hroom : (b + k : Int) ≤ Tape.greatestCell) :
    program.Leads limits (k + 4) ⟨q + 1, stack.push q, Tape.firstCell, a, b⟩
      (if a - 1 = 0 then ⟨q + k + 5, stack, Tape.firstCell, a - 1, (b + k : Nat)⟩
        else ⟨q + 1, stack.push q, Tape.firstCell, a - 1, (b + k : Nat)⟩) := by
  have hcounts := hholds.tail.left
  have hback := hholds.tail.right
  rw [List.length_replicate] at hback
  have hright : program.Leads limits 1 ⟨q + 1, stack.push q, Tape.firstCell, a, b⟩
      ⟨q + 1 + 1, stack.push q, Tape.secondCell, a, b⟩ := moveRight hholds.head
  have hadded : program.Leads limits k ⟨q + 1 + 1, stack.push q, Tape.secondCell, a, b⟩
      ⟨q + 1 + 1 + k, stack.push q, Tape.secondCell, a, (b + k : Nat)⟩ :=
    increments (fun p c => ⟨p, stack.push q, Tape.secondCell, a, c⟩)
      (fun _ _ => increment_second) hcounts hroom
  have hleft : program.Leads limits 1
      ⟨q + 1 + 1 + k, stack.push q, Tape.secondCell, a, (b + k : Nat)⟩
      ⟨q + 1 + 1 + k + 1, stack.push q, Tape.firstCell, a, (b + k : Nat)⟩ := moveLeft hback.head
  have hend := hleft.trans ((decrement hback.tail.head ha).trans (loopEnd hback.tail.tail.head))
  have hround := (hright.trans hadded).trans hend
  rw [show q + k + 5 = q + 1 + 1 + k + 1 + 1 + 1 by omega,
    show k + 4 = 1 + k + (1 + (1 + 1)) by omega]
  exact hround

/-- The rounds that are left empty the first cell, and the second one grows by as much in each. -/
theorem rounds (hholds : program.Holds (q + 1) (productRound k)) (r : Nat)
    (hcount : (r : Int) < Tape.greatestCell)
    (hroom : ((b + (r + 1) * k : Nat) : Int) ≤ Tape.greatestCell) :
    program.Leads limits ((r + 1) * (k + 4))
      ⟨q + 1, stack.push q, Tape.firstCell, (r + 1 : Nat), b⟩
      ⟨q + k + 5, stack, Tape.firstCell, 0, (b + (r + 1) * k : Nat)⟩ := by
  -- On the rounds after this one: the last of them is the one that leaves the loop.
  induction r generalizing b with
  | zero =>
      have hlast : program.Leads limits (k + 4) ⟨q + 1, stack.push q, Tape.firstCell, 1, b⟩ _ :=
        round hholds (by simp [Tape.leastCell]) (by omega)
      rw [if_pos (Int.sub_self 1)] at hlast
      simpa using hlast
  | succ r ih =>
      have hsum : b + (r + 1 + 1) * k = b + k + (r + 1) * k := by
        rw [Nat.succ_mul (r + 1)]
        omega
      have hfirst : program.Leads limits (k + 4)
          ⟨q + 1, stack.push q, Tape.firstCell, (r + 1 + 1 : Nat), b⟩ _ :=
        round hholds (by simp only [Tape.leastCell]; omega) (by omega)
      rw [if_neg (by omega), show ((r + 1 + 1 : Nat) : Int) - 1 = (r + 1 : Nat) by omega] at hfirst
      have hrest := ih (b := b + k) (by omega) (by omega)
      rw [hsum, Nat.succ_mul (r + 1), Nat.add_comm _ (k + 4)]
      exact hfirst.trans hrest

end Leads

/-- Counts, and a loop that adds another number of counts to the next cell for every one. -/
def productText (n k : Nat) : String :=
  String.ofList (List.replicate n '+' ++
    '[' :: '>' :: (List.replicate k '+' ++ ['<', '-', ']', '>']))

theorem holds_productText (hprogram : program = .ofText (productText n k)) :
    program.Holds 0 (List.replicate n .increment ++ .loopStart :: productRound k) := by
  apply holds_of_eq
  rw [hprogram]
  simp [ofText, productText, productRound, Instruction.ofChar]

/-- The text leads from the beginning to its end with the product on the second cell. -/
theorem leads_productText (hprogram : program = .ofText (productText n k)) (hn : 1 ≤ n)
    (hcount : (n : Int) ≤ Tape.greatestCell) (hroom : ((n * k : Nat) : Int) ≤ Tape.greatestCell)
    (hdepth : 1 ≤ limits.loopDepth) :
    program.Leads limits (n + n * (k + 4) + 2) ⟨0, #[], Tape.firstCell, 0, 0⟩
      ⟨n + k + 6, #[], Tape.secondCell, 0, (n * k : Nat)⟩ := by
  obtain ⟨r, rfl⟩ := Nat.exists_eq_add_of_le' hn
  have hholds := holds_productText hprogram
  have hloop := hholds.right
  rw [List.length_replicate, Nat.zero_add] at hloop
  have hcounted : program.Leads limits (r + 1) ⟨0, #[], Tape.firstCell, (0 : Nat), (0 : Nat)⟩
      ⟨0 + (r + 1), #[], Tape.firstCell, (0 + (r + 1) : Nat), (0 : Nat)⟩ :=
    Leads.increments (fun p c => ⟨p, #[], Tape.firstCell, c, (0 : Nat)⟩)
      (fun _ _ => Leads.increment_first) hholds.left (by omega)
  rw [Nat.zero_add] at hcounted
  have hentered : program.Leads limits 1 ⟨r + 1, #[], Tape.firstCell, (r + 1 : Nat), (0 : Nat)⟩
      ⟨r + 1 + 1, Array.push #[] (r + 1), Tape.firstCell, (r + 1 : Nat), (0 : Nat)⟩ :=
    Leads.loopStart hloop.head hdepth
  have hrounds : program.Leads limits ((r + 1) * (k + 4))
      ⟨r + 1 + 1, Array.push #[] (r + 1), Tape.firstCell, (r + 1 : Nat), (0 : Nat)⟩
      ⟨r + 1 + k + 5, #[], Tape.firstCell, 0, (0 + (r + 1) * k : Nat)⟩ :=
    Leads.rounds (b := 0) hloop.tail r (by omega) (by omega)
  rw [Nat.zero_add] at hrounds
  have hlast : program.get? (r + 1 + k + 5) = some .moveRight := by
    have hget := hloop.tail.tail.right.tail.tail.tail.head
    rw [List.length_replicate] at hget
    rw [← hget]
    congr 1
    omega
  have hmoved : program.Leads limits 1
      ⟨r + 1 + k + 5, #[], Tape.firstCell, 0, ((r + 1) * k : Nat)⟩
      ⟨r + 1 + k + 5 + 1, #[], Tape.secondCell, 0, ((r + 1) * k : Nat)⟩ := Leads.moveRight hlast
  have hall := hcounted.trans (hentered.trans (hrounds.trans hmoved))
  rw [show r + 1 + (r + 1) * (k + 4) + 2 = r + 1 + (1 + ((r + 1) * (k + 4) + 1)) by omega]
  exact hall

end Program

namespace Sandbox

variable {σ : Type} [Clock σ] {sandbox : Sandbox} {n k : Nat} {step : Duration}

/-- On a fresh clock that goes on by a step, a program that would be completed after a number of
steps is completed if as many checks pass, and is cut otherwise. -/
theorem Yields.status_of_endsAfter {steps : Nat} {o : Outcome} {clock' : SteppingClock}
    (hstep : 0 < step.nanoseconds) (hends : sandbox.EndsAfter steps .completed)
    (h : sandbox.Yields (SteppingClock.new step) o clock') :
    (o.status = .completed ↔ steps ≤ sandbox.session.allowance step) ∧
      (o.status = .timedOut ↔ ¬ steps ≤ sandbox.session.allowance step) := by
  obtain ⟨n, m, status, checks, hm, hbudget, hcut, rfl, -⟩ := yields_iff.mp h
  have hlast : ∀ j, sandbox.expiresAt (SteppingClock.new step) j = true ↔
      sandbox.session.allowance step ≤ j := expiresAt_new_iff hstep
  have hle : n ≤ sandbox.session.allowance step := by
    apply Nat.le_of_not_lt
    intro hlt
    have hinTime := hbudget _ hlt
    rw [(hlast _).mpr (Nat.le_refl _)] at hinTime
    cases hinTime
  obtain ⟨hcompleted, hfaulted, -⟩ := Cut.status_iff hlast hle hm hcut
  have hiff : status = .completed ↔ steps ≤ sandbox.session.allowance step := by
    rw [hcompleted]
    constructor
    · rintro ⟨j, hj, hends'⟩
      rw [(hends.unique hends').1]
      exact hj
    · exact fun hj => ⟨steps, hj, hends⟩
  refine ⟨hiff, ?_⟩
  show status = .timedOut ↔ _
  rw [← hiff]
  cases status with
  | completed => simp
  | timedOut => simp
  | faulted fault =>
      obtain ⟨j, -, hends'⟩ := (hfaulted fault).mp rfl
      cases (hends.unique hends').2

/-- A run that is completed shows the machine with which the program ends. -/
theorem Yields.eq_of_completed {clock clock' : σ} {o : Outcome} {steps : Nat} {m : Machine}
    (h : sandbox.Yields clock o clock') (hstatus : o.status = .completed)
    (hm : sandbox.after? steps = some m) (hend : sandbox.program.get? m.position = none) :
    o.tape = m.tape.visible ∧ o.output = m.output ∧ o.executed = min steps greatestCount := by
  obtain ⟨n', m', status, checks, hm', -, hcut, rfl, -⟩ := yields_iff.mp h
  have hcompleted : status = .completed := hstatus
  subst hcompleted
  have hhalts : sandbox.program.Halts sandbox.limits m' .completed :=
    Run.Cut.halts hcut (by simp)
  obtain ⟨rfl, rfl, -⟩ := (Program.Halts.completed hend).after?_unique hm hhalts hm'
  exact ⟨rfl, rfl, rfl⟩

/-- The text of a product leaves the product. It takes a step for every count before the loop, for
every round one for each count in it and four more, and two outside; the output stays empty. On a
fresh clock that goes on by a step, it is completed if the budget lets as many steps pass, and is
cut otherwise. -/
theorem product_loop_multiplies (hn : 1 ≤ n) (hcount : n ≤ 9223372036854775807)
    (hproduct : n * k ≤ 9223372036854775807)
    (hprogram : sandbox.program = .ofText (Program.productText n k))
    (hdepth : 1 ≤ sandbox.limits.loopDepth) :
    let steps := n + n * (k + 4) + 2
    sandbox.EndsAfter steps .completed ∧
      (∀ clock : σ, (∀ j < steps, sandbox.expiresAt clock j = false) →
        (∃ o clock', sandbox.Yields clock o clock') ∧
        ∀ o clock', sandbox.Yields clock o clock' →
          o.status = .completed ∧ o.tape = [0, ((n * k : Nat) : Int)] ∧ o.output = "" ∧
            o.executed = min steps greatestCount) ∧
      ∀ step : Duration, 0 < step.nanoseconds →
        (∃ o clock', sandbox.Yields (SteppingClock.new step) o clock') ∧
        ∀ o clock', sandbox.Yields (SteppingClock.new step) o clock' →
          (o.status = .completed ↔ steps ≤
            (sandbox.session.timeout.nanoseconds + step.nanoseconds - 1) / step.nanoseconds - 1) ∧
          (o.status = .timedOut ↔ ¬ steps ≤
            (sandbox.session.timeout.nanoseconds + step.nanoseconds - 1) / step.nanoseconds - 1) ∧
          (o.status = .completed → o.tape = [0, ((n * k : Nat) : Int)] ∧ o.output = "" ∧
            o.executed = min steps greatestCount) := by
  intro steps
  obtain ⟨last, hlast, hshows⟩ : ∃ m, sandbox.after? steps = some m ∧
      m.Shows ⟨n + k + 6, #[], Tape.secondCell, 0, (n * k : Nat)⟩ :=
    Program.leads_productText hprogram hn (Int.ofNat_le.mpr hcount) (Int.ofNat_le.mpr hproduct)
      hdepth sandbox.machine (.start _)
  have hend : sandbox.program.get? last.position = none := by
    rw [hshows.position, Program.get?_eq_none_iff, hprogram, Program.size_ofText,
      Program.productText, String.length_ofList]
    simp only [List.length_append, List.length_cons, List.length_replicate, List.length_nil]
    omega
  have htape : last.tape.visible = [0, ((n * k : Nat) : Int)] := hshows.visible rfl
  have hends : sandbox.EndsAfter steps .completed := ⟨last, hlast, .completed hend⟩
  refine ⟨hends, ?_, ?_⟩
  · intro clock hbudget
    have hyields := yields_iff.mpr ⟨steps, last, _, _, hlast, hbudget, .completed hend, rfl, rfl⟩
    refine ⟨⟨_, _, hyields⟩, ?_⟩
    intro o clock' h
    obtain ⟨rfl, -⟩ := h.unique hyields
    exact ⟨rfl, htape, hshows.output, rfl⟩
  · intro step hstep
    obtain ⟨bound, o, ho⟩ := exists_outcome?_of_expiresAt
      ((expiresAt_new_iff hstep _).mpr (Nat.le_refl _))
    obtain ⟨clock', hrun⟩ := outcome?_eq_some_iff.mp ho
    refine ⟨⟨o, clock', bound, hrun⟩, ?_⟩
    intro o clock' h
    obtain ⟨hcompleted, htimedOut⟩ := h.status_of_endsAfter hstep hends
    refine ⟨hcompleted, htimedOut, ?_⟩
    intro hstatus
    obtain ⟨hshown, houtput, hexecuted⟩ := h.eq_of_completed hstatus hlast hend
    exact ⟨hshown.trans htape, houtput.trans hshows.output, hexecuted⟩

/-- Two rounds of three take eighteen steps. They fit into a budget of nineteen readings, and one of
eighteen cuts them. -/
theorem product_loop_multiplies_two_by_three :
    let inTime := ofText (Program.productText 2 3)
      { timeout := .ofMilliseconds 19, startedAt := .zero, input := [], debug := false }
    let late := ofText (Program.productText 2 3)
      { timeout := .ofMilliseconds 18, startedAt := .zero, input := [], debug := false }
    1 ≤ inTime.limits.loopDepth ∧
      (∀ j < 18, inTime.expiresAt (SteppingClock.new .zero) j = false) ∧
      (∃ o clock', inTime.Yields (SteppingClock.new .zero) o clock' ∧ o.status = .completed ∧
        o.tape = [0, 6] ∧ o.output = "" ∧ o.executed = 18) ∧
      (∃ o clock', inTime.Yields SteppingClock.perMillisecond o clock' ∧
        o.status = .completed ∧ o.tape = [0, 6]) ∧
      ∃ o clock', late.Yields SteppingClock.perMillisecond o clock' ∧ o.status = .timedOut := by
  intro inTime late
  have hdepth : 1 ≤ inTime.limits.loopDepth := by decide
  have hstep : 0 < (Duration.ofMilliseconds 1).nanoseconds := by decide
  have hbudget : ∀ j < 18, inTime.expiresAt (SteppingClock.new .zero) j = false :=
    fun j _ => expiresAt_standing (by decide) j
  obtain ⟨-, hstanding, hstepping⟩ := @product_loop_multiplies SteppingClock _ inTime 2 3
    (by decide) (by decide) (by decide) rfl hdepth
  obtain ⟨-, -, hcut⟩ := @product_loop_multiplies SteppingClock _ late 2 3
    (by decide) (by decide) (by decide) rfl hdepth
  refine ⟨hdepth, hbudget, ?_, ?_, ?_⟩
  · obtain ⟨⟨o, clock', hyields⟩, hout⟩ := hstanding _ hbudget
    obtain ⟨hstatus, htape, houtput, hexecuted⟩ := hout o clock' hyields
    exact ⟨o, clock', hyields, hstatus, htape, houtput, hexecuted⟩
  · obtain ⟨⟨o, clock', hyields⟩, hout⟩ := hstepping _ hstep
    obtain ⟨hcompleted, -, hshown⟩ := hout o clock' hyields
    have hstatus := hcompleted.mpr (by decide)
    exact ⟨o, clock', hyields, hstatus, (hshown hstatus).1⟩
  · obtain ⟨⟨o, clock', hyields⟩, hout⟩ := hcut _ hstep
    obtain ⟨-, htimedOut, -⟩ := hout o clock' hyields
    exact ⟨o, clock', hyields, htimedOut.mpr (by decide)⟩

end Sandbox

end TapeMachine
