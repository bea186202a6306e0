import TapeMachine.Machine
import TapeMachine.Outcome
import TapeMachine.Proofs.Structured.Block

/-!
What a block means, with neither jumps nor a stack. A block is carried out from left to right. A
loop carries its body out once, and once more as long as the cell under the head is not zero
afterwards. Positions occur only to name the instruction that faults.

A result is a finite derivation. Carrying out for ever has rules of its own, so that a block which
has no result for want of a rule would show.
-/

namespace TapeMachine

structure Store where
  tape : Tape
  output : String
  input : List Char

namespace Store

def start (input : List Char) : Store where
  tape := .blank
  output := ""
  input := input

/-- How many characters were printed, as far as a counter goes. -/
def printed (s : Store) : Nat :=
  min s.output.length greatestCount

/-- One instruction that is no bracket, under a limit on the output. -/
def perform (limit : Option Nat) (position : Nat) (s : Store) : Basic → Except Fault Store
  | .increment =>
      if s.tape.current < Tape.greatestCell then
        .ok { s with tape := s.tape.write (s.tape.current + 1) }
      else .error (.cellOverflow position s.tape.head.val)
  | .decrement =>
      if Tape.leastCell < s.tape.current then
        .ok { s with tape := s.tape.write (s.tape.current - 1) }
      else .error (.cellOverflow position s.tape.head.val)
  | .moveRight =>
      if s.tape.atEnd then .error (.tapeExhausted position s.tape.head.val)
      else .ok { s with tape := s.tape.right }
  | .moveLeft => .ok { s with tape := s.tape.left }
  | .output =>
      match charOfCell? s.tape.current, limit with
      | none, _ => .error (.notACharacter position s.tape.current)
      | some c, none => .ok { s with output := s.output.push c }
      | some c, some limit =>
          if s.printed < limit then .ok { s with output := s.output.push c }
          else .error (.outputFull position limit)
  | .input =>
      match s.input with
      | [] => .ok s
      | c :: rest => .ok { s with tape := s.tape.write (c.toNat : Int), input := rest }
  | .nop => .ok s

end Store

namespace Block

/-- A block that begins at a position takes one store to another, and ends there with a status. -/
inductive Runs (limit : Option Nat) : Nat → Block → Store → Status → Store → Prop where
  | done {p : Nat} {s : Store} : Runs limit p .done s .completed s
  | basic {p : Nat} {first : Basic} {rest : Block} {s s' s'' : Store} {status : Status}
      (now : s.perform limit p first = .ok s')
      (later : Runs limit (p + 1) rest s' status s'') :
      Runs limit p (.basic first rest) s status s''
  | basicFault {p : Nat} {first : Basic} {rest : Block} {s : Store} {fault : Fault}
      (now : s.perform limit p first = .error fault) :
      Runs limit p (.basic first rest) s (.faulted fault) s
  | loopFault {p : Nat} {body rest : Block} {s s' : Store} {fault : Fault}
      (round : Runs limit (p + 1) body s (.faulted fault) s') :
      Runs limit p (.loop body rest) s (.faulted fault) s'
  | again {p : Nat} {body rest : Block} {s s' s'' : Store} {status : Status}
      (round : Runs limit (p + 1) body s .completed s') (nonzero : s'.tape.current ≠ 0)
      (later : Runs limit p (.loop body rest) s' status s'') :
      Runs limit p (.loop body rest) s status s''
  | leave {p : Nat} {body rest : Block} {s s' s'' : Store} {status : Status}
      (round : Runs limit (p + 1) body s .completed s') (zero : s'.tape.current = 0)
      (later : Runs limit (p + (body.text.length + 2)) rest s' status s'') :
      Runs limit p (.loop body rest) s status s''

/-- The ways in which a block that is carried out for ever begins: some part of it goes on for ever,
and what comes before that part is completed. -/
inductive GoesOn (limit : Option Nat) (D : Nat → Block → Store → Prop) :
    Nat → Block → Store → Prop where
  | basic {p : Nat} {first : Basic} {rest : Block} {s s' : Store}
      (now : s.perform limit p first = .ok s') (later : D (p + 1) rest s') :
      GoesOn limit D p (.basic first rest) s
  | inside {p : Nat} {body rest : Block} {s : Store} (round : D (p + 1) body s) :
      GoesOn limit D p (.loop body rest) s
  | again {p : Nat} {body rest : Block} {s s' : Store}
      (round : Runs limit (p + 1) body s .completed s') (nonzero : s'.tape.current ≠ 0)
      (later : D p (.loop body rest) s') :
      GoesOn limit D p (.loop body rest) s
  | leave {p : Nat} {body rest : Block} {s s' : Store}
      (round : Runs limit (p + 1) body s .completed s') (zero : s'.tape.current = 0)
      (later : D (p + (body.text.length + 2)) rest s') :
      GoesOn limit D p (.loop body rest) s

/-- A block is carried out for ever: it goes on, and so does every part that it goes on with. -/
def Diverges (limit : Option Nat) (p : Nat) (b : Block) (s : Store) : Prop :=
  ∃ D : Nat → Block → Store → Prop, D p b s ∧ ∀ p b s, D p b s → GoesOn limit D p b s

variable {limit : Option Nat} {p : Nat} {b : Block} {s s' : Store} {status : Status}

theorem Runs.ne_timedOut (h : Runs limit p b s status s') : status ≠ .timedOut := by
  induction h with
  | done => simp
  | basic now later ih => exact ih
  | basicFault now => simp
  | loopFault round ih => simp
  | again round nonzero later ihround ihlater => exact ihlater
  | leave round zero later ihround ihlater => exact ihlater

theorem Runs.unique {status₁ status₂ : Status} {s₁ s₂ : Store}
    (h₁ : Runs limit p b s status₁ s₁) (h₂ : Runs limit p b s status₂ s₂) :
    status₁ = status₂ ∧ s₁ = s₂ := by
  induction h₁ generalizing status₂ s₂ with
  | done =>
      cases h₂
      exact ⟨rfl, rfl⟩
  | basic now later ih =>
      cases h₂ with
      | basic now' later' =>
          rw [now] at now'
          cases now'
          exact ih later'
      | basicFault now' => simp [now] at now'
  | basicFault now =>
      cases h₂ with
      | basic now' later' => simp [now] at now'
      | basicFault now' =>
          rw [now] at now'
          cases now'
          exact ⟨rfl, rfl⟩
  | loopFault round ih =>
      cases h₂ with
      | loopFault round' => exact ih round'
      | again round' nonzero' later' => exact absurd (ih round').1 (by simp)
      | leave round' zero' later' => exact absurd (ih round').1 (by simp)
  | again round nonzero later ihround ihlater =>
      cases h₂ with
      | loopFault round' => exact absurd (ihround round').1 (by simp)
      | again round' nonzero' later' =>
          obtain ⟨-, rfl⟩ := ihround round'
          exact ihlater later'
      | leave round' zero' later' =>
          obtain ⟨-, rfl⟩ := ihround round'
          exact absurd zero' nonzero
  | leave round zero later ihround ihlater =>
      cases h₂ with
      | loopFault round' => exact absurd (ihround round').1 (by simp)
      | again round' nonzero' later' =>
          obtain ⟨-, rfl⟩ := ihround round'
          exact absurd zero nonzero'
      | leave round' zero' later' =>
          obtain ⟨-, rfl⟩ := ihround round'
          exact ihlater later'

theorem Runs.not_of_goesOn {D : Nat → Block → Store → Prop}
    (hD : ∀ p b s, D p b s → GoesOn limit D p b s) (h : Runs limit p b s status s') :
    ¬ D p b s := by
  induction h with
  | done =>
      intro hgoes
      cases hD _ _ _ hgoes
  | basic now later ih =>
      intro hgoes
      cases hD _ _ _ hgoes with
      | basic now' later' =>
          rw [now] at now'
          cases now'
          exact ih later'
  | basicFault now =>
      intro hgoes
      cases hD _ _ _ hgoes with
      | basic now' later' => simp [now] at now'
  | loopFault round ih =>
      intro hgoes
      cases hD _ _ _ hgoes with
      | inside round' => exact ih round'
      | again round' nonzero' later' => exact absurd (round.unique round').1 (by simp)
      | leave round' zero' later' => exact absurd (round.unique round').1 (by simp)
  | again round nonzero later ihround ihlater =>
      intro hgoes
      cases hD _ _ _ hgoes with
      | inside round' => exact ihround round'
      | again round' nonzero' later' =>
          obtain ⟨-, rfl⟩ := round.unique round'
          exact ihlater later'
      | leave round' zero' later' =>
          obtain ⟨-, rfl⟩ := round.unique round'
          exact absurd zero' nonzero
  | leave round zero later ihround ihlater =>
      intro hgoes
      cases hD _ _ _ hgoes with
      | inside round' => exact ihround round'
      | again round' nonzero' later' =>
          obtain ⟨-, rfl⟩ := round.unique round'
          exact absurd zero nonzero'
      | leave round' zero' later' =>
          obtain ⟨-, rfl⟩ := round.unique round'
          exact ihlater later'

/-- The rules are never at a loss: what has no result goes on. -/
theorem goesOn_of_not_runs (h : ¬ ∃ status s', Runs limit p b s status s') :
    GoesOn limit (fun p b s => ¬ ∃ status s', Runs limit p b s status s') p b s := by
  cases b with
  | done => exact absurd ⟨_, _, .done⟩ h
  | basic first rest =>
      cases hnow : s.perform limit p first with
      | error fault => exact absurd ⟨_, _, .basicFault hnow⟩ h
      | ok s' =>
          refine .basic hnow ?_
          rintro ⟨status, s'', hlater⟩
          exact h ⟨status, s'', .basic hnow hlater⟩
  | loop body rest =>
      by_cases hround : ∃ status s', Runs limit (p + 1) body s status s'
      · obtain ⟨status, s', hround⟩ := hround
        cases status with
        | timedOut => exact absurd rfl hround.ne_timedOut
        | faulted fault => exact absurd ⟨_, _, .loopFault hround⟩ h
        | completed =>
            by_cases hcell : s'.tape.current = 0
            · refine .leave hround hcell ?_
              rintro ⟨status, s'', hlater⟩
              exact h ⟨status, s'', .leave hround hcell hlater⟩
            · refine .again hround hcell ?_
              rintro ⟨status, s'', hlater⟩
              exact h ⟨status, s'', .again hround hcell hlater⟩
      · exact .inside hround

/-- A block is carried out for ever exactly when it has no result. -/
theorem diverges_iff (limit : Option Nat) (p : Nat) (b : Block) (s : Store) :
    Diverges limit p b s ↔ ¬ ∃ status s', Runs limit p b s status s' := by
  constructor
  · rintro ⟨D, hb, hD⟩ ⟨status, s', hruns⟩
    exact hruns.not_of_goesOn hD hb
  · intro h
    exact ⟨_, h, fun _ _ _ => goesOn_of_not_runs⟩

end Block

end TapeMachine
