import Mathlib.Combinatorics.Enumerative.DyckWord
import TapeMachine.Proofs.Nesting.Balance
import TapeMachine.Proofs.Structured.Block

/-!
Which brackets belong together. A program whose brackets all match has the brackets of a Dyck word:
as many ends as starts, and never more ends than starts before a position. In any other program the
loop ends without a start stand before all loop starts without an end, and without both kinds the
brackets that are left match.
-/

namespace TapeMachine

/-- A loop start as a step up and a loop end as a step down. -/
def Instruction.bracket? : Instruction → Option DyckStep
  | .loopStart => some .U
  | .loopEnd => some .D
  | _ => none

/-- The brackets of a block, as a Dyck word. -/
def Block.dyckWord : Block → DyckWord
  | done => 0
  | basic _ rest => rest.dyckWord
  | loop body rest => body.dyckWord.nest + rest.dyckWord

theorem Block.toList_dyckWord (block : Block) :
    block.dyckWord.toList = block.text.filterMap Instruction.bracket? := by
  induction block with
  | done => rfl
  | basic first rest ih =>
      rw [dyckWord, text, ih]
      cases first <;> rfl
  | loop body rest ihbody ihrest =>
      have hword : (body.dyckWord.nest + rest.dyckWord).toList =
          ([.U] ++ body.dyckWord.toList ++ [.D]) ++ rest.dyckWord.toList := rfl
      rw [dyckWord, hword, ihbody, ihrest]
      simp [text, Instruction.bracket?]

theorem count_filterMap_bracket? (instructions : List Instruction) :
    (instructions.filterMap Instruction.bracket?).count .U = instructions.count .loopStart ∧
      (instructions.filterMap Instruction.bracket?).count .D = instructions.count .loopEnd := by
  induction instructions with
  | nil => exact ⟨rfl, rfl⟩
  | cons i rest ih => cases i <;> simp [List.filterMap_cons, Instruction.bracket?, ih]

namespace Program

/-- The brackets of a program, without all that stands between them. -/
def bracketWord (program : Program) : List DyckStep :=
  program.instructions.toList.filterMap Instruction.bracket?

/-- A program in which the brackets without a partner are comments. -/
def withoutUnmatched (program : Program) : Program where
  instructions := program.instructions.mapIdx fun p i =>
    if p ∈ program.brackets.unmatchedStarts ∨ p ∈ program.brackets.unmatchedEnds then .nop else i

variable {program : Program} {p : Nat}

theorem isBalanced_iff :
    program.brackets.isBalanced = true ↔
      (∀ s, s ∉ program.brackets.unmatchedStarts) ∧ ∀ e, e ∉ program.brackets.unmatchedEnds := by
  simp [Brackets.isBalanced, Array.isEmpty_iff, Array.eq_empty_iff_forall_not_mem]

section DyckWord

variable {w : DyckWord}

theorem balance_nonneg_of_dyckWord (hw : w.toList = program.bracketWord) (p : Nat) :
    0 ≤ program.balance p := by
  let front := (program.instructions.toList.take p).filterMap Instruction.bracket?
  have hfront : front <+: w.toList := by
    rw [hw]
    exact (List.take_prefix p _).filterMap _
  obtain ⟨hups, hdowns⟩ := count_filterMap_bracket? (program.instructions.toList.take p)
  have hle := w.count_D_le_count_U front.length
  rw [← List.prefix_iff_eq_take.mp hfront, hups, hdowns] at hle
  rw [balance]
  omega

theorem balance_size_of_dyckWord (hw : w.toList = program.bracketWord) :
    program.balance program.size = 0 := by
  have hequal := w.count_U_eq_count_D
  obtain ⟨hups, hdowns⟩ := count_filterMap_bracket? program.instructions.toList
  rw [hw, bracketWord, hups, hdowns] at hequal
  have hall : program.instructions.toList.take program.size = program.instructions.toList :=
    List.take_length
  rw [balance, hall]
  omega

end DyckWord

theorem isBalanced_iff_dyckWord :
    program.brackets.isBalanced = true ↔ ∃ w : DyckWord, w.toList = program.bracketWord := by
  constructor
  · intro h
    obtain ⟨block, -, htext, -⟩ := exists_block_of_isBalanced h
    exact ⟨block.dyckWord, by rw [block.toList_dyckWord, htext, bracketWord]⟩
  · rintro ⟨w, hw⟩
    have hnonneg := balance_nonneg_of_dyckWord hw
    apply isBalanced_iff.mpr
    constructor
    · intro s hs
      obtain ⟨hget, habove⟩ := mem_unmatchedStarts_iff_balance.mp hs
      have hend := habove program.size (lt_size_of_get? hget) (Nat.le_refl _)
      rw [balance_size_of_dyckWord hw] at hend
      exact Int.not_lt_of_ge (hnonneg s) hend
    · intro e he
      obtain ⟨-, hbelow⟩ := mem_unmatchedEnds_iff_balance.mp he
      have hstart := hbelow 0 (Nat.zero_le e)
      rw [balance_zero] at hstart
      exact Int.not_lt_of_ge (hnonneg (e + 1)) hstart

theorem get?_withoutUnmatched (program : Program) (p : Nat) :
    program.withoutUnmatched.get? p =
      (program.get? p).map fun i =>
        if p ∈ program.brackets.unmatchedStarts ∨ p ∈ program.brackets.unmatchedEnds then .nop
        else i := by
  simp [withoutUnmatched, get?]

theorem get?_withoutUnmatched_of_not_mem (hstart : p ∉ program.brackets.unmatchedStarts)
    (hend : p ∉ program.brackets.unmatchedEnds) :
    program.withoutUnmatched.get? p = program.get? p := by
  simp [get?_withoutUnmatched, hstart, hend]

theorem get?_withoutUnmatched_of_mem {i : Instruction} (hget : program.get? p = some i)
    (hmem : p ∈ program.brackets.unmatchedStarts ∨ p ∈ program.brackets.unmatchedEnds) :
    program.withoutUnmatched.get? p = some .nop := by
  simp [get?_withoutUnmatched, hget, hmem]

theorem get?_of_withoutUnmatched {i : Instruction} (h : program.withoutUnmatched.get? p = some i)
    (hi : i ≠ .nop) : program.get? p = some i ∧ p ∉ program.brackets.unmatchedEnds := by
  rw [get?_withoutUnmatched] at h
  obtain ⟨i', hget, hsame⟩ := Option.map_eq_some_iff.mp h
  split at hsame
  · exact absurd hsame.symm hi
  · next hmem =>
      rw [hget, hsame]
      exact ⟨rfl, fun hend => hmem (.inr hend)⟩

theorem not_mem_unmatchedStarts (h : program.get? p ≠ some .loopStart) :
    p ∉ program.brackets.unmatchedStarts :=
  fun hmem => h (get?_of_mem_unmatchedStarts hmem)

theorem not_mem_unmatchedEnds (h : program.get? p ≠ some .loopEnd) :
    p ∉ program.brackets.unmatchedEnds :=
  fun hmem => h (mem_unmatchedEnds_iff.mp hmem).1

/-- Without the brackets that have no partner, the same loops are open but for those without an
end. -/
theorem openBefore_withoutUnmatched (program : Program) (p : Nat) :
    program.withoutUnmatched.openBefore p =
      (program.openBefore p).filter fun s => s ∉ program.brackets.unmatchedStarts := by
  induction p with
  | zero => rfl
  | succ p ih =>
      have hsucc := program.withoutUnmatched.openBefore_succ p
      cases program.reading p with
      | opens here stack _ =>
          rw [stack, List.filter_append, ← ih]
          by_cases hunclosed : p ∈ program.brackets.unmatchedStarts
          · rw [get?_withoutUnmatched_of_mem here (.inl hunclosed)] at hsucc
            simp [hsucc, hunclosed]
          · have hends : p ∉ program.brackets.unmatchedEnds :=
              not_mem_unmatchedEnds (by simp [here])
            rw [get?_withoutUnmatched_of_not_mem hunclosed hends, here] at hsucc
            simp [hsucc, hunclosed]
      | closes here stack _ =>
          cases hinner : (program.openBefore p).getLast? with
          | none =>
              have hempty : program.openBefore p = [] := List.getLast?_eq_none_iff.mp hinner
              have hstray := mem_unmatchedEnds_iff.mpr ⟨here, hempty⟩
              rw [get?_withoutUnmatched_of_mem here (.inr hstray)] at hsucc
              simp [hsucc, ih, stack, hempty]
          | some s =>
              obtain ⟨rest, hrest⟩ := List.getLast?_eq_some_iff.mp hinner
              have hclosed := not_mem_unmatchedStarts_of_closed here hinner
              have hstarts : p ∉ program.brackets.unmatchedStarts :=
                not_mem_unmatchedStarts (by simp [here])
              have hends : p ∉ program.brackets.unmatchedEnds := by
                rw [mem_unmatchedEnds_iff, hrest]
                simp
              rw [get?_withoutUnmatched_of_not_mem hstarts hends, here] at hsucc
              simp [hsucc, ih, stack, hrest, hclosed]
      | passes noStart noEnd stack _ =>
          rw [get?_withoutUnmatched_of_not_mem (not_mem_unmatchedStarts noStart)
            (not_mem_unmatchedEnds noEnd)] at hsucc
          rw [stack, ← ih, hsucc]
          split
          · next hget => exact absurd hget noStart
          · next hget => exact absurd hget noEnd
          · rfl

theorem isBalanced_withoutUnmatched (program : Program) :
    program.withoutUnmatched.brackets.isBalanced = true := by
  apply isBalanced_iff.mpr
  constructor
  · intro s hs
    have hsize : program.withoutUnmatched.size = program.size := by
      simp [withoutUnmatched, size]
    rw [mem_unmatchedStarts_iff, openBefore_withoutUnmatched, hsize, List.mem_filter] at hs
    exact of_decide_eq_true hs.2 (mem_unmatchedStarts_iff.mpr hs.1)
  · intro e he
    obtain ⟨hend, hopen⟩ := mem_unmatchedEnds_iff.mp he
    obtain ⟨hget, hmatched⟩ := get?_of_withoutUnmatched hend (by simp)
    -- The loop that the end closes has both its brackets left.
    cases hinner : (program.openBefore e).getLast? with
    | none => exact hmatched (mem_unmatchedEnds_iff.mpr ⟨hget, List.getLast?_eq_none_iff.mp hinner⟩)
    | some s =>
        have hclosed := not_mem_unmatchedStarts_of_closed hget hinner
        rw [openBefore_withoutUnmatched, List.filter_eq_nil_iff] at hopen
        exact hopen s (List.mem_of_getLast? hinner) (decide_eq_true hclosed)

/-- What a reading of the brackets reports, in terms of the balance: the unmatched loop ends and
the unmatched loop starts, each in the order of the text, and the depth. The brackets all match
exactly if they are a Dyck word. Unmatched loop ends stand before all unmatched loop starts, and
the brackets that have a partner are as many starts as ends, nested like the loops of a block. -/
theorem brackets_match_balance (program : Program) :
    (program.brackets.unmatchedEnds.toList.Pairwise (· < ·) ∧
      ∀ e, e ∈ program.brackets.unmatchedEnds ↔
        program.get? e = some .loopEnd ∧
          ∀ i ≤ e, program.balance (e + 1) < program.balance i) ∧
    (program.brackets.unmatchedStarts.toList.Pairwise (· < ·) ∧
      ∀ s, s ∈ program.brackets.unmatchedStarts ↔
        program.get? s = some .loopStart ∧
          ∀ k, s < k → k ≤ program.size → program.balance s < program.balance k) ∧
    IsGreatest {rise : Int | ∃ i j, i ≤ j ∧ j ≤ program.size ∧
      rise = program.balance j - program.balance i} program.brackets.maxDepth ∧
    (program.brackets.isBalanced = true ↔ ∃ w : DyckWord, w.toList = program.bracketWord) ∧
    (∀ e ∈ program.brackets.unmatchedEnds, ∀ s ∈ program.brackets.unmatchedStarts, e < s) ∧
    program.withoutUnmatched.instructions.count .loopStart =
      program.withoutUnmatched.instructions.count .loopEnd ∧
    (∃ w : DyckWord, w.toList = program.withoutUnmatched.bracketWord) ∧
    ∃ block : Block, block.text = program.withoutUnmatched.instructions.toList := by
  have hmatched := program.isBalanced_withoutUnmatched
  obtain ⟨w, hw⟩ := isBalanced_iff_dyckWord.mp hmatched
  obtain ⟨block, -, htext, -⟩ := exists_block_of_isBalanced hmatched
  have hcount : program.withoutUnmatched.instructions.count .loopStart =
      program.withoutUnmatched.instructions.count .loopEnd := by
    obtain ⟨hups, hdowns⟩ :=
      count_filterMap_bracket? program.withoutUnmatched.instructions.toList
    rw [← Array.count_toList, ← Array.count_toList, ← hups, ← hdowns]
    have hequal := w.count_U_eq_count_D
    rw [hw] at hequal
    exact hequal
  exact ⟨⟨program.pairwise_unmatchedEnds, fun _ => mem_unmatchedEnds_iff_balance⟩,
    ⟨program.pairwise_unmatchedStarts, fun _ => mem_unmatchedStarts_iff_balance⟩,
    program.isGreatest_maxDepth, isBalanced_iff_dyckWord,
    fun _ he _ hs => unmatchedEnd_lt_unmatchedStart he hs, hcount, ⟨w, hw⟩, block, htext⟩

/-- A stray loop end, a loop without an end behind it, and a loop inside that. The depth starts
anew behind the stray end. -/
theorem brackets_match_balance_behind_stray_end :
    let program := Program.ofText "][[]"
    program.brackets.unmatchedEnds = #[0] ∧ program.brackets.unmatchedStarts = #[1] ∧
      program.balance 1 < program.balance 0 ∧
      (∀ k, 1 < k → k ≤ 4 → program.balance 1 < program.balance k) ∧
      (∃ i j, i ≤ j ∧ j ≤ 4 ∧ program.balance j - program.balance i = 2) ∧
      program.brackets.isBalanced = false ∧ (¬ ∃ w : DyckWord, w.toList = program.bracketWord) ∧
      ∃ w : DyckWord, w.toList = [.U, .D] := by
  intro program
  have hends : program.brackets.unmatchedEnds = #[0] := by decide
  have hstarts : program.brackets.unmatchedStarts = #[1] := by decide
  have hbalanced : program.brackets.isBalanced = false := by decide
  have hleft : program.withoutUnmatched.bracketWord = [.U, .D] := by decide +kernel
  obtain ⟨⟨-, hend⟩, ⟨-, hstart⟩, ⟨⟨i, j, hij, hj, hrise⟩, -⟩, hword, -, -, ⟨w, hw⟩, -⟩ :=
    brackets_match_balance program
  have hbelow := ((hend 0).mp (by simp [hends])).2 0 (Nat.le_refl 0)
  have habove := ((hstart 1).mp (by simp [hstarts])).2
  rw [hbalanced] at hword
  exact ⟨hends, hstarts, hbelow, habove, ⟨i, j, hij, hj, hrise.symm⟩, hbalanced,
    fun h => Bool.false_ne_true (hword.mpr h), w, hw.trans hleft⟩

end Program

end TapeMachine
