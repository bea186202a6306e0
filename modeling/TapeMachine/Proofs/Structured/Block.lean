import TapeMachine.Brackets

/-!
A program as a tree. A text whose brackets match is a block: signs that are no brackets, and loops
around further blocks. The parser reads the text from its end, so that the block behind a loop start
is already there when the start is read; it accepts exactly the texts whose brackets match, and a
text is the one way to write its block.
-/

namespace TapeMachine

inductive Basic where
  | increment
  | decrement
  | moveRight
  | moveLeft
  | output
  | input
  | nop
  deriving DecidableEq

def Basic.instruction : Basic → Instruction
  | increment => .increment
  | decrement => .decrement
  | moveRight => .moveRight
  | moveLeft => .moveLeft
  | output => .output
  | input => .input
  | nop => .nop

def Instruction.basic? : Instruction → Option Basic
  | increment => some .increment
  | decrement => some .decrement
  | moveRight => some .moveRight
  | moveLeft => some .moveLeft
  | output => some .output
  | input => some .input
  | nop => some .nop
  | loopStart => none
  | loopEnd => none

inductive Block where
  | done
  | basic (first : Basic) (rest : Block)
  | loop (body rest : Block)
  deriving DecidableEq

theorem Instruction.exists_basic {i : Instruction} (hstart : i ≠ .loopStart)
    (hend : i ≠ .loopEnd) : ∃ first : Basic, i = first.instruction := by
  cases i with
  | increment => exact ⟨.increment, rfl⟩
  | decrement => exact ⟨.decrement, rfl⟩
  | moveRight => exact ⟨.moveRight, rfl⟩
  | moveLeft => exact ⟨.moveLeft, rfl⟩
  | output => exact ⟨.output, rfl⟩
  | input => exact ⟨.input, rfl⟩
  | nop => exact ⟨.nop, rfl⟩
  | loopStart => exact absurd rfl hstart
  | loopEnd => exact absurd rfl hend

namespace Block

def text : Block → List Instruction
  | done => []
  | basic first rest => first.instruction :: rest.text
  | loop body rest => .loopStart :: (body.text ++ .loopEnd :: rest.text)

/-- How many loops of a block are inside one another. -/
def depth : Block → Nat
  | done => 0
  | basic _ rest => rest.depth
  | loop body rest => max (body.depth + 1) rest.depth

def append : Block → Block → Block
  | done, other => other
  | basic first rest, other => .basic first (rest.append other)
  | loop body rest, other => .loop body (rest.append other)

/-- Puts one instruction in front of a block and of the blocks that stand behind loop ends still
without a start. -/
def attach : Instruction → Block × List Block → Option (Block × List Block)
  | .loopEnd, (block, outer) => some (.done, block :: outer)
  | .loopStart, (body, rest :: outer) => some (.loop body rest, outer)
  | .loopStart, (_, []) => none
  | i, (block, outer) => i.basic?.map fun first => (.basic first block, outer)

/-- The block that a text begins with, and those behind its loop ends without a start. -/
def pieces? : List Instruction → Option (Block × List Block)
  | [] => some (.done, [])
  | i :: rest => (pieces? rest).bind (attach i)

def parse? (instructions : List Instruction) : Option Block :=
  match pieces? instructions with
  | some (block, []) => some block
  | _ => none

@[simp] theorem append_done (b : Block) : b.append .done = b := by
  induction b with
  | done => rfl
  | basic first rest ih => rw [append, ih]
  | loop body rest _ ih => rw [append, ih]

theorem attach_basic (first : Basic) (block : Block) (outer : List Block) :
    attach first.instruction (block, outer) = some (.basic first block, outer) := by
  cases first <;> rfl

theorem attach_eq_some {i : Instruction} {block block' : Block} {outer outer' : List Block}
    (h : attach i (block, outer) = some (block', outer')) :
    (i = .loopEnd ∧ block' = .done ∧ outer' = block :: outer) ∨
      (∃ rest, i = .loopStart ∧ outer = rest :: outer' ∧ block' = .loop block rest) ∨
      (∃ first : Basic, i = first.instruction ∧ block' = .basic first block ∧ outer' = outer) := by
  by_cases hend : i = .loopEnd
  · subst i
    cases h
    exact .inl ⟨rfl, rfl, rfl⟩
  by_cases hstart : i = .loopStart
  · subst i
    cases outer with
    | nil => cases h
    | cons rest outer =>
        cases h
        exact .inr (.inl ⟨rest, rfl, rfl, rfl⟩)
  · obtain ⟨first, rfl⟩ := Instruction.exists_basic hstart hend
    rw [attach_basic] at h
    cases h
    exact .inr (.inr ⟨first, rfl, rfl, rfl⟩)

/-- The pieces of a text, written one after the other with the loop ends between them, are the
text. -/
theorem text_of_pieces? {instructions : List Instruction} {block : Block} {outer : List Block}
    (h : pieces? instructions = some (block, outer)) :
    block.text ++ outer.flatMap (fun rest => .loopEnd :: rest.text) = instructions := by
  induction instructions generalizing block outer with
  | nil =>
      cases h
      rfl
  | cons i tail ih =>
      obtain ⟨⟨block', outer'⟩, hpieces, hattach⟩ := Option.bind_eq_some_iff.mp h
      have htail := ih hpieces
      rcases attach_eq_some hattach with ⟨rfl, rfl, rfl⟩ | ⟨rest, rfl, rfl, rfl⟩ |
        ⟨first, rfl, rfl, rfl⟩
      · simp [text, htail]
      · simpa [text] using htail
      · simp [text, htail]

theorem pieces?_text_append (b : Block) {tail : List Instruction} {block : Block}
    {outer : List Block} (h : pieces? tail = some (block, outer)) :
    pieces? (b.text ++ tail) = some (b.append block, outer) := by
  induction b generalizing tail block outer with
  | done => exact h
  | basic first rest ih =>
      rw [text, List.cons_append, pieces?, ih h]
      exact attach_basic _ _ _
  | loop body rest ihbody ihrest =>
      have hend : pieces? (.loopEnd :: (rest.text ++ tail)) =
          some (.done, rest.append block :: outer) := by
        rw [pieces?, ihrest h]
        rfl
      have hbody := ihbody hend
      rw [append_done] at hbody
      rw [text, List.cons_append, List.append_assoc, List.cons_append, pieces?, hbody]
      rfl

/-- A text is parsed as a block exactly when it is how the block is written. -/
theorem parse?_eq_some_iff {instructions : List Instruction} {b : Block} :
    parse? instructions = some b ↔ b.text = instructions := by
  constructor
  · intro h
    unfold parse? at h
    split at h
    · next block hpieces =>
        cases h
        simpa using text_of_pieces? hpieces
    · cases h
  · rintro rfl
    have hpieces : pieces? (b.text ++ []) = some (b.append .done, []) := pieces?_text_append b rfl
    rw [List.append_nil, append_done] at hpieces
    simp [parse?, hpieces]

end Block

namespace Brackets

theorem unmatchedEnds_foldl_ne {instructions : List Instruction} {b : Brackets}
    (h : b.unmatchedEnds ≠ #[]) : (instructions.foldl read b).unmatchedEnds ≠ #[] := by
  induction instructions generalizing b with
  | nil => exact h
  | cons i tail ih =>
      apply ih
      cases i <;> simp only [read]
      all_goals try exact h
      split
      · simp
      · exact h

/-- Where a loop end closes something, there are as many pieces before an instruction as loops are
open, if there are after it. -/
theorem exists_attach {i : Instruction} {b : Brackets} {block : Block} {outer : List Block}
    (hclosed : i = .loopEnd → b.unmatchedStarts ≠ #[])
    (hlength : outer.length = (b.read i).unmatchedStarts.size) :
    ∃ block' outer', Block.attach i (block, outer) = some (block', outer') ∧
      outer'.length = b.unmatchedStarts.size := by
  by_cases hend : i = .loopEnd
  · subst i
    have hpos : 0 < b.unmatchedStarts.size := Array.size_pos_iff.mpr (hclosed rfl)
    have hempty : b.unmatchedStarts.isEmpty = false := by
      simpa [Array.isEmpty_iff] using hclosed rfl
    refine ⟨.done, block :: outer, rfl, ?_⟩
    simp only [read, hempty, Bool.false_eq_true, if_false, Array.size_pop] at hlength
    rw [List.length_cons, hlength]
    omega
  by_cases hstart : i = .loopStart
  · subst i
    simp only [read, Array.size_push] at hlength
    cases outer with
    | nil => simp at hlength
    | cons rest outer =>
        refine ⟨.loop block rest, outer, rfl, ?_⟩
        simpa using hlength
  · obtain ⟨first, rfl⟩ := Instruction.exists_basic hstart hend
    refine ⟨.basic first block, outer, Block.attach_basic _ _ _, ?_⟩
    cases first <;> exact hlength

/-- A reading that ends with all brackets matched has a piece of the text for every loop that was
open at its start. -/
theorem exists_pieces_of_isBalanced {instructions : List Instruction} {b : Brackets}
    (h : (instructions.foldl read b).isBalanced = true) :
    ∃ block outer, Block.pieces? instructions = some (block, outer) ∧
      outer.length = b.unmatchedStarts.size := by
  induction instructions generalizing b with
  | nil =>
      simp only [List.foldl_nil, isBalanced, Bool.and_eq_true, Array.isEmpty_iff] at h
      exact ⟨.done, [], rfl, by simp [h.1]⟩
  | cons i tail ih =>
      obtain ⟨block, outer, hpieces, hlength⟩ := ih h
      have hends : (tail.foldl read (b.read i)).unmatchedEnds = #[] := by
        simp only [List.foldl_cons, isBalanced, Bool.and_eq_true, Array.isEmpty_iff] at h
        exact h.2
      have hclosed : i = .loopEnd → b.unmatchedStarts ≠ #[] := by
        rintro rfl hempty
        have hstray : (b.read .loopEnd).unmatchedEnds ≠ #[] := by
          simp [read, hempty]
        exact unmatchedEnds_foldl_ne hstray hends
      obtain ⟨block', outer', hattach, hlength'⟩ := exists_attach hclosed hlength
      refine ⟨block', outer', ?_, hlength'⟩
      rw [Block.pieces?, hpieces]
      exact hattach

/-- Reading a block leaves the brackets before it as they were, and deepens them by its depth. -/
theorem foldl_read_text (block : Block) {b : Brackets}
    (h : b.unmatchedStarts.size ≤ b.maxDepth) :
    block.text.foldl read b =
      ⟨b.scanned + block.text.length, b.unmatchedStarts, b.unmatchedEnds,
        max b.maxDepth (b.unmatchedStarts.size + block.depth)⟩ := by
  induction block generalizing b with
  | done =>
      obtain ⟨scanned, starts, ends, maxDepth⟩ := b
      simp only [Block.text, List.foldl_nil, List.length_nil, Block.depth, Nat.add_zero]
      rw [Nat.max_eq_left h]
  | basic first rest ih =>
      obtain ⟨scanned, starts, ends, maxDepth⟩ := b
      have hread : read ⟨scanned, starts, ends, maxDepth⟩ first.instruction =
          ⟨scanned + 1, starts, ends, maxDepth⟩ := by
        cases first <;> rfl
      have hrest := @ih ⟨scanned + 1, starts, ends, maxDepth⟩ h
      rw [Block.text, List.foldl_cons, hread, hrest]
      simp only [List.length_cons, Block.depth, Brackets.mk.injEq, and_self, and_true]
      omega
  | loop body rest ihbody ihrest =>
      obtain ⟨scanned, starts, ends, maxDepth⟩ := b
      have hbody := @ihbody
        ⟨scanned + 1, starts.push scanned, ends, max maxDepth (starts.size + 1)⟩
        (by rw [Array.size_push]; exact Nat.le_max_right _ _)
      have hend : read ⟨scanned + 1 + body.text.length, starts.push scanned, ends,
            max (max maxDepth (starts.size + 1)) ((starts.push scanned).size + body.depth)⟩
            .loopEnd =
          ⟨scanned + 1 + body.text.length + 1, starts, ends,
            max (max maxDepth (starts.size + 1)) ((starts.push scanned).size + body.depth)⟩ := by
        simp [read]
      have hrest := @ihrest
        ⟨scanned + 1 + body.text.length + 1, starts, ends,
          max (max maxDepth (starts.size + 1)) ((starts.push scanned).size + body.depth)⟩
        (by simp only at h ⊢; omega)
      rw [Block.text, List.foldl_cons, List.foldl_append, List.foldl_cons]
      refine Eq.trans (congrArg (fun b => rest.text.foldl read (b.read .loopEnd)) hbody) ?_
      refine Eq.trans (congrArg (rest.text.foldl read) hend) ?_
      rw [hrest]
      simp only [List.length_cons, List.length_append, Array.size_push, Block.depth,
        Brackets.mk.injEq, true_and]
      omega

end Brackets

namespace Program

theorem exists_block_of_isBalanced {program : Program} (h : program.brackets.isBalanced = true) :
    ∃ block, Block.parse? program.instructions.toList = some block ∧
      block.text = program.instructions.toList ∧
      block.depth = program.brackets.maxDepth := by
  obtain ⟨block, outer, hpieces, hlength⟩ := Brackets.exists_pieces_of_isBalanced h
  have houter : outer = [] := List.eq_nil_of_length_eq_zero hlength
  subst outer
  have hparse : Block.parse? program.instructions.toList = some block := by
    simp [Block.parse?, hpieces]
  have htext := Block.parse?_eq_some_iff.mp hparse
  refine ⟨block, hparse, htext, ?_⟩
  have hread := @Brackets.foldl_read_text block .empty (Nat.le_refl 0)
  rw [brackets, Brackets.ofInstructions, ← htext, hread]
  simp [Brackets.empty]

end Program

end TapeMachine
