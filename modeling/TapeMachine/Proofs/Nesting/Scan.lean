import TapeMachine.Brackets

/-!
What a left-to-right reading of the brackets has found before each position: the loops open there,
the loop ends that closed nothing, and the depth so far. The open loops at a position contain, as a
front part, the open loops right after each of their own starts. This is why a machine that jumps
back to a loop start needs no record of the loops that were open there.
-/

namespace TapeMachine

namespace Program

variable {program : Program} {i : Instruction} {p q : Nat}

/-- Positions of the loops open before a position, the innermost last. -/
def openBefore (program : Program) (p : Nat) : List Nat :=
  (program.bracketsBefore p).unmatchedStarts.toList

def strayBefore (program : Program) (p : Nat) : List Nat :=
  (program.bracketsBefore p).unmatchedEnds.toList

/-- The largest number of loops open at one time before a position. -/
def depthBefore (program : Program) (p : Nat) : Nat :=
  (program.bracketsBefore p).maxDepth

/-- The loop start that a reading of the brackets closes at a loop end. -/
def partner? (program : Program) (p : Nat) : Option Nat :=
  if program.get? p = some .loopEnd then (program.openBefore p).getLast? else none

theorem lt_size_of_get? (h : program.get? p = some i) : p < program.size := by
  apply Nat.lt_of_not_le
  intro hle
  rw [get?_eq_none_iff.mpr hle] at h
  cases h

theorem bracketsBefore_succ (h : program.get? p = some i) :
    program.bracketsBefore (p + 1) = (program.bracketsBefore p).read i := by
  have htake : program.instructions.toList.take (p + 1) =
      program.instructions.toList.take p ++ [i] := by
    have hlist : program.instructions.toList[p]? = some i := by
      simpa [get?] using h
    rw [List.take_add_one, hlist]
    rfl
  rw [bracketsBefore, htake, Brackets.ofInstructions_concat]
  rfl

theorem bracketsBefore_of_size_le (h : program.size ≤ p) :
    program.bracketsBefore p = program.brackets := by
  have hlength : program.instructions.toList.length ≤ p := h
  rw [bracketsBefore, List.take_of_length_le hlength, brackets]

theorem bracketsBefore_succ_of_end (h : program.get? p = none) :
    program.bracketsBefore (p + 1) = program.bracketsBefore p := by
  have hle := get?_eq_none_iff.mp h
  rw [bracketsBefore_of_size_le hle, bracketsBefore_of_size_le (Nat.le_succ_of_le hle)]

theorem scanned_bracketsBefore (h : p ≤ program.size) :
    (program.bracketsBefore p).scanned = p := by
  induction p with
  | zero => rfl
  | succ p ih =>
      obtain ⟨i, hget⟩ : ∃ i, program.get? p = some i := by
        apply Option.ne_none_iff_exists'.mp
        intro hnone
        have hle := get?_eq_none_iff.mp hnone
        omega
      rw [bracketsBefore_succ hget, Brackets.scanned_read, ih (by omega)]

@[simp] theorem openBefore_zero (program : Program) : program.openBefore 0 = [] := rfl

@[simp] theorem strayBefore_zero (program : Program) : program.strayBefore 0 = [] := rfl

@[simp] theorem depthBefore_zero (program : Program) : program.depthBefore 0 = 0 := rfl

theorem openBefore_succ (program : Program) (p : Nat) :
    program.openBefore (p + 1) =
      match program.get? p with
      | some .loopStart => program.openBefore p ++ [p]
      | some .loopEnd => (program.openBefore p).dropLast
      | _ => program.openBefore p := by
  unfold openBefore
  cases hget : program.get? p with
  | none => rw [bracketsBefore_succ_of_end hget]
  | some i =>
      have hscanned := scanned_bracketsBefore (Nat.le_of_lt (lt_size_of_get? hget))
      rw [bracketsBefore_succ hget]
      cases i <;> simp only [Brackets.read, hscanned, Array.toList_push]
      split
      · next hempty => simp [Array.isEmpty_iff.mp hempty]
      · simp

theorem strayBefore_succ (program : Program) (p : Nat) :
    program.strayBefore (p + 1) =
      if program.get? p = some .loopEnd ∧ program.openBefore p = []
      then program.strayBefore p ++ [p] else program.strayBefore p := by
  unfold openBefore strayBefore
  cases hget : program.get? p with
  | none => simp [bracketsBefore_succ_of_end hget]
  | some i =>
      have hscanned := scanned_bracketsBefore (Nat.le_of_lt (lt_size_of_get? hget))
      rw [bracketsBefore_succ hget]
      cases i <;> simp [Brackets.read]
      split <;> simp [hscanned]

theorem depthBefore_succ (program : Program) (p : Nat) :
    program.depthBefore (p + 1) =
      if program.get? p = some .loopStart
      then max (program.depthBefore p) ((program.openBefore p).length + 1)
      else program.depthBefore p := by
  unfold openBefore depthBefore
  cases hget : program.get? p with
  | none => simp [bracketsBefore_succ_of_end hget]
  | some i =>
      rw [bracketsBefore_succ hget]
      cases i <;> simp [Brackets.read]
      split <;> rfl

/-- Every open loop has its start earlier in the text, and going back to right after that start
leaves open the loops up to this one. -/
theorem openBefore_after_start {j s : Nat} (h : (program.openBefore p)[j]? = some s) :
    s < p ∧ program.get? s = some .loopStart ∧
      program.openBefore (s + 1) = (program.openBefore p).take (j + 1) := by
  induction p with
  | zero => simp at h
  | succ p ih =>
      have hsucc := program.openBefore_succ p
      split at hsucc
      · next hstart =>
          rw [hsucc] at h ⊢
          rcases Nat.lt_or_ge j (program.openBefore p).length with hlt | hge
          · rw [List.getElem?_append_left hlt] at h
            obtain ⟨hs, hget, hopen⟩ := ih h
            rw [List.take_append_of_le_length hlt]
            exact ⟨by omega, hget, hopen⟩
          · obtain ⟨hj, rfl⟩ : j = (program.openBefore p).length ∧ s = p := by
              have hbound := (List.getElem?_eq_some_iff.mp h).choose
              simp only [List.length_append, List.length_singleton] at hbound
              have hj : j = (program.openBefore p).length := by omega
              subst hj
              simpa using h.symm
            rw [hsucc, List.take_of_length_le (by simp [hj])]
            exact ⟨by omega, hstart, rfl⟩
      · rw [hsucc] at h ⊢
        rw [List.getElem?_dropLast] at h
        split at h
        · next hlt =>
            obtain ⟨hs, hget, hopen⟩ := ih h
            rw [List.dropLast_eq_take, List.take_take, Nat.min_eq_left (by omega)]
            exact ⟨by omega, hget, hopen⟩
        · cases h
      · rw [hsucc] at h ⊢
        obtain ⟨hs, hget, hopen⟩ := ih h
        exact ⟨by omega, hget, hopen⟩

/-- Going back to right after the innermost open start leaves the same loops open. -/
theorem openBefore_after_innermost {s : Nat} (h : (program.openBefore p).getLast? = some s) :
    s < p ∧ program.get? s = some .loopStart ∧
      program.openBefore (s + 1) = program.openBefore p := by
  rw [List.getLast?_eq_getElem?] at h
  obtain ⟨hs, hget, hopen⟩ := openBefore_after_start h
  rw [List.take_of_length_le (by omega)] at hopen
  exact ⟨hs, hget, hopen⟩

theorem mem_openBefore {s : Nat} (h : s ∈ program.openBefore p) :
    s < p ∧ program.get? s = some .loopStart := by
  obtain ⟨j, hj⟩ := List.mem_iff_getElem?.mp h
  obtain ⟨hs, hget, -⟩ := openBefore_after_start hj
  exact ⟨hs, hget⟩

theorem pairwise_openBefore (program : Program) (p : Nat) :
    (program.openBefore p).Pairwise (· < ·) := by
  induction p with
  | zero => simp
  | succ p ih =>
      have hsucc := program.openBefore_succ p
      split at hsucc
      · rw [hsucc]
        apply List.pairwise_append.mpr
        refine ⟨ih, List.pairwise_singleton _ _, ?_⟩
        intro s hs q hq
        simp only [List.mem_singleton] at hq
        subst q
        exact (mem_openBefore hs).1
      · rw [hsucc]
        exact ih.sublist (List.dropLast_sublist _)
      · rw [hsucc]
        exact ih

theorem mem_strayBefore_iff {e : Nat} :
    e ∈ program.strayBefore p ↔
      e < p ∧ program.get? e = some .loopEnd ∧ program.openBefore e = [] := by
  induction p with
  | zero => simp
  | succ p ih =>
      rw [strayBefore_succ]
      split
      · next hstray =>
          rw [List.mem_append, ih, List.mem_singleton]
          constructor
          · rintro (⟨hlt, hrest⟩ | rfl)
            · exact ⟨by omega, hrest⟩
            · exact ⟨by omega, hstray⟩
          · rintro ⟨hlt, hrest⟩
            rcases Nat.lt_succ_iff_lt_or_eq.mp hlt with hbefore | hhere
            · exact .inl ⟨hbefore, hrest⟩
            · exact .inr hhere
      · next hclosed =>
          rw [ih]
          constructor
          · rintro ⟨hlt, hrest⟩
            exact ⟨by omega, hrest⟩
          · rintro ⟨hlt, hrest⟩
            rcases Nat.lt_succ_iff_lt_or_eq.mp hlt with hbefore | rfl
            · exact ⟨hbefore, hrest⟩
            · exact absurd hrest hclosed

theorem depthBefore_le_iff {d : Nat} :
    program.depthBefore p ≤ d ↔
      ∀ q < p, program.get? q = some .loopStart → (program.openBefore q).length < d := by
  induction p with
  | zero => simp
  | succ p ih =>
      rw [depthBefore_succ]
      split
      · next hstart =>
          rw [Nat.max_le, ih]
          constructor
          · rintro ⟨hbefore, hhere⟩ q hq hget
            rcases Nat.lt_succ_iff_lt_or_eq.mp hq with hlt | rfl
            · exact hbefore q hlt hget
            · exact hhere
          · intro h
            exact ⟨fun q hq hget => h q (by omega) hget, h p (by omega) hstart⟩
      · next hother =>
          rw [ih]
          constructor
          · intro h q hq hget
            rcases Nat.lt_succ_iff_lt_or_eq.mp hq with hlt | rfl
            · exact h q hlt hget
            · exact absurd hget hother
          · intro h q hq hget
            exact h q (by omega) hget

theorem mem_unmatchedEnds_iff {e : Nat} :
    e ∈ program.brackets.unmatchedEnds ↔
      program.get? e = some .loopEnd ∧ program.openBefore e = [] := by
  rw [← bracketsBefore_of_size_le (Nat.le_refl program.size), ← Array.mem_toList_iff]
  refine mem_strayBefore_iff.trans ⟨fun h => h.2, fun h => ⟨lt_size_of_get? h.1, h⟩⟩

theorem maxDepth_le_iff {d : Nat} :
    program.brackets.maxDepth ≤ d ↔
      ∀ q, program.get? q = some .loopStart → (program.openBefore q).length < d := by
  rw [← bracketsBefore_of_size_le (Nat.le_refl program.size)]
  refine depthBefore_le_iff.trans ⟨fun h q hget => h q (lt_size_of_get? hget) hget, ?_⟩
  intro h q _ hget
  exact h q hget

end Program

end TapeMachine
