import Mathlib.Order.Bounds.Basic
import TapeMachine.Proofs.Nesting.Unclosed

/-!
What a reading of the brackets finds, said without a stack. The balance before a position is how
many more loop starts than loop ends stand before it. The stack of a reading is as high as the
balance is above its lowest value so far. A loop end is unmatched if it takes the balance below all
that it was before, a loop start if the balance never comes back to what it was before it, and the
depth is the greatest rise of the balance.
-/

namespace TapeMachine

namespace Program

/-- How many more loop starts than loop ends there are before a position. -/
def balance (program : Program) (p : Nat) : Int :=
  (program.instructions.toList.take p).count .loopStart -
    (program.instructions.toList.take p).count .loopEnd

variable {program : Program} {p q e s k : Nat}

@[simp] theorem balance_zero (program : Program) : program.balance 0 = 0 := by
  simp [balance]

theorem balance_succ (program : Program) (p : Nat) :
    program.balance (p + 1) = program.balance p +
      match program.get? p with
      | some .loopStart => 1
      | some .loopEnd => -1
      | _ => 0 := by
  have htake : program.instructions.toList.take (p + 1) =
      program.instructions.toList.take p ++ (program.get? p).toList := by
    rw [List.take_add_one]
    simp [get?]
  rw [balance, htake, List.count_append, List.count_append, balance]
  cases program.get? p with
  | none => simp
  | some i => cases i <;> simp <;> omega

/-- What reading one more instruction does to the open loops and to the balance. -/
inductive Reading (program : Program) (p : Nat) : Prop where
  | opens (here : program.get? p = some .loopStart)
      (stack : program.openBefore (p + 1) = program.openBefore p ++ [p])
      (level : program.balance (p + 1) = program.balance p + 1)
  | closes (here : program.get? p = some .loopEnd)
      (stack : program.openBefore (p + 1) = (program.openBefore p).dropLast)
      (level : program.balance (p + 1) = program.balance p - 1)
  | passes (noStart : program.get? p ≠ some .loopStart) (noEnd : program.get? p ≠ some .loopEnd)
      (stack : program.openBefore (p + 1) = program.openBefore p)
      (level : program.balance (p + 1) = program.balance p)

theorem reading (program : Program) (p : Nat) : program.Reading p := by
  have hstack := program.openBefore_succ p
  have hlevel := program.balance_succ p
  split at hstack
  · next hget =>
      rw [hget] at hlevel
      exact .opens hget hstack hlevel
  · next hget =>
      rw [hget] at hlevel
      exact .closes hget hstack hlevel
  · next hstart hend =>
      have hsame : program.balance (p + 1) = program.balance p := by
        rw [hlevel]
        split
        · next hget => exact absurd hget hstart
        · next hget => exact absurd hget hend
        · exact Int.add_zero _
      exact .passes hstart hend hstack hsame

/-- The stack of a reading is at least as high as any rise of the balance up to its position. -/
theorem balance_sub_le (program : Program) (hq : q ≤ p) :
    program.balance p - program.balance q ≤ (program.openBefore p).length := by
  induction p with
  | zero =>
      obtain rfl : q = 0 := Nat.le_zero.mp hq
      simp
  | succ p ih =>
      rcases Nat.le_succ_iff.mp hq with hle | rfl
      · have hbefore := ih hle
        cases program.reading p with
        | opens _ stack level =>
            rw [stack, level, List.length_append, List.length_singleton]
            omega
        | closes _ stack level =>
            rw [stack, level, List.length_dropLast]
            omega
        | passes _ _ stack level =>
            rw [stack, level]
            exact hbefore
      · simp

/-- One rise of the balance up to a position is as high as the stack there. -/
theorem exists_balance_sub_eq (program : Program) (p : Nat) :
    ∃ q ≤ p, program.balance p - program.balance q = (program.openBefore p).length := by
  induction p with
  | zero => exact ⟨0, Nat.le_refl 0, by simp⟩
  | succ p ih =>
      obtain ⟨q, hq, hlength⟩ := ih
      cases program.reading p with
      | opens _ stack level =>
          refine ⟨q, Nat.le_succ_of_le hq, ?_⟩
          rw [stack, level, List.length_append, List.length_singleton]
          omega
      | closes _ stack level =>
          -- A loop end that closes nothing makes the balance the lowest so far.
          rcases Nat.eq_zero_or_pos (program.openBefore p).length with hempty | hopen
          · refine ⟨p + 1, Nat.le_refl _, ?_⟩
            rw [stack, List.length_dropLast]
            omega
          · refine ⟨q, Nat.le_succ_of_le hq, ?_⟩
            rw [stack, level, List.length_dropLast]
            omega
      | passes _ _ stack level =>
          refine ⟨q, Nat.le_succ_of_le hq, ?_⟩
          rw [stack, level]
          exact hlength

theorem openBefore_eq_nil_iff :
    program.openBefore p = [] ↔ ∀ q ≤ p, program.balance p ≤ program.balance q := by
  constructor
  · intro hempty q hq
    have hrise := program.balance_sub_le hq
    rw [hempty, List.length_nil] at hrise
    omega
  · intro hlowest
    obtain ⟨q, hq, hlength⟩ := program.exists_balance_sub_eq p
    have hle := hlowest q hq
    apply List.eq_nil_of_length_eq_zero
    omega

theorem length_openBefore_le (program : Program) (p : Nat) :
    (program.openBefore p).length ≤ program.depthBefore p := by
  induction p with
  | zero => simp
  | succ p ih =>
      have hdepth := program.depthBefore_succ p
      cases program.reading p with
      | opens here stack _ =>
          rw [if_pos here] at hdepth
          rw [stack, List.length_append, List.length_singleton, hdepth]
          exact Nat.le_max_right _ _
      | closes here stack _ =>
          rw [if_neg (by simp [here])] at hdepth
          rw [stack, List.length_dropLast, hdepth]
          omega
      | passes noStart _ stack _ =>
          rw [if_neg noStart] at hdepth
          rw [stack, hdepth]
          exact ih

/-- Every instruction takes the depth along with the stack. -/
theorem depthBefore_succ_eq_max (program : Program) (p : Nat) :
    program.depthBefore (p + 1) =
      max (program.depthBefore p) (program.openBefore (p + 1)).length := by
  have hle := program.length_openBefore_le (p + 1)
  have hsucc := program.depthBefore_succ p
  cases program.reading p with
  | opens here stack _ =>
      rw [hsucc, if_pos here, stack, List.length_append, List.length_singleton]
  | closes here _ _ =>
      rw [if_neg (by simp [here])] at hsucc
      omega
  | passes noStart _ _ _ =>
      rw [if_neg noStart] at hsucc
      omega

theorem isGreatest_depthBefore (program : Program) (p : Nat) :
    IsGreatest {d | ∃ q ≤ p, d = (program.openBefore q).length} (program.depthBefore p) := by
  induction p with
  | zero =>
      refine ⟨⟨0, Nat.le_refl 0, rfl⟩, ?_⟩
      rintro d ⟨q, hq, rfl⟩
      obtain rfl : q = 0 := Nat.le_zero.mp hq
      exact Nat.le_refl _
  | succ p ih =>
      obtain ⟨⟨q, hq, hdepth⟩, hgreatest⟩ := ih
      rw [depthBefore_succ_eq_max]
      constructor
      · rcases Nat.le_total (program.openBefore (p + 1)).length (program.depthBefore p) with
          hle | hle
        · exact ⟨q, Nat.le_succ_of_le hq, by rw [Nat.max_eq_left hle, hdepth]⟩
        · exact ⟨p + 1, Nat.le_refl _, Nat.max_eq_right hle⟩
      · rintro d ⟨q', hq', rfl⟩
        rcases Nat.le_succ_iff.mp hq' with hle | rfl
        · exact Nat.le_trans (hgreatest ⟨q', hle, rfl⟩) (Nat.le_max_left _ _)
        · exact Nat.le_max_right _ _

/-- The depth of a program is the greatest rise of its balance. -/
theorem isGreatest_maxDepth (program : Program) :
    IsGreatest {rise : Int | ∃ i j, i ≤ j ∧ j ≤ program.size ∧
      rise = program.balance j - program.balance i} program.brackets.maxDepth := by
  have hdepth : program.depthBefore program.size = program.brackets.maxDepth := by
    rw [depthBefore, bracketsBefore_of_size_le (Nat.le_refl _)]
  obtain ⟨⟨q, hq, hmax⟩, hgreatest⟩ := program.isGreatest_depthBefore program.size
  rw [← hdepth]
  constructor
  · obtain ⟨i, hi, hlength⟩ := program.exists_balance_sub_eq q
    exact ⟨i, q, hi, hq, by rw [hlength, hmax]⟩
  · rintro rise ⟨i, j, hij, hj, rfl⟩
    have hrise := program.balance_sub_le hij
    have hle := hgreatest ⟨j, hj, rfl⟩
    omega

/-- An open loop is as high on the stack as the balance has risen since its start. -/
theorem balance_of_openBefore {j : Nat} (h : (program.openBefore p)[j]? = some s) :
    program.balance p + j = program.balance s + (program.openBefore p).length := by
  induction p with
  | zero => simp at h
  | succ p ih =>
      cases program.reading p with
      | opens _ stack level =>
          rw [stack] at h ⊢
          rw [level, List.length_append, List.length_singleton]
          rcases Nat.lt_or_ge j (program.openBefore p).length with hlt | hge
          · rw [List.getElem?_append_left hlt] at h
            have hbefore := ih h
            omega
          · rw [List.getElem?_append_right hge] at h
            obtain ⟨hbound, rfl⟩ := List.getElem?_eq_some_iff.mp h
            simp only [List.length_singleton] at hbound
            simp only [List.getElem_singleton]
            omega
      | closes _ stack level =>
          rw [stack, List.getElem?_dropLast] at h
          split at h
          · next hlt =>
              have hbefore := ih h
              rw [stack, level, List.length_dropLast]
              omega
          · cases h
      | passes _ _ stack level =>
          rw [stack] at h ⊢
          rw [level]
          exact ih h

theorem balance_lt_of_mem_openBefore (h : s ∈ program.openBefore p) :
    program.balance s < program.balance p := by
  obtain ⟨j, hj⟩ := List.mem_iff_getElem?.mp h
  have hlevel := balance_of_openBefore hj
  have hlt : j < (program.openBefore p).length := (List.getElem?_eq_some_iff.mp hj).choose
  omega

/-- A loop that is open was open all the way from its start. -/
theorem mem_openBefore_of_le (h : s ∈ program.openBefore p) (hs : s < k) (hk : k ≤ p) :
    s ∈ program.openBefore k := by
  induction p with
  | zero => simp at h
  | succ p ih =>
      rcases Nat.le_succ_iff.mp hk with hle | rfl
      · apply ih _ hle
        cases program.reading p with
        | opens _ stack _ =>
            rw [stack, List.mem_append, List.mem_singleton] at h
            exact h.resolve_right (by omega)
        | closes _ stack _ =>
            rw [stack] at h
            exact List.dropLast_subset _ h
        | passes _ _ stack _ =>
            rw [stack] at h
            exact h
      · exact h

private theorem mem_openBefore_of_balance (hget : program.get? s = some .loopStart) (hs : s < p)
    (hlevel : ∀ k, s < k → k ≤ p → program.balance s < program.balance k) :
    s ∈ program.openBefore p := by
  induction p with
  | zero => exact absurd hs (Nat.not_lt_zero s)
  | succ p ih =>
      have hbefore : s < p → s ∈ program.openBefore p := fun hlt =>
        ih hlt fun k hk hle => hlevel k hk (Nat.le_succ_of_le hle)
      cases program.reading p with
      | opens _ stack _ =>
          rw [stack, List.mem_append, List.mem_singleton]
          exact (Nat.lt_succ_iff_lt_or_eq.mp hs).imp_left hbefore
      | closes here stack level =>
          have hlt : s < p := by
            rcases Nat.lt_succ_iff_lt_or_eq.mp hs with hlt | rfl
            · exact hlt
            · simp [here] at hget
          obtain ⟨j, hj⟩ := List.mem_iff_getElem?.mp (hbefore hlt)
          have hheight := balance_of_openBefore hj
          have habove := hlevel (p + 1) hs (Nat.le_refl _)
          -- The innermost loop is the one that the balance comes back to.
          have hinner : j < (program.openBefore p).length - 1 := by
            have hbound : j < (program.openBefore p).length :=
              (List.getElem?_eq_some_iff.mp hj).choose
            omega
          rw [stack]
          apply List.mem_iff_getElem?.mpr
          exact ⟨j, by rw [List.getElem?_dropLast, if_pos hinner, hj]⟩
      | passes noStart _ stack _ =>
          rw [stack]
          apply hbefore
          rcases Nat.lt_succ_iff_lt_or_eq.mp hs with hlt | rfl
          · exact hlt
          · exact absurd hget noStart

/-- A loop is open as long as the balance has not come back to what it was before its start. -/
theorem mem_openBefore_iff :
    s ∈ program.openBefore p ↔
      s < p ∧ program.get? s = some .loopStart ∧
        ∀ k, s < k → k ≤ p → program.balance s < program.balance k := by
  constructor
  · intro hopen
    obtain ⟨hs, hget⟩ := mem_openBefore hopen
    exact ⟨hs, hget, fun k hk hle =>
      balance_lt_of_mem_openBefore (mem_openBefore_of_le hopen hk hle)⟩
  · rintro ⟨hs, hget, hlevel⟩
    exact mem_openBefore_of_balance hget hs hlevel

theorem mem_unmatchedStarts_iff_balance :
    s ∈ program.brackets.unmatchedStarts ↔
      program.get? s = some .loopStart ∧
        ∀ k, s < k → k ≤ program.size → program.balance s < program.balance k := by
  rw [mem_unmatchedStarts_iff, mem_openBefore_iff]
  exact and_iff_right_of_imp fun h => lt_size_of_get? h.1

/-- A loop end that closes nothing takes the balance below all that it was before. -/
theorem mem_unmatchedEnds_iff_balance :
    e ∈ program.brackets.unmatchedEnds ↔
      program.get? e = some .loopEnd ∧
        ∀ i ≤ e, program.balance (e + 1) < program.balance i := by
  rw [mem_unmatchedEnds_iff, openBefore_eq_nil_iff]
  apply and_congr_right
  intro hget
  have hlevel : program.balance (e + 1) = program.balance e - 1 := by
    rw [balance_succ, hget]
    rfl
  rw [hlevel]
  simp only [Int.sub_one_lt_iff]

theorem pairwise_strayBefore (program : Program) (p : Nat) :
    (program.strayBefore p).Pairwise (· < ·) := by
  induction p with
  | zero => simp
  | succ p ih =>
      rw [strayBefore_succ]
      split
      · apply List.pairwise_append.mpr
        refine ⟨ih, List.pairwise_singleton _ _, ?_⟩
        intro e he q hq
        rw [List.mem_singleton] at hq
        subst q
        exact (mem_strayBefore_iff.mp he).1
      · exact ih

theorem pairwise_unmatchedEnds (program : Program) :
    program.brackets.unmatchedEnds.toList.Pairwise (· < ·) := by
  rw [← bracketsBefore_of_size_le (Nat.le_refl program.size)]
  exact program.pairwise_strayBefore program.size

theorem pairwise_unmatchedStarts (program : Program) :
    program.brackets.unmatchedStarts.toList.Pairwise (· < ·) := by
  rw [← bracketsBefore_of_size_le (Nat.le_refl program.size)]
  exact program.pairwise_openBefore program.size

theorem unmatchedEnd_lt_unmatchedStart (he : e ∈ program.brackets.unmatchedEnds)
    (hs : s ∈ program.brackets.unmatchedStarts) : e < s := by
  obtain ⟨hend, hbelow⟩ := mem_unmatchedEnds_iff_balance.mp he
  obtain ⟨-, habove⟩ := mem_unmatchedStarts_iff_balance.mp hs
  apply Nat.lt_of_not_le
  intro hle
  have hlow := hbelow s hle
  have hhigh := habove (e + 1) (Nat.lt_succ_of_le hle) (lt_size_of_get? hend)
  omega

end Program

end TapeMachine
