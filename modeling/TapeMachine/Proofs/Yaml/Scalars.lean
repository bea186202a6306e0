import TapeMachine.Yaml.Scalar

/-!
What plain text means. Nothing, truth values and whole numbers do not get in each other's way, so
text that is read as a count is text that means a whole number; and the digits of a number mean
that number.
-/

namespace TapeMachine

namespace Yaml.ScalarValue

variable {tag : Option (List Char)} {style : Style} {text : List Char} {n : Nat}

theorem unsigned?_of_isNull (h : isNull text = true) : unsigned? text = none := by
  simp only [isNull, isWord, List.any_cons, List.any_nil, Bool.or_eq_true, decide_eq_true_eq,
    Bool.false_eq_true, or_false] at h
  rcases h with rfl | rfl | rfl | rfl <;> decide

theorem unsigned?_of_bool? {b : Bool} (h : bool? text = some b) : unsigned? text = none := by
  unfold bool? at h
  simp only [isWord, List.any_cons, List.any_nil, Bool.or_eq_true, decide_eq_true_eq,
    Bool.false_eq_true, or_false] at h
  split at h
  · rename_i hword
    rcases hword with rfl | rfl | rfl <;> decide
  · split at h
    · rename_i hword
      rcases hword with rfl | rfl | rfl <;> decide
    · cases h

theorem integer?_ne_null : integer? text ≠ some .null := by
  unfold integer?
  split <;> try split
  all_goals simp

theorem integer?_eq_some_false_iff (h : n < wideBound) :
    integer? text = some (.integer false n) ↔ unsigned? text = some n := by
  unfold integer?
  split
  · rename_i m hm
    rw [hm]
    by_cases hwide : m < wideBound
    · rw [if_pos hwide, Option.some.injEq, ScalarValue.integer.injEq, Option.some.injEq,
        Int.natCast_inj]
      exact and_iff_right rfl
    · simp only [hwide, if_false, reduceCtorEq, Option.some.injEq, false_iff]
      rintro rfl
      exact hwide h
  · rename_i hm _
    rw [hm]
    split <;> simp
  · rename_i hm _
    simp [hm]

theorem ofPlain_eq_null_iff : ofPlain text = .null ↔ text = [] ∨ isNull text = true := by
  rw [← List.isEmpty_iff, ← Bool.or_eq_true]
  unfold ofPlain
  split
  · simp_all
  · rename_i hword
    rw [iff_false_right hword]
    split
    · simp
    · rename_i hinteger
      rintro rfl
      exact integer?_ne_null hinteger
    · split
      · simp
      · split <;> simp

theorem ofPlain_eq_integer_iff (h : n < wideBound) :
    ofPlain text = .integer false n ↔ unsigned? text = some n := by
  rw [← integer?_eq_some_false_iff h]
  unfold ofPlain
  split
  · rename_i hword
    simp only [reduceCtorEq, false_iff]
    rw [integer?_eq_some_false_iff h]
    rw [Bool.or_eq_true, List.isEmpty_iff] at hword
    rcases hword with rfl | hnull
    · simp [unsigned?, dropSign, magnitude?, digits?]
    · simp [unsigned?_of_isNull hnull]
  · split
    · rename_i b hbool
      simp only [reduceCtorEq, false_iff]
      rw [integer?_eq_some_false_iff h, unsigned?_of_bool? hbool]
      simp
    · rename_i hinteger
      simp [hinteger]
    · rename_i hinteger
      rw [hinteger]
      split
      · simp
      · split <;> simp

theorem toUInt64_eq_iff {m : Nat} (h : m < UInt64.size) {n : UInt64} :
    m.toUInt64 = n ↔ m = n.toNat := by
  constructor
  · rintro rfl
    exact (UInt64.toNat_ofNat_of_lt' h).symm
  · rintro rfl
    exact UInt64.ofNat_toNat

/-- Text is a count if it means, when no tag explains it, a whole number without a minus. -/
theorem count?_eq_some_iff {n : UInt64} :
    count? tag style text = some n ↔
      (style = .plain ∨ style = .literal ∧ tag = some (coreTag "int")) ∧
        ofPlain text = .integer false n.toNat := by
  have hwide : n.toNat < wideBound := Nat.lt_trans n.toNat_lt (by decide)
  rw [ofPlain_eq_integer_iff hwide]
  unfold count?
  simp only [Bool.or_eq_true, Bool.and_eq_true, decide_eq_true_eq]
  split
  · rename_i hstyle
    simp only [hstyle, true_and]
    split
    · rename_i m hm
      rw [hm]
      by_cases hsize : m < UInt64.size
      · simp [hsize, toUInt64_eq_iff hsize]
      · simp only [hsize, if_false, reduceCtorEq, Option.some.injEq, false_iff]
        rintro rfl
        exact hsize n.toNat_lt
    · rename_i hm
      simp [hm]
  · rename_i hstyle
    simp [hstyle]

/-! ### Digits -/

theorem hexValue?_of_isDigit {c : Char} (h : c.isDigit = true) :
    Text.hexValue? c = some (Text.digitValue c) := by
  simp [Text.hexValue?, h]

theorem digitValue_lt_ten {c : Char} (h : c.isDigit = true) : Text.digitValue c < 10 := by
  simp only [Char.isDigit, Bool.and_eq_true, decide_eq_true_eq] at h
  obtain ⟨-, hle⟩ := h
  have hnine : c.toNat ≤ 57 := hle
  simp only [Text.digitValue, Char.reduceToNat]
  omega

theorem digits?_ten {digits : List Char} (hne : digits ≠ [])
    (h : ∀ c ∈ digits, c.isDigit = true) :
    digits? 10 digits = some (Text.decimalValue digits) := by
  simp only [digits?, List.isEmpty_iff, hne, if_false, Text.decimalValue]
  clear hne
  generalize 0 = m
  induction digits generalizing m with
  | nil => rfl
  | cons c digits ih =>
      have hc : c.isDigit = true := h c List.mem_cons_self
      simp only [List.foldlM_cons, List.foldl_cons, hexValue?_of_isDigit hc, Option.bind_eq_bind,
        Option.bind_some, digitValue_lt_ten hc, if_true]
      exact ih (fun d hd => h d (List.mem_cons_of_mem c hd)) _

theorem head?_toDigits_ne_zero {n : Nat} (h : 0 < n) : (Nat.toDigits 10 n).head? ≠ some '0' := by
  induction n using Nat.strongRecOn with
  | ind n ih =>
      by_cases hlt : n < 10
      · rw [Nat.toDigits_of_lt_base hlt]
        simp only [List.head?_cons, ne_eq, Option.some.injEq, Nat.digitChar_eq_zero]
        omega
      · rw [Nat.toDigits_of_base_le (by decide) (by omega), List.head?_append,
          List.head?_eq_some_head Nat.toDigits_ne_nil, Option.some_or, ← List.head?_eq_some_head]
        exact ih (n / 10) (by omega) (by omega)

theorem magnitude?_toDigits (n : Nat) : magnitude? (Nat.toDigits 10 n) = some n := by
  have hdigits : digits? 10 (Nat.toDigits 10 n) = some n := by
    rw [digits?_ten Nat.toDigits_ne_nil
      fun c hc => Nat.isDigit_of_mem_toDigits (by decide) (by decide) hc]
    exact congrArg some Nat.ofDigitChars_ten_toDigits
  unfold magnitude?
  split
  · rename_i letter digits heq
    rcases Nat.eq_zero_or_pos n with rfl | hpos
    · simp at heq
    · exact absurd (by rw [heq]; rfl) (head?_toDigits_ne_zero hpos)
  · exact hdigits

theorem dropSign_of_isDigit {signs digits : List Char} (h : ∀ c ∈ digits, c.isDigit = true)
    (hsigns : ∀ c ∈ signs, c.isDigit = false) : dropSign signs digits = digits := by
  cases digits with
  | nil => rfl
  | cons c rest =>
      have hc : c.isDigit = true := h c List.mem_cons_self
      have hno : c ∉ signs := fun hmem => by simp [hsigns c hmem] at hc
      simp [dropSign, hno]

/-- The digits of a number mean that number. -/
theorem ofPlain_repr {n : Nat} (h : n < wideBound) : ofPlain n.repr.toList = .integer false n := by
  have hdigits : ∀ c ∈ Nat.toDigits 10 n, c.isDigit = true :=
    fun c hc => Nat.isDigit_of_mem_toDigits (by decide) (by decide) hc
  rw [ofPlain_eq_integer_iff h, Nat.toList_repr, unsigned?, dropSign_of_isDigit hdigits (by simp)]
  exact magnitude?_toDigits n

end Yaml.ScalarValue

end TapeMachine
