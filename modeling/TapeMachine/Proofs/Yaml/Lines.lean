import TapeMachine.Yaml.Lexer

/-!
A text of lines: a key and a value, a comment, or nothing. Here is what the readers of a text do on
such lines: the space between tokens goes over comments and empty lines up to the next key, and
plain text that ends a line ends there, whatever the lines after it are.
-/

namespace TapeMachine.Yaml

namespace Position

/-- A place further on in the same line. -/
def skip (p : Position) (n : Nat) : Position :=
  ⟨p.index + n, p.line, p.column + n⟩

@[simp] theorem next_skip (p : Position) (n : Nat) : p.next.skip n = p.skip (n + 1) := by
  simp only [skip, next, Nat.add_assoc, Nat.add_comm 1]

end Position

/-! ### Characters -/

/-- Letters, digits and `_`, all of them ASCII: the characters of words. -/
def isWordChar (c : Char) : Bool :=
  c.isAlphanum || c = '_'

/-- Whether a character may stand within a line. -/
def isInline (c : Char) : Bool :=
  isAllowed c && !(isBreak c || c = '\r' || c = '\u0085')

theorem toNat_lt_of_isWordChar {c : Char} (h : isWordChar c = true) : c.toNat < 128 := by
  change (decide (_ ∧ c.val ≤ 'Z'.val) || (_ && decide (c.val ≤ 'z'.val)) ||
    (_ && decide (c.val ≤ '9'.val)) || decide (c = '_')) = true at h
  simp only [Bool.or_eq_true, Bool.and_eq_true, decide_eq_true_eq, UInt32.le_iff_toNat_le] at h
  rcases h with ((h | h) | h) | rfl
  · exact Nat.lt_of_le_of_lt h.2 (by decide)
  · exact Nat.lt_of_le_of_lt h.2 (by decide)
  · exact Nat.lt_of_le_of_lt h.2 (by decide)
  · decide

/-- What holds of the words' characters among the first 128 holds of all of them. -/
theorem of_isWordChar (P : Char → Bool) (hP : ∀ n < 128, isWordChar (Char.ofNat n) = true →
    P (Char.ofNat n) = true) {c : Char} (h : isWordChar c = true) : P c = true := by
  have hc := hP c.toNat (toNat_lt_of_isWordChar h)
  rw [Char.ofNat_toNat] at hc
  exact hc h

theorem isBlank_of_isWordChar {c : Char} (h : isWordChar c = true) : isBlank c = false := by
  simpa using of_isWordChar (fun c => !isBlank c) (by decide +kernel) h

theorem isInline_of_isWordChar {c : Char} (h : isWordChar c = true) : isInline c = true :=
  of_isWordChar isInline (by decide +kernel) h

theorem isBreak_of_isInline {c : Char} (h : isInline c = true) : isBreak c = false := by
  simp only [isInline, Bool.and_eq_true, Bool.not_eq_true', Bool.or_eq_false_iff] at h
  exact h.2.1.1

theorem isAllowed_of_isInline {c : Char} (h : isInline c = true) : isAllowed c = true := by
  simp only [isInline, Bool.and_eq_true] at h
  exact h.1

/-- A character that is in no word is no character of a word. -/
theorem ne_of_isWordChar {c d : Char} (hc : isWordChar c = true) (hd : isWordChar d = false) :
    c ≠ d := by
  rintro rfl
  rw [hc] at hd
  cases hd

namespace Marked

variable {c : Char} {p : Position} {rest : List Char}

theorem ofChars_cons (h : isInline c = true) :
    ofChars p (c :: rest) = .char c p (ofChars p.next rest) := by
  simp only [isInline, Bool.and_eq_true, Bool.not_eq_true', Bool.or_eq_false_iff,
    decide_eq_false_iff_not] at h
  obtain ⟨-, ⟨hbreak, hreturn⟩, hnext⟩ := h
  rw [ofChars]
  · simp [hreturn, hnext, hbreak]
  · exact fun rest' h => absurd h hreturn

theorem ofChars_newline :
    ofChars p ('\n' :: rest) = .char '\n' p (ofChars (p.nextLine 1) rest) := by
  simp [ofChars, isBreak]

end Marked

/-! ### Lines -/

def IsBareWord (word : List Char) : Prop :=
  word ≠ [] ∧ ∀ c ∈ word, isWordChar c = true

theorem isBareWord_iff {word : List Char} :
    IsBareWord word ↔ word ≠ [] ∧ word.all isWordChar = true := by
  rw [IsBareWord, List.all_eq_true]

instance (word : List Char) : Decidable (IsBareWord word) :=
  decidable_of_iff _ isBareWord_iff.symm

inductive Line where
  /-- A key, a colon, a blank and a value. -/
  | entry (key value : List Char)
  /-- A number sign and any text. -/
  | comment (text : List Char)
  /-- Nothing but blanks. Tabs would not do: none may stand at the start of a line. -/
  | blank (width : Nat)

namespace Line

def chars : Line → List Char
  | entry key value => key ++ ':' :: ' ' :: value
  | comment text => '#' :: text
  | blank width => List.replicate width ' '

def entry? : Line → Option (List Char × List Char)
  | entry key value => some (key, value)
  | _ => none

def isEmpty : Line → Bool
  | blank _ => true
  | _ => false

/-- A line that no token is read from. -/
def isFiller : Line → Bool
  | entry _ _ => false
  | _ => true

/-- Keys and values are words, keys are not too long to be found out as keys, and a comment stays on
its line. -/
def Sound : Line → Prop
  | entry key value => IsBareWord key ∧ key.length ≤ 1024 ∧ IsBareWord value
  | comment text => ∀ c ∈ text, isInline c = true
  | blank _ => True

/-- The text of lines, each ended by a line feed. -/
def text (lines : List Line) : List Char :=
  lines.flatMap fun line => line.chars ++ ['\n']

@[simp] theorem text_nil : text [] = [] := rfl

@[simp] theorem text_cons (line : Line) (lines : List Line) :
    text (line :: lines) = line.chars ++ '\n' :: text lines := by
  simp [text]

theorem text_entry (key value : List Char) (lines : List Line) :
    text (entry key value :: lines) = key ++ ':' :: ' ' :: (value ++ '\n' :: text lines) := by
  simp [chars]

end Line

namespace Lexer

variable {p : Position} {rest : List Char} {keyAllowed : Bool}

theorem skipSpace_spaces (width : Nat) :
    skipSpace false keyAllowed false (.ofChars p (List.replicate width ' ' ++ rest)) =
      skipSpace false keyAllowed false (.ofChars (p.skip width) rest) := by
  induction width generalizing p with
  | zero => rfl
  | succ width ih =>
      rw [List.replicate_succ, List.cons_append, Marked.ofChars_cons (by decide), skipSpace]
      simp only [isBreak, Char.reduceEq, decide_false, Bool.or_self, Bool.false_eq_true, if_false,
        decide_true, Bool.true_or, if_true]
      rw [ih, Position.next_skip]

theorem skipSpace_newline (inComment : Bool) :
    skipSpace false keyAllowed inComment (.ofChars p ('\n' :: rest)) =
      skipSpace false true false (.ofChars (p.nextLine 1) rest) := by
  rw [Marked.ofChars_newline, skipSpace]
  simp [isBreak]

theorem skipSpace_comment {text : List Char} (h : ∀ c ∈ text, isInline c = true) :
    skipSpace false keyAllowed true (.ofChars p (text ++ '\n' :: rest)) =
      skipSpace false true false (.ofChars ((p.skip text.length).nextLine 1) rest) := by
  induction text generalizing p with
  | nil => exact skipSpace_newline true
  | cons c text ih =>
      have hc := h c List.mem_cons_self
      rw [List.cons_append, Marked.ofChars_cons hc, skipSpace]
      simp [isBreak_of_isInline hc]
      rw [ih fun d hd => h d (List.mem_cons_of_mem c hd)]
      simp

theorem skipSpace_of_isWordChar {c : Char} (h : isWordChar c = true) :
    skipSpace false keyAllowed false (.ofChars p (c :: rest)) =
      (keyAllowed, .ofChars p (c :: rest)) := by
  rw [Marked.ofChars_cons (isInline_of_isWordChar h), skipSpace]
  simp (disch := decide) [isBreak_of_isInline (isInline_of_isWordChar h), ne_of_isWordChar h]

/-- The space before the next token ends at the next key, or at the end. -/
theorem exists_skipSpace {lines : List Line} (hcolumn : p.column = 0)
    (hsound : ∀ line ∈ lines, line.Sound) :
    ∃ q, q.column = 0 ∧ skipSpace false true false (.ofChars p (Line.text lines)) =
      (true, .ofChars q (Line.text (lines.dropWhile Line.isFiller))) := by
  induction lines generalizing p with
  | nil => exact ⟨p, hcolumn, rfl⟩
  | cons line lines ih =>
      have hline := hsound line List.mem_cons_self
      have hlines : ∀ line ∈ lines, line.Sound :=
        fun line hmem => hsound line (List.mem_cons_of_mem _ hmem)
      cases line with
      | entry key value =>
          obtain ⟨⟨hne, hkey⟩, -, -⟩ := hline
          obtain ⟨c, key, rfl⟩ := List.exists_cons_of_ne_nil hne
          exact ⟨p, hcolumn, skipSpace_of_isWordChar (hkey c List.mem_cons_self)⟩
      | comment text =>
          have hskip : skipSpace false true false
              (.ofChars p (Line.text (.comment text :: lines))) =
              skipSpace false true false
                (.ofChars ((p.next.skip text.length).nextLine 1) (Line.text lines)) := by
            rw [Line.text_cons, Line.chars, List.cons_append, Marked.ofChars_cons (by decide),
              skipSpace]
            exact skipSpace_comment hline
          rw [hskip]
          exact ih rfl hlines
      | blank width =>
          rw [Line.text_cons, Line.chars, skipSpace_spaces, skipSpace_newline]
          exact ih rfl hlines

end Lexer

namespace Plain

variable {p : Position} {rest text : List Char} {indent : Nat} {gap : Gap}

theorem readFrom_word {word : List Char} (h : ∀ c ∈ word, isWordChar c = true) :
    readFrom false indent text .absent (.ofChars p (word ++ rest)) =
      readFrom false indent (word.reverse ++ text) .absent
        (.ofChars (p.skip word.length) rest) := by
  induction word generalizing p text with
  | nil => rfl
  | cons c word ih =>
      have hc := h c List.mem_cons_self
      rw [List.cons_append, Marked.ofChars_cons (isInline_of_isWordChar hc), readFrom]
      simp (disch := decide) only [isBlank_of_isWordChar hc,
        isBreak_of_isInline (isInline_of_isWordChar hc), ne_of_isWordChar hc]
      simp [Gap.isAbsent, Gap.fold, ih fun d hd => h d (List.mem_cons_of_mem c hd)]

/-- A key ends before its colon. -/
theorem read_key {word : List Char} (h : ∀ c ∈ word, isWordChar c = true) :
    read false indent (.ofChars p (word ++ ':' :: ' ' :: rest)) =
      some ⟨word, false, .ofChars (p.skip word.length) (':' :: ' ' :: rest)⟩ := by
  rw [read, readFrom_word h, Marked.ofChars_cons (by decide), Marked.ofChars_cons (by decide),
    readFrom]
  simp [isBlank, isBreak, Gap.isAbsent, Gap.hasBreak, Marked.atSpace]

variable {first : Option Char} {more : List Char}

theorem readFrom_spaces (width : Nat) :
    readFrom false indent text (.breaks first more)
        (.ofChars p (List.replicate width ' ' ++ rest)) =
      readFrom false indent text (.breaks first more) (.ofChars (p.skip width) rest) := by
  induction width generalizing p with
  | zero => rfl
  | succ width ih =>
      rw [List.replicate_succ, List.cons_append, Marked.ofChars_cons (by decide), readFrom]
      simp only [isBlank, isBreak, Gap.extend]
      simp [ih]

theorem readFrom_newline :
    readFrom false indent text gap (.ofChars p ('\n' :: rest)) =
      readFrom false indent text (gap.extend '\n') (.ofChars (p.nextLine 1) rest) := by
  rw [Marked.ofChars_newline, readFrom]
  simp [isBlank, isBreak]

/-- Plain text does not go on over a break to a comment, or to what is not indented enough. -/
theorem readFrom_of_endsAfterGap {c : Char} (hblank : isBlank c = false)
    (hinline : isInline c = true)
    (hends : endsAfterGap false indent (.ofChars p (c :: rest)) = true) :
    readFrom false indent text (.breaks first more) (.ofChars p (c :: rest)) =
      some ⟨text.reverse, true, .ofChars p (c :: rest)⟩ := by
  rw [Marked.ofChars_cons hinline] at hends ⊢
  rw [readFrom]
  simp [hblank, isBreak_of_isInline hinline, Gap.isAbsent, Gap.hasBreak, hends]

theorem exists_readFrom_lines {lines : List Line} (hcolumn : p.column = 0)
    (hsound : ∀ line ∈ lines, line.Sound) :
    ∃ q, q.column = 0 ∧ readFrom false 1 text (.breaks first more) (.ofChars p (Line.text lines)) =
      some ⟨text.reverse, true, .ofChars q (Line.text (lines.dropWhile Line.isEmpty))⟩ := by
  induction lines generalizing p more with
  | nil => exact ⟨p, hcolumn, rfl⟩
  | cons line lines ih =>
      have hline := hsound line List.mem_cons_self
      cases line with
      | entry key value =>
          obtain ⟨⟨hne, hkey⟩, -, -⟩ := hline
          obtain ⟨c, key, rfl⟩ := List.exists_cons_of_ne_nil hne
          have hc := hkey c List.mem_cons_self
          refine ⟨p, hcolumn, readFrom_of_endsAfterGap (isBlank_of_isWordChar hc)
            (isInline_of_isWordChar hc) ?_⟩
          rw [Marked.ofChars_cons (isInline_of_isWordChar hc)]
          simp [endsAfterGap, Marked.column, Marked.position, hcolumn]
      | comment comment =>
          refine ⟨p, hcolumn, readFrom_of_endsAfterGap (by decide) (by decide) ?_⟩
          rw [Marked.ofChars_cons (by decide)]
          simp [endsAfterGap, Marked.startsWith]
      | blank width =>
          rw [Line.text_cons, Line.chars, readFrom_spaces, readFrom_newline]
          exact ih rfl fun line hmem => hsound line (List.mem_cons_of_mem _ hmem)

/-- A value ends with its line; the empty lines after it are read with it. -/
theorem exists_read_value {word : List Char} {lines : List Line}
    (h : ∀ c ∈ word, isWordChar c = true) (hsound : ∀ line ∈ lines, line.Sound) :
    ∃ q, q.column = 0 ∧ read false 1 (.ofChars p (word ++ '\n' :: Line.text lines)) =
      some ⟨word, true, .ofChars q (Line.text (lines.dropWhile Line.isEmpty))⟩ := by
  obtain ⟨q, hq, hlines⟩ : ∃ q, q.column = 0 ∧ readFrom false 1 word.reverse
      (.breaks (some '\n') []) (.ofChars ((p.skip word.length).nextLine 1) (Line.text lines)) =
        some ⟨word.reverse.reverse, true, .ofChars q (Line.text (lines.dropWhile Line.isEmpty))⟩ :=
    exists_readFrom_lines rfl hsound
  refine ⟨q, hq, ?_⟩
  rw [List.reverse_reverse] at hlines
  rw [read, readFrom_word h, readFrom_newline, List.append_nil]
  exact hlines

end Plain

end TapeMachine.Yaml
