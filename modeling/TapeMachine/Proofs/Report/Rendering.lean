import TapeMachine.Chat
import TapeMachine.Proofs.Report.Listing

/-!
The report of a run can be read back. What a program printed stands in the middle of the report and
may look like anything, also like a listing or like the message of a fault. So the tag and the tape
are read from the front, where the program has no say, and the fault from the back: its message is a
row of words, none of which has a parenthesis, and the last one that opens is the one before it.
-/

namespace TapeMachine

open Text

/-- The signs that the words of a message are written with. -/
def IsWordSign (c : Char) : Prop :=
  c.isAlpha = true ∨ c ∈ ['\'', ']'] ∨ IsNumeral c

instance (c : Char) : Decidable (IsWordSign c) :=
  inferInstanceAs (Decidable (_ ∨ _ ∨ _))

def IsWord (w : String) : Prop :=
  ∀ c ∈ w.toList, IsWordSign c

instance (w : String) : Decidable (IsWord w) :=
  inferInstanceAs (Decidable (∀ c ∈ w.toList, IsWordSign c))

theorem isWord_natRepr (n : Nat) : IsWord n.repr :=
  fun _ hc => .inr (.inr (isNumeral_of_mem_natRepr hc))

theorem isWord_intRepr (n : Int) : IsWord n.repr :=
  fun _ hc => .inr (.inr (isNumeral_of_mem_intRepr hc))

namespace Fault

/-- The words of a message, without the blanks between them. -/
def words : Fault → List String
  | unmatchedLoopEnd position => ["unmatched", "']'", "at", "position", position.repr]
  | loopTooDeep position maxDepth =>
      ["loop", "nesting", "deeper", "than", maxDepth.repr, "at", "position", position.repr]
  | tapeExhausted position last =>
      ["data", "pointer", "moved", "past", "cell", last.repr, "at", "position", position.repr]
  | cellOverflow position cell =>
      ["cell", cell.repr, "overflowed", "at", "position", position.repr]
  | notACharacter position value =>
      ["cell", "value", value.repr, "is", "not", "a", "valid", "character", "at", "position",
        position.repr]
  | outputFull position limit =>
      ["output", "limit", "of", limit.repr, "characters", "reached", "at", "position",
        position.repr]

theorem toList_message (fault : Fault) :
    fault.message.toList = [' '].intercalate (fault.words.map String.toList) := by
  cases fault <;> unfold message words <;> simp

theorem isWord_of_mem_words (fault : Fault) : ∀ w ∈ fault.words, IsWord w := by
  cases fault <;> simp only [words, List.forall_mem_cons, isWord_natRepr, isWord_intRepr]
  all_goals simp [IsWord, IsWordSign]

theorem words_injective {f g : Fault} (h : f.words = g.words) : f = g := by
  cases f <;> cases g <;> simp [words] at h ⊢
  all_goals simp [h]

theorem words_ne_nil (fault : Fault) : fault.words ≠ [] := by
  cases fault <;> simp [words]

theorem mem_message {fault : Fault} {c : Char} (h : c ∈ fault.message.toList) :
    c = ' ' ∨ IsWordSign c := by
  rw [toList_message] at h
  rcases mem_of_mem_intercalate h with hblank | ⟨item, hitem, hc⟩
  · exact .inl (List.mem_singleton.mp hblank)
  · obtain ⟨w, hw, rfl⟩ := List.mem_map.mp hitem
    exact .inr (fault.isWord_of_mem_words w hw c hc)

/-- A fault is known from its message: the blanks of the message are those between its words. -/
theorem message_injective {f g : Fault} (h : f.message = g.message) : f = g := by
  have hwords : ∀ fault : Fault,
      fault.message.toList.splitOn ' ' = fault.words.map String.toList := by
    intro fault
    rw [toList_message]
    apply List.splitOn_intercalate
    · intro item hitem hblank
      obtain ⟨w, hw, rfl⟩ := List.mem_map.mp hitem
      exact absurd (fault.isWord_of_mem_words w hw ' ' hblank) (by decide)
    · simp [words_ne_nil]
  apply words_injective
  apply List.map_injective_iff.mpr (fun _ _ => String.toList_inj.mp)
  rw [← hwords, ← hwords, h]

end Fault

theorem LimitError.head?_message (e : LimitError) : e.message.toList.head? = some 'I' := by
  cases e <;> unfold message <;> simp

theorem ConfigError.head?_message (e : ConfigError) :
    e.message.toList.head? = some 'F' ∨ e.message.toList.head? = some 'I' := by
  cases e with
  | unreadable path cause =>
      unfold message
      exact .inl (by simp)
  | undecodable cause =>
      unfold message
      exact .inl (by simp)
  | outOfRange cause => exact .inr cause.head?_message

theorem Status.blank_not_mem_tag (status : Status) : ' ' ∉ status.tag.toList := by
  cases status <;> simp [tag]

namespace Outcome

variable {o o₁ o₂ : Outcome}

/-- The output as it stands in the report of a fault. -/
def shownOutput (o : Outcome) : List Char :=
  if o.output.isEmpty then [] else ' ' :: o.output.toList

/-- What stands behind the tape in a report. -/
def trailer (o : Outcome) : List Char :=
  match o.status with
  | .faulted fault => o.shownOutput ++ ' ' :: '(' :: (fault.message.toList ++ [')'])
  | _ => ' ' :: o.output.toList

theorem toList_render (o : Outcome) :
    o.render.toList =
      o.status.tag.toList ++ ' ' :: '|' :: ' ' :: ((intListing o.tape).toList ++ o.trailer) := by
  cases hstatus : o.status with
  | completed => simp [render, trailer, hstatus]
  | timedOut => simp [render, trailer, hstatus]
  | faulted fault =>
      by_cases hempty : o.output.isEmpty
      · simp [render, trailer, shownOutput, hstatus, hempty]
      · simp [render, trailer, shownOutput, hstatus, hempty]

theorem shownOutput_injective (h : o₁.shownOutput = o₂.shownOutput) : o₁.output = o₂.output := by
  unfold shownOutput at h
  split at h <;> split at h
  · simp_all
  · cases h
  · cases h
  · exact String.toList_inj.mp (List.cons.inj h).2

theorem trailer_injective (htag : o₁.status.tag = o₂.status.tag) (h : o₁.trailer = o₂.trailer) :
    o₁.status = o₂.status ∧ o₁.output = o₂.output := by
  have hplain : ∀ fault : Fault, '(' ∉ fault.message.toList ++ [')'] := by
    intro fault hmem
    rcases List.mem_append.mp hmem with hmessage | hclose
    · exact absurd (Fault.mem_message hmessage) (by decide)
    · exact absurd hclose (by decide)
  cases hfirst : o₁.status with
  | completed =>
      cases hsecond : o₂.status <;> simp_all [trailer, Status.tag, String.toList_inj]
  | timedOut =>
      cases hsecond : o₂.status <;> simp_all [trailer, Status.tag, String.toList_inj]
  | faulted f =>
      cases hsecond : o₂.status with
      | completed => simp [hfirst, hsecond, Status.tag] at htag
      | timedOut => simp [hfirst, hsecond, Status.tag] at htag
      | faulted g =>
          have hsplit : (o₁.shownOutput ++ [' ']) ++ '(' :: (f.message.toList ++ [')']) =
              (o₂.shownOutput ++ [' ']) ++ '(' :: (g.message.toList ++ [')']) := by
            simpa [trailer, hfirst, hsecond] using h
          obtain ⟨hshown, hmessage⟩ :=
            eq_of_append_cons_eq_last (hplain f) (hplain g) hsplit
          have hfault : f = g :=
            Fault.message_injective (String.toList_inj.mp (List.append_cancel_right hmessage))
          exact ⟨congrArg Status.faulted hfault,
            shownOutput_injective (List.append_cancel_right hshown)⟩

/-- A report determines the status with its fault, the tape and the output, whatever the output
looks like. -/
theorem render_injective (h : o₁.render = o₂.render) :
    o₁.status = o₂.status ∧ o₁.tape = o₂.tape ∧ o₁.output = o₂.output := by
  rw [← String.toList_inj, toList_render, toList_render] at h
  obtain ⟨hword, hrest⟩ :=
    eq_of_append_cons_eq o₁.status.blank_not_mem_tag o₂.status.blank_not_mem_tag h
  simp only [List.cons.injEq, true_and] at hrest
  obtain ⟨htape, htrailer⟩ := intListing_append_injective hrest
  obtain ⟨hstatus, houtput⟩ := trailer_injective (String.toList_inj.mp hword) htrailer
  exact ⟨hstatus, htape, houtput⟩

theorem render_eq_iff :
    o₁.render = o₂.render ↔
      o₁.status = o₂.status ∧ o₁.tape = o₂.tape ∧ o₁.output = o₂.output := by
  constructor
  · exact render_injective
  · rintro ⟨hstatus, htape, houtput⟩
    simp only [render, hstatus, htape, houtput]

/-- A report of a fault goes on with the listing of the tape. -/
theorem head?_of_render_eq {text : String} (h : o.render = "ERROR | " ++ text) :
    text.toList.head? = some '[' := by
  have hsplit : o.status.tag.toList ++ ' ' :: '|' :: ' ' ::
        ((intListing o.tape).toList ++ o.trailer) =
      "ERROR".toList ++ ' ' :: '|' :: ' ' :: text.toList := by
    rw [← toList_render, h]
    simp
  obtain ⟨-, hrest⟩ := eq_of_append_cons_eq o.status.blank_not_mem_tag (by decide) hsplit
  simp only [List.cons.injEq, true_and] at hrest
  simp [← hrest, toList_intListing]

theorem render_ne_usage (o : Outcome) (h : Chat.Handler) : o.render ≠ h.usage := by
  intro heq
  rw [← String.toList_inj, toList_render] at heq
  cases hstatus : o.status <;> simp [hstatus, Status.tag, Chat.Handler.usage] at heq

/-- Behind the tag of an error the host says what went wrong, and that does not begin with a
bracket. -/
theorem render_ne_error (o : Outcome) (e : ConfigError) : o.render ≠ "ERROR | " ++ e.message := by
  intro heq
  have hbracket := head?_of_render_eq heq
  rcases e.head?_message with hf | hi
  · simp [hf] at hbracket
  · simp [hi] at hbracket

theorem render_ne_refusal (o : Outcome) (e : LimitError) :
    o.render ≠ Chat.Handler.refusal e := by
  intro heq
  have hbracket := head?_of_render_eq heq
  simp [e.head?_message] at hbracket

/-- Two reports are the same text only if the runs ended in the same way, a fault with all that it
names, and left the same tape and the same output. A report is neither a usage line nor the reply
to a config that cannot be used: behind the tag of an error it goes on with a bracket, and no error
of the host does. -/
theorem render_unambiguous :
    (∀ o₁ o₂ : Outcome, o₁.render = o₂.render ↔
      o₁.status = o₂.status ∧ o₁.tape = o₂.tape ∧ o₁.output = o₂.output) ∧
    (∀ (o : Outcome) (text : String),
      o.render = "ERROR | " ++ text → text.toList.head? = some '[') ∧
    (∀ (o : Outcome) (e : ConfigError), o.render ≠ "ERROR | " ++ e.message) ∧
    (∀ (o : Outcome) (e : LimitError), o.render ≠ Chat.Handler.refusal e) ∧
    ∀ (o : Outcome) (h : Chat.Handler), o.render ≠ h.usage :=
  ⟨fun _ _ => render_eq_iff, fun _ _ => head?_of_render_eq, render_ne_error, render_ne_refusal,
    render_ne_usage⟩

end Outcome

end TapeMachine
