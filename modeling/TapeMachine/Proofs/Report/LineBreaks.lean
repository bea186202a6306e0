import TapeMachine.Proofs.Report.Rendering
import TapeMachine.Proofs.Trace

/-!
Where a line break in a reply comes from. The words of a report, its numbers and the texts of the
host have none, so a reply to one message is one line as long as the program prints no line break.
Nothing keeps a program from that: the output goes into the reply as it is, and a program that
prints the character with code ten is answered with two lines.
-/

namespace TapeMachine

open Text

/-- The characters that end a line. -/
def IsLineBreak (c : Char) : Prop :=
  c = '\n' ∨ c = '\r'

variable {c : Char}

theorem IsLineBreak.not_isNumeral (h : IsLineBreak c) : ¬ IsNumeral c := by
  rcases h with rfl | rfl <;> decide

theorem IsLineBreak.not_isWordSign (h : IsLineBreak c) : ¬ IsWordSign c := by
  rcases h with rfl | rfl <;> decide

theorem Status.isLineBreak_not_mem_tag (status : Status) (h : IsLineBreak c) :
    c ∉ status.tag.toList := by
  rcases h with rfl | rfl <;> cases status <;> simp [tag]

theorem Fault.isLineBreak_not_mem_message (fault : Fault) (h : IsLineBreak c) :
    c ∉ fault.message.toList := by
  intro hmem
  rcases mem_message hmem with rfl | hsign
  · exact absurd h (by simp [IsLineBreak])
  · exact h.not_isWordSign hsign

theorem LimitError.isLineBreak_not_mem_message (e : LimitError) (h : IsLineBreak c) :
    c ∉ e.message.toList := by
  have hnumber : ∀ n : Nat, c ∉ Nat.toDigits 10 n := by
    intro n hmem
    rw [← Nat.toList_repr] at hmem
    exact h.not_isNumeral (isNumeral_of_mem_natRepr hmem)
  cases e <;> unfold message <;> rcases h with rfl | rfl <;> simp [hnumber]

theorem isLineBreak_not_mem_intListing (numbers : List Int) (h : IsLineBreak c) :
    c ∉ (intListing numbers).toList := by
  intro hmem
  rcases mem_intListing hmem with hsign | hnumeral
  · rcases h with rfl | rfl <;> exact absurd hsign (by decide)
  · exact h.not_isNumeral hnumeral

/-- The line breaks of a report are those of the output. -/
theorem Outcome.isLineBreak_mem_render_iff (o : Outcome) (h : IsLineBreak c) :
    c ∈ o.render.toList ↔ c ∈ o.output.toList := by
  have hsigns : c ≠ ' ' ∧ c ≠ '|' ∧ c ≠ '(' ∧ c ≠ ')' := by
    rcases h with rfl | rfl <;> decide
  have htag := o.status.isLineBreak_not_mem_tag h
  have htape := isLineBreak_not_mem_intListing o.tape h
  have htrailer : c ∈ o.trailer ↔ c ∈ o.output.toList := by
    unfold trailer shownOutput
    cases o.status with
    | completed => simp [hsigns]
    | timedOut => simp [hsigns]
    | faulted fault =>
        have hmessage := fault.isLineBreak_not_mem_message h
        by_cases hempty : o.output = ""
        · simp [hempty, hsigns, hmessage]
        · simp [hempty, hsigns, hmessage]
  rw [toList_render]
  simp [htag, htape, htrailer, hsigns]

namespace Chat.Handler

variable {σ : Type} [Clock σ] {h : Handler} {bound : Nat} {clock : σ} {args : String}
  {origin : Origin} {reply : Reply} {log : List Log.Entry}

theorem isLineBreak_not_mem_usage (hplain : c ∉ h.commandPrefix.toList) (hc : IsLineBreak c) :
    c ∉ h.usage.toList := by
  rcases hc with rfl | rfl <;> simp [usage, commandName, hplain]

theorem isLineBreak_not_mem_refusal (e : LimitError) (hc : IsLineBreak c) :
    c ∉ (refusal e).toList := by
  have hmessage := e.isLineBreak_not_mem_message hc
  rcases hc with rfl | rfl <;> simp [refusal, hmessage]

/-- All that a reply can be: the usage line, a refusal, or the report of a run that has ended. -/
theorem handle_eq_some (hreply : h.handle bound clock args origin = some (reply, log)) :
    (firstWord? args = none ∧ reply.text = h.usage) ∨
      (∃ source e, firstWord? args = some source ∧
        Sandbox.ofConfig source h.config = .error e ∧ reply.text = refusal e) ∨
      ∃ source sandbox o clock', firstWord? args = some source ∧
        Sandbox.ofConfig source h.config = .ok sandbox ∧ sandbox.Yields clock o clock' ∧
        reply.text = o.render := by
  unfold handle at hreply
  cases hword : firstWord? args with
  | none =>
      simp only [hword, Option.some.injEq, Prod.mk.injEq] at hreply
      exact .inl ⟨rfl, by rw [← hreply.1]⟩
  | some source =>
      cases hconfig : Sandbox.ofConfig source h.config with
      | error e =>
          simp only [hword, hconfig, Option.some.injEq, Prod.mk.injEq] at hreply
          exact .inr (.inl ⟨source, e, rfl, hconfig, by rw [← hreply.1]⟩)
      | ok sandbox =>
          simp only [hword, hconfig, Option.map_eq_some_iff, Prod.mk.injEq] at hreply
          obtain ⟨⟨o, clock'⟩, hrun, hsome, -⟩ := hreply
          exact .inr (.inr ⟨source, sandbox, o, clock', rfl, hconfig, ⟨bound, hrun⟩,
            by rw [← hsome]⟩)

/-- A reply has a line break exactly if the message names a program that is run and prints this line
break, provided that there is none in what stands before commands. All other replies are one line,
and so is every report of a run that prints none, however the run ends. -/
theorem line_break_iff_printed (hplain : ∀ c ∈ h.commandPrefix.toList, ¬ IsLineBreak c)
    (hreply : h.handle bound clock args origin = some (reply, log)) (hc : IsLineBreak c) :
    c ∈ reply.text.toList ↔
      ∃ source sandbox, firstWord? args = some source ∧
        Sandbox.ofConfig source h.config = .ok sandbox ∧ sandbox.Prints clock c := by
  rcases handle_eq_some hreply with ⟨hword, htext⟩ | ⟨source, e, hword, hconfig, htext⟩ |
    ⟨source, sandbox, o, clock', hword, hconfig, hyields, htext⟩
  · have husage := isLineBreak_not_mem_usage (fun hmem => hplain c hmem hc) hc
    simp [htext, husage, hword]
  · have hrefusal := isLineBreak_not_mem_refusal e hc
    simp [htext, hrefusal, hword, hconfig]
  · rw [htext, o.isLineBreak_mem_render_iff hc, hyields.mem_output_iff]
    simp [hword, hconfig]

/-- Ten counts and an output print the character with code ten. -/
private theorem exists_reply_to_ten :
    ∃ reply log, (ofConfig (.ofTimeout 5000)).handle 12 SteppingClock.perMillisecond
      "++++++++++." (.direct "bob") = some (reply, log) ∧ reply.text = "RESULT | [10] \n" := by
  have hreply : ((ofConfig (.ofTimeout 5000)).handle 12 SteppingClock.perMillisecond
      "++++++++++." (.direct "bob")).map (fun answer => answer.1.text) =
        some "RESULT | [10] \n" := by
    decide +kernel
  obtain ⟨⟨reply, log⟩, hanswer, htext⟩ := Option.map_eq_some_iff.mp hreply
  exact ⟨reply, log, hanswer, htext⟩

private theorem isLineBreak_not_mem_defaultPrefix :
    ∀ c ∈ (ofConfig (.ofTimeout 5000)).commandPrefix.toList, ¬ IsLineBreak c := by
  simp [ofConfig, defaultPrefix, IsLineBreak]

/-- The line break in the reply to such a program is one that it has printed. -/
theorem line_break_iff_printed_ten :
    let h := ofConfig (.ofTimeout 5000)
    (∀ c ∈ h.commandPrefix.toList, ¬ IsLineBreak c) ∧ IsLineBreak '\n' ∧
      ∃ reply log, h.handle 12 SteppingClock.perMillisecond "++++++++++." (.direct "bob") =
          some (reply, log) ∧
        '\n' ∈ reply.text.toList ∧
        ∃ source sandbox, firstWord? "++++++++++." = some source ∧
          Sandbox.ofConfig source h.config = .ok sandbox ∧
          sandbox.Prints SteppingClock.perMillisecond '\n' := by
  intro h
  have hc : IsLineBreak '\n' := .inl rfl
  obtain ⟨reply, log, hanswer, htext⟩ := exists_reply_to_ten
  have hmem : '\n' ∈ reply.text.toList := by simp [htext]
  have hprinted := (line_break_iff_printed isLineBreak_not_mem_defaultPrefix hanswer hc).mp hmem
  exact ⟨isLineBreak_not_mem_defaultPrefix, hc, reply, log, hanswer, hmem, hprinted⟩

/-- A prefix without line breaks does not keep every reply on one line. -/
theorem reply_may_break_line :
    ¬ ∀ (h : Handler) (bound : Nat) (clock : SteppingClock) (args : String) (origin : Origin)
      (reply : Reply) (log : List Log.Entry),
      (∀ c ∈ h.commandPrefix.toList, ¬ IsLineBreak c) →
        h.handle bound clock args origin = some (reply, log) →
          ∀ c ∈ reply.text.toList, ¬ IsLineBreak c := by
  intro hall
  obtain ⟨reply, log, hanswer, htext⟩ := exists_reply_to_ten
  have hmem : '\n' ∈ reply.text.toList := by simp [htext]
  exact hall _ _ _ _ _ reply log isLineBreak_not_mem_defaultPrefix hanswer '\n' hmem (.inl rfl)

end Chat.Handler

end TapeMachine
