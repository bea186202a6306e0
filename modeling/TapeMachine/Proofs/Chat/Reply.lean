import Mathlib.Data.List.TakeWhile
import TapeMachine.Chat
import TapeMachine.Proofs.Readings
import TapeMachine.Proofs.Report.Rendering

/-!
What a message is answered with. The first word of a message is the program; the blanks before it
and all that follows it are left out. Under a usable config the reply is the report of the run of
that program, and comes if and when the run ends; what is left to say is that no such reply looks
like an error of the host.
-/

namespace TapeMachine

namespace Text

/-- A text is blanks, then a word, then nothing or a blank and whatever follows it. -/
structure FirstWord (text before word after : String) : Prop where
  split : text = before ++ word ++ after
  blank : ∀ c ∈ before.toList, isBlank c = true
  ne_empty : word ≠ ""
  plain : ∀ c ∈ word.toList, isBlank c = false
  ends : ∀ c, after.toList.head? = some c → isBlank c = true

theorem firstWord?_eq_none_iff {text : String} :
    firstWord? text = none ↔ ∀ c ∈ text.toList, isBlank c = true := by
  have hhead := List.head?_dropWhile_not isBlank text.toList
  unfold firstWord?
  cases hrest : text.toList.dropWhile isBlank with
  | nil => simpa using List.dropWhile_eq_nil_iff.mp hrest
  | cons c rest =>
      rw [hrest] at hhead
      have hplain : isBlank c = false := hhead
      have hmem : c ∈ text.toList :=
        (List.dropWhile_suffix isBlank).subset (hrest ▸ List.mem_cons_self)
      simp only [List.takeWhile_cons, hplain, Bool.not_false, ↓reduceIte, reduceCtorEq, false_iff]
      intro hblank
      exact Bool.false_ne_true (hplain.symm.trans (hblank c hmem))

theorem firstWord?_eq_some_iff {text word : String} :
    firstWord? text = some word ↔
      word ≠ "" ∧
        word.toList = (text.toList.dropWhile isBlank).takeWhile fun c => !isBlank c := by
  unfold firstWord?
  split
  · next hnil => simp [hnil]
  · next hne =>
      rw [Option.some.injEq, ← String.toList_inj, String.toList_ofList]
      constructor
      · intro h
        exact ⟨fun hempty => hne (h.trans (String.toList_eq_nil_iff.mpr hempty)), h.symm⟩
      · exact fun h => h.2.symm

theorem FirstWord.firstWord?_eq {text before word after : String}
    (h : FirstWord text before word after) : firstWord? text = some word := by
  have hskip : text.toList.dropWhile isBlank = word.toList ++ after.toList := by
    have hword : (word.toList ++ after.toList).dropWhile isBlank = word.toList ++ after.toList := by
      cases hchars : word.toList with
      | nil => exact absurd (String.toList_eq_nil_iff.mp hchars) h.ne_empty
      | cons c rest => simp [h.plain c (by simp [hchars])]
    rw [h.split, String.toList_append, String.toList_append, List.append_assoc,
      List.dropWhile_append_of_pos h.blank, hword]
  refine firstWord?_eq_some_iff.mpr ⟨h.ne_empty, ?_⟩
  rw [hskip, List.takeWhile_append_of_pos (by simpa using h.plain)]
  cases hchars : after.toList with
  | nil => simp
  | cons c rest => simp [h.ends c (by simp [hchars])]

/-- The blanks in front are skipped, and the word goes on up to the next blank. -/
theorem exists_firstWord {text word : String} (h : firstWord? text = some word) :
    ∃ before after, FirstWord text before word after := by
  obtain ⟨hne, hword⟩ := firstWord?_eq_some_iff.mp h
  let rest := text.toList.dropWhile isBlank
  refine ⟨.ofList (text.toList.takeWhile isBlank),
    .ofList (rest.dropWhile fun c => !isBlank c), ?_, ?_, hne, ?_, ?_⟩
  · rw [← String.toList_inj]
    simp only [String.toList_append, String.toList_ofList, hword, List.append_assoc, rest,
      List.takeWhile_append_dropWhile]
  · intro c hc
    rw [String.toList_ofList] at hc
    exact List.mem_takeWhile_imp hc
  · intro c hc
    rw [hword] at hc
    simpa using List.mem_takeWhile_imp hc
  · intro c hc
    rw [String.toList_ofList] at hc
    have hhead := List.head?_dropWhile_not (fun c => !isBlank c) rest
    rw [hc] at hhead
    simpa using hhead

/-- Only a text of blanks has no first word. -/
theorem exists_firstWord_of_not_blank {text : String} (h : ∃ c ∈ text.toList, isBlank c = false) :
    ∃ before word after, FirstWord text before word after := by
  obtain ⟨c, hc, hplain⟩ := h
  cases hword : firstWord? text with
  | none =>
      have hblank := firstWord?_eq_none_iff.mp hword c hc
      exact absurd (hplain.symm.trans hblank) Bool.false_ne_true
  | some word =>
      obtain ⟨before, after, hsplit⟩ := exists_firstWord hword
      exact ⟨before, word, after, hsplit⟩

end Text

open Text

namespace Config

variable {config : Config} {path source : String} {content : Except ReadError String}

/-- The sandbox that runs a program under a config: no input, and faults are not reported. -/
def sandbox (config : Config) (source : String) : Sandbox where
  program := .ofText source
  session := {
    timeout := .ofMilliseconds config.timeout.toNat
    startedAt := .zero
    input := []
    debug := false }
  limits := config.limits

theorem ofConfig_eq_ok (h : config.limitError? = none) :
    Sandbox.ofConfig source config = .ok (config.sandbox source) := by
  have htimeout : config.timeout ≠ 0 := (limitError?_eq_none_iff.mp h).1
  simp [Sandbox.ofConfig, h, Session.ofMilliseconds, htimeout, Sandbox.ofText, sandbox, Except.map]

/-- What is read from a file is checked before it is handed out. -/
theorem ofFile_usable (h : ofFile path content = .ok config) : config.limitError? = none := by
  cases content with
  | ok text => exact (ofText_eq_ok_iff.mp h).2
  | error e => cases h

end Config

namespace Chat.Handler

variable {σ : Type} [Clock σ] {h : Handler} {bound : Nat} {clock : σ}
  {args before word after : String} {origin : Origin}

/-- A message is answered with the report of the run of a program under the config, if and when that
run ends, and with no error of the host. The run is sure to end if a check of its budget fires. -/
structure AnswersRun (h : Handler) (clock : σ) (args : String) (origin : Origin)
    (word : String) : Prop where
  usable : Sandbox.ofConfig word h.config = .ok (h.config.sandbox word)
  report : ∀ bound, (h.handle bound clock args origin).map Prod.fst =
    ((h.config.sandbox word).outcome? bound clock).map fun o => ⟨origin.target, o.render⟩
  noError : ∀ bound reply log, h.handle bound clock args origin = some (reply, log) →
    ∀ e : ConfigError, reply.text ≠ "ERROR | " ++ e.message
  ends : ∀ n, (h.config.sandbox word).expiresAt clock n = true →
    ∃ bound, (h.handle bound clock args origin).isSome = true

theorem usage_eq (h : Handler) :
    h.usage = "Usage: " ++ h.commandPrefix ++ "bf <brainfuck program>" := by
  rw [usage, String.append_assoc]
  rfl

theorem handle_of_blank (hblank : ∀ c ∈ args.toList, isBlank c = true) :
    h.handle bound clock args origin = some (⟨.caller origin.caller, h.usage⟩, []) := by
  simp [handle, firstWord?_eq_none_iff.mpr hblank]

theorem reply_of_word (hconfig : h.config.limitError? = none)
    (hword : FirstWord args before word after) (bound : Nat) (clock : σ) (origin : Origin) :
    (h.handle bound clock args origin).map Prod.fst =
      ((h.config.sandbox word).outcome? bound clock).map fun o => ⟨origin.target, o.render⟩ := by
  simp only [handle, hword.firstWord?_eq, Config.ofConfig_eq_ok hconfig, Sandbox.outcome?,
    Option.map_map]
  rfl

/-- Only the target of a reply depends on where the message came from, and nothing of it on what
stands around the word. -/
theorem text_of_word (hconfig : h.config.limitError? = none)
    (hword : FirstWord args before word after) (bound : Nat) (clock : σ) (origin : Origin) :
    (h.handle bound clock args origin).map (fun answer => answer.1.text) =
      ((h.config.sandbox word).outcome? bound clock).map Outcome.render := by
  have htext := congrArg (Option.map Reply.text) (reply_of_word hconfig hword bound clock origin)
  rw [Option.map_map, Option.map_map] at htext
  exact htext

/-- Under a usable config every message with a word in it is answered with a report. -/
theorem answersRun (hconfig : h.config.limitError? = none)
    (hword : FirstWord args before word after) : h.AnswersRun clock args origin word where
  usable := Config.ofConfig_eq_ok hconfig
  report bound := reply_of_word hconfig hword bound clock origin
  noError bound reply log hreply e := by
    have hreport := reply_of_word hconfig hword bound clock origin
    rw [hreply, Option.map_some] at hreport
    obtain ⟨o, -, ho⟩ := Option.map_eq_some_iff.mp hreport.symm
    have htext : reply.text = o.render := congrArg Reply.text ho.symm
    rw [htext]
    exact o.render_ne_error e
  ends n hfires := by
    obtain ⟨bound, o, houtcome⟩ := Sandbox.exists_outcome?_of_expiresAt hfires
    have hreport := reply_of_word hconfig hword bound clock origin
    rw [houtcome, Option.map_some] at hreport
    obtain ⟨answer, hanswer, -⟩ := Option.map_eq_some_iff.mp hreport
    exact ⟨bound, by rw [hanswer, Option.isSome_some]⟩

end Chat.Handler

end TapeMachine
