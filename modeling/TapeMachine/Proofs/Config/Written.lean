import TapeMachine.Proofs.Config.Entries
import TapeMachine.Proofs.Yaml.Mapping

/-!
Configs written down. Every config that passes the checks can be written as lines, one for each
setting and in any order, with comments and empty lines anywhere, and it is the config that is read
from them. What a config has anyway when nothing is said about it may be left out.
-/

namespace TapeMachine

open Yaml

namespace Config

/-- What a config has for a setting. -/
def valueFor (config : Config) : ConfigField → Option UInt64
  | .timeout => some config.timeout
  | .maxLoopDepth => some config.maxLoopDepth
  | .maxOutput => config.maxOutput

/-- How a setting may be written down: a number in decimal, no output limit as `null`; a loop depth
of 16 and no output limit may be left out. -/
inductive Spelling (config : Config) : ConfigField → Option String → Prop where
  | number {field : ConfigField} {n : UInt64} (value : config.valueFor field = some n) :
      Spelling config field (some n.toNat.repr)
  | noOutput (value : config.maxOutput = none) : Spelling config .maxOutput (some "null")
  | outputLeftOut (value : config.maxOutput = none) : Spelling config .maxOutput none
  | depthLeftOut (value : config.maxLoopDepth = 16) : Spelling config .maxLoopDepth none

/-- The entries of the settings that are written down, in one of their orders. -/
def spelledEntries (texts : ConfigField → Option String) : List (List Char × List Char) :=
  ConfigField.all.filterMap fun field =>
    (texts field).map fun text => (field.name.toList, text.toList)

def spelledKinds (texts : ConfigField → Option String) : Kinds :=
  (spelledEntries texts).map Document.entryNodes

/-- Lines that a config may be written as. Comments may be any that a text may hold. -/
structure WrittenAs (config : Config) (lines : List Line) : Prop where
  settings : ∃ texts, (∀ field, Spelling config field (texts field)) ∧
    (lines.filterMap Line.entry?).Perm (spelledEntries texts)
  comments : ∀ text, .comment text ∈ lines → ∀ c ∈ text, isInline c = true

variable {config : Config} {field : ConfigField} {texts : ConfigField → Option String}
  {text : String} {entry : List Char × List Char}

theorem mem_spelledEntries_iff : entry ∈ spelledEntries texts ↔
    ∃ field text, texts field = some text ∧ entry = (field.name.toList, text.toList) := by
  have hall : ∀ field, field ∈ ConfigField.all := fun field => by cases field <;> decide
  simp only [spelledEntries, List.mem_filterMap, hall, true_and, Option.map_eq_some_iff,
    @eq_comm _ entry]

theorem isBareWord_repr (n : Nat) : IsBareWord n.repr.toList := by
  rw [Nat.toList_repr]
  refine ⟨Nat.toDigits_ne_nil, fun c hc => ?_⟩
  have hdigit : c.isDigit = true := Nat.isDigit_of_mem_toDigits (by decide) (by decide) hc
  simp [isWordChar, Char.isAlphanum, hdigit]

theorem isBareWord_name (field : ConfigField) : IsBareWord field.name.toList := by
  cases field <;> decide

theorem Spelling.isBareWord (h : Spelling config field (some text)) : IsBareWord text.toList := by
  cases h with
  | number => exact isBareWord_repr _
  | noOutput => decide

theorem Spelling.means (h : Spelling config field (some text)) :
    Means field (.scalar none .plain text.toList) (config.valueFor field) := by
  cases h with
  | number value =>
      rename_i n
      rw [value]
      exact .plain (ScalarValue.ofPlain_repr (Nat.lt_trans n.toNat_lt (by decide))) (by simp)
  | noOutput value =>
      rw [valueFor, value]
      exact .nothing (by decide)

/-! ### What is written says what the config holds -/

theorem names_name (field : ConfigField) (text : List Char) :
    Names (Document.entryNodes (field.name.toList, text)).1 field :=
  ⟨none, .plain, rfl⟩

theorem mem_spelledKinds_iff {nodes : NodeKind × NodeKind} : nodes ∈ spelledKinds texts ↔
    ∃ field text, texts field = some text ∧
      nodes = Document.entryNodes (field.name.toList, text.toList) := by
  simp only [spelledKinds, List.mem_map, mem_spelledEntries_iff]
  constructor
  · rintro ⟨_, ⟨field, text, htext, rfl⟩, rfl⟩
    exact ⟨field, text, htext, rfl⟩
  · rintro ⟨field, text, htext, rfl⟩
    exact ⟨_, ⟨field, text, htext, rfl⟩, rfl⟩

theorem not_named_spelledKinds (h : texts field = none) : ¬ Named (spelledKinds texts) field := by
  rintro ⟨nodes, hmem, names⟩
  obtain ⟨field', text, htext, rfl⟩ := mem_spelledKinds_iff.mp hmem
  obtain rfl := names.unique (names_name field' text.toList)
  rw [h] at htext
  cases htext

variable (h : ∀ field, Spelling config field (texts field))
include h

theorem gives_spelledKinds (htext : texts field = some text) :
    Gives (spelledKinds texts) field (config.valueFor field) := by
  have hspelling := h field
  rw [htext] at hspelling
  exact ⟨_, mem_spelledKinds_iff.mpr ⟨field, text, htext, rfl⟩, names_name field _, hspelling.means⟩

theorem wellFormed_spelledKinds : WellFormed (spelledKinds texts) := by
  constructor
  · intro nodes hmem
    obtain ⟨field, text, htext, rfl⟩ := mem_spelledKinds_iff.mp hmem
    have hspelling := h field
    rw [htext] at hspelling
    exact ⟨field, _, names_name field _, hspelling.means⟩
  · have hnodup : ConfigField.all.Pairwise (· ≠ ·) := by decide
    refine List.pairwise_map.mpr (hnodup.filterMap _ ?_)
    intro field other hne entry hentry entry' hentry' named names names'
    obtain ⟨text, -, rfl⟩ := Option.map_eq_some_iff.mp hentry
    obtain ⟨text', -, rfl⟩ := Option.map_eq_some_iff.mp hentry'
    exact hne (((names_name field _).unique names).trans (names'.unique (names_name other _)))

/-- What is left out is what a config has anyway. -/
theorem describes_spelledKinds : Describes (spelledKinds texts) config := by
  refine ⟨wellFormed_spelledKinds h, ?_, ?_, ?_⟩
  · have htimeout := h .timeout
    cases htext : texts .timeout with
    | none =>
        rw [htext] at htimeout
        cases htimeout
    | some text => exact gives_spelledKinds h htext
  · have hdepth := h .maxLoopDepth
    cases htext : texts .maxLoopDepth with
    | none =>
        rw [htext] at hdepth
        cases hdepth with
        | depthLeftOut value => exact .inr ⟨not_named_spelledKinds htext, value⟩
    | some text => exact .inl (gives_spelledKinds h htext)
  · have houtput := h .maxOutput
    cases htext : texts .maxOutput with
    | none =>
        rw [htext] at houtput
        cases houtput with
        | outputLeftOut value => exact .inr ⟨not_named_spelledKinds htext, value⟩
    | some text => exact .inl (gives_spelledKinds h htext)

omit h

/-! ### Reading it back -/

theorem WrittenAs.sound {lines : List Line} (h : WrittenAs config lines) :
    ∀ line ∈ lines, line.Sound := by
  obtain ⟨⟨texts, hspelling, hperm⟩, hcomments⟩ := h
  intro line hmem
  cases line with
  | entry key value =>
      have hentry : (key, value) ∈ lines.filterMap Line.entry? :=
        List.mem_filterMap.mpr ⟨_, hmem, rfl⟩
      obtain ⟨field, text, htext, heq⟩ := mem_spelledEntries_iff.mp (hperm.mem_iff.mp hentry)
      cases heq
      refine ⟨isBareWord_name field, by cases field <;> decide, ?_⟩
      exact (htext ▸ hspelling field : Spelling config field (some text)).isBareWord
  | comment text => exact hcomments text hmem
  | blank width => trivial

theorem exists_writtenAs (config : Config) : ∃ lines, WrittenAs config lines := by
  let texts (field : ConfigField) : Option String := (config.valueFor field).map (·.toNat.repr)
  have hspelling : ∀ field, Spelling config field (texts field) := by
    intro field
    cases hvalue : config.valueFor field with
    | some n =>
        simp only [texts, hvalue]
        exact .number hvalue
    | none =>
        simp only [texts, hvalue]
        cases field with
        | timeout => cases hvalue
        | maxLoopDepth => cases hvalue
        | maxOutput => exact .outputLeftOut hvalue
  refine ⟨(spelledEntries texts).map fun entry => .entry entry.1 entry.2,
    ⟨texts, hspelling, ?_⟩, ?_⟩
  · rw [List.filterMap_map]
    exact .of_eq (List.filterMap_some)
  · simp

theorem ofYaml_of_writtenAs {lines : List Line} (husable : config.limitError? = none)
    (hwritten : config.WrittenAs lines) :
    ofYaml (String.ofList (Line.text lines)) = .ok config := by
  have hsound := hwritten.sound
  obtain ⟨⟨texts, hspelling, hperm⟩, -⟩ := hwritten
  have hdescribes := describes_spelledKinds hspelling
  have hne : lines.filterMap Line.entry? ≠ [] := by
    obtain ⟨nodes, hmem, -⟩ := hdescribes.timeout
    obtain ⟨entry, hentry, -⟩ := List.mem_map.mp hmem
    exact List.ne_nil_of_mem (hperm.mem_iff.mpr hentry)
  obtain ⟨position, nodes, hdocument, hkinds⟩ := Document.exists_ofText?_lines hsound hne
  rw [ofYaml, ofText_eq_ok_iff, decode, hdocument]
  refine ⟨ofEntries_eq_ok_iff.mpr (hdescribes.of_perm ?_), husable⟩
  rw [kinds, hkinds]
  exact hperm.map _

/-- Every config that passes the checks can be written down, and is read back from each of the texts
that it may be written as. -/
theorem written_config_is_read_back {config : Config} (husable : config.limitError? = none) :
    (∃ lines, config.WrittenAs lines) ∧
      ∀ lines, config.WrittenAs lines →
        ofYaml (String.ofList (Line.text lines)) = .ok config :=
  ⟨exists_writtenAs config, fun _ => ofYaml_of_writtenAs husable⟩

/-- The greatest timeout, with a comment and empty lines around it, and nothing else but an output
limit of nothing. -/
theorem written_config_is_read_back_at_greatest_timeout :
    let config : Config := ⟨18446744073709551615, 16, none⟩
    config.limitError? = none ∧
      ofYaml "# limits\nmax_output: null\n\ntimeout: 18446744073709551615\n  \n" = .ok config := by
  intro config
  have husable : config.limitError? = none := by decide
  let texts : ConfigField → Option String
    | .timeout => some config.timeout.toNat.repr
    | .maxLoopDepth => none
    | .maxOutput => some "null"
  let lines : List Line := [.comment " limits".toList,
    .entry "max_output".toList "null".toList, .blank 0,
    .entry "timeout".toList "18446744073709551615".toList, .blank 2]
  have hspelling : ∀ field, Spelling config field (texts field) := by
    intro field
    cases field with
    | timeout => exact .number rfl
    | maxLoopDepth => exact .depthLeftOut rfl
    | maxOutput => exact .noOutput rfl
  have hwritten : config.WrittenAs lines := by
    refine ⟨⟨texts, hspelling, by decide⟩, ?_⟩
    intro text hmem
    have htext : text = " limits".toList := by simpa [lines] using hmem
    exact htext ▸ List.all_eq_true.mp (by decide)
  exact ⟨husable, (written_config_is_read_back husable).2 lines hwritten⟩

end Config

end TapeMachine
