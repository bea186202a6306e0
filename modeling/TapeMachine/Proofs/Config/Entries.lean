import Mathlib.Data.List.Induction
import Mathlib.Data.List.Pairwise
import TapeMachine.Config.Decode
import TapeMachine.Proofs.Yaml.Scalars

/-!
Which documents are configs. What a config holds is said entry by entry and in no order: a key is a
name, a value says a number or that there is none, and no name is there twice. What is wrong with a
document is said in the order of its entries: the first that is refused decides, a missing timeout
counts only if none is, and the ranges are looked at last.
-/

namespace TapeMachine

open Yaml

theorem ConfigField.ofName?_eq_some_iff {name : List Char} {field : ConfigField} :
    ofName? name = some field ↔ name = field.name.toList := by
  constructor
  · intro h
    have hfound := List.find?_some (show all.find? (·.name.toList = name) = some field from h)
    exact (of_decide_eq_true hfound).symm
  · rintro rfl
    exact ofName?_name field

theorem ConfigField.name_injective {field field' : ConfigField}
    (h : field.name.toList = field'.name.toList) : field = field' := by
  simpa using (ofName?_eq_some_iff.mpr h.symm).symm

namespace PartialConfig

/-- What is known about a setting so far: nothing, or a number, or that there is none. -/
def value? (settings : PartialConfig) : ConfigField → Option (Option UInt64)
  | .timeout => settings.timeout.map some
  | .maxLoopDepth => settings.maxLoopDepth.map some
  | .maxOutput => settings.maxOutput

/-- A setting that is now known; only the output limit may be known to be none. -/
def set (settings : PartialConfig) : ConfigField → Option UInt64 → PartialConfig
  | .timeout, value => { settings with timeout := value }
  | .maxLoopDepth, value => { settings with maxLoopDepth := value }
  | .maxOutput, value => { settings with maxOutput := some value }

@[simp] theorem value?_empty (field : ConfigField) : empty.value? field = none := by
  cases field <;> rfl

theorem value?_set_self {settings : PartialConfig} {field : ConfigField} {value : Option UInt64}
    (h : value = none → field = .maxOutput) :
    (settings.set field value).value? field = some value := by
  cases field <;> cases value <;> simp_all [set, value?]

theorem value?_set_of_ne {settings : PartialConfig} {field other : ConfigField}
    {value : Option UInt64} (h : other ≠ field) :
    (settings.set field value).value? other = settings.value? other := by
  cases field <;> cases other <;> first | rfl | exact absurd rfl h

theorem has_eq (settings : PartialConfig) (field : ConfigField) :
    settings.has field = (settings.value? field).isSome := by
  cases field <;> simp [has, value?]

end PartialConfig

/-- The entries of a document, with the place of the mapping that they are in. A document that is
left out counts as a mapping without entries. -/
def Yaml.Document.entries? : Document → Option (Position × List (Node × Node))
  | .mapping position entries => some (position, entries)
  | .other ⟨.scalar _ .plain [], position, _⟩ => some (position, [])
  | .other _ => none

namespace Config

/-! ### What entries say -/

/-- A key names a setting by the text of a scalar, however the scalar is written. -/
def Names (key : NodeKind) (field : ConfigField) : Prop :=
  ∃ tag style, key = .scalar tag style field.name.toList

/-- What a value says about a setting: a number without a minus that 64 bits hold, or, for the
output limit, that there is none. -/
inductive Means : ConfigField → NodeKind → Option UInt64 → Prop where
  /-- A tag has no part in what plain text means as a number, but the tag of nothing allows none
  where nothing may be meant. -/
  | plain {field : ConfigField} {tag : Option (List Char)} {text : List Char} {n : UInt64}
      (number : ScalarValue.ofPlain text = .integer false n.toNat)
      (untagged : field = .maxOutput → tag ≠ some (ScalarValue.coreTag "null")) :
      Means field (.scalar tag .plain text) (some n)
  /-- A literal block with the tag of whole numbers. -/
  | block {field : ConfigField} {tag : Option (List Char)} {text : List Char} {n : UInt64}
      (number : ScalarValue.ofPlain text = .integer false n.toNat)
      (tagged : tag = some (ScalarValue.coreTag "int")) :
      Means field (.scalar tag .literal text) (some n)
  | nothing {text : List Char} (null : ScalarValue.ofPlain text = .null) :
      Means .maxOutput (.scalar none .plain text) none
  /-- With the tag of nothing one of the words for it must be there. -/
  | taggedNothing {tag : Option (List Char)} {text : List Char}
      (null : ScalarValue.isNull text = true) (tagged : tag = some (ScalarValue.coreTag "null")) :
      Means .maxOutput (.scalar tag .plain text) none

/-- Keys and values, seen from outside. -/
abbrev Kinds := List (NodeKind × NodeKind)

def kinds (entries : List (Node × Node)) : Kinds :=
  entries.map (Prod.map Node.kind Node.kind)

def Named (entries : Kinds) (field : ConfigField) : Prop :=
  ∃ entry ∈ entries, Names entry.1 field

def Gives (entries : Kinds) (field : ConfigField) (value : Option UInt64) : Prop :=
  ∃ entry ∈ entries, Names entry.1 field ∧ Means field entry.2 value

/-- Every entry says something about a setting, and no two name the same one. -/
structure WellFormed (entries : Kinds) : Prop where
  right : ∀ entry ∈ entries, ∃ field value, Names entry.1 field ∧ Means field entry.2 value
  once : entries.Pairwise fun first second => ∀ field, Names first.1 field → ¬ Names second.1 field

/-- The entries are those of a config. A loop depth that is not there is 16, and an output limit
that is not there is none. -/
structure Describes (entries : Kinds) (config : Config) : Prop where
  wellFormed : WellFormed entries
  timeout : Gives entries .timeout (some config.timeout)
  maxLoopDepth : Gives entries .maxLoopDepth (some config.maxLoopDepth) ∨
    ¬ Named entries .maxLoopDepth ∧ config.maxLoopDepth = 16
  maxOutput : Gives entries .maxOutput config.maxOutput ∨
    ¬ Named entries .maxOutput ∧ config.maxOutput = none

/-- Why an entry is refused after those before it. -/
inductive Refused (position : Position) (earlier : List (Node × Node)) :
    Node × Node → DecodeError → Prop where
  | notName {key value : Node} (collection : ∀ tag style text, key.kind ≠ .scalar tag style text) :
      Refused position earlier (key, value)
        (.notName (mismatch "field identifier" key.kind) key.position)
  | unknownField {key value : Node} {tag : Option (List Char)} {style : Style} {name : List Char}
      (scalar : key.kind = .scalar tag style name)
      (unknown : ∀ field : ConfigField, name ≠ field.name.toList) :
      Refused position earlier (key, value) (.unknownField name key.position)
  /-- Whatever the value is. -/
  | duplicateField {key value : Node} {field : ConfigField} (names : Names key.kind field)
      (again : Named (kinds earlier) field) :
      Refused position earlier (key, value) (.duplicateField field position)
  | wrongValue {key value : Node} {field : ConfigField} (names : Names key.kind field)
      (first : ¬ Named (kinds earlier) field) (wrong : ∀ v, ¬ Means field value.kind v)
      (untagged : field = .maxOutput → ∀ text,
        value.kind ≠ .scalar (some (ScalarValue.coreTag "null")) .plain text) :
      Refused position earlier (key, value)
        (.wrongValue (if key.isAlias then none else some field)
          (mismatch field.expected value.kind) value.position)
  /-- The tag of nothing on a text that is none of the words for it. -/
  | notNull {key value : Node} {text : List Char} (names : Names key.kind .maxOutput)
      (first : ¬ Named (kinds earlier) .maxOutput)
      (tagged : value.kind = .scalar (some (ScalarValue.coreTag "null")) .plain text)
      (something : ScalarValue.isNull text = false) :
      Refused position earlier (key, value) (.notNull (.untrueTag .notNull text) position)

theorem Names.unique {key : NodeKind} {field field' : ConfigField} (h : Names key field)
    (h' : Names key field') : field = field' := by
  obtain ⟨tag, style, rfl⟩ := h
  obtain ⟨tag', style', heq⟩ := h'
  exact ConfigField.name_injective (NodeKind.scalar.inj heq).2.2

theorem ofPlain_unique {text : List Char} {n n' : UInt64}
    (h : ScalarValue.ofPlain text = .integer false n.toNat)
    (h' : ScalarValue.ofPlain text = .integer false n'.toNat) : n = n' := by
  rw [h, ScalarValue.integer.injEq, Int.natCast_inj] at h'
  exact UInt64.toNat_inj.mp h'.2

theorem Means.unique {field : ConfigField} {value : NodeKind} {v v' : Option UInt64}
    (h : Means field value v) (h' : Means field value v') : v = v' := by
  cases h with
  | plain number untagged =>
      cases h' with
      | plain number' => rw [ofPlain_unique number number']
      | nothing null => simp [number] at null
      | taggedNothing _ tagged => exact absurd tagged (untagged rfl)
  | block number =>
      cases h' with
      | block number' => rw [ofPlain_unique number number']
  | nothing null =>
      cases h' with
      | plain number => simp [null] at number
      | nothing => rfl
      | taggedNothing => rfl
  | taggedNothing _ tagged =>
      cases h' with
      | plain _ untagged => exact absurd tagged (untagged rfl)
      | nothing => rfl
      | taggedNothing => rfl

theorem Means.field_of_none {field : ConfigField} {value : NodeKind} (h : Means field value none) :
    field = .maxOutput := by
  cases h <;> rfl

/-! ### One entry -/

variable {position : Position} {settings settings' : PartialConfig} {key value : Node}
  {field : ConfigField} {earlier entries : List (Node × Node)} {e : DecodeError}

theorem means_some_iff {kind : NodeKind} {n : UInt64} :
    Means field kind (some n) ↔ ∃ tag style text, kind = .scalar tag style text ∧
      ScalarValue.count? tag style text = some n ∧
      (field = .maxOutput → ¬ (style = .plain ∧ tag = some (ScalarValue.coreTag "null"))) := by
  simp only [ScalarValue.count?_eq_some_iff]
  constructor
  · rintro (⟨number, untagged⟩ | ⟨number, tagged⟩)
    · exact ⟨_, _, _, rfl, ⟨.inl rfl, number⟩, fun hfield h => untagged hfield h.2⟩
    · exact ⟨_, _, _, rfl, ⟨.inr ⟨rfl, tagged⟩, number⟩, fun _ h => nomatch h.1⟩
  · rintro ⟨tag, style, text, rfl, ⟨rfl | ⟨rfl, tagged⟩, number⟩, untagged⟩
    · exact .plain number fun hfield htag => untagged hfield ⟨rfl, htag⟩
    · exact .block number tagged

theorem isNothing_of_means (h : Means .maxOutput value.kind none) :
    isNothing position value = .ok true := by
  obtain ⟨kind, place, isAlias⟩ := value
  cases h with
  | nothing null =>
      rw [ScalarValue.ofPlain_eq_null_iff, ← List.isEmpty_iff, ← Bool.or_eq_true] at null
      simp only [isNothing, null]
  | taggedNothing null tagged =>
      simp only [isNothing, tagged, ne_eq, not_true_eq_false, if_false, null, if_true]

theorem isNothing_of_not_means (h : ¬ Means .maxOutput value.kind none)
    (untagged : ∀ text, value.kind ≠ .scalar (some (ScalarValue.coreTag "null")) .plain text) :
    isNothing position value = .ok false := by
  unfold isNothing
  split
  · rename_i tag text hkind
    rw [hkind] at h untagged
    split
    · have hnull := mt ScalarValue.ofPlain_eq_null_iff.mpr (mt Means.nothing h)
      rw [← List.isEmpty_iff, ← Bool.or_eq_true, Bool.not_eq_true] at hnull
      rw [hnull]
    · rename_i tag
      rw [if_pos]
      rintro rfl
      exact untagged text rfl
  · rfl

theorem isNothing_of_tagged {text : List Char}
    (tagged : value.kind = .scalar (some (ScalarValue.coreTag "null")) .plain text)
    (something : ScalarValue.isNull text = false) :
    isNothing position value = .error (.notNull (.untrueTag .notNull text) position) := by
  simp [isNothing, tagged, something]

theorem countOf_of_means {n : UInt64} (h : Means field value.kind (some n)) :
    countOf key value field = .ok n := by
  obtain ⟨tag, style, text, hkind, hcount, -⟩ := means_some_iff.mp h
  simp only [countOf, hkind, hcount]

theorem countOf_of_not_means (h : ∀ v, ¬ Means field value.kind v)
    (untagged : field = .maxOutput → ∀ text,
      value.kind ≠ .scalar (some (ScalarValue.coreTag "null")) .plain text) :
    countOf key value field = .error (.wrongValue (if key.isAlias then none else some field)
      (mismatch field.expected value.kind) value.position) := by
  cases hkind : value.kind with
  | scalar tag style text =>
      cases hcount : ScalarValue.count? tag style text with
      | none => simp only [countOf, hkind, hcount]
      | some n =>
          refine absurd (means_some_iff.mpr ⟨tag, style, text, hkind, hcount, ?_⟩) (h (some n))
          rintro hfield ⟨rfl, rfl⟩
          exact untagged hfield text hkind
  | sequence => simp only [countOf, hkind]
  | mapping => simp only [countOf, hkind]

/-- What the value of an entry is read as. -/
def valueOf (position : Position) (key value : Node) (field : ConfigField) :
    Except DecodeError (Option UInt64) := do
  if field = .maxOutput then
    if ← isNothing position value then return none
  return some (← countOf key value field)

theorem valueOf_of_not_nothing (h : field = .maxOutput → isNothing position value = .ok false) :
    valueOf position key value field = (countOf key value field).map some := by
  unfold valueOf
  split
  · rename_i hfield
    simp only [h hfield]
    rfl
  · rfl

theorem valueOf_of_means {v : Option UInt64} (h : Means field value.kind v) :
    valueOf position key value field = .ok v := by
  cases v with
  | none =>
      obtain rfl := h.field_of_none
      simp only [valueOf, isNothing_of_means h]
      rfl
  | some n =>
      rw [valueOf_of_not_nothing, countOf_of_means h]
      · rfl
      · rintro rfl
        refine isNothing_of_not_means (fun hnone => nomatch h.unique hnone) fun text hkind => ?_
        obtain ⟨tag, style, text', hkind', -, untagged⟩ := means_some_iff.mp h
        rw [hkind, NodeKind.scalar.injEq] at hkind'
        exact untagged rfl ⟨hkind'.2.1.symm, hkind'.1.symm⟩

theorem valueOf_of_not_means (wrong : ∀ v, ¬ Means field value.kind v)
    (untagged : field = .maxOutput → ∀ text,
      value.kind ≠ .scalar (some (ScalarValue.coreTag "null")) .plain text) :
    valueOf position key value field =
      .error (.wrongValue (if key.isAlias then none else some field)
        (mismatch field.expected value.kind) value.position) := by
  rw [valueOf_of_not_nothing, countOf_of_not_means wrong untagged]
  · rfl
  · rintro rfl
    exact isNothing_of_not_means (wrong none) (untagged rfl)

/-- An entry is taken by what its key and its value are read as. -/
theorem addEntry_eq :
    addEntry position settings (key, value) = (do
      let field ← fieldOf key
      if settings.has field then throw (.duplicateField field position)
      let v ← valueOf position key value field
      return settings.set field v) := by
  unfold addEntry
  dsimp only
  cases fieldOf key with
  | error e => rfl
  | ok field =>
      cases hhas : settings.has field with
      | true => cases field <;> simp only [hhas, Except.bind, bind] <;> rfl
      | false =>
          cases field with
          | timeout =>
              simp only [bind, Except.bind, hhas, valueOf]
              cases countOf key value .timeout <;> rfl
          | maxLoopDepth =>
              simp only [bind, Except.bind, hhas, valueOf]
              cases countOf key value .maxLoopDepth <;> rfl
          | maxOutput =>
              simp only [bind, Except.bind, hhas, valueOf]
              cases isNothing position value with
              | error e => rfl
              | ok nothing =>
                  cases nothing with
                  | true => rfl
                  | false => cases countOf key value .maxOutput <;> rfl

theorem fieldOf_of_names (h : Names key.kind field) : fieldOf key = .ok field := by
  obtain ⟨tag, style, hkind⟩ := h
  simp only [fieldOf, hkind, ConfigField.ofName?_name]

theorem addEntry_of_means {v : Option UInt64} (names : Names key.kind field)
    (first : settings.has field = false) (means : Means field value.kind v) :
    addEntry position settings (key, value) = .ok (settings.set field v) := by
  rw [addEntry_eq, fieldOf_of_names names]
  simp only [bind, Except.bind, first, valueOf_of_means means]
  rfl

theorem addEntry_of_refused
    (hread : ∀ field, settings.has field = true ↔ Named (kinds earlier) field)
    (h : Refused position earlier (key, value) e) :
    addEntry position settings (key, value) = .error e := by
  have hfirst : ∀ {field}, ¬ Named (kinds earlier) field → settings.has field = false :=
    fun hno => Bool.eq_false_iff.mpr (mt (hread _).mp hno)
  rw [addEntry_eq]
  cases h with
  | notName collection =>
      cases hkind : key.kind with
      | scalar tag style text => exact absurd hkind (collection tag style text)
      | sequence => simp [fieldOf, hkind, bind, Except.bind]
      | mapping => simp [fieldOf, hkind, bind, Except.bind]
  | @unknownField _ _ tag style name scalar unknown =>
      have hnone : ConfigField.ofName? name = none := by
        rw [Option.eq_none_iff_forall_ne_some]
        exact fun field hfield => unknown field (ConfigField.ofName?_eq_some_iff.mp hfield)
      simp [fieldOf, scalar, hnone, bind, Except.bind]
  | duplicateField names again =>
      simp only [fieldOf_of_names names, bind, Except.bind, (hread _).mpr again]
      rfl
  | wrongValue names first wrong untagged =>
      simp only [fieldOf_of_names names, bind, Except.bind, hfirst first,
        valueOf_of_not_means wrong untagged]
      rfl
  | notNull names first tagged something =>
      simp only [fieldOf_of_names names, bind, Except.bind, hfirst first, valueOf,
        isNothing_of_tagged tagged something]
      rfl

/-- An entry says something new, or there is a reason to refuse it. -/
theorem means_or_refused (position : Position) (earlier : List (Node × Node))
    (entry : Node × Node) :
    (∃ field v, Names entry.1.kind field ∧ ¬ Named (kinds earlier) field ∧
      Means field entry.2.kind v) ∨ ∃ e, Refused position earlier entry e := by
  obtain ⟨key, value⟩ := entry
  -- The cases come in the order in which an entry is looked at: a text, a name, a new one, a value.
  by_cases hscalar : ∃ tag style text, key.kind = .scalar tag style text
  · obtain ⟨tag, style, text, hkind⟩ := hscalar
    by_cases hknown : ∃ field : ConfigField, text = field.name.toList
    · obtain ⟨field, rfl⟩ := hknown
      have names : Names key.kind field := ⟨tag, style, hkind⟩
      by_cases again : Named (kinds earlier) field
      · exact .inr ⟨_, .duplicateField names again⟩
      · by_cases hmeans : ∃ v, Means field value.kind v
        · obtain ⟨v, hmeans⟩ := hmeans
          exact .inl ⟨field, v, names, again, hmeans⟩
        · right
          rw [not_exists] at hmeans
          by_cases htagged : field = .maxOutput ∧ ∃ text,
              value.kind = .scalar (some (ScalarValue.coreTag "null")) .plain text
          · obtain ⟨rfl, text, tagged⟩ := htagged
            refine ⟨_, .notNull names again tagged (Bool.eq_false_iff.mpr fun null => ?_)⟩
            exact hmeans none (tagged ▸ .taggedNothing null rfl)
          · exact ⟨_, .wrongValue names again hmeans fun hfield text tagged =>
              htagged ⟨hfield, text, tagged⟩⟩
    · exact .inr ⟨_, .unknownField hkind fun field h => hknown ⟨field, h⟩⟩
  · exact .inr ⟨_, .notName fun tag style text h => hscalar ⟨tag, style, text, h⟩⟩

/-! ### All entries -/

theorem kinds_concat (entries : List (Node × Node)) (entry : Node × Node) :
    kinds (entries ++ [entry]) = kinds entries ++ [(entry.1.kind, entry.2.kind)] := by
  simp [kinds, Prod.map]

variable {before : Kinds} {entry : NodeKind × NodeKind}

theorem gives_concat_iff {v : Option UInt64} :
    Gives (before ++ [entry]) field v ↔
      Gives before field v ∨ Names entry.1 field ∧ Means field entry.2 v := by
  simp [Gives, or_and_right, exists_or]

theorem Gives.named {v : Option UInt64} (h : Gives before field v) : Named before field := by
  obtain ⟨entry, hmem, names, -⟩ := h
  exact ⟨entry, hmem, names⟩

theorem WellFormed.gives (h : WellFormed before) (hnamed : Named before field) :
    ∃ v, Gives before field v := by
  obtain ⟨entry, hmem, names⟩ := hnamed
  obtain ⟨field', v, names', means⟩ := h.right entry hmem
  obtain rfl := names.unique names'
  exact ⟨v, entry, hmem, names, means⟩

theorem wellFormed_nil : WellFormed [] :=
  ⟨by simp, .nil⟩

theorem wellFormed_concat_iff :
    WellFormed (before ++ [entry]) ↔ WellFormed before ∧
      ∃ field v, Names entry.1 field ∧ ¬ Named before field ∧ Means field entry.2 v := by
  constructor
  · rintro ⟨right, once⟩
    obtain ⟨honce, -, hlast⟩ := List.pairwise_append.mp once
    obtain ⟨field, v, names, means⟩ := right entry (by simp)
    refine ⟨⟨fun entry hmem => right entry (by simp [hmem]), honce⟩, field, v, names, ?_, means⟩
    rintro ⟨entry', hmem, names'⟩
    exact hlast entry' hmem entry (by simp) field names' names
  · rintro ⟨⟨right, once⟩, field, v, names, first, means⟩
    constructor
    · intro entry' hmem
      rcases List.mem_append.mp hmem with hmem | hmem
      · exact right entry' hmem
      · rw [List.mem_singleton.mp hmem]
        exact ⟨field, v, names, means⟩
    · refine List.pairwise_append.mpr ⟨once, List.pairwise_singleton _ _, ?_⟩
      intro entry' hmem last hlast field' names' names''
      rw [List.mem_singleton.mp hlast] at names''
      exact first ⟨entry', hmem, names''.unique names ▸ names'⟩

/-- Some entry is refused, and none before it is. -/
def FirstRefused (position : Position) (entries : List (Node × Node)) (e : DecodeError) : Prop :=
  ∃ earlier entry later, entries = earlier ++ entry :: later ∧ WellFormed (kinds earlier) ∧
    Refused position earlier entry e

theorem wellFormed_or_firstRefused (position : Position) (entries : List (Node × Node)) :
    WellFormed (kinds entries) ∨ ∃ e, FirstRefused position entries e := by
  -- From the end: an entry is judged by those before it.
  induction entries using List.reverseRecOn with
  | nil => exact .inl wellFormed_nil
  | append_singleton entries entry ih =>
      rcases ih with hformed | ⟨e, earlier, first, later, rfl, hformed, hrefused⟩
      · rcases means_or_refused position entries entry with hmeans | ⟨e, hrefused⟩
        · left
          rw [kinds_concat]
          exact wellFormed_concat_iff.mpr ⟨hformed, hmeans⟩
        · exact .inr ⟨e, entries, entry, [], rfl, hformed, hrefused⟩
      · exact .inr ⟨e, earlier, first, later ++ [entry], by simp, hformed, hrefused⟩

/-- What is known after entries is what they say. -/
def Known (entries : Kinds) (settings : PartialConfig) : Prop :=
  ∀ field v, settings.value? field = some v ↔ Gives entries field v

theorem Known.has_iff (h : Known before settings) (hformed : WellFormed before) :
    settings.has field = true ↔ Named before field := by
  rw [PartialConfig.has_eq, Option.isSome_iff_exists]
  constructor
  · rintro ⟨v, hv⟩
    exact ((h field v).mp hv).named
  · intro hnamed
    obtain ⟨v, hv⟩ := hformed.gives hnamed
    exact ⟨v, (h field v).mpr hv⟩

theorem Known.set (h : Known before settings) {v : Option UInt64} (names : Names entry.1 field)
    (first : ¬ Named before field) (means : Means field entry.2 v) :
    Known (before ++ [entry]) (settings.set field v) := by
  intro field' v'
  rw [gives_concat_iff]
  by_cases hfield : field' = field
  · subst hfield
    rw [PartialConfig.value?_set_self fun hnone => (hnone ▸ means).field_of_none]
    constructor
    · rintro ⟨⟩
      exact .inr ⟨names, means⟩
    · rintro (hgives | ⟨-, means'⟩)
      · exact absurd hgives.named first
      · rw [means.unique means']
  · rw [PartialConfig.value?_set_of_ne hfield, h]
    exact (or_iff_left fun hentry => hfield (hentry.1.unique names)).symm

theorem foldlM_addEntry_of_wellFormed (position : Position)
    (hformed : WellFormed (kinds entries)) :
    ∃ settings, entries.foldlM (addEntry position) .empty = .ok settings ∧
      Known (kinds entries) settings := by
  induction entries using List.reverseRecOn with
  | nil => exact ⟨.empty, rfl, by simp [Known, Gives, kinds]⟩
  | append_singleton entries entry ih =>
      rw [kinds_concat] at hformed ⊢
      obtain ⟨hformed, field, v, names, first, means⟩ := wellFormed_concat_iff.mp hformed
      obtain ⟨settings, hsettings, hknown⟩ := ih hformed
      have hfirst : settings.has field = false :=
        Bool.eq_false_iff.mpr (mt (hknown.has_iff hformed).mp first)
      refine ⟨settings.set field v, ?_, hknown.set names first means⟩
      rw [List.foldlM_append, hsettings]
      simp only [List.foldlM_cons, List.foldlM_nil, bind, Except.bind,
        addEntry_of_means names hfirst means]
      rfl

theorem foldlM_addEntry_of_firstRefused (h : FirstRefused position entries e) :
    entries.foldlM (addEntry position) .empty = .error e := by
  obtain ⟨earlier, ⟨key, value⟩, later, rfl, hformed, hrefused⟩ := h
  obtain ⟨settings, hsettings, hknown⟩ := foldlM_addEntry_of_wellFormed position hformed
  rw [List.foldlM_append, hsettings]
  simp only [List.foldlM_cons, bind, Except.bind,
    addEntry_of_refused (fun field => hknown.has_iff hformed) hrefused]

/-! ### The whole document -/

variable {config : Config}

theorem ofSettings_eq_ok_iff :
    ofSettings position settings = .ok config ↔ settings.timeout = some config.timeout ∧
      settings.maxLoopDepth.getD 16 = config.maxLoopDepth ∧
      settings.maxOutput.join = config.maxOutput := by
  obtain ⟨timeout, maxLoopDepth, maxOutput⟩ := config
  unfold ofSettings
  cases settings.timeout with
  | none => simp
  | some t => simp [Limits.defaultLoopDepth]

theorem Known.describes_iff (h : Known before settings) (hformed : WellFormed before) :
    ofSettings position settings = .ok config ↔ Describes before config := by
  rw [ofSettings_eq_ok_iff]
  have htimeout : settings.timeout = some config.timeout ↔
      Gives before .timeout (some config.timeout) := by
    rw [← h, PartialConfig.value?]
    simp
  have hdepth : settings.maxLoopDepth.getD 16 = config.maxLoopDepth ↔
      Gives before .maxLoopDepth (some config.maxLoopDepth) ∨
        ¬ Named before .maxLoopDepth ∧ config.maxLoopDepth = 16 := by
    rw [← h, ← h.has_iff hformed, PartialConfig.value?, PartialConfig.has]
    cases settings.maxLoopDepth <;> simp [eq_comm]
  have houtput : settings.maxOutput.join = config.maxOutput ↔
      Gives before .maxOutput config.maxOutput ∨
        ¬ Named before .maxOutput ∧ config.maxOutput = none := by
    rw [← h, ← h.has_iff hformed, PartialConfig.value?, PartialConfig.has]
    cases settings.maxOutput <;> simp [eq_comm]
  rw [htimeout, hdepth, houtput]
  constructor
  · rintro ⟨htimeout, hdepth, houtput⟩
    exact ⟨hformed, htimeout, hdepth, houtput⟩
  · exact fun h => ⟨h.timeout, h.maxLoopDepth, h.maxOutput⟩

theorem ofEntries_of_firstRefused (h : FirstRefused position entries e) :
    ofEntries position entries = .error e := by
  rw [ofEntries, foldlM_addEntry_of_firstRefused h]
  rfl

theorem ofEntries_of_wellFormed (position : Position) (hformed : WellFormed (kinds entries)) :
    ∃ settings, ofEntries position entries = ofSettings position settings ∧
      Known (kinds entries) settings := by
  obtain ⟨settings, hsettings, hknown⟩ := foldlM_addEntry_of_wellFormed position hformed
  refine ⟨settings, ?_, hknown⟩
  rw [ofEntries, hsettings]
  rfl

theorem ofEntries_eq_ok_iff :
    ofEntries position entries = .ok config ↔ Describes (kinds entries) config := by
  constructor
  · intro hok
    rcases wellFormed_or_firstRefused position entries with hformed | ⟨e, hrefused⟩
    · obtain ⟨settings, hsettings, hknown⟩ := ofEntries_of_wellFormed position hformed
      exact (hknown.describes_iff hformed).mp (hsettings.symm.trans hok)
    · rw [ofEntries_of_firstRefused hrefused] at hok
      cases hok
  · intro hdescribes
    obtain ⟨settings, hsettings, hknown⟩ := ofEntries_of_wellFormed position hdescribes.wellFormed
    exact hsettings.trans ((hknown.describes_iff hdescribes.wellFormed).mpr hdescribes)

theorem Known.ofSettings_eq_error_iff (h : Known before settings) (hformed : WellFormed before) :
    ofSettings position settings = .error e ↔
      ¬ Named before .timeout ∧ e = .missingTimeout position := by
  rw [← h.has_iff hformed, ofSettings, PartialConfig.has]
  cases settings.timeout <;> simp [eq_comm]

theorem ofEntries_eq_error_iff :
    ofEntries position entries = .error e ↔ FirstRefused position entries e ∨
      WellFormed (kinds entries) ∧ ¬ Named (kinds entries) .timeout ∧
        e = .missingTimeout position := by
  constructor
  · intro herror
    rcases wellFormed_or_firstRefused position entries with hformed | ⟨e', hrefused⟩
    · obtain ⟨settings, hsettings, hknown⟩ := ofEntries_of_wellFormed position hformed
      rw [hsettings, hknown.ofSettings_eq_error_iff hformed] at herror
      exact .inr ⟨hformed, herror⟩
    · rw [ofEntries_of_firstRefused hrefused] at herror
      cases herror
      exact .inl hrefused
  · rintro (hrefused | ⟨hformed, hmissing⟩)
    · exact ofEntries_of_firstRefused hrefused
    · obtain ⟨settings, hsettings, hknown⟩ := ofEntries_of_wellFormed position hformed
      rw [hsettings, hknown.ofSettings_eq_error_iff hformed]
      exact hmissing

theorem WellFormed.of_perm {entries entries' : Kinds} (hperm : entries'.Perm entries)
    (h : WellFormed entries) : WellFormed entries' := by
  refine ⟨fun entry hmem => h.right entry (hperm.mem_iff.mp hmem), ?_⟩
  refine (hperm.pairwise_iff ?_).mpr h.once
  exact fun hno field names names' => hno field names' names

theorem Describes.of_perm {entries entries' : Kinds} (hperm : entries'.Perm entries)
    (h : Describes entries config) : Describes entries' config := by
  have hnamed : ∀ field, Named entries' field ↔ Named entries field := fun field => by
    simp only [Named, hperm.mem_iff]
  have hgives : ∀ field v, Gives entries' field v ↔ Gives entries field v := fun field v => by
    simp only [Gives, hperm.mem_iff]
  obtain ⟨hformed, htimeout, hdepth, houtput⟩ := h
  rw [← hgives] at htimeout hdepth houtput
  rw [← hnamed] at hdepth houtput
  exact ⟨hformed.of_perm hperm, htimeout, hdepth, houtput⟩

/-- The entries of a text, as `ofYaml` reads it. -/
def entriesOf? (text : String) : Option (Position × List (Node × Node)) :=
  (Document.ofText? text).bind Document.entries?

theorem decode_of_entries? {read : Reader} {text : String}
    (h : (read text).bind Document.entries? = some (position, entries)) :
    decode read text = ofEntries position entries := by
  obtain ⟨document, hread, hentries⟩ := Option.bind_eq_some_iff.mp h
  rw [decode, hread]
  unfold Document.entries? at hentries
  split at hentries <;> cases hentries <;> rfl

theorem limitError?_eq_none_iff_le :
    config.limitError? = none ↔ 1 ≤ config.timeout.toNat ∧
      1 ≤ config.maxLoopDepth.toNat ∧ config.maxLoopDepth.toNat ≤ 4096 := by
  rw [limitError?_eq_none_iff, Nat.one_le_iff_ne_zero, ne_eq, ne_eq, ← UInt64.toNat_inj]
  exact Iff.rfl

theorem limitError?_eq_some_iff {e : LimitError} :
    config.limitError? = some e ↔ config.timeout = 0 ∧ e = .invalidTimeout 0 ∨
      config.timeout ≠ 0 ∧
        ¬ (1 ≤ config.maxLoopDepth.toNat ∧ config.maxLoopDepth.toNat ≤ 4096) ∧
        e = .invalidLoopDepth config.maxLoopDepth.toNat := by
  change _ ↔ _ ∨ _ ∧ ¬ Limits.Allowed config.maxLoopDepth.toNat ∧ _
  unfold limitError?
  split
  · rename_i htimeout
    simp [htimeout, eq_comm]
  · split <;> simp_all [eq_comm]

/-- A mapping is a config exactly if its entries are those of one that is in range, and the order of
the entries has no part in which. If it is none, the first entry that is refused says why; if all
are taken, a missing timeout does; and if nothing is missing, the timeout if it is zero, and the
loop depth otherwise. All of this is so whatever reads the texts, as long as it finds these entries;
`ofYaml` has the reader of this library. -/
theorem ofYaml_decided_by_entries (read : Reader) {text : String} {position : Position}
    {entries : List (Node × Node)}
    (h : (read text).bind Document.entries? = some (position, entries)) :
    (∀ config, ofText read text = .ok config ↔ Describes (kinds entries) config ∧
      1 ≤ config.timeout.toNat ∧ 1 ≤ config.maxLoopDepth.toNat ∧
        config.maxLoopDepth.toNat ≤ 4096) ∧
    (∀ config, ofText read text = .ok config → ∀ position' entries',
      (kinds entries').Perm (kinds entries) → ofEntries position' entries' = .ok config ∧
        ∀ text', (read text').bind Document.entries? = some (position', entries') →
          ofText read text' = .ok config) ∧
    (∀ error, ofText read text = .error error ↔
      (∃ e, error = .undecodable e ∧ (FirstRefused position entries e ∨
        WellFormed (kinds entries) ∧ ¬ Named (kinds entries) .timeout ∧
          e = .missingTimeout position)) ∨
      ∃ config, Describes (kinds entries) config ∧
        (config.timeout = 0 ∧ error = .outOfRange (.invalidTimeout 0) ∨
          config.timeout ≠ 0 ∧
            ¬ (1 ≤ config.maxLoopDepth.toNat ∧ config.maxLoopDepth.toNat ≤ 4096) ∧
            error = .outOfRange (.invalidLoopDepth config.maxLoopDepth.toNat))) ∧
    ofYaml = ofText Document.ofText? := by
  have hdecode := decode_of_entries? h
  refine ⟨?_, ?_, ?_, rfl⟩
  · intro config
    rw [ofText_eq_ok_iff, hdecode, ofEntries_eq_ok_iff, limitError?_eq_none_iff_le]
  · intro config hok position' entries' hperm
    obtain ⟨hsame, hlimit⟩ := ofText_eq_ok_iff.mp hok
    rw [hdecode, ofEntries_eq_ok_iff] at hsame
    have hentries : ofEntries position' entries' = .ok config :=
      ofEntries_eq_ok_iff.mpr (hsame.of_perm hperm)
    exact ⟨hentries, fun text' h' =>
      ofText_eq_ok_iff.mpr ⟨(decode_of_entries? h').trans hentries, hlimit⟩⟩
  · intro error
    rw [ofText_eq_error_iff, hdecode]
    simp only [ofEntries_eq_error_iff, ofEntries_eq_ok_iff, limitError?_eq_some_iff]
    refine or_congr_right (exists_congr fun config => ?_)
    constructor
    · rintro ⟨e, rfl, hdescribes, ⟨hzero, rfl⟩ | ⟨hpos, hrange, rfl⟩⟩
      · exact ⟨hdescribes, .inl ⟨hzero, rfl⟩⟩
      · exact ⟨hdescribes, .inr ⟨hpos, hrange, rfl⟩⟩
    · rintro ⟨hdescribes, ⟨hzero, rfl⟩ | ⟨hpos, hrange, rfl⟩⟩
      · exact ⟨_, rfl, hdescribes, .inl ⟨hzero, rfl⟩⟩
      · exact ⟨_, rfl, hdescribes, .inr ⟨hpos, hrange, rfl⟩⟩

/-- An output limit of nothing may stand before the timeout or after it. -/
theorem ofYaml_decided_by_entries_in_two_orders :
    let text := "max_output: null\ntimeout: 5\n"
    let text' := "timeout: 5\nmax_output: null\n"
    ∃ position entries entries', entriesOf? text = some (position, entries) ∧
      entriesOf? text' = some (position, entries') ∧ (kinds entries').Perm (kinds entries) ∧
      Describes (kinds entries) (ofTimeout 5) ∧ ofYaml text' = .ok (ofTimeout 5) := by
  intro text text'
  let name (field : ConfigField) (position : Position) : Node :=
    ⟨.scalar none .plain field.name.toList, position, false⟩
  let plain (text : String) (position : Position) : Node :=
    ⟨.scalar none .plain text.toList, position, false⟩
  let entries := [(name .maxOutput ⟨0, 0, 0⟩, plain "null" ⟨12, 0, 12⟩),
    (name .timeout ⟨17, 1, 0⟩, plain "5" ⟨26, 1, 9⟩)]
  let entries' := [(name .timeout ⟨0, 0, 0⟩, plain "5" ⟨9, 0, 9⟩),
    (name .maxOutput ⟨11, 1, 0⟩, plain "null" ⟨23, 1, 12⟩)]
  have hentries : entriesOf? text = some (⟨0, 0, 0⟩, entries) := by decide +kernel
  have hentries' : entriesOf? text' = some (⟨0, 0, 0⟩, entries') := by decide +kernel
  have hperm : (kinds entries').Perm (kinds entries) := by decide +kernel
  have hok : ofYaml text = .ok (ofTimeout 5) := by decide +kernel
  obtain ⟨haccept, horder, -, -⟩ := ofYaml_decided_by_entries Document.ofText? hentries
  exact ⟨⟨0, 0, 0⟩, entries, entries', hentries, hentries', hperm, ((haccept _).mp hok).1,
    (horder _ hok _ entries' hperm).2 text' hentries'⟩

/-- Plain text that is a number, and nothing, are not all that counts as a value: a literal block
with the tag of whole numbers is a number too, and with the tag of nothing no number is allowed and
nothing must be spelled out. -/
theorem tags_decide_over_plain_text :
    (∃ position key value,
      entriesOf? "timeout: !!int |-\n  5\n" = some (position, [(key, value)]) ∧
        (∀ tag text, value.kind ≠ .scalar tag .plain text) ∧
        ofYaml "timeout: !!int |-\n  5\n" = .ok (ofTimeout 5)) ∧
      ofYaml "timeout: 5\nmax_output: !!null\n" =
        .error (.undecodable (.notNull (.untrueTag .notNull []) ⟨0, 0, 0⟩)) ∧
      ofYaml "timeout: 5\nmax_output: !!null 7\n" =
        .error (.undecodable (.notNull (.untrueTag .notNull ['7']) ⟨0, 0, 0⟩)) := by
  refine ⟨⟨⟨0, 0, 0⟩, ⟨.scalar none .plain "timeout".toList, ⟨0, 0, 0⟩, false⟩,
    ⟨.scalar (some (ScalarValue.coreTag "int")) .literal ['5'], ⟨9, 0, 9⟩, false⟩, ?_, ?_, ?_⟩,
    ?_, ?_⟩
  · decide +kernel
  · simp
  · decide +kernel
  · decide +kernel
  · decide +kernel

end Config

end TapeMachine
