import TapeMachine.Proofs.Yaml.Lines

/-!
The tokens of a text of lines. Each entry gives a key and a value, the first one also the start of
the mapping; whatever stands between entries gives nothing.
-/

namespace TapeMachine.Yaml

/-- The tokens of an entry. -/
def entryKinds (entry : List Char × List Char) : List TokenKind :=
  [.key, .scalar .plain entry.1, .value, .scalar .plain entry.2]

namespace Lexer

/-- A lexer at the start of a line, outside brackets. -/
def atLine (rest : Marked) (tokens : List Token) (indents : List Nat) : Lexer where
  rest := rest
  tokens := tokens
  count := tokens.length
  indents := indents
  candidate := none
  outer := []
  keyAllowed := true

/-- A lexer after the key of a line, at its colon. -/
def atColon (p : Position) (key rest : List Char) (tokens : List Token) (indents : List Nat) :
    Lexer where
  rest := .ofChars (p.skip key.length) (':' :: ' ' :: rest)
  tokens := ⟨.scalar .plain key, p, p.skip key.length⟩ :: tokens
  count := tokens.length + 1
  indents := indents
  candidate := some ⟨tokens.length, p, indents.head? = some p.column⟩
  outer := []
  keyAllowed := false

/-- A lexer after the colon of a line. -/
def atValue (rest : Marked) (tokens : List Token) : Lexer where
  rest := rest
  tokens := tokens
  count := tokens.length
  indents := [0]
  candidate := none
  outer := []
  keyAllowed := false

variable {lx here next : Lexer} {bound : Nat} {c : Char} {p : Position} {rest : Marked}

theorem toNextToken_eq {keyAllowed : Bool} (houter : lx.outer = [])
    (hspace : skipSpace false lx.keyAllowed false lx.rest = (keyAllowed, rest)) :
    lx.toNextToken = { lx with keyAllowed := keyAllowed, rest := rest } := by
  simp only [toNextToken, inFlow, houter, List.isEmpty_nil, Bool.not_true, hspace]

theorem closeBlocks_of_le {column : Nat} (houter : lx.outer = [])
    (h : ∀ indent ∈ lx.indents, indent ≤ column) : lx.closeBlocks column = lx := by
  simp only [closeBlocks, inFlow, houter, List.isEmpty_nil, Bool.not_true, Bool.false_eq_true,
    if_false]
  cases hindents : lx.indents with
  | nil => rw [closeBlocksFrom, ← hindents]
  | cons indent indents =>
      have hle : ¬ column < indent := Nat.not_lt.mpr (h indent (hindents ▸ List.mem_cons_self))
      rw [closeBlocksFrom, if_neg hle, ← hindents]

theorem refreshKeys?_eq (houter : lx.outer = [])
    (hfresh : ∀ k ∈ lx.candidate, isStale lx.position k = false) :
    lx.refreshKeys? = some lx := by
  have hany : lx.candidate.any (isStale lx.position) = false := by
    cases hk : lx.candidate with
    | none => rfl
    | some k => exact hfresh k hk
  obtain ⟨_, _, _, _, _, _, _⟩ := lx
  subst houter
  simp only [refreshKeys?, refreshed?, hany, List.mapM_nil, Bool.false_eq_true, if_false, bind,
    Option.bind, pure]

/-- One round of the lexer outside brackets, where no collection ends and no key is out of date. -/
theorem tokensFrom?_succ (hnext : lx.toNextToken = here) (hrest : here.rest = .char c p rest)
    (houter : here.outer = []) (hfresh : ∀ k ∈ here.candidate, isStale p k = false)
    (hindents : ∀ indent ∈ here.indents, indent ≤ p.column)
    (htoken : here.token? c rest = some next) :
    lx.tokensFrom? (bound + 1) = next.tokensFrom? bound := by
  have hposition : here.position = p := congrArg Marked.position hrest
  have hcolumn : here.rest.column = p.column := congrArg Marked.column hrest
  have hblocks : here.closeBlocks here.rest.column = here :=
    closeBlocks_of_le houter (hcolumn ▸ hindents)
  rw [tokensFrom?, hnext, refreshKeys?_eq houter (hposition ▸ hfresh)]
  simp only [bind, Option.bind, hblocks]
  simp only [hrest, htoken]

theorem atDocumentMarker_of_isWordChar (hc : isWordChar c = true) :
    (Marked.char c p rest).atDocumentMarker = false := by
  unfold Marked.atDocumentMarker
  split
  · rename_i heq
    cases heq
    simp (disch := decide) [ne_of_isWordChar hc]
  · rfl

theorem startsPlain_of_isWordChar (hc : isWordChar c = true) :
    startsPlain false c rest = true := by
  have hreserved : (!(isFlowIndicator c || isReserved c)) = true :=
    of_isWordChar (fun c => !(isFlowIndicator c || isReserved c)) (by decide +kernel) hc
  rw [Bool.not_eq_true', Bool.or_eq_false_iff] at hreserved
  simp (disch := decide) [startsPlain, ne_of_isWordChar hc, hreserved, isBlank_of_isWordChar hc,
    isBreak_of_isInline (isInline_of_isWordChar hc)]

/-- A word starts plain text. -/
theorem token?_of_isWordChar (hc : isWordChar c = true) (houter : lx.outer = [])
    (hrest : lx.rest = .char c p rest) : lx.token? c rest = lx.plain? := by
  simp (disch := decide) [token?, hrest, atDocumentMarker_of_isWordChar hc, ne_of_isWordChar hc,
    inFlow, houter, startsPlain_of_isWordChar hc]

theorem token?_colon {q : Position} (houter : lx.outer = [])
    (hrest : lx.rest = .char ':' p (.char ' ' q rest)) :
    lx.token? ':' (.char ' ' q rest) = lx.value? (.char ' ' q rest) := by
  have hmarker : (Marked.char ':' p (.char ' ' q rest)).atDocumentMarker = false := by
    unfold Marked.atDocumentMarker
    split
    · rename_i heq
      cases heq
      simp
    · rfl
  simp [token?, hrest, hmarker, inFlow, houter, Marked.atSpace, isBlank]

variable {key value text : List Char} {lines later : List Line} {tokens : List Token}
  {indents : List Nat}

theorem position_ofChars : (Marked.ofChars p text).position = p := by
  unfold Marked.ofChars
  split
  · rfl
  · rfl
  · split <;> try split
    all_goals rfl

theorem plain?_atLine (hkey : ∀ c ∈ key, isWordChar c = true) :
    plain? (atLine (.ofChars p (key ++ ':' :: ' ' :: text)) tokens indents) =
      some (atColon p key text tokens indents) := by
  simp only [plain?, saveKey?, dropKey?, dropped?, atLine, inFlow, position, Marked.column,
    position_ofChars, List.isEmpty_nil, Bool.not_true, Plain.read_key hkey, bind, Option.bind,
    pure, if_true]
  simp [emit, atColon, position, position_ofChars]

theorem tokensFrom?_atLine (tokens : List Token) (bound : Nat) (hcolumn : p.column = 0)
    (hindents : ∀ indent ∈ indents, indent = 0) (hsound : ∀ line ∈ lines, line.Sound)
    (hnext : lines.dropWhile Line.isFiller = .entry key value :: later) :
    ∃ q, q.column = 0 ∧ (atLine (.ofChars p (Line.text lines)) tokens indents).tokensFrom?
        (bound + 1) =
      (atColon q key (value ++ '\n' :: Line.text later) tokens indents).tokensFrom? bound := by
  obtain ⟨⟨hne, hkey⟩, -, -⟩ : (Line.entry key value).Sound :=
    hsound _ (List.dropWhile_subset _ (hnext ▸ List.mem_cons_self))
  obtain ⟨q, hq, hspace⟩ := exists_skipSpace hcolumn hsound
  rw [hnext, Line.text_entry] at hspace
  obtain ⟨c, word, rfl⟩ := List.exists_cons_of_ne_nil hne
  have hc := hkey c List.mem_cons_self
  refine ⟨q, hq, tokensFrom?_succ (toNextToken_eq rfl hspace)
    (Marked.ofChars_cons (isInline_of_isWordChar hc)) rfl (by simp [atLine]) ?_ ?_⟩
  · intro indent hmem
    rw [hindents indent hmem]
    exact Nat.zero_le _
  · rw [token?_of_isWordChar hc rfl (Marked.ofChars_cons (isInline_of_isWordChar hc))]
    exact plain?_atLine hkey

/-- The tokens that a colon adds: itself, the key before its scalar, and for the first key the start
of the mapping before that. -/
theorem value?_atColon {rest : Marked} (tokens : List Token) (hcolumn : p.column = 0)
    (hindents : indents = [] ∨ indents = [0]) :
    ∃ tokens', value? (atColon p key text tokens indents) rest = some (atValue rest tokens') ∧
      tokens'.map Token.kind = .value :: .scalar .plain key :: .key ::
        ((if indents = [] then [.blockMappingStart] else []) ++ tokens.map Token.kind) := by
  let colon (before : List Token) : List Token :=
    ⟨.value, p.skip key.length, rest.position⟩ ::
      ⟨.scalar .plain key, p, p.skip key.length⟩ :: ⟨.key, p, p⟩ :: before
  rcases hindents with rfl | rfl
  · refine ⟨colon (⟨.blockMappingStart, p, p⟩ :: tokens), ?_, rfl⟩
    have hlength : tokens.length + 1 + 1 - tokens.length = 2 := by omega
    simp [value?, atColon, insert, openBlock, inFlow, isDeeper, emit, position, position_ofChars,
      hlength, hcolumn, atValue, colon]
  · refine ⟨colon tokens, ?_, rfl⟩
    simp [value?, atColon, insert, openBlock, inFlow, isDeeper, emit, position, position_ofChars,
      hcolumn, atValue, colon]

/-- A key on its own line is found out in time if it is not too long. -/
theorem isStale_skip {n before : Nat} {required : Bool} (h : n ≤ 1024) :
    isStale (p.skip n) ⟨before, p, required⟩ = false := by
  simpa [isStale, Position.skip] using h

theorem tokensFrom?_atColon (text : List Char) (tokens : List Token) (bound : Nat)
    (hcolumn : p.column = 0) (hkey : key.length ≤ 1024)
    (hindents : indents = [] ∨ indents = [0]) :
    ∃ q tokens', (atColon p key text tokens indents).tokensFrom? (bound + 1) =
        (atValue (.ofChars q (' ' :: text)) tokens').tokensFrom? bound ∧
      tokens'.map Token.kind = .value :: .scalar .plain key :: .key ::
        ((if indents = [] then [.blockMappingStart] else []) ++ tokens.map Token.kind) := by
  let q := p.skip key.length
  have hblank : Marked.ofChars q.next (' ' :: text) =
      .char ' ' q.next (.ofChars q.next.next text) := Marked.ofChars_cons (by decide)
  have hrest : (atColon p key text tokens indents).rest =
      .char ':' q (.ofChars q.next (' ' :: text)) := Marked.ofChars_cons (by decide)
  have hspace : skipSpace false false false (.char ':' q (.ofChars q.next (' ' :: text))) =
      (false, .char ':' q (.ofChars q.next (' ' :: text))) := by
    simp [skipSpace, isBreak]
  obtain ⟨tokens', hvalue, hkinds⟩ : ∃ tokens', (atColon p key text tokens indents).value?
      (.ofChars q.next (' ' :: text)) =
        some (atValue (.ofChars q.next (' ' :: text)) tokens') ∧ _ :=
    value?_atColon tokens hcolumn hindents
  rw [← hrest] at hspace
  refine ⟨q.next, tokens', ?_, hkinds⟩
  refine tokensFrom?_succ (toNextToken_eq rfl hspace) hrest rfl ?_ ?_ ?_
  · intro k hk
    cases hk
    exact isStale_skip hkey
  · rcases hindents with rfl | rfl <;> simp [atColon]
  · rw [hblank] at hrest hvalue ⊢
    exact (token?_colon rfl hrest).trans hvalue

theorem exists_plain?_atValue (p : Position) (tokens : List Token)
    (hvalue : ∀ c ∈ value, isWordChar c = true) (hsound : ∀ line ∈ lines, line.Sound) :
    ∃ q tokens', q.column = 0 ∧
      plain? (atValue (.ofChars p (value ++ '\n' :: Line.text lines)) tokens) =
        some (atLine (.ofChars q (Line.text (lines.dropWhile Line.isEmpty))) tokens' [0]) ∧
      tokens'.map Token.kind = .scalar .plain value :: tokens.map Token.kind := by
  obtain ⟨q, hq, hread⟩ := Plain.exists_read_value (p := p) hvalue hsound
  refine ⟨q, ⟨.scalar .plain value, p, q⟩ :: tokens, hq, ?_, rfl⟩
  simp only [plain?, saveKey?, atValue, Bool.false_eq_true, if_false, inFlow, List.isEmpty_nil,
    Bool.not_true, List.head?_cons, hread, bind, Option.bind, pure]
  simp [emit, atLine, position, position_ofChars]

theorem tokensFrom?_atValue (p : Position) (tokens : List Token) (bound : Nat)
    (hvalue : IsBareWord value) (hsound : ∀ line ∈ lines, line.Sound) :
    ∃ q tokens', q.column = 0 ∧
      (atValue (.ofChars p (' ' :: (value ++ '\n' :: Line.text lines))) tokens).tokensFrom?
          (bound + 1) =
        (atLine (.ofChars q (Line.text (lines.dropWhile Line.isEmpty))) tokens' [0]).tokensFrom?
          bound ∧
      tokens'.map Token.kind = .scalar .plain value :: tokens.map Token.kind := by
  obtain ⟨hne, hword⟩ := hvalue
  obtain ⟨q, tokens', hq, hplain, hkinds⟩ :=
    exists_plain?_atValue (p.skip 1) tokens hword hsound
  obtain ⟨c, word, rfl⟩ := List.exists_cons_of_ne_nil hne
  have hc := hword c List.mem_cons_self
  have hrest : Marked.ofChars (p.skip 1) (c :: (word ++ '\n' :: Line.text lines)) =
      .char c (p.skip 1) (.ofChars (p.skip 1).next (word ++ '\n' :: Line.text lines)) :=
    Marked.ofChars_cons (isInline_of_isWordChar hc)
  have hspace : skipSpace false false false
      (.ofChars p (' ' :: (c :: word ++ '\n' :: Line.text lines))) =
        (false, .ofChars (p.skip 1) (c :: word ++ '\n' :: Line.text lines)) :=
    (skipSpace_spaces 1).trans (skipSpace_of_isWordChar hc)
  refine ⟨q, tokens', hq, tokensFrom?_succ (toNextToken_eq rfl hspace) hrest rfl (by simp [atValue])
    (by simp [atValue]) ?_, hkinds⟩
  rw [token?_of_isWordChar hc rfl hrest]
  exact hplain

/-- An entry and the empty lines after it. -/
theorem tokensFrom?_entry (tokens : List Token) (bound : Nat) (hcolumn : p.column = 0)
    (hindents : indents = [] ∨ indents = [0]) (hsound : ∀ line ∈ lines, line.Sound)
    (hnext : lines.dropWhile Line.isFiller = .entry key value :: later) :
    ∃ q tokens', q.column = 0 ∧
      (atLine (.ofChars p (Line.text lines)) tokens indents).tokensFrom? (bound + 3) =
        (atLine (.ofChars q (Line.text (later.dropWhile Line.isEmpty))) tokens' [0]).tokensFrom?
          bound ∧
      (tokens'.map Token.kind).reverse = (tokens.map Token.kind).reverse ++
        (if indents = [] then [.blockMappingStart] else []) ++ entryKinds (key, value) := by
  have hlines : ∀ line ∈ .entry key value :: later, line.Sound :=
    fun line hmem => hsound line (List.dropWhile_subset _ (hnext ▸ hmem))
  obtain ⟨-, hlength, hvalue⟩ := hlines _ List.mem_cons_self
  have hzero : ∀ indent ∈ indents, indent = 0 := by
    rcases hindents with rfl | rfl <;> simp
  obtain ⟨p₁, hp₁, hkey⟩ :=
    tokensFrom?_atLine tokens (bound + 2) hcolumn hzero hsound hnext
  obtain ⟨p₂, tokens₂, hcolon, hkinds₂⟩ :=
    tokensFrom?_atColon (value ++ '\n' :: Line.text later) tokens (bound + 1) hp₁ hlength hindents
  obtain ⟨q, tokens₃, hq, hread, hkinds₃⟩ :=
    tokensFrom?_atValue p₂ tokens₂ bound hvalue
      fun line hmem => hlines line (List.mem_cons_of_mem _ hmem)
  refine ⟨q, tokens₃, hq, hkey.trans (hcolon.trans hread), ?_⟩
  rw [hkinds₃, hkinds₂]
  split <;> simp [entryKinds]

/-- What is open at the end of the text ends there. -/
theorem tokensFrom?_end (hcolumn : p.column = 0) (hsound : ∀ line ∈ lines, line.Sound)
    (hnext : lines.dropWhile Line.isFiller = []) :
    ∃ tokens', (atLine (.ofChars p (Line.text lines)) tokens [0]).tokensFrom? (bound + 1) =
        some tokens' ∧
      tokens'.map Token.kind = (tokens.map Token.kind).reverse ++ [.blockEnd, .streamEnd] := by
  obtain ⟨q, hq, hspace⟩ := exists_skipSpace hcolumn hsound
  rw [hnext, Line.text_nil, Marked.ofChars] at hspace
  refine ⟨tokens.reverse ++ [⟨.blockEnd, q, q⟩, ⟨.streamEnd, q, q⟩], ?_, by simp⟩
  rw [tokensFrom?, toNextToken_eq rfl hspace, refreshKeys?_eq rfl (by simp [atLine])]
  simp only [bind, Option.bind]
  rw [closeBlocks_of_le rfl (by simp [atLine])]
  simp [finish?, hq, closeAllBlocks, atLine, inFlow, dropKey?, dropped?, emitEmpty, emit, position,
    Marked.position]

end Lexer

namespace Line

variable {key value : List Char} {lines : List Line} {entries : List (List Char × List Char)}

theorem dropWhile_isFiller_of_nil (h : lines.filterMap entry? = []) :
    lines.dropWhile isFiller = [] := by
  induction lines with
  | nil => rfl
  | cons line lines ih =>
      cases line with
      | entry key value => cases h
      | comment text => exact ih h
      | blank width => exact ih h

theorem exists_dropWhile_isFiller (h : lines.filterMap entry? = (key, value) :: entries) :
    ∃ later, lines.dropWhile isFiller = .entry key value :: later ∧
      later.filterMap entry? = entries := by
  induction lines with
  | nil => cases h
  | cons line lines ih =>
      cases line with
      | entry key' value' =>
          cases h
          exact ⟨lines, rfl, rfl⟩
      | comment text => exact ih h
      | blank width => exact ih h

theorem filterMap_dropWhile_isEmpty (lines : List Line) :
    (lines.dropWhile isEmpty).filterMap entry? = lines.filterMap entry? := by
  induction lines with
  | nil => rfl
  | cons line lines ih =>
      cases line with
      | entry key value => rfl
      | comment text => rfl
      | blank width => exact ih

end Line

namespace Lexer

variable {lines : List Line} {entries : List (List Char × List Char)} {tokens : List Token}
  {bound : Nat} {p : Position}

/-- The next entry. What is left after it is again a text of lines, with the entries that are
left. -/
theorem tokensFrom?_nextEntry {entry : List Char × List Char} {indents : List Nat}
    (tokens : List Token) (bound : Nat) (hcolumn : p.column = 0)
    (hindents : indents = [] ∨ indents = [0]) (hsound : ∀ line ∈ lines, line.Sound)
    (hentries : lines.filterMap Line.entry? = entry :: entries) :
    ∃ q tokens' later, q.column = 0 ∧ (∀ line ∈ later, line.Sound) ∧
      later.filterMap Line.entry? = entries ∧
      (atLine (.ofChars p (Line.text lines)) tokens indents).tokensFrom? (bound + 3) =
        (atLine (.ofChars q (Line.text later)) tokens' [0]).tokensFrom? bound ∧
      (tokens'.map Token.kind).reverse = (tokens.map Token.kind).reverse ++
        (if indents = [] then [.blockMappingStart] else []) ++ entryKinds entry := by
  obtain ⟨key, value⟩ := entry
  obtain ⟨later, hnext, hlater⟩ := Line.exists_dropWhile_isFiller hentries
  obtain ⟨q, tokens', hq, hentry, hkinds⟩ :=
    tokensFrom?_entry tokens bound hcolumn hindents hsound hnext
  refine ⟨q, tokens', later.dropWhile Line.isEmpty, hq, ?_,
    (Line.filterMap_dropWhile_isEmpty later).trans hlater, hentry, hkinds⟩
  intro line hmem
  have hlines : line ∈ lines.dropWhile Line.isFiller :=
    hnext ▸ List.mem_cons_of_mem _ (List.dropWhile_subset _ hmem)
  exact hsound line (List.dropWhile_subset _ hlines)

theorem tokensFrom?_entries (tokens : List Token) (hcolumn : p.column = 0)
    (hsound : ∀ line ∈ lines, line.Sound) (hentries : lines.filterMap Line.entry? = entries)
    (hbound : 3 * entries.length < bound) :
    ∃ tokens', (atLine (.ofChars p (Line.text lines)) tokens [0]).tokensFrom? bound =
        some tokens' ∧
      tokens'.map Token.kind = (tokens.map Token.kind).reverse ++
        entries.flatMap entryKinds ++ [.blockEnd, .streamEnd] := by
  -- On the entries and not on the lines: comments and empty lines are gone over on the way.
  induction entries generalizing p lines tokens bound with
  | nil =>
      obtain ⟨bound, rfl⟩ : ∃ n, bound = n + 1 := Nat.exists_eq_add_one.mpr (by omega)
      simpa using tokensFrom?_end hcolumn hsound (Line.dropWhile_isFiller_of_nil hentries)
  | cons entry entries ih =>
      rw [List.length_cons] at hbound
      obtain ⟨bound, rfl⟩ : ∃ n, bound = n + 3 := ⟨bound - 3, by omega⟩
      obtain ⟨q, tokens₁, later, hq, hsound', hlater, hentry, hkinds₁⟩ :=
        tokensFrom?_nextEntry tokens bound hcolumn (.inr rfl) hsound hentries
      obtain ⟨tokens', hrun, hkinds⟩ := ih tokens₁ hq hsound' hlater (by omega : _ < bound)
      refine ⟨tokens', hentry.trans hrun, ?_⟩
      rw [hkinds, hkinds₁]
      simp

end Lexer

namespace Line

variable {lines : List Line}

theorem isInline_of_mem_chars {line : Line} (h : line.Sound) :
    ∀ c ∈ line.chars, isInline c = true := by
  intro c hmem
  cases line with
  | entry key value =>
      obtain ⟨⟨-, hkey⟩, -, -, hvalue⟩ := h
      simp only [chars, List.mem_append, List.mem_cons] at hmem
      rcases hmem with hmem | rfl | rfl | hmem
      · exact isInline_of_isWordChar (hkey c hmem)
      · decide
      · decide
      · exact isInline_of_isWordChar (hvalue c hmem)
  | comment text =>
      rcases List.mem_cons.mp hmem with rfl | hmem
      · decide
      · exact h c hmem
  | blank width =>
      rw [List.eq_of_mem_replicate hmem]
      decide

/-- In the text of lines there is nothing but what may stand within a line, and line feeds. -/
theorem isInline_of_mem_text (h : ∀ line ∈ lines, line.Sound) :
    ∀ c ∈ text lines, isInline c = true ∨ c = '\n' := by
  intro c hmem
  obtain ⟨line, hline, hmem⟩ := List.mem_flatMap.mp hmem
  rcases List.mem_append.mp hmem with hmem | hmem
  · exact .inl (isInline_of_mem_chars (h line hline) c hmem)
  · exact .inr (List.mem_singleton.mp hmem)

theorem length_filterMap_le (lines : List Line) :
    3 * (lines.filterMap entry?).length ≤ (text lines).length := by
  induction lines with
  | nil => exact Nat.le_refl 0
  | cons line lines ih =>
      cases line with
      | entry key value =>
          simp only [List.filterMap_cons, entry?, List.length_cons, text_entry, List.length_append]
          omega
      | comment text =>
          simp only [List.filterMap_cons, entry?, text_cons, List.length_append, List.length_cons]
          omega
      | blank width =>
          simp only [List.filterMap_cons, entry?, text_cons, List.length_append, List.length_cons]
          omega

end Line

theorem Marked.length_ofChars {chars : List Char} {p : Position}
    (h : ∀ c ∈ chars, isInline c = true ∨ c = '\n') :
    (Marked.ofChars p chars).length = chars.length := by
  induction chars generalizing p with
  | nil => rfl
  | cons c chars ih =>
      have hchars := fun {q} => ih (p := q) fun d hd => h d (List.mem_cons_of_mem c hd)
      rcases h c List.mem_cons_self with hc | rfl
      · rw [Marked.ofChars_cons hc, Marked.length, hchars, List.length_cons]
      · rw [Marked.ofChars_newline, Marked.length, hchars, List.length_cons]

/-- The tokens of a text of lines are those of its entries. -/
theorem Token.exists_ofText?_lines {lines : List Line} (hsound : ∀ line ∈ lines, line.Sound)
    (hne : lines.filterMap Line.entry? ≠ []) :
    ∃ tokens, ofText? (String.ofList (Line.text lines)) = some tokens ∧
      tokens.map Token.kind = .blockMappingStart ::
        ((lines.filterMap Line.entry?).flatMap entryKinds ++ [.blockEnd, .streamEnd]) := by
  have hall : (Line.text lines).all isAllowed = true := by
    rw [List.all_eq_true]
    intro c hmem
    rcases Line.isInline_of_mem_text hsound c hmem with hc | rfl
    · exact isAllowed_of_isInline hc
    · decide
  have hlength := Marked.length_ofChars (p := .start) (Line.isInline_of_mem_text hsound)
  have hle := Line.length_filterMap_le lines
  obtain ⟨entry, entries, hentries⟩ := List.exists_cons_of_ne_nil hne
  rw [hentries, List.length_cons] at hle
  obtain ⟨bound, hbound⟩ : ∃ n, (Line.text lines).length + 1 = n + 3 :=
    ⟨(Line.text lines).length - 2, by omega⟩
  -- The first entry also opens the mapping.
  obtain ⟨q, tokens₁, later, hq, hsound', hlater, hentry, hkinds₁⟩ :=
    Lexer.tokensFrom?_nextEntry (p := .start) [] bound rfl (.inl rfl) hsound hentries
  obtain ⟨tokens, hrun, hkinds⟩ :=
    Lexer.tokensFrom?_entries tokens₁ hq hsound' hlater (by omega : _ < bound)
  refine ⟨tokens, ?_, ?_⟩
  · rw [ofText?, String.toList_ofList, if_pos hall]
    simp only [Marked.ofText, String.toList_ofList, hlength, hbound]
    exact hentry.trans hrun
  · rw [hkinds, hkinds₁, hentries]
    simp

end TapeMachine.Yaml
