import TapeMachine.Yaml.Gap

/-!
Plain scalars: text without quotes. A plain scalar ends before a comment, before a colon that is
followed by space, inside brackets before an indicator of theirs, and at the first line that is not
indented enough.
-/

namespace TapeMachine.Yaml.Plain

structure Reading where
  text : List Char
  /-- Whether a line break was passed on the way to what follows. -/
  endsLine : Bool
  rest : Marked

/-- Whether a plain scalar cannot go on over a gap with what comes next. -/
def endsAfterGap (inFlow : Bool) (indent : Nat) (next : Marked) : Bool :=
  next.startsWith (· = '#') || next.atDocumentMarker || (!inFlow && next.column < indent)

/-- Reads on, with the characters so far (the latest first) and the gap since them. A tab that
stands for indentation is an error, and so is, inside brackets, a colon right before one. -/
def readFrom (inFlow : Bool) (indent : Nat) : List Char → Gap → Marked → Option Reading
  | text, gap, .done p => some ⟨text.reverse, gap.hasBreak, .done p⟩
  | text, gap, .char c p rest =>
      if isBlank c || isBreak c then
        if c = '\t' && gap.hasBreak && p.column < indent then none
        else readFrom inFlow indent text (gap.extend c) rest
      else if !gap.isAbsent && endsAfterGap inFlow indent (.char c p rest) then
        some ⟨text.reverse, gap.hasBreak, .char c p rest⟩
      else if inFlow && c = ':' && rest.startsWith (fun d => isFlowIndicator d || d = '?') then
        none
      else if (c = ':' && rest.atSpace) || (inFlow && isFlowIndicator c) then
        some ⟨text.reverse, gap.hasBreak, .char c p rest⟩
      else
        readFrom inFlow indent (c :: (gap.fold.reverse ++ text)) .absent rest

/-- Reads a plain scalar whose lines after the first are indented by so many columns. -/
def read (inFlow : Bool) (indent : Nat) (t : Marked) : Option Reading :=
  readFrom inFlow indent [] .absent t

end TapeMachine.Yaml.Plain
