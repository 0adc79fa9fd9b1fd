import Gamebook.Yaml.Glyph

/-!
Scalars without quotes. Such a text ends before a colon and a blank, before a comment, where a line
is indented less than it must be, and in a flow collection before every mark of one.
-/
namespace Gamebook.Yaml

def isFlowMark (c : Char) : Bool :=
  c = ',' || c = '[' || c = ']' || c = '{' || c = '}'

/-- Whether an indicator stands here after which no colon of a flow collection may belong to the
text before it. -/
def atFlowIndicator : List Glyph → Bool
  | [] => false
  | g :: _ => isFlowMark g.char || g.char = '?'

/-- The marks that begin something other than a plain text, blanks and line breaks apart. -/
def isIndicator (c : Char) : Bool :=
  isFlowMark c || c = '-' || c = '?' || c = ':' || c = '#' || c = '&' || c = '*' || c = '!' ||
    c = '|' || c = '>' || c = '\'' || c = '"' || c = '%' || c = '@' || c = '\x60'

/-- Whether a plain text begins with `c` where `rest` follows. -/
def beginsPlain (inFlow : Bool) (c : Char) (rest : List Glyph) : Bool :=
  !(isGap c || isIndicator c) || (!atGap rest && (c = '-' || (!inFlow && (c = '?' || c = ':'))))

structure PlainText where
  chars : List Char
  /-- Whether a line ended between the text and what follows it. -/
  endsLine : Bool
  rest : List Glyph

/-- Reads a plain text; its lines after the first are indented by `indent` at least. The characters
so far stand in `acc` and the blanks and line breaks after them in `gap`, in reverse order. -/
def readPlain (inFlow : Bool) (indent : Nat) (gap acc : List Char) : List Glyph → Option PlainText
  | [] => some ⟨acc.reverse, gap.any isBreak, []⟩
  | g :: rest =>
    let stop : PlainText := ⟨acc.reverse, gap.any isBreak, g :: rest⟩
    if isGap g.char then
      if g.char = '\t' && g.place.column < indent && gap.any isBreak then none
      else readPlain inFlow indent (g.char :: gap) acc rest
    else if !gap.isEmpty &&
        (g.char = '#' || atDocumentMarker (g :: rest) ||
          (!inFlow && g.place.column < indent)) then some stop
    else if inFlow && g.char = ':' && atFlowIndicator rest then none
    else if (g.char = ':' && atGap rest) || (inFlow && isFlowMark g.char) then some stop
    else readPlain inFlow indent [] (g.char :: appendGap gap acc) rest

end Gamebook.Yaml
