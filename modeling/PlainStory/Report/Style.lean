import PlainStory.Text.Basic

/-!
# Styles

A painted text stands between a sequence that turns its style on and the one that turns all styles
off. Where nothing is painted the text stays as it is.
-/

namespace PlainStory

/-- The styles of a report, by what they are for. -/
inductive Style where
  | ok
  | skipped
  | err
  | header
  | bold
deriving DecidableEq

namespace Style

/-- The character that begins every style sequence. -/
def escape : Char := '\x1b'

def code : Style → Text
  | ok => "32"
  | skipped => "36"
  | err => "31"
  | header => "34"
  | bold => "1"

/-- The sequence with the given code. -/
def sequence (code : Text) : Text := [escape, '['] ++ code ++ ['m']

/-- Puts a text into a style, if anything is to be painted. -/
def paint (painted : Bool) (style : Style) (s : Text) : Text :=
  if painted then sequence style.code ++ s ++ sequence "0" else s

end Style

end PlainStory
