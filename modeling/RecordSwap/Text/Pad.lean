import RecordSwap.Checked

/-!
# Padding

Texts filled up with blanks to a width, counted in characters.

* `padRight`, `padLeft`: the text at the left or at the right end.
* `padColumn`: padding to a computed width, which has to lie below `columnLimit`.
-/

namespace RecordSwap.Text

def blanks (n : Nat) : String := String.ofList (List.replicate n ' ')

def padRight (width : Nat) (s : String) : String := s ++ blanks (width - s.length)

def padLeft (width : Nat) (s : String) : String := blanks (width - s.length) ++ s

/-- Computed widths lie below this bound, `2 ^ 16`. -/
def columnLimit : Nat := 0x10000

def padColumn (width : Nat) (s : String) : Checked String :=
  if width < columnLimit then pure (padRight width s) else throw .columnLimit

end RecordSwap.Text
