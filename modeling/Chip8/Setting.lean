import Chip8.Value

/-!
# Chip8.Setting

What an entry of a table of settings asks for.  The table is filled in by a
caller, who may put any value there; some of them leave the choice open, and a
truth does for a number.
-/

namespace Chip8

/-- A value in a table of settings. -/
abbrev Setting := Value

namespace Setting

/-- An entry that leaves the choice open. -/
@[match_pattern] abbrev unset : Setting := .single .nothing

/-- An entry that is a text. -/
@[match_pattern] abbrev text (s : String) : Setting := .single (.text s)

/-- The value as it stands in a message: a text as it is, and all else as it is
displayed. -/
def shown? : Setting → Option String
  | text s => some s
  | s => s.describe?

end Setting

end Chip8
