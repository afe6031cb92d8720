/-!
What a reader hands on: a text shorter than the one that it was given.
-/

namespace Switchboard.Text

abbrev Within (whole : List Char) := { rest : List Char // rest.length < whole.length }

end Switchboard.Text
