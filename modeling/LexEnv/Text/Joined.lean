/-!
# Joined texts

Texts one after the other with a separator between them.
-/

namespace LexEnv.Text

/-- Puts a separator between texts. -/
def joinWith (sep : String) : List String → String
  | [] => ""
  | [s] => s
  | s :: ss => s ++ sep ++ joinWith sep ss

end LexEnv.Text
