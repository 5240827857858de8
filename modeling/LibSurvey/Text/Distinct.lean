/-!
Lists of texts without repetitions, and texts within texts.
-/

namespace LibSurvey.Text

/-- The texts of a list, each at its first place only. -/
def distinct (texts : List String) : List String :=
  texts.foldl (fun kept text => if kept.contains text then kept else kept ++ [text]) []

/-- Whether a part stands anywhere in a text. -/
def occursIn (part : List Char) : List Char → Bool
  | [] => part.isEmpty
  | c :: rest => part.isPrefixOf (c :: rest) || occursIn part rest

end LibSurvey.Text
