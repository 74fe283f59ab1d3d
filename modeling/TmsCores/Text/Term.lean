namespace TmsCores.TermText

/-- A constructor as its name and, if it has any, its arguments in parentheses. -/
def text (name : String) : (arguments : List String) → String
  | [] => name
  | arguments => name ++ "(" ++ ", ".intercalate arguments ++ ")"

end TmsCores.TermText
