namespace TmsCores.RecordText

/-- A record as its name and its fields, each with its value, in braces. -/
def text (name : String) (fields : List (String × String)) : String :=
  name ++ " \x7b " ++ ", ".intercalate (fields.map fun (field, value) => field ++ ": " ++ value) ++
    " \x7d"

end TmsCores.RecordText
