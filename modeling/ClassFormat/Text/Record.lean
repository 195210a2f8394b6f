namespace ClassFormat.Text

def commas (items : List String) : String := ", ".intercalate items

def bracketed (items : List String) : String := "[" ++ commas items ++ "]"

def tuple (items : List String) : String := "(" ++ commas items ++ ")"

def record (name : String) (fields : List (String × String)) : String :=
  name ++ " \x7b " ++ commas (fields.map fun f => f.1 ++ ": " ++ f.2) ++ " \x7d"

end ClassFormat.Text
