import ImportOrder.Text

/-!
Message templates: a name in braces stands for a value.

`fill` puts values in one after the other, so a placeholder inside a value is filled by a later
one of that name. `format` reads the template once and never looks at a value again.
-/

namespace ImportOrder.Template

/-- How a template writes a name. -/
def placeholder (name : String) : Text := '\x7b' :: name.toList ++ ['\x7d']

def fillOne (template : Text) (name value : String) : Text :=
  template.replace (placeholder name) value.toList

def fill (template : String) (values : List (String × String)) : String :=
  String.ofList (values.foldl (fun t v => fillOne t v.1 v.2) template.toList)

/-- The rest of a template with its fields put in; `name` is the part of a name read so far. -/
def formatFrom (fields : List (String × String)) : Text → Option Text → Text
  | [], none => []
  | [], some name => '\x7b' :: name.reverse
  | c :: rest, none =>
      if c == '\x7b' then formatFrom fields rest (some [])
      else c :: formatFrom fields rest none
  | c :: rest, some name =>
      if c == '\x7d' then
        ((fields.lookup (String.ofList name.reverse)).getD "").toList ++
          formatFrom fields rest none
      else formatFrom fields rest (some (c :: name))

def format (template : String) (fields : List (String × String)) : String :=
  String.ofList (formatFrom fields template.toList none)

end ImportOrder.Template
