import ResilientCalls.Text.Quoted

/-!
# Structured text

A `Layout` is the shape of a printed value: words, records with named fields, tuples and lists.
`Layout.inline` writes it on one line, `Layout.indented` with one item a line.
-/

namespace ResilientCalls.Text

/-- The shape of a printed value. -/
inductive Layout
  /-- A finished piece of text. -/
  | word (text : String)
  /-- A value under the name of its field. -/
  | field (name : String) (value : Layout)
  /-- A named record of fields; a partial one hides some of its fields. -/
  | record (name : String) (fields : List Layout) (partially : Bool)
  /-- A named tuple of values; the name may be empty. -/
  | tuple (name : String) (items : List Layout)
  /-- A list of values. -/
  | list (items : List Layout)

namespace Layout

/-- A record that shows all its fields. -/
def struct (name : String) (fields : List (String × Layout)) : Layout :=
  .record name (fields.map fun f => .field f.1 f.2) false

/-- A number. -/
def nat (n : Nat) : Layout := .word (toString n)

/-- A number with a sign. -/
def int (n : Int) : Layout := .word (toString n)

/-- Quoted text. -/
def text (s : String) : Layout := .word (quoted s)

/-- Absence or presence of a value. -/
def option : Option Layout → Layout
  | none => .word "None"
  | some v => .tuple "Some" [v]

/-! ## On one line -/

/-- A record with nothing to show is its name alone. -/
def inlineRecord (name : String) (fields : List String) (partially : Bool) : String :=
  let shown := if partially then fields ++ [".."] else fields
  match shown with
  | [] => name
  | _ => name ++ " \x7b " ++ ", ".intercalate shown ++ " \x7d"

/-- A nameless tuple of one item has a comma after it. -/
def inlineTuple (name : String) (items : List String) : String :=
  match items with
  | [] => name
  | [item] => if name.isEmpty then "(" ++ item ++ ",)" else name ++ "(" ++ item ++ ")"
  | _ => name ++ "(" ++ ", ".intercalate items ++ ")"

mutual

/-- The value on one line. -/
def inline : Layout → String
  | word s => s
  | field name v => name ++ ": " ++ v.inline
  | record name fields partially => inlineRecord name (inlineAll fields) partially
  | tuple name items => inlineTuple name (inlineAll items)
  | list items => "[" ++ ", ".intercalate (inlineAll items) ++ "]"

/-- Each value on one line. -/
def inlineAll : List Layout → List String
  | [] => []
  | v :: vs => v.inline :: inlineAll vs

end

/-! ## One item a line -/

/-- Puts one step of white space in front of every line; `fresh` says that a line is about to
begin. -/
def indentFrom : Bool → List Char → List Char
  | _, [] => []
  | fresh, c :: cs => (if fresh then List.replicate 4 ' ' else []) ++ c :: indentFrom (c == '\n') cs

/-- Text with every line moved one step to the right. A name that spans several lines moves with all
of them. -/
def shifted (s : String) : String := String.ofList (indentFrom true s.toList)

/-- Lines between an opening and a closing bracket, one step further right. -/
def block (opening : String) (lines : List String) (closing : String) : String :=
  opening ++ "\n" ++ shifted (String.join (lines.map (· ++ "\n"))) ++ closing

/-- Items are each followed by a comma; the dots of a partial record are not. -/
def itemLines (items : List String) (partially : Bool) : List String :=
  items.map (· ++ ",") ++ (if partially then [".."] else [])

mutual

/-- The value with one item a line. -/
def indented : Layout → String
  | word s => s
  | field name v => name ++ ": " ++ v.indented
  | record name fields partially =>
      match itemLines (indentedAll fields) partially with
      | [] => name
      | lines => block (name ++ " \x7b") lines "\x7d"
  | tuple name items =>
      match itemLines (indentedAll items) false with
      | [] => name
      | lines => block (name ++ "(") lines ")"
  | list items =>
      match itemLines (indentedAll items) false with
      | [] => "[]"
      | lines => block "[" lines "]"

/-- Each value with one item a line. -/
def indentedAll : List Layout → List String
  | [] => []
  | v :: vs => v.indented :: indentedAll vs

end

/-- The value on one line, or with one item a line. -/
def render (v : Layout) (pretty : Bool) : String := if pretty then v.indented else v.inline

end Layout

end ResilientCalls.Text
