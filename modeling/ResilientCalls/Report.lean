/-!
# Reports

Observations as trees of plain values, for code that wants to show what it saw.
-/

namespace ResilientCalls

/-- A tree of plain values; the fields of a record are named. -/
inductive Report
  | nothing
  | flag (value : Bool)
  | number (value : Int)
  | text (value : String)
  | list (items : List Report)
  | fields (items : List (String × Report))
deriving Inhabited

namespace Report

/-- A count. -/
def nat (n : Nat) : Report := .number n

/-- A value, or nothing. -/
def option : Option Report → Report
  | none => .nothing
  | some r => r

/-- Text, or nothing. -/
def text? (s : Option String) : Report := option (s.map text)

end Report

end ResilientCalls
