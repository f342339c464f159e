/-!
# Powers of two and ten

The units in which binary and decimal numbers are counted.
-/

namespace ResilientCalls

/-- Two to a whole power. -/
abbrev twoTo (n : Nat) : Nat := Nat.pow 2 n

/-- Ten to a whole power. -/
abbrev tenTo (n : Nat) : Nat := Nat.pow 10 n

end ResilientCalls
