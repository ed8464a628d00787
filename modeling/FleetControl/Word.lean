/-!
# Machine words

How many values fit into a word. Counters that wrap, numbers that are read from text and spans of
time have their limits here.
-/

namespace FleetControl.Word

/-- How many values a word of 63 bits has: what a signed word of 64 bits can count up to. -/
abbrev count63 : Nat := 9223372036854775808

/-- How many values a word of 64 bits has. -/
abbrev count64 : Nat := 18446744073709551616

/-- The largest number of 64 bits. -/
abbrev max64 : Nat := 18446744073709551615

/-- The largest number of 32 bits. -/
abbrev max32 : Nat := 4294967295

end FleetControl.Word
