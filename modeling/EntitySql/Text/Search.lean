/-
  The first place where a text occurs in another.
-/

namespace EntitySql.Text

/-- The characters in front of the first occurrence of a text and those behind it. -/
def splitAround (needle : List Char) : List Char → Option (List Char × List Char)
  | [] => if needle.isEmpty then some ([], []) else none
  | c :: cs =>
    if needle.isPrefixOf (c :: cs) then some ([], (c :: cs).drop needle.length)
    else (splitAround needle cs).map fun parts => (c :: parts.1, parts.2)

/-- Whether a text occurs in another. -/
def occursIn (needle s : String) : Bool := (splitAround needle.toList s.toList).isSome

/-- Whether a text begins with another. -/
def beginsWith (s start : String) : Bool := start.toList.isPrefixOf s.toList

/-- Whether a text ends with another. -/
def endsWith (s finish : String) : Bool := finish.toList.reverse.isPrefixOf s.toList.reverse

end EntitySql.Text
