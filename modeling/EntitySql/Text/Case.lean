/-
  Comparison of names that takes the upper and lower case of an ASCII letter as one.
-/

namespace EntitySql.Text

/-- A text with its ASCII letters in lower case. -/
def lowerCase (s : String) : List Char := s.toList.map Char.toLower

/-- Whether two texts are equal up to the case of ASCII letters. -/
def equalIgnoringCase (a b : String) : Bool := lowerCase a == lowerCase b

end EntitySql.Text
