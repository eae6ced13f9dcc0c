/-!
# Method names

The name of a client method is its operation id in camel case.
-/

namespace EndpointAtlas

/-- Whether a character is a lower-case letter of the basic alphabet. -/
def isLowerLetter (c : Char) : Bool := 'a' ≤ c && c ≤ 'z'

/-- Characters with every underscore in front of a lower-case letter dropped and the letter in upper
case. -/
def camelChars : List Char → List Char
  | '_' :: c :: rest =>
    if isLowerLetter c then c.toUpper :: camelChars rest else '_' :: camelChars (c :: rest)
  | c :: rest => c :: camelChars rest
  | [] => []

/-- A name in camel case: `item_get` becomes `itemGet`. -/
def camelCase (name : String) : String := String.ofList (camelChars name.toList)

end EndpointAtlas
