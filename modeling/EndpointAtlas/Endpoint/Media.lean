import EndpointAtlas.Fault

/-!
# Media types

A content map lists the media types in which a body can be sent. The first one for JSON is picked,
else the first of all. A media type for JSON documents in a row makes a stream.
-/

namespace EndpointAtlas.Media

/-- A character in lower case, with the long s as a form of the letter s. -/
def foldCase (c : Char) : Char := if c = 'ſ' then 's' else c.toLower

/-- Whether a text ends in a word in lower case, whatever its own case. A line break behind the word
does not count. -/
def endsIn (word : String) (s : String) : Bool :=
  let backwards := (s.toList.map foldCase).reverse
  let last := word.toList.reverse
  last.isPrefixOf backwards || ('\n' :: last).isPrefixOf backwards

/-- Whether a media type is for JSON. -/
def isJson (mediaType : String) : Bool := endsIn "json" mediaType

/-- Whether a media type is for a stream of JSON documents. -/
def isStreaming (mediaType : String) : Bool := endsIn "ndjson" mediaType

/-- The first JSON media type among keys, which are looked at one after the other and have to be
texts up to there. -/
def firstJson? : Members → Except Fault (Option (String × Value))
  | [] => .ok none
  | (.str key, entry) :: rest => if isJson key then .ok (some (key, entry)) else firstJson? rest
  | (key, _) :: _ => .error (.mistyped (.scalar key))

/-- An entry that is given, else an empty mapping. -/
def givenEntry (entry : Value) : Value := if entry.isTruthy then entry else .map []

/-- The media type that is used of a content map, and its entry. -/
def pick (content : Value) : Except Fault (Option (String × Value)) :=
  if !content.isTruthy then .ok none
  else match content with
    | .map members => do
      match ← firstJson? members with
      | some (key, entry) => return some (key, givenEntry entry)
      | none =>
        match members with
        | (.str key, entry) :: _ => return some (key, givenEntry entry)
        | _ => return none
    | v => .error (.mistyped v)

end EndpointAtlas.Media
