/-!
# Parts of a text

`splitOn` cuts a text at every separator. Two separators in a row have an empty part between them,
so a text with `n` separators has `n + 1` parts.
-/

namespace EndpointAtlas.Text

/-- The parts of a text between separators. -/
def splitOn (separator : Char) : List Char → List (List Char)
  | [] => [[]]
  | c :: rest =>
    match splitOn separator rest with
    | part :: parts => if c = separator then [] :: part :: parts else (c :: part) :: parts
    | [] => [[c]]

theorem length_splitOn (separator : Char) (cs : List Char) :
    (splitOn separator cs).length = cs.count separator + 1 := by
  induction cs with
  | nil => rfl
  | cons c rest ih =>
    simp only [splitOn]
    split
    · next part parts h =>
      rw [h] at ih
      simp only [List.length_cons] at ih
      by_cases hc : c = separator <;> simp [hc, ih]
    · next h => simp [h] at ih

end EndpointAtlas.Text
