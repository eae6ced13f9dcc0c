/-!
# Blanks

The characters that are dropped at the ends of a text: the Unicode white space and the four
information separators.
-/

namespace EndpointAtlas.Text

/-- The code points of the blanks. -/
def blanks : List Nat := [9, 10, 11, 12, 13, 28, 29, 30, 31, 32, 133, 160, 5760, 8192, 8193, 8194,
  8195, 8196, 8197, 8198, 8199, 8200, 8201, 8202, 8232, 8233, 8239, 8287, 12288]

/-- Whether a character is dropped at the ends of a text. -/
def isBlank (c : Char) : Bool := blanks.contains c.toNat

/-- Whether a character is an information separator. -/
def isSeparator (c : Char) : Bool := '\x1c' ≤ c && c ≤ '\x1f'

/-- A list of characters without those at its ends that are to be dropped. -/
def trim (dropped : Char → Bool) (cs : List Char) : List Char :=
  (cs.dropWhile dropped).reverse.dropWhile dropped |>.reverse

end EndpointAtlas.Text
