import EndpointAtlas.Value.Basic

/-!
# Values that contain themselves

Some rounds of an endless value are held: the list `l` of one and of `l` may be held as the list of
one and of a list of one and a cut. `folded` takes all rounds but the last back, so that `l` is the
list of one and a cut. A value without a cut stays as it is (`folded_of_not_isEndless`).
-/

namespace EndpointAtlas.Value

mutual

/-- Whether a value contains itself, or a part that does. -/
def isEndless : Value → Bool
  | .cut _ => true
  | .list items => anyEndless items
  | .map members => anyMemberEndless members
  | _ => false

def anyEndless : List Value → Bool
  | [] => false
  | v :: rest => isEndless v || anyEndless rest

def anyMemberEndless : List (Scalar × Value) → Bool
  | [] => false
  | (_, v) :: rest => isEndless v || anyMemberEndless rest

end

/-- The cut that stands for one more round of a value. -/
def toCut : Value → Value
  | .list _ => .cut true
  | _ => .cut false

mutual

/-- A value with cuts in the place of a part. -/
def cutAt (part : Value) : Value → Value
  | .list items =>
    if Value.list items = part then part.toCut else .list (cutItemsAt part items)
  | .map members =>
    if Value.map members = part then part.toCut else .map (cutMembersAt part members)
  | v => v

def cutItemsAt (part : Value) : List Value → List Value
  | [] => []
  | v :: rest => cutAt part v :: cutItemsAt part rest

def cutMembersAt (part : Value) : List (Scalar × Value) → List (Scalar × Value)
  | [] => []
  | (k, v) :: rest => (k, cutAt part v) :: cutMembersAt part rest

end

mutual

/-- A value and all its parts. -/
def parts : Value → List Value
  | .list items => .list items :: partsOfItems items
  | .map members => .map members :: partsOfMembers members
  | v => [v]

def partsOfItems : List Value → List Value
  | [] => []
  | v :: rest => parts v ++ partsOfItems rest

def partsOfMembers : List (Scalar × Value) → List Value
  | [] => []
  | (_, v) :: rest => parts v ++ partsOfMembers rest

end

/-- The last round of a value inside the one before, if there is one, and else the value: the part
that the value becomes once the part is cut off. -/
def lastRound (v : Value) : Value :=
  (v.parts.tail.find? fun part => part.isEndless && cutAt part v = part).getD v

mutual

/-- A value with the last rounds of all endless parts in the place of the first. -/
def foldRounds : Value → Value
  | .list items => (Value.list (foldItems items)).lastRound
  | .map members => (Value.map (foldMembers members)).lastRound
  | v => v

def foldItems : List Value → List Value
  | [] => []
  | v :: rest => foldRounds v :: foldItems rest

def foldMembers : List (Scalar × Value) → List (Scalar × Value)
  | [] => []
  | (k, v) :: rest => (k, foldRounds v) :: foldMembers rest

end

/-- A value whose endless parts are cut off behind their first round. -/
def folded (v : Value) : Value := if v.isEndless then v.foldRounds else v

theorem folded_of_not_isEndless {v : Value} (h : v.isEndless = false) : v.folded = v := by
  simp [folded, h]

end EndpointAtlas.Value
