import CorpusQuery.Text.CodePoints

/-! White space in the sense of Unicode, and trimming it off. -/

namespace CorpusQuery.Text

/-- The property `White_Space`. -/
def blankPoints : CodePoints := [
  (0x9, 0xd), (0x20, 0x20), (0x85, 0x85), (0xa0, 0xa0), (0x1680, 0x1680), (0x2000, 0x200a),
  (0x2028, 0x2029), (0x202f, 0x202f), (0x205f, 0x205f), (0x3000, 0x3000)]

example : blankPoints.isAscending ∧ blankPoints.size = 25 := by decide

def isBlank (c : Char) : Bool := blankPoints.has c

def trimStart (t : Text) : Text := t.dropWhile isBlank

def trimEnd (t : Text) : Text := (trimStart t.reverse).reverse

def trim (t : Text) : Text := trimEnd (trimStart t)

/-- Nothing but white space, if anything at all. -/
def allBlank (t : Text) : Bool := t.all isBlank

end CorpusQuery.Text
