import CorpusQuery.Text.CaseTable

/-! Full lower-casing of a text, as used to compare spellings without regard to case. -/

namespace CorpusQuery.Text

/-- One character keeps its place except `İ`, which becomes `i` with a dot above. -/
def lowerChar (c : Char) : Text :=
  if c = '\u0130' then ['i', '\u0307']
  else match caseRuns.find? (·.covers c.toNat) with
    | some run => [Char.ofNat (c.toNat + run.shift).toNat]
    | none => [c]

/-- Past characters that case ignores, the next one has case. -/
def startsCased (t : Text) : Bool :=
  match t.dropWhile caseIgnorablePoints.has with
  | c :: _ => casedPoints.has c
  | [] => false

/-- Lower case of `rest`, with `before` the text that precedes it, last character first.
A sigma that ends a word becomes the final sigma. -/
def lowerAfter (before : Text) : Text → Text
  | [] => []
  | c :: rest =>
    let low :=
      if c = 'Σ' then
        if startsCased before && !startsCased rest then ['ς'] else ['σ']
      else lowerChar c
    low ++ lowerAfter (c :: before) rest

def lower (t : Text) : Text := lowerAfter [] t

example : lower "ΟΔΟΣ Σ".toList = "οδος σ".toList := by decide +kernel

end CorpusQuery.Text
