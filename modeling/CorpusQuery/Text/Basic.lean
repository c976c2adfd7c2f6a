/-! Text as a list of code points, which is what queries, values and documents are made of. -/

namespace CorpusQuery

/-- A text is the list of its code points, and a position in it counts them. -/
abbrev Text := List Char

namespace Text

/-- Decimal digits, without leading zeros. -/
def decimal (n : Nat) : Text := Nat.toDigits 10 n

/-- Puts a character in front of the first of several texts. -/
def consFirst (c : Char) : List Text → List Text
  | [] => [[c]]
  | first :: more => (c :: first) :: more

/-- Cuts at every line feed; a text with none is one line. -/
def lines : Text → List Text
  | [] => [[]]
  | c :: rest => if c = '\n' then [] :: lines rest else consFirst c (lines rest)

theorem intercalate_cons (separator first : Text) (rest : List Text) :
    separator.intercalate (first :: rest) = first ++ rest.flatMap (separator ++ ·) := by
  induction rest generalizing first with
  | nil => simp
  | cons next rest ih =>
    rw [List.intercalate_cons_cons, ih, List.flatMap_cons]
    simp only [List.append_assoc]

/-- A row within a row, with what the other parts add in front and behind. -/
theorem intercalate_append (separator : Text) (left : List Text) {parts : List Text}
    (hparts : parts ≠ []) (right : List Text) :
    separator.intercalate (left ++ parts ++ right) =
      left.flatMap (· ++ separator) ++ separator.intercalate parts ++
        right.flatMap (separator ++ ·) := by
  obtain ⟨first, rest, rfl⟩ := List.exists_cons_of_ne_nil hparts
  induction left with
  | nil =>
    rw [List.nil_append, List.cons_append, intercalate_cons, intercalate_cons, List.flatMap_append]
    simp
  | cons p left ih =>
    obtain ⟨next, more, heq⟩ := List.exists_cons_of_ne_nil
      (show left ++ first :: rest ++ right ≠ [] by simp)
    rw [List.cons_append, List.cons_append, heq, List.intercalate_cons_cons, ← heq, ih,
      List.flatMap_cons]
    simp only [List.append_assoc]

end Text

end CorpusQuery
