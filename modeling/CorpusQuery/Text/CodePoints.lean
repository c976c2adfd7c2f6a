import CorpusQuery.Text.Basic

/-! Sets of code points, written as ranges. The tables built on them hold data of Unicode 17.0. -/

namespace CorpusQuery.Text

/-- Closed ranges of code points. -/
abbrev CodePoints := List (Nat × Nat)

def CodePoints.has (s : CodePoints) (c : Char) : Bool :=
  s.any fun (lo, hi) => lo ≤ c.toNat && c.toNat ≤ hi

/-- The ranges ascend, with a gap between each and the next, so a set is written in one way. -/
def CodePoints.isAscending : CodePoints → Bool
  | [] => true
  | [r] => r.1 ≤ r.2
  | r :: s :: rest => r.1 ≤ r.2 && r.2 + 1 < s.1 && isAscending (s :: rest)

def CodePoints.size (s : CodePoints) : Nat := s.foldl (fun n (lo, hi) => n + (hi + 1 - lo)) 0

end CorpusQuery.Text
