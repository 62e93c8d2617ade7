/-!
# Similarity of words

How like two words are: how many characters they share at about the same place, and how many of
those stand in another order.
-/

namespace Calculator.Similarity

/-- How many places apart two characters may stand and still count as shared. -/
def reach (first second : List Char) : Nat :=
  max first.length second.length / 2 - 1

/-- The characters that two words share, each with its place in the second word. In the order of the
first word, a character is shared with the first one like it that is within reach and not shared
yet. -/
def shared (first second : List Char) : List (Char × Nat) :=
  let reach := reach first second
  first.zipIdx.foldl
    (fun found (c, here) =>
      let partner := second.zipIdx.find? fun (d, there) =>
        d = c ∧ here ≤ there + reach ∧ there ≤ here + reach ∧ (d, there) ∉ found
      found ++ partner.toList)
    []

/-- How many pairs of shared characters change places between the two words. -/
def transpositions (first second : List Char) : Nat :=
  let there := second.zipIdx.filter (· ∈ shared first second)
  ((shared first second).zip there).countP (fun (one, other) => one.1 ≠ other.1) / 2

/-- The mean of three shares: of the first word that is shared, of the second word that is, and of
the shared characters that keep their order. -/
def similarity (first second : String) : Float :=
  let first := first.toList
  let second := second.toList
  let count := (shared first second).length
  let kept := count - transpositions first second
  if count = 0 then 0
  else
    (count.toFloat / first.length.toFloat + count.toFloat / second.length.toFloat +
      kept.toFloat / count.toFloat) / 3

end Calculator.Similarity
