import TagRank.Text.CaseTable
import TagRank.Text.CasedTable

namespace TagRank.Text

def CaseTable.image (t : CaseTable) (c : Char) : List Char :=
  let n := c.toNat
  match t.runs.find? (·.covers n) with
  | some r => [Char.ofNat (n + r.shift).toNat]
  | none => match t.expansions.lookup n with
    | some ns => ns.map Char.ofNat
    | none => [c]

def CaseTable.map (t : CaseTable) (s : String) : String :=
  String.ofList (s.toList.flatMap t.image)

def foldChar (c : Char) : List Char := foldTable.image c

/-- Full case folding: two texts differ only in case when their folds are equal. -/
def fold (s : String) : String := foldTable.map s

@[simp] theorem toList_fold (s : String) : (fold s).toList = s.toList.flatMap foldChar := by
  simp only [fold, CaseTable.map, String.toList_ofList]
  rfl

def upper (s : String) : String := upperTable.map s

def isWithin (ranges : List (Nat × Nat)) (c : Char) : Bool :=
  ranges.any fun (first, last) => first ≤ c.toNat && c.toNat ≤ last

def isCased (c : Char) : Bool := isWithin casedRanges c

def isCaseIgnorable (c : Char) : Bool := isWithin caseIgnorableRanges c

def startsCased (cs : List Char) : Bool := (cs.dropWhile isCaseIgnorable).head?.any isCased

def lowerFrom (inside : Bool) : List Char → List Char
  | [] => []
  | c :: cs =>
    if c = 'Σ' then
      (if inside && !startsCased cs then 'ς' else 'σ') :: lowerFrom true cs
    else lowerTable.image c ++ lowerFrom (if isCaseIgnorable c then inside else isCased c) cs

def lower (s : String) : String := String.ofList (lowerFrom false s.toList)

def sameAscii (s t : String) : Bool := s.toList.map Char.toLower == t.toList.map Char.toLower

end TagRank.Text
