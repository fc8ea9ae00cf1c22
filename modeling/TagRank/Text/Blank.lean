namespace TagRank.Text

/-- The white space of Unicode together with the four ASCII information separators. -/
def isBlank (c : Char) : Bool :=
  let n := c.toNat
  (9 ≤ n && n ≤ 13) || (28 ≤ n && n ≤ 32) || n == 0x85 || n == 0xA0 || n == 0x1680 ||
    (0x2000 ≤ n && n ≤ 0x200A) || n == 0x2028 || n == 0x2029 || n == 0x202F || n == 0x205F ||
    n == 0x3000

def dropBlanks (cs : List Char) : List Char := cs.dropWhile isBlank

def trimList (cs : List Char) : List Char := (dropBlanks (dropBlanks cs).reverse).reverse

def trim (s : String) : String := String.ofList (trimList s.toList)

@[simp] theorem toList_trim (s : String) : (trim s).toList = trimList s.toList := by simp [trim]

def pieces (sep : Char) : List Char → List (List Char)
  | [] => [[]]
  | c :: cs =>
    if c = sep then [] :: pieces sep cs
    else match pieces sep cs with
      | [] => [[c]]
      | p :: ps => (c :: p) :: ps

theorem pieces_ne_nil (sep : Char) (cs : List Char) : pieces sep cs ≠ [] := by
  cases cs with
  | nil => simp [pieces]
  | cons c cs => by_cases h : c = sep <;> simp only [pieces, h, if_true, if_false] <;> grind

def splitAt (sep : Char) (s : String) : List String := (pieces sep s.toList).map String.ofList

def countWords (inside : Bool) : List Char → Nat
  | [] => 0
  | c :: cs =>
    if isBlank c then countWords false cs
    else (if inside then 0 else 1) + countWords true cs

def wordCount (s : String) : Nat := countWords false s.toList

def join (sep : String) : List String → String
  | [] => ""
  | [s] => s
  | s :: r => s ++ sep ++ join sep r

end TagRank.Text
