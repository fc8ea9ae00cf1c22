namespace TagRank.Assoc

variable {κ : Type} {β : Type} [DecidableEq κ]

/-- A known key keeps its place and takes the new value; a new key goes to the end. -/
def insert (k : κ) (v : β) : List (κ × β) → List (κ × β)
  | [] => [(k, v)]
  | (k', v') :: m => if k' = k then (k', v) :: m else (k', v') :: insert k v m

def get? (k : κ) : List (κ × β) → Option β
  | [] => none
  | (k', v) :: m => if k' = k then some v else get? k m

def getD (k : κ) (default : β) (m : List (κ × β)) : β := (get? k m).getD default

def contains (k : κ) (m : List (κ × β)) : Bool := (get? k m).isSome

def keys (m : List (κ × β)) : List κ := m.map Prod.fst

/-- The map of a list of pairs: the last value of a key wins, at the place of its first. -/
def ofList (ps : List (κ × β)) : List (κ × β) := ps.foldl (fun m (k, v) => insert k v m) []

@[simp] theorem get?_insert (k k' : κ) (v : β) (m : List (κ × β)) :
    get? k' (insert k v m) = if k = k' then some v else get? k' m := by
  induction m with
  | nil => simp [insert, get?]
  | cons p m ih => obtain ⟨a, b⟩ := p; grind [insert, get?]

theorem keys_insert (k : κ) (v : β) (m : List (κ × β)) :
    keys (insert k v m) = if k ∈ keys m then keys m else keys m ++ [k] := by
  induction m with
  | nil => simp [insert, keys]
  | cons p m ih => obtain ⟨a, b⟩ := p; by_cases h : a = k <;> grind [insert, keys]

end TagRank.Assoc
