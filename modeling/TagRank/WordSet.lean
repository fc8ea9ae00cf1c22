namespace TagRank.WordSet

def insert (w : String) : List String → List String
  | [] => [w]
  | v :: vs => if w < v then w :: v :: vs else if w = v then v :: vs else v :: insert w vs

def ofList (ws : List String) : List String := ws.foldr insert []

def union (s t : List String) : List String := s.foldr insert t

theorem mem_insert {w x : String} {s : List String} : x ∈ insert w s ↔ x = w ∨ x ∈ s := by
  induction s with
  | nil => simp [insert]
  | cons v vs ih => grind [insert]

theorem mem_ofList {x : String} {ws : List String} : x ∈ ofList ws ↔ x ∈ ws := by
  induction ws with
  | nil => simp [ofList]
  | cons w ws ih => simp only [ofList, List.foldr_cons, mem_insert, List.mem_cons] at *; rw [ih]

theorem mem_union {x : String} {s t : List String} : x ∈ union s t ↔ x ∈ s ∨ x ∈ t := by
  induction s with
  | nil => simp [union]
  | cons w s ih => simp only [union, List.foldr_cons, mem_insert, List.mem_cons] at *; grind

end TagRank.WordSet
