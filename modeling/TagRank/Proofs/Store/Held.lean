import TagRank.Proofs.Service.Cooccurrence
import TagRank.Proofs.Store.Sound
import TagRank.Proofs.Store.Tally

namespace TagRank

theorem mem_of_mem_neighbours {β : Type} {p : β × β} {xs : List β} (h : p ∈ neighbours xs) :
    p.1 ∈ xs ∧ p.2 ∈ xs := by
  induction xs using neighbours.induct with
  | case1 => cases h
  | case2 x => cases h
  | case3 x y xs ih =>
    rcases List.mem_cons.1 h with rfl | h
    · exact ⟨.head _, .tail _ (.head _)⟩
    · exact ⟨.tail _ (ih h).1, .tail _ (ih h).2⟩

namespace Store

variable {s : Store} {document relation field : String}

def Holds (s : Store) (document tag : String) : Prop :=
  ∃ o ∈ s.occurrences, o.document = document ∧ o.tag = tag ∧ o.token.isCandidate = true

theorem mem_tokensOf_of_mem_sentenceAt {t : Token} {i : Int} (h : t ∈ s.sentenceAt document i) :
    t ∈ s.tokensOf document :=
  (List.mem_filter.1 (List.mem_mergeSort.1 h)).1

theorem mem_of_mem_pairs {p : Token × Token}
    (h : p ∈ (s.sentencesOf document).flatMap Action.pairs) :
    ∀ t ∈ [p.1, p.2], t ∈ s.tokensOf document ∧ t.isCandidate = true := by
  rw [sentencesOf_eq, List.flatMap_map] at h
  obtain ⟨i, _, hp⟩ := List.mem_flatMap.1 h
  have held {t : Token} (ht : t ∈ Token.candidates (s.sentenceAt document i)) :
      t ∈ s.tokensOf document ∧ t.isCandidate = true :=
    ⟨mem_tokensOf_of_mem_sentenceAt (List.mem_filter.1 ht).1, (List.mem_filter.1 ht).2⟩
  obtain ⟨h₁, h₂⟩ := mem_of_mem_neighbours hp
  simpa using ⟨held h₁, held h₂⟩

theorem Sound.tag_of_mem (h : s.Sound) {t : Token} (ht : t ∈ s.tokensOf document) :
    s.hasDocument document = true ∧ ∃ o ∈ s.occurrences, ∃ g, o.document = document ∧
      o.token = t ∧ t.tag = .ok g ∧ o.tag = g.key := by
  obtain ⟨o, ho, rfl⟩ := List.mem_map.1 ht
  obtain ⟨ho, hd⟩ := List.mem_filter.1 ho
  obtain ⟨hdoc, hg⟩ := h.tagged o ho
  obtain ⟨g, hg, hk⟩ := map_eq_ok.1 hg
  have hd : o.document = document := by simpa using hd
  exact ⟨hasDocument_iff.2 (hd ▸ hdoc), o, ho, g, hd, rfl, hg, hk.symm⟩

theorem Sound.holds_of_mem_scan (h : s.Sound) {p : String × String} (hp : p ∈ s.scan document) :
    s.Holds document p.1 ∧ s.Holds document p.2 := by
  rw [scan_eq] at hp
  obtain ⟨q, hq, rfl⟩ := List.mem_map.1 hp
  have held (t : Token) (ht : t ∈ [q.1, q.2]) : s.Holds document t.key := by
    obtain ⟨ht, hc⟩ := mem_of_mem_pairs hq t ht
    obtain ⟨_, o, ho, g, hd, rfl, hg, hk⟩ := h.tag_of_mem ht
    exact ⟨o, ho, hd, hk.trans (Token.key_of_tag hg), hc⟩
  have h₁ := held q.1 (by simp)
  have h₂ := held q.2 (by simp)
  simp only [inOrder]
  split
  · exact ⟨h₂, h₁⟩
  · exact ⟨h₁, h₂⟩

theorem Tallied.of_mem {es : List Event} (h : s.Tallied es) {e : Edge} (he : e ∈ s.edges) :
    (e.a, e.b) ∈ s.scan e.document ∧
      Event.buildCount e.document e.relation e.field es ≠ 0 := by
  have hm : e ∈ s.edgesOf e.document e.relation (some e.field) := by
    rw [edgesOf_eq]
    exact List.mem_filter.2 ⟨he, by simp [isAt]⟩
  rw [h, Edge.tally] at hm
  split at hm
  · cases hm
  · rename_i hk
    obtain ⟨p, hp, hpe⟩ := List.mem_map.1 hm
    rw [← hpe]
    exact ⟨List.mem_eraseDups.1 hp, hpe ▸ hk⟩

theorem Sound.holds_ends (h : s.Sound) {es : List Event} (ht : s.Tallied es) {e : Edge}
    (he : e ∈ s.edges) : s.Holds e.document e.a ∧ s.Holds e.document e.b :=
  h.holds_of_mem_scan (ht.of_mem he).1

theorem forM_addPair_run (relation field : String) {ps : List (Token × Token)}
    (hd : ps ≠ [] → s.hasDocument document = true)
    (h : ∀ p ∈ ps, ∀ t ∈ [p.1, p.2], ∃ g, t.tag = .ok g) :
    ∃ t, (ps.forM (addPair document relation field)).run s = .ok ((), t) := by
  induction ps generalizing s with
  | nil => exact ⟨s, rfl⟩
  | cons p ps ih =>
    have hd := hd (List.cons_ne_nil _ _)
    obtain ⟨hp, h⟩ := List.forall_mem_cons.1 h
    obtain ⟨first, hf⟩ := hp p.1 (by simp)
    obtain ⟨second, hg⟩ := hp p.2 (by simp)
    have hrun : (addPair document relation field p).run s =
        .ok ((), s.addEdges document relation field [inOrder p.1.key p.2.key]) := by
      change addPair document relation field p s = _
      simp only [addPair, hf, hg, upsertEdge_of_known hd, Edge.single_eq_ofPair]
      rw [← Token.key_of_tag hf, ← Token.key_of_tag hg]
      rfl
    obtain ⟨t, ht⟩ := ih (s := s.addEdges document relation field _) (fun _ => hd) h
    refine ⟨t, ?_⟩
    rw [List.forM_eq_forM, List.forM_cons, StateT.run_bind, hrun]
    exact ht

theorem Sound.addPairs_run (h : s.Sound) (document relation field : String) :
    ∃ n t, (addPairs document relation field).run s = .ok ((n, (s.scan document).length), t) := by
  have hps : ∀ p ∈ (s.sentencesOf document).flatMap Action.pairs, ∀ t ∈ [p.1, p.2],
      s.hasDocument document = true ∧ ∃ g, t.tag = .ok g := by
    intro p hp t ht
    obtain ⟨hd, _, _, g, _, _, hg, _⟩ := h.tag_of_mem (mem_of_mem_pairs hp t ht).1
    exact ⟨hd, g, hg⟩
  have hd (hne : (s.sentencesOf document).flatMap Action.pairs ≠ []) :
      s.hasDocument document = true := by
    obtain ⟨p, hp⟩ := List.exists_mem_of_ne_nil _ hne
    exact (hps p hp p.1 (by simp)).1
  obtain ⟨t, ht⟩ := forM_addPair_run relation field hd
    fun p hp t ht => (hps p hp t ht).2
  have hrun : (addPairs document relation field).run s =
      (((s.sentencesOf document).flatMap Action.pairs).forM (addPair document relation field)).run s
        >>= fun p => .ok (((s.sentencesOf document).length,
          ((s.sentencesOf document).flatMap Action.pairs).length), p.2) := rfl
  refine ⟨(s.sentencesOf document).length, t, ?_⟩
  rw [hrun, ht, scan_eq, List.length_map]
  rfl

/-- As long as the store refuses nothing, a build with valid labels stores its edges. -/
theorem Sound.builds {α : Type} {s : Service α} (h : s.store.Sound) (hs : s.fault = none)
    (document : String) {relation field : String} (hr : Label.isValid relation = true)
    (hf : Label.isValid field = true) : Action.builds document relation field s = true := by
  obtain ⟨n, store, hrun⟩ := h.addPairs_run document relation field
  obtain ⟨t, _, hp⟩ := Action.transaction_calm (Action.means_addPairs document relation field) hs
  simp [Action.builds, Action.commits, hr, hf, hp, hrun, Except.isOk, Except.toBool]

end Store

end TagRank
