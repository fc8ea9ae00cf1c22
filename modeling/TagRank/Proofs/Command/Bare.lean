import Mathlib
import TagRank.Proofs.Command.Afresh
import TagRank.Proofs.Service.Answer
import TagRank.Proofs.Service.Select

namespace TagRank

open TagRank.Action Store

theorem Settings.ofEnvironment_nil : ofEnvironment [] = .ok default := by
  have hpower : Text.lower (Text.trim "power") = "power" := by decide +kernel
  have hcreate : Text.lower (Text.trim "create") = "create" := by decide +kernel
  have hinfo : Text.upper (Text.trim "INFO") = "INFO" := by decide +kernel
  simp only [ofEnvironment, Environment.bool, Environment.bool?, Environment.int,
    Environment.float, Environment.given?, Environment.word, Environment.text, List.lookup_nil,
    Option.getD_none, Option.map_none, Option.filter_none, default, hpower, hcreate, hinfo]
  rfl

namespace Command

variable {a : Arguments} {s : Settings} {p : Pipeline Float} {document : String}

theorem runOn_bare (a : Arguments) (s : Settings) (p : Pipeline Float) (source : Source)
    (hid : source.id = .text document)
    (h : givenOfPayload source.sentences source.language = .ok []) {store : Store}
    (hd : store.hasDocument document = true) : (runOn store a s p source).1 =
      .ofAnswer (perform (conclude a s p document) { Service.new Float with store }).1 := by
  obtain ⟨t, ht, hload⟩ := perform_loadGiven (.text document) []
    (s := { Service.new Float with store }) rfl
  rw [runOn_fst]
  refine congrArg Outcome.ofAnswer ?_
  simp only [extract, hid]
  rw [perform_bind, perform_ofExcept, h]
  dsimp only
  rw [perform_bind, hload]
  have hagrees : (store.addDocument document).Agrees document store := by
    rw [Store.addDocument, if_pos hd]
    exact ⟨rfl, rfl, rfl⟩
  have hrecorder : Option.Rel Eq t.recorder (Service.new Float).recorder := by
    rw [ht.recorder]
    exact rel_refl none
  have halike : Service.Alike (Agrees document) Eq { t with store := store.addDocument document }
      { Service.new Float with store } := ⟨hagrees, ht.fault rfl, rfl, hrecorder⟩
  exact (parallel_conclude a s p document _ _ halike).matched.eq

theorem keywordLines_ne_empty {cs : List Candidate} (h : cs ≠ []) :
    Text.join "" (cs.map keywordLine) ≠ "" := by
  match cs, h with
  | [c], _ => simp [Text.join, keywordLine]
  | c :: d :: cs, _ => simp [Text.join, keywordLine]

theorem conclude_eq {v w t : Service Float} {e : Evaluation Float}
    (hb : perform (rebuild document s.relationKind s.weightField) v = (.ok true, w))
    (he : perform (evaluate p (a.filter p) document s.relationKind s.weightField (a.rounds s)
      (a.damping.getD s.damping)) w = (.ok e, t)) :
    perform (conclude a s p document) v = (.ok (.ofEvaluation e), t) := by
  rw [conclude, perform_bind, hb]
  dsimp only
  rw [if_pos rfl, perform_map, he]
  rfl

theorem conclude_tells {v w : Service Float} {es : List Event} {tolerance : Float}
    (hr : Label.isValid s.relationKind = true) (hf : Label.isValid s.weightField = true)
    (hrounds : 1 ≤ a.rounds s) (hlow : 0 ≤ a.damping.getD s.damping)
    (hhigh : a.damping.getD s.damping ≤ 1) (hfilter : (a.filter p).enabled = false)
    (hlimit : 0 < p.wordLimit) (hfield : s.weightField ∉ View.reservedFields)
    (hb : perform (rebuild document s.relationKind s.weightField) v = (.ok true, w))
    (hready : w.Ready) (hsound : w.store.Sound) (htally : w.store.Tallied es)
    (hknown : w.store.hasDocument document = true)
    (hlen : (w.store.tokensOf document).length < 2 ^ 63)
    (hedges : w.store.edgesOf document s.relationKind (some s.weightField) ≠ []) :
    ∃ output, (perform (conclude a s { p with kernel := .power tolerance } document) v).1 =
      .ok (.ended 0 output "") ∧ output ≠ "" := by
  obtain ⟨e, t, hend, hstatus⟩ := ends_evaluate_of_known hr hf hrounds hlow hhigh tolerance p
    (a.filter p) hknown hlen fun h => hfield h.2
  obtain ⟨u, hu, -, -⟩ := hend w hready rfl
  have hkeywords : e.keywords ≠ [] :=
    keywords_ne_nil hsound htally hu hstatus hfilter hlimit hedges
  refine ⟨_, ?_, keywordLines_ne_empty hkeywords⟩
  have hfilter : a.filter { p with kernel := .power tolerance } = a.filter p := by
    rw [Arguments.filter, Arguments.filter]
  rw [conclude_eq hb (hfilter ▸ hu), Outcome.ofEvaluation, if_pos hstatus]

def twice : Sentence :=
  ⟨0, [⟨"abc", ["NN"], 0, 3, 0, 0, "en"⟩, ⟨"abc", ["NN"], 4, 7, 0, 1, "en"⟩]⟩

set_option maxRecDepth 4096 in
theorem conclude_tells_twice :
    ∃ output, (perform (conclude ⟨"d", some "k", none, none, none⟩ .default
      ⟨.power 1e-6, 10, .create, .default, .drop, 8⟩ "d") { Service.new Float with
        store := (Service.run [.load "d" [twice]] (.new Float)).store }).1 =
      .ok (.ended 0 output "") ∧ output ≠ "" := by
  let s : Service Float := Service.run [.load "d" [twice]] (.new Float)
  let v : Service Float := { Service.new Float with store := s.store }
  let x : Step Float := .rebuild "d" "CO_OCCURRENCE" "weight"
  have hfacts : (fun q : Except Error Bool × Service Float => (q.1, q.2.fault,
      q.2.store.hasDocument "d", (q.2.store.tokensOf "d").length,
      (q.2.store.edgesOf "d" "CO_OCCURRENCE" (some "weight")).length))
      (perform (rebuild "d" "CO_OCCURRENCE" "weight") { Service.new Float with
        store := (Service.run [.load "d" [twice]] (.new Float)).store }) =
      (.ok true, none, true, 2, 1) := by cbv
  simp only [Prod.mk.injEq] at hfacts
  obtain ⟨hbuilt, hfault, hknown, hlen, hedges⟩ := hfacts
  have hv : v.Ready := ⟨rfl, by simp [v, Service.IsOwn, Service.new], by simp [v, Service.new]⟩
  have hsound : s.store.Sound := (Reached.run [.load "d" [twice]] (.start (.new Float))).sound
  have htally := (Service.follows_run [.load "d" [twice]] (.new Float)).tallied Store.tallied_empty
  exact conclude_tells (a := ⟨"d", some "k", none, none, none⟩) (s := .default)
    (p := ⟨.power 1e-6, 10, .create, .default, .drop, 8⟩) (w := x.take v) (by decide) (by decide)
    (by decide) (by decide +kernel) (by decide +kernel) rfl (by decide) (by decide)
    (Prod.ext hbuilt rfl) (hv.owns hfault (x.owns v))
    (Service.sound_of_moves (s := v) hsound [.step x]) ((x.follows v).tallied htally) hknown
    (hlen.trans_lt (by decide)) (List.length_pos_iff.1 (hedges.symm ▸ Nat.one_pos))

/-- A run that could load a word twice, but not build a graph; then a run with a file that has no
sentences any more, which tells of the word, although it would tell nothing without the first one. -/
theorem run_remembers :
    let words := "\x7b\"sentences\":[[\x7b\"text\":\"abc\",\"pos\":\"NN\",\"start\":0,\"end\":3\x7d," ++
      "\x7b\"text\":\"abc\",\"pos\":\"NN\",\"start\":4,\"end\":7\x7d]]\x7d"
    let d := (run ["d", "--db", "k"] [("COOCCURRENCE_WEIGHT_FIELD", "-")]
      (Disk.empty.writeText "d" words)).2.writeText "d" "\x7b\"sentences\":[]\x7d"
    (run ["d", "--db", "k"] [] (d.withoutStore "k")).1 = .ended 0 "" "" ∧
      ∃ output, (run ["d", "--db", "k"] [] d).1 = .ended 0 output "" ∧ output ≠ "" := by
  intro words d
  have hparts : d.texts.entries = [("d", "\x7b\"sentences\":[]\x7d")] ∧
      d.stores = [("k", (Service.run [.load "d" [twice]] (.new Float)).store)] := by
    decide +kernel
  have hd : d = ⟨⟨[("d", "\x7b\"sentences\":[]\x7d")]⟩,
      [("k", (Service.run [.load "d" [twice]] (.new Float)).store)]⟩ := by
    rw [← hparts.1, ← hparts.2]
  rw [hd]
  refine ⟨by decide +kernel, ?_⟩
  have ha : Arguments.read ["d", "--db", "k"] = .ok ⟨"d", some "k", none, none, none⟩ := by cbv
  have hsource : Source.read ⟨[("d", "\x7b\"sentences\":[]\x7d")]⟩ "d" =
      .ok ⟨.text "d", .text "en", .list []⟩ := by cbv
  obtain ⟨output, houtput, hne⟩ := conclude_tells_twice
  refine ⟨output, ?_, hne⟩
  rw [run_eq (d := ⟨⟨[("d", "\x7b\"sentences\":[]\x7d")]⟩,
    [("k", (Service.run [.load "d" [twice]] (.new Float)).store)]⟩) ha Settings.ofEnvironment_nil
    hsource]
  have hknown : (Service.run [.load "d" [twice]] (.new Float)).store.hasDocument "d" = true := by
    decide +kernel
  have hrun := runOn_bare ⟨"d", some "k", none, none, none⟩ .default
    ⟨.power 1e-6, 10, .create, .default, .drop, 8⟩ ⟨.text "d", .text "en", .list []⟩ rfl rfl hknown
  rw [houtput] at hrun
  exact hrun

end Command

end TagRank
