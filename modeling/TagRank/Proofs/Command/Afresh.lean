import TagRank.Command.Extract
import TagRank.Proofs.Service.Afresh
import TagRank.Proofs.Service.Step

/-!
A run of the command forgets what its store held. What it says is about the sentences of its file,
as long as there are any; without them it says again what the store has.
-/

namespace TagRank

open TagRank.Action Store

namespace Disk

def withoutStore (path : String) (d : Disk) : Disk :=
  { d with stores := d.stores.filter (·.1 != resolvedPath path) }

theorem texts_writeStore (path : String) (d : Disk) (s t : Store) :
    ((d.withoutStore path).writeStore path s).texts = (d.writeStore path t).texts := rfl

theorem openStore_of_withoutStore {d : Disk} {path : String} {s : Store}
    (h : (d.withoutStore path).openStore path = .ok s) : ∃ t, d.openStore path = .ok t := by
  cases hs : d.store? path with
  | some t => exact ⟨t, by rw [openStore, hs]; rfl⟩
  | none =>
    have hkeys : d.withoutStore path = d := by
      rw [withoutStore, List.filter_eq_self.2 fun p hp => ?_]
      have hne := List.lookup_eq_none_iff.1 hs p hp
      simpa [bne, BEq.comm] using hne
    exact ⟨s, hkeys ▸ h⟩

end Disk

theorem GivenSentence.listOfPayload_eq_nil {language : Spelling} {index : Nat} {vs : List Json}
    (h : listOfPayload language index vs = .ok []) : vs = [] := by
  cases vs with
  | nil => rfl
  | cons v vs =>
    obtain ⟨s, -, h⟩ := bind_eq_ok.1 h
    obtain ⟨ss, -, h⟩ := bind_eq_ok.1 h
    cases h

theorem elements_of_givenOfPayload {payload : Json} {language : Spelling}
    (h : givenOfPayload payload language = .ok []) : payload.elements = .ok [] := by
  obtain ⟨vs, hvs, h⟩ := bind_eq_ok.1 h
  rw [hvs, GivenSentence.listOfPayload_eq_nil h]

namespace Command

theorem Outcome.ofEvaluation_eq {e e' : Evaluation Float} (h : e.ageless = e'.ageless) :
    ofEvaluation e = ofEvaluation e' := (congrArg ofEvaluation h :)

def conclude (a : Arguments) (s : Settings) (p : Pipeline Float) (document : String) :
    Action Float Outcome := do
  if ← Action.rebuild document s.relationKind s.weightField then
    .ofEvaluation <$> Action.evaluate p (a.filter p) document s.relationKind s.weightField
      (a.rounds s) (a.damping.getD s.damping)
  else return .ended 1 "" s!"Failed to build co-occurrences for {document}\n"

theorem parallel_conclude (a : Arguments) (s : Settings) (p : Pipeline Float) (document : String) :
    Parallel (Service.Alike (Agrees document) Eq) (conclude a s p document)
      (conclude a s p document) Eq := by
  refine parallel_bind_eq (agrees_rebuild _ _) fun built => parallel_ite _ ?_ (parallel_pure rfl)
  exact parallel_map (agrees_evaluate _ _ _ _ _ _) fun _ _ => Outcome.ofEvaluation_eq

def Outcome.ofAnswer : Except Error Outcome → Outcome
  | .ok outcome => outcome
  | .error e => .failed e

theorem runOn_fst (store : Store) (a : Arguments) (s : Settings) (p : Pipeline Float)
    (source : Source) : (runOn store a s p source).1 =
      .ofAnswer (perform (extract a s p source) { Service.new Float with store }).1 := by
  rw [runOn]
  generalize hx : ((extract a s p source).run).run { Service.new Float with store } = x
  have hp : perform (extract a s p source) { Service.new Float with store } = x := hx
  rw [hp]
  obtain ⟨_ | _, _⟩ := x <;> rfl

theorem runOn_forgets (a : Arguments) (s : Settings) (p : Pipeline Float) {source : Source}
    (h : source.sentences.elements ≠ .ok []) (store store' : Store) :
    (runOn store a s p source).1 = (runOn store' a s p source).1 := by
  rw [runOn_fst, runOn_fst]
  refine congrArg Outcome.ofAnswer ?_
  simp only [extract]
  rw [perform_bind, perform_bind, perform_ofExcept, perform_ofExcept]
  cases hs : givenOfPayload source.sentences source.language with
  | error e => rfl
  | ok sentences =>
    cases sentences with
    | nil => exact absurd (elements_of_givenOfPayload hs) h
    | cons sentence sentences =>
      exact (perform_after_load source.id rfl (parallel_conclude a s p source.id.legible) rfl rfl
        (rel_refl none)).eq

variable {args : List String} {env : Environment} {d : Disk} {a : Arguments} {s : Settings}
  {source : Source}

theorem run_eq (ha : Arguments.read args = .ok a) (hs : Settings.ofEnvironment env = .ok s)
    (hsource : Source.read d.texts a.path = .ok source) :
    (run args env d).1 = match d.openStore (a.storePath s) with
      | .error e => .failed e
      | .ok store => match Pipeline.ofSettings (d.writeStore (a.storePath s) store).texts s with
        | .error e => .failed e
        | .ok p => (runOn store a s p source).1 := by
  have hrun : Arguments.read args >>= (fun a => runWith a env d) = runWith a env d := by
    rw [ha]
    rfl
  rw [run, hrun, runWith, hsource, hs]
  simp only [bind, Except.bind, Except.mapError]
  cases d.openStore (a.storePath s) with
  | error e => rfl
  | ok store =>
    dsimp only
    cases Pipeline.ofSettings (d.writeStore (a.storePath s) store).texts s with
    | error e => rfl
    | ok p => rfl

/-- A run with a file that has sentences ends as it would if there were no store yet. -/
theorem run_forgets (ha : Arguments.read args = .ok a) (hs : Settings.ofEnvironment env = .ok s)
    (hsource : Source.read d.texts a.path = .ok source)
    (hsentences : source.sentences.elements ≠ .ok []) {status : Nat} {output complaint : String}
    (h : (run args env (d.withoutStore (a.storePath s))).1 = .ended status output complaint) :
    (run args env d).1 = .ended status output complaint := by
  rw [run_eq (d := d.withoutStore (a.storePath s)) ha hs hsource] at h
  rw [run_eq ha hs hsource]
  cases hfresh : (d.withoutStore (a.storePath s)).openStore (a.storePath s) with
  | error e =>
    rw [hfresh] at h
    cases h
  | ok store =>
    obtain ⟨used, hused⟩ := Disk.openStore_of_withoutStore hfresh
    rw [hfresh] at h
    rw [hused]
    dsimp only at h ⊢
    rw [Disk.texts_writeStore _ _ store used] at h
    cases hp : Pipeline.ofSettings (d.writeStore (a.storePath s) used).texts s with
    | error e =>
      rw [hp] at h
      cases h
    | ok p =>
      rw [hp] at h
      dsimp only at h ⊢
      rw [← h]
      exact runOn_forgets a s p hsentences used store

deriving instance DecidableEq for Outcome

theorem run_forgets_oneWord :
    let text := "\x7b\"sentences\":[[\x7b\"text\":\"abc\",\"start\":0,\"end\":3\x7d]]\x7d"
    let d : Disk := ⟨⟨[("d", text)]⟩,
      [("k", (Service.run [.load "d" [neighbouring "abc" "abd"]] (.new Float)).store)]⟩
    (run ["d", "--db", "k"] [] (d.withoutStore "k")).1 = .ended 0 "" "" ∧
      (run ["d", "--db", "k"] [] d).1 = .ended 0 "" "" := by
  intro text d
  have ha : Arguments.read ["d", "--db", "k"] = .ok ⟨"d", some "k", none, none, none⟩ := by rfl
  have hs : (Settings.ofEnvironment []).toOption.isSome = true := by decide +kernel
  have hsentences : ((Source.read d.texts "d").toOption.bind fun source =>
      source.sentences.elements.toOption.map List.isEmpty) = some false := by decide +kernel
  have hfresh : (run ["d", "--db", "k"] [] (d.withoutStore "k")).1 = .ended 0 "" "" := by
    decide +kernel
  refine ⟨hfresh, ?_⟩
  cases hsettings : Settings.ofEnvironment [] with
  | error e => simp [hsettings, Except.toOption] at hs
  | ok s =>
    cases hsource : Source.read d.texts "d" with
    | error e => simp [hsource, Except.toOption] at hsentences
    | ok source =>
      refine run_forgets ha hsettings hsource (fun hempty => ?_) hfresh
      simp [hsource, hempty, Except.toOption] at hsentences

end Command

end TagRank
