import Mathlib.Data.List.Sort
import Mathlib.Data.String.Basic
import TagRank.Proofs.Except
import TagRank.Proofs.Text.Trim
import TagRank.Settings

namespace TagRank

namespace WordSet

theorem pairwise_insert {w : String} {s : List String} (h : s.Pairwise (· < ·)) :
    (insert w s).Pairwise (· < ·) := by
  induction s with
  | nil => exact List.pairwise_singleton _ w
  | cons v vs ih =>
    obtain ⟨hv, hvs⟩ := List.pairwise_cons.1 h
    rw [insert]
    split
    · rename_i hw
      exact List.pairwise_cons.2 ⟨List.forall_mem_cons.2 ⟨hw, fun x hx => hw.trans (hv x hx)⟩, h⟩
    · split
      · exact h
      · rename_i hw hne
        refine List.pairwise_cons.2 ⟨fun x hx => ?_, ih hvs⟩
        rcases mem_insert.1 hx with rfl | hx
        · exact lt_of_le_of_ne (not_lt.1 hw) (Ne.symm hne)
        · exact hv x hx

theorem pairwise_ofList (ws : List String) : (ofList ws).Pairwise (· < ·) := by
  induction ws with
  | nil => exact .nil
  | cons w ws ih => exact pairwise_insert ih

theorem ofList_congr {ws vs : List String} (h : ∀ w, w ∈ ws ↔ w ∈ vs) : ofList ws = ofList vs :=
  (pairwise_ofList ws).eq_of_mem_iff (pairwise_ofList vs) fun w => by
    rw [mem_ofList, mem_ofList, h]

end WordSet

namespace Stopword

@[simp] theorem normalize_normalize (w : String) : normalize (normalize w) = normalize w := by
  simp [normalize]

theorem mem_parse {source : Option WordSource} {w : String} :
    w ∈ parse source ↔ w ≠ "" ∧ ∃ i ∈ WordSource.items source, normalize i = w := by
  rw [parse, WordSet.mem_ofList, List.mem_filter, List.mem_map, and_comm, bne_iff_ne]

theorem parse_congr {source source' : Option WordSource}
    (h : ∀ w, w ∈ WordSource.items source ↔ w ∈ WordSource.items source') :
    parse source = parse source' := by
  refine WordSet.ofList_congr fun w => ?_
  simp only [List.mem_filter, List.mem_map, h]

theorem mem_parse_words {ws : List String} (h : ∀ w ∈ ws, w ≠ "" ∧ normalize w = w) {w : String} :
    w ∈ parse (some (.words ws)) ↔ w ∈ ws := by
  rw [mem_parse]
  constructor
  · rintro ⟨-, i, hi, rfl⟩
    rwa [(h i hi).2]
  · exact fun hw => ⟨(h w hw).1, w, hw, (h w hw).2⟩

theorem normalize_of_mem_parse {source : Option WordSource} {w : String} (h : w ∈ parse source) :
    w ≠ "" ∧ normalize w = w := by
  obtain ⟨hw, i, -, rfl⟩ := mem_parse.1 h
  exact ⟨hw, normalize_normalize i⟩

theorem parse_parse (source : Option WordSource) :
    parse (some (.words (parse source))) = parse source :=
  (WordSet.pairwise_ofList _).eq_of_mem_iff (WordSet.pairwise_ofList _) fun _ =>
    mem_parse_words fun _ => normalize_of_mem_parse

def entriesOf? : Yaml.Value → Option (List String)
  | .null => some []
  | .map ps =>
    match (Yaml.Value.field? "stopwords" ps).filter Yaml.Value.isGiven with
    | none => some []
    | some (.text s) => some (Text.splitAt ',' s)
    | some (.list xs) => some (spoken xs)
    | some _ => none
  | .text s => some (Text.splitAt ',' s)
  | .list xs => some (spoken xs)
  | _ => none
where
  spoken (xs : List Yaml.Value) : List String :=
    (xs.filter fun | .null => false | _ => true).map Yaml.Value.spoken

theorem wordsOf?_eq (v : Yaml.Value) :
    wordsOf? v = (entriesOf? v).map fun entries => parse (some (.words entries)) := by
  cases v with
  | map ps =>
    simp only [wordsOf?, entriesOf?]
    rcases (Yaml.Value.field? "stopwords" ps).filter Yaml.Value.isGiven with _ | v
    · rfl
    · cases v <;> rfl
  | _ => rfl

/-- A file lists entries; one that is not there lists none. -/
inductive Lists (files : Files) (path : String) : List String → Prop
  | absent : files.read? path = none → Lists files path []
  | read {text v entries} : files.read? path = some text → Yaml.Value.ofText text = .ok v →
      entriesOf? v = some entries → Lists files path entries

theorem ofText_eq_ok {path text : String} {words : List String} :
    ofText path text = .ok words ↔ ∃ v entries, Yaml.Value.ofText text = .ok v ∧
      entriesOf? v = some entries ∧ parse (some (.words entries)) = words := by
  rw [ofText]
  cases Yaml.Value.ofText text with
  | error e => cases e <;> simp [throw_ne_ok]
  | ok v =>
    simp only [wordsOf?_eq]
    cases he : entriesOf? v with
    | none => simp [throw_ne_ok, he]
    | some entries => simp [pure, Except.pure, he]

theorem load_eq_ok {files : Files} {path : String} {words : List String} :
    load files path = .ok words ↔
      ∃ entries, Lists files path entries ∧ parse (some (.words entries)) = words := by
  rw [load]
  cases hf : files.read? path with
  | none =>
    constructor
    · intro h
      exact ⟨[], .absent hf, Except.ok.inj h⟩
    · rintro ⟨entries, hl, rfl⟩
      cases hl with
      | absent => rfl
      | read hr => cases hf.symm.trans hr
  | some text =>
    simp only [ofText_eq_ok]
    constructor
    · rintro ⟨v, entries, hv, he, hw⟩
      exact ⟨entries, .read hf hv he, hw⟩
    · rintro ⟨entries, hl, hw⟩
      cases hl with
      | absent hr => cases hf.symm.trans hr
      | read hr hv he =>
        cases hf.symm.trans hr
        exact ⟨_, entries, hv, he, hw⟩

end Stopword

theorem Filter.ofStopwords_eq (source : Option WordSource) (enabled : Option Bool) :
    ofStopwords source enabled = if Stopword.parse source = [] then
        ⟨Stopword.defaults, enabled.getD false⟩
      else ⟨Stopword.parse source, enabled.getD true⟩ := by
  rw [ofStopwords]
  split
  · rename_i h
    rw [if_pos h]
  · rename_i h
    rw [if_neg h]

namespace Settings

inductive Lists (files : Files) (s : Settings) : List String → Prop
  | unset : s.stopwordsPath.filter (· != "") = none → Lists files s []
  | file {path entries} : s.stopwordsPath.filter (· != "") = some path →
      Stopword.Lists files path entries → Lists files s entries

def union (s : Settings) (entries : List String) : List String :=
  WordSet.union (Stopword.parse (some (.words entries)))
    (Stopword.parse (s.stopwords.map WordSource.line))

theorem stopwordSet_eq_ok {files : Files} {s : Settings} {words : List String} :
    s.stopwordSet files = .ok words ↔ ∃ entries, s.Lists files entries ∧ s.union entries = words := by
  rw [stopwordSet]
  cases hp : s.stopwordsPath.filter (· != "") with
  | none =>
    constructor
    · intro h
      exact ⟨[], .unset hp, Except.ok.inj h⟩
    · rintro ⟨entries, hl, rfl⟩
      cases hl with
      | unset => rfl
      | file hf => cases hp.symm.trans hf
  | some path =>
    dsimp only
    rw [bind_eq_ok]
    constructor
    · rintro ⟨ws, hload, h⟩
      obtain ⟨entries, hl, rfl⟩ := Stopword.load_eq_ok.1 hload
      exact ⟨entries, .file hp hl, Except.ok.inj h⟩
    · rintro ⟨entries, hl, rfl⟩
      cases hl with
      | unset hf => cases hp.symm.trans hf
      | file hf hl =>
        cases hp.symm.trans hf
        exact ⟨_, Stopword.load_eq_ok.2 ⟨entries, hl, rfl⟩, rfl⟩

theorem filter_eq_ok {files : Files} {s : Settings} {f : Filter} :
    s.filter files = .ok f ↔ ∃ entries, s.Lists files entries ∧
      .ofStopwords (some (.words (s.union entries))) s.removeStopwords = f := by
  rw [filter, bind_eq_ok]
  constructor
  · rintro ⟨words, hw, h⟩
    obtain ⟨entries, hl, rfl⟩ := stopwordSet_eq_ok.1 hw
    exact ⟨entries, hl, Except.ok.inj h⟩
  · rintro ⟨entries, hl, rfl⟩
    exact ⟨_, stopwordSet_eq_ok.2 ⟨entries, hl, rfl⟩, rfl⟩

def entries (s : Settings) (listed : List String) : List String :=
  WordSource.items (s.stopwords.map .line) ++ listed

theorem mem_parse_union {s : Settings} {listed : List String} {w : String} :
    w ∈ Stopword.parse (some (.words (s.union listed))) ↔
      w ≠ "" ∧ ∃ i ∈ s.entries listed, Stopword.normalize i = w := by
  have hnormal : ∀ v ∈ s.union listed, v ≠ "" ∧ Stopword.normalize v = v := by
    intro v hv
    rcases WordSet.mem_union.1 hv with hv | hv
    · exact Stopword.normalize_of_mem_parse hv
    · exact Stopword.normalize_of_mem_parse hv
  rw [Stopword.mem_parse_words hnormal, union, WordSet.mem_union, Stopword.mem_parse,
    Stopword.mem_parse, ← and_or_left]
  refine and_congr_right fun _ => ?_
  simp only [entries, List.mem_append, or_and_right, exists_or, WordSource.items]
  exact or_comm

end Settings

/-- However often words are normalized, in whatever order and however often they are given, they make
one set. So a filter from settings knows, of the words of the settings and of the file, each that is
not blank, normalized; the default words stand only if there is none. It is enabled by the flag, or by
a word if the flag is not set, and values that differ only in case are the same to it. -/
theorem Settings.filter_normalizes (files : Files) (s : Settings) :
    (∀ source, Stopword.parse (some (.words (Stopword.parse source))) = Stopword.parse source) ∧
      (∀ source source' : Option WordSource,
        (∀ w, w ∈ WordSource.items source ↔ w ∈ WordSource.items source') →
          Stopword.parse source = Stopword.parse source') ∧
      (∀ f, s.filter files = .ok f → ∃ listed, s.Lists files listed) ∧
      (∀ listed, s.Lists files listed → ∃ f, s.filter files = .ok f ∧
        let given (w : String) := w ≠ "" ∧ ∃ i ∈ s.entries listed, Stopword.normalize i = w
        ((∃ w, given w) → ∀ w, w ∈ f.words ↔ given w) ∧
        ((¬∃ w, given w) → f.words = Stopword.defaults) ∧
        (f.enabled = true ↔ s.removeStopwords = some true ∨
          s.removeStopwords = none ∧ ∃ w, given w)) ∧
      ∀ (f : Filter) (v w : String), Text.fold v = Text.fold w →
        f.isStopword v = f.isStopword w := by
  refine ⟨Stopword.parse_parse, fun _ _ => Stopword.parse_congr, fun f hf => ?_,
    fun listed hl => ?_, fun f v w h => ?_⟩
  · obtain ⟨listed, hl, -⟩ := filter_eq_ok.1 hf
    exact ⟨listed, hl⟩
  · refine ⟨_, filter_eq_ok.2 ⟨listed, hl, rfl⟩, ?_⟩
    intro given
    have hgiven : (∃ w, given w) ↔ Stopword.parse (some (.words (s.union listed))) ≠ [] := by
      rw [Ne, List.eq_nil_iff_forall_not_mem, not_forall_not]
      exact exists_congr fun w => mem_parse_union.symm
    rw [Filter.ofStopwords_eq, hgiven]
    split
    · rename_i hnone
      refine ⟨fun h => absurd hnone h, fun _ => rfl, ?_⟩
      cases s.removeStopwords <;> simp [hnone]
    · rename_i hsome
      refine ⟨fun _ w => mem_parse_union, fun h => absurd hsome h, ?_⟩
      cases s.removeStopwords <;> simp [hsome]
  · rw [Filter.isStopword, Filter.isStopword, h]

theorem Settings.filter_normalizes_bothSources :
    let files := Files.ofList [("words.yml", "- Straße\n- \n- big\n")]
    let s : Settings := { stopwords := some " BIG, ,new", stopwordsPath := some "words.yml" }
    s.Lists files ["Straße", "big"] ∧ ∃ f, s.filter files = .ok f ∧ f.enabled = true ∧
      "strasse" ∈ f.words ∧ "big" ∈ f.words ∧ "" ∉ f.words ∧
      f.isStopword "STRASSE" = f.isStopword "straße" := by
  intro files s
  have hvalue : (Yaml.Value.ofText "- Straße\n- \n- big\n").toOption.bind Stopword.entriesOf? =
      some ["Straße", "big"] := by decide +kernel
  have hl : s.Lists files ["Straße", "big"] := by
    obtain ⟨v, hv, he⟩ := Option.bind_eq_some_iff.1 hvalue
    have hpath : s.stopwordsPath.filter (· != "") = some "words.yml" := by decide +kernel
    have hread : files.read? "words.yml" = some "- Straße\n- \n- big\n" := by decide +kernel
    exact .file hpath (.read hread (toOption_eq_some.1 hv) he)
  have hstrasse : "strasse" ≠ "" ∧
      ∃ i ∈ s.entries ["Straße", "big"], Stopword.normalize i = "strasse" :=
    ⟨by decide, "Straße", by decide +kernel, by decide +kernel⟩
  have hbig : "big" ≠ "" ∧ ∃ i ∈ s.entries ["Straße", "big"], Stopword.normalize i = "big" :=
    ⟨by decide, " BIG", by decide +kernel, by decide +kernel⟩
  obtain ⟨-, -, -, hfilter, hsame⟩ := filter_normalizes files s
  obtain ⟨f, hf, hwords, -, henabled⟩ := hfilter _ hl
  have hwords := hwords ⟨_, hstrasse⟩
  exact ⟨hl, f, hf, henabled.2 (.inr ⟨rfl, _, hstrasse⟩), (hwords _).2 hstrasse, (hwords _).2 hbig,
    fun h => ((hwords _).1 h).1 rfl, hsame f _ _ (by decide +kernel)⟩

end TagRank
