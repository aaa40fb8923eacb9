import BookmarkGraph.Command.Files
import BookmarkGraph.Proofs.Text.Utf8
import BookmarkGraph.Proofs.Toml.Document
import Mathlib.Data.List.Forall2

/-!
# Settings survive their own document

Settings are written as five plain lines with different keys, `settings`, so reading their document
gives one entry for each of them. Each entry replaces its own setting by what was written
(`enter_topN` and its siblings); together they replace all of them, and the defaults do not matter.
-/

namespace BookmarkGraph.Config

open Toml Toml.Scan

/-! ## The document of settings -/

/-- The keys of all settings, in the order of their declaration. -/
def keys : List String := ["top_n", "weighting", "strategies", "respect_visibility", "log_level"]

theorem keys_nodup : keys.Nodup := by decide

theorem keys_bare : ∀ name ∈ keys, name.toList ≠ [] ∧ name.toList.all isBare = true := by
  decide

/-- The lines of the document that settings are written as. -/
def settings (c : Config) : List Line :=
  [⟨"top_n", (toString c.topN.toNat).toList, fun x ↦ ∃ place, x = .integer place c.topN.toNat⟩,
    ⟨"weighting", (quote c.weighting.name).toList,
      fun x ↦ ∃ place, x = .text place c.weighting.name⟩,
    ⟨"strategies", (writeTexts c.strategies).toList, (Texts · c.strategies)⟩,
    ⟨"respect_visibility", (toString c.respectVisibility).toList,
      fun x ↦ ∃ place, x = .boolean place c.respectVisibility⟩,
    ⟨"log_level", (quote c.logLevel).toList, fun x ↦ ∃ place, x = .text place c.logLevel⟩]

section Writing

variable {c : Config}

theorem settings_names (c : Config) : c.settings.map Line.name = keys := rfl

theorem toDocument_eq (h : c.topN.toNat < signedLimit) :
    ∃ document, c.toDocument = .ok document ∧
      document.toList = c.settings.flatMap Line.text := by
  refine ⟨_, if_pos h, ?_⟩
  simp [settings, Line.text]

theorem toList_writeTexts_singleton (s : String) :
    (writeTexts [s]).toList = '[' :: ((quote s).toList ++ [']']) := by
  rw [writeTexts, String.toList_append, String.toList_append]
  rfl

theorem toList_writeTexts_cons_cons (s s' : String) (ss : List String) :
    (writeTexts (s :: s' :: ss)).toList = '[' :: lines (s :: s' :: ss) [] := by
  simp [writeTexts, lines, String.toList_join, List.flatMap_map]

theorem denotes_writeTexts {ss : List String} (h : ss ≠ []) :
    Denotes (writeTexts ss).toList (Texts · ss) := by
  match ss with
  | [] => exact absurd rfl h
  | [s] =>
    rw [toList_writeTexts_singleton]
    exact denotes_bracket s
  | s :: s' :: ss =>
    rw [toList_writeTexts_cons_cons]
    exact denotes_lines s (s' :: ss)

theorem settings_denotes (hnumber : c.topN.toNat < signedLimit) (hstrategies : c.strategies ≠ []) :
    ∀ line ∈ c.settings, Denotes line.written line.Means := by
  simp only [settings, List.forall_mem_cons, List.not_mem_nil, false_imp_iff, implies_true,
    and_true]
  exact ⟨denotes_toString_nat hnumber, denotes_quote _, denotes_writeTexts hstrategies,
    denotes_toString_bool _, denotes_quote _⟩

theorem settings_sound (hnumber : c.topN.toNat < signedLimit) (hstrategies : c.strategies ≠ []) :
    ∀ line ∈ c.settings, line.Sound := by
  intro line hline
  obtain ⟨hne, hbare⟩ := keys_bare line.name (List.mem_map_of_mem hline)
  exact ⟨hne, List.all_eq_true.mp hbare, settings_denotes hnumber hstrategies line hline⟩

end Writing

/-! ## The entries of the document -/

section Reading

variable {c : Config} {place : Place} {x : Toml}

theorem enter_topN {n : UInt64} (hx : ∃ place, x = .integer place n.toNat) :
    c.enter (⟨"top_n", place⟩, x) = .ok { c with topN := n } := by
  obtain ⟨place, rfl⟩ := hx
  have hrange : (0 : Int) ≤ n.toNat ∧ (n.toNat : Int) < UInt64.size :=
    ⟨Int.natCast_nonneg _, Int.ofNat_lt.mpr n.toNat_lt_size⟩
  have hread : (Toml.integer place n.toNat).asUnsigned? = some n := by
    rw [asUnsigned?, if_pos hrange, Int.toNat_natCast, UInt64.ofNat_toNat]
  change (demand _ asUnsigned? _ >>= _) = _
  rw [demand, hread]
  rfl

theorem enter_weighting {weighting : Weighting} (hx : ∃ place, x = .text place weighting.name) :
    c.enter (⟨"weighting", place⟩, x) = .ok { c with weighting := weighting } := by
  obtain ⟨place, rfl⟩ := hx
  cases weighting <;> rfl

theorem enter_strategies {ss : List String} (hx : Texts x ss) :
    c.enter (⟨"strategies", place⟩, x) = .ok { c with strategies := ss } := by
  obtain ⟨place', items, rfl, hitems⟩ := hx
  have hread : items.mapM (demand ⟨"strategies", place⟩ asText?) = .ok ss := by
    refine mapM_eq_ok_of_map ?_
    rw [← List.forall₂_eq_eq_eq, List.forall₂_map_left_iff, List.forall₂_map_right_iff]
    refine hitems.imp ?_
    rintro item s ⟨place, rfl⟩
    rfl
  change (texts _ _ >>= _) = _
  rw [texts, hread]
  rfl

theorem enter_respectVisibility {flag : Bool} (hx : ∃ place, x = .boolean place flag) :
    c.enter (⟨"respect_visibility", place⟩, x) = .ok { c with respectVisibility := flag } := by
  obtain ⟨place, rfl⟩ := hx
  rfl

theorem enter_logLevel {s : String} (hx : ∃ place, x = .text place s) :
    c.enter (⟨"log_level", place⟩, x) = .ok { c with logLevel := s } := by
  obtain ⟨place, rfl⟩ := hx
  rfl

end Reading

/-! ## The document is read back -/

section RoundTrip

variable {c : Config} {document : String}

/-- The entries of the document give its settings, whatever the defaults are. -/
theorem ofEntries_settings {entries : Toml.Entries}
    (h : List.Forall₂ (fun line entry ↦ entry.1.name = line.name ∧ line.Means entry.2)
      c.settings entries) : ofEntries entries = .ok c := by
  rw [settings] at h
  obtain ⟨⟨⟨_, _⟩, _⟩, _, ⟨rfl, htopN⟩, h₁, rfl⟩ := List.forall₂_cons_left_iff.mp h
  obtain ⟨⟨⟨_, _⟩, _⟩, _, ⟨rfl, hweighting⟩, h₂, rfl⟩ := List.forall₂_cons_left_iff.mp h₁
  obtain ⟨⟨⟨_, _⟩, _⟩, _, ⟨rfl, htexts⟩, h₃, rfl⟩ := List.forall₂_cons_left_iff.mp h₂
  obtain ⟨⟨⟨_, _⟩, _⟩, _, ⟨rfl, hflag⟩, h₄, rfl⟩ := List.forall₂_cons_left_iff.mp h₃
  obtain ⟨⟨⟨_, _⟩, _⟩, _, ⟨rfl, hlogLevel⟩, h₅, rfl⟩ := List.forall₂_cons_left_iff.mp h₄
  rw [List.forall₂_nil_left_iff.mp h₅]
  rw [ofEntries, List.foldlM_cons, enter_topN htopN, ok_bind, List.foldlM_cons,
    enter_weighting hweighting, ok_bind, List.foldlM_cons, enter_strategies htexts, ok_bind,
    List.foldlM_cons, enter_respectVisibility hflag, ok_bind, List.foldlM_cons,
    enter_logLevel hlogLevel]
  rfl

theorem read_settings (hnumber : c.topN.toNat < signedLimit) (hstrategies : c.strategies ≠ [])
    (h : document.toList = c.settings.flatMap Line.text) :
    (Toml.ofString document).bind ofEntries = .ok c := by
  have hmark : skipMark document.toList = document.toList := by
    obtain ⟨rest, hrest⟩ : ∃ rest, c.settings.flatMap Line.text = 't' :: rest :=
      ⟨_, by simp only [settings, List.flatMap_cons, Line.text, List.append_assoc]; rfl⟩
    rw [h, hrest]
    rfl
  have hbound : c.settings.length < document.toList.length + 1 := by
    rw [h]
    simp [settings, Line.text]
  have hfresh : ∀ line ∈ c.settings, line.name ∉ ([] : Toml.Entries).map fun e ↦ e.1.name :=
    fun _ _ ↦ List.not_mem_nil
  obtain ⟨entries, hextend, hentries⟩ := extend_lines (settings_sound hnumber hstrategies)
    (c.settings_names ▸ keys_nodup) hfresh hbound
  have hread : Toml.ofString document = .ok entries := by
    rw [← h] at hextend
    rw [Toml.ofString, hmark, hextend]
    rfl
  rw [hread]
  exact ofEntries_settings hentries

theorem ofDocument_settings (hnumber : c.topN.toNat < signedLimit) (hstrategies : c.strategies ≠ [])
    (h : document.toList = c.settings.flatMap Line.text) (path : String) :
    ofDocument path document = .ok c := by
  rw [ofDocument, read_settings hnumber hstrategies h]
  dsimp only
  rw [if_neg (by simpa using hstrategies)]

theorem decodeText?_toUTF8 (text : String) : decodeText? text.toUTF8.data.toList = some text := by
  have hsymbols :
      (text.toList.map some).mapM (fun symbol : Symbol ↦ symbol) = some text.toList := by
    induction text.toList with
    | nil => rfl
    | cons c cs ih =>
      rw [List.map_cons, List.mapM_cons, ih]
      rfl
  rw [decodeText?, Symbol.ofBytes_utf8, Symbol.ofString, hsymbols, Option.map_some,
    String.ofList_toList]

/-- **Settings survive their own document.** Settings with a strategy whose number fits into the
numbers of documents are written, and a file that holds what is written, at whatever path, has the
same settings. Settings with a larger number are refused. -/
theorem survives_toml (c : Config) :
    (c.topN.toNat < signedLimit → c.strategies ≠ [] →
      ∃ document, c.toDocument = .ok document ∧ ∀ (files : Files) (path : String),
        files.read path = .ok document.toUTF8.data.toList → load files (some path) = .ok c) ∧
    (signedLimit ≤ c.topN.toNat → c.toDocument = .error (.config "" .numberTooLarge)) := by
  refine ⟨fun hnumber hstrategies ↦ ?_, fun hlarge ↦ if_neg (Nat.not_lt.mpr hlarge)⟩
  obtain ⟨document, hwrite, htext⟩ := toDocument_eq hnumber
  refine ⟨document, hwrite, fun files path hread ↦ ?_⟩
  rw [load, hread]
  dsimp only
  rw [decodeText?_toUTF8]
  exact ofDocument_settings hnumber hstrategies htext path

/-- Settings whose texts need every form, with the largest number of a document. -/
def awkward : Config where
  topN := 0x7fffffffffffffff
  weighting := .uniform
  strategies := ["plain", "\"quoted\"", "it's \\ \"both\"", "two\nlines", "\\ '''\x00''' \"\"\"\n"]
  respectVisibility := false
  logLevel := "trace\r"

def awkwardText : String :=
  "top_n = 9223372036854775807\nweighting = \"uniform\"\nstrategies = [\n" ++
    "    \"plain\",\n    '\"quoted\"',\n    '''it's \\ \"both\"''',\n" ++
    "    \"\"\"\ntwo\nlines\"\"\",\n" ++
    "    \"\"\"\n\\\\ '''\\u0000''' \"\"\\\"\n\"\"\",\n]\n" ++
    "respect_visibility = false\nlog_level = \"trace\\r\"\n"

theorem survives_toml_awkward :
    awkward.toDocument = .ok awkwardText ∧
      load ⟨fun _ ↦ .ok awkwardText.toUTF8.data.toList, fun _ ↦ .ok ()⟩ (some "config.toml")
        = .ok awkward ∧
      { awkward with topN := 0x8000000000000000 }.toDocument
        = .error (.config "" .numberTooLarge) := by
  have hwritten : awkward.toDocument = .ok awkwardText := by decide +kernel
  obtain ⟨document, hwrite, hload⟩ := (survives_toml awkward).1 (by decide) (by decide)
  obtain rfl : document = awkwardText := Except.ok.inj (hwrite.symm.trans hwritten)
  exact ⟨hwrite, hload _ _ rfl, (survives_toml { awkward with topN := _ }).2 (by decide)⟩

end RoundTrip

end BookmarkGraph.Config
