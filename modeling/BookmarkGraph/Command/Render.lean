import BookmarkGraph.Command.Run
import BookmarkGraph.Text.Csv

/-!
# Writing results

Findings are written for a reader, as JSON or as records with commas. For a reader there are
sections of named numbers under headings and lists of entries; headings and messages have a mark in
front, which a quiet request leaves out.

## Contents

* `Screen`: the parts of an output for a reader;
* `Finding.render`: the output of a finding.
-/

namespace BookmarkGraph

/-- How much time a run took. The library does not measure it; whoever runs it does. -/
structure Timing where
  /-- The milliseconds of each strategy. -/
  strategy : Nat
  /-- The time of the whole run, as a text. -/
  total : String
deriving DecidableEq, Repr

/-- A time in milliseconds as a text: in seconds with two places from one second on. -/
def Timing.text (milliseconds : Nat) : String :=
  if milliseconds < 1000 then toString milliseconds ++ "ms"
  else
    let hundredths := (milliseconds + 5) / 10
    let places := hundredths % 100
    let zero := if places < 10 then "0" else ""
    toString (hundredths / 100) ++ "." ++ zero ++ toString places ++ "s"

/-- What a run writes. -/
structure Output where
  /-- The text for the standard output. -/
  standard : String
  /-- A file with its text, if results go to one. -/
  file : Option (String × String)
deriving DecidableEq, Repr

namespace Screen

/-- A line with a mark in front, unless the request is quiet. -/
def marked (quiet : Bool) (mark line : String) : String :=
  if quiet then line ++ "\n" else mark ++ " " ++ line ++ "\n"

def heading (quiet : Bool) (title : String) : String := marked quiet "▸" title

/-- Rows of keys and values under a heading, the keys flush right; nothing without rows. The column
of keys is as wide as the longest key has bytes. -/
def sections (quiet : Bool) (title : String) (rows : List (String × String)) : String :=
  if rows.isEmpty then ""
  else
    let width := (rows.map (·.1.utf8ByteSize)).foldl max 0
    let line (row : String × String) : String :=
      "  " ++ String.ofList (List.replicate (width - row.1.length) ' ') ++ row.1 ++ ": " ++ row.2
        ++ "\n"
    heading quiet title ++ String.join (rows.map line)

/-- Entries under a heading; nothing without entries. -/
def list (quiet : Bool) (title : String) (entries : List String) : String :=
  if entries.isEmpty then ""
  else heading quiet title ++ String.join (entries.map fun entry ↦ "  - " ++ entry ++ "\n")

/-- A message that something has been done. -/
def success (quiet : Bool) (message : String) : String := marked quiet "✔" message

def info (quiet : Bool) (message : String) : String := marked quiet "ℹ" message

end Screen

/-! ## JSON -/

private def jsonNat (n : Nat) : Json := .integer n

private def jsonCounts (counts : List (String × Nat)) : Json :=
  .object (counts.map fun (label, n) ↦ (label, jsonNat n))

def GraphStats.toJson (s : GraphStats) : Json := .object [
  ("vertices", jsonNat s.vertices),
  ("edges", jsonNat s.edges),
  ("vertex_labels", jsonCounts s.vertexLabels),
  ("edge_labels", jsonCounts s.edgeLabels)]

def BuildReport.toJson (r : BuildReport) : Json := .object [
  ("vertices", jsonNat r.vertices),
  ("edges", jsonNat r.edges),
  ("skipped_references", jsonNat r.skippedReferences)]

/-- The outcome of a strategy as JSON. -/
def RunSummary.toJson (timing : Timing) (s : RunSummary) : Json := .object [
  ("strategy", .string s.strategy),
  ("profiles", jsonNat s.profiles),
  ("profiles_with_results", jsonNat s.profilesWithResults),
  ("entries_written", jsonNat s.entriesWritten),
  ("failed_profiles", jsonNat s.failedProfiles),
  ("elapsed_ms", jsonNat timing.strategy)]

def RankedList.toJson (l : RankedList) : Json := .object [
  ("profile", l.profile.toJson),
  ("listings", .array (l.listings.map fun s ↦
    .object [("listing", s.listing.toJson), ("score", .float s.score)]))]

/-- A JSON value with the line break behind it. -/
def Json.document (value : Json) : String := value.pretty ++ "\n"

/-! ## Findings -/

namespace Finding

def elementText : Json → String
  | .string s => s
  | other => other.compact

def scoreText (score : Double) : String := Value.displayLayout.text score

/-- Element counts for a reader. -/
def statsText (quiet : Bool) (s : GraphStats) : String :=
  let rows (counts : List (String × Nat)) := counts.map fun (label, n) ↦ (label, toString n)
  Screen.sections quiet "Graph" (rows [("vertices", s.vertices), ("edges", s.edges)])
    ++ Screen.sections quiet "Vertex labels" (rows s.vertexLabels)
    ++ Screen.sections quiet "Edge labels" (rows s.edgeLabels)

def statsCsv (s : GraphStats) : String :=
  let rows (kind : String) (counts : List (String × Nat)) :=
    counts.map fun (label, n) ↦ Csv.record [kind ++ label, toString n]
  Csv.record ["metric", "value"]
    ++ String.join (rows "" [("vertices", s.vertices), ("edges", s.edges)])
    ++ String.join (rows "vertex:" s.vertexLabels) ++ String.join (rows "edge:" s.edgeLabels)

/-- The outcome of a strategy for a reader. -/
def summaryText (quiet : Bool) (s : RunSummary) : String :=
  Screen.sections quiet ("Strategy " ++ s.strategy) [
    ("profiles", toString s.profiles), ("with results", toString s.profilesWithResults),
    ("entries", toString s.entriesWritten), ("failed", toString s.failedProfiles)]

def listText (l : RankedList) : String :=
  let entries := l.listings.map fun s ↦ s.listing.text ++ " (" ++ scoreText s.score ++ ")"
  l.profile.text ++ ": " ++ ", ".intercalate entries ++ "\n"

def listCsv (l : RankedList) : String :=
  String.join (l.listings.map fun s ↦
    Csv.record [l.profile.text, s.listing.text, scoreText s.score])

def plain (text : String) : Output := ⟨text, none⟩

/-- An output of which one part goes to a file if there is one, and otherwise between the two other
parts. -/
def around (path : Option String) (before main behind : String) : Output :=
  match path with
  | none => ⟨before ++ main ++ behind, none⟩
  | some path => ⟨before ++ behind, some (path, main)⟩

/-- The output of a finding. -/
def render (format : Format) (quiet : Bool) (timing : Timing) (finding : Finding) : Output :=
  match finding, format with
  | .stats s, .text => plain (statsText quiet s)
  | .stats s, .json => plain s.toJson.document
  | .stats s, .csv => plain (statsCsv s)
  | .elements values, .text =>
    plain (Screen.list quiet "Results" (values.map elementText)
      ++ Screen.info quiet (toString values.length ++ " element(s)"))
  | .elements values, .json => plain (Json.array values).document
  | .elements values, .csv =>
    plain (Csv.record ["element"] ++ String.join (values.map fun v ↦ Csv.record [elementText v]))
  | .recommendations report lists path, .text =>
    around path (String.join (report.strategies.map (summaryText quiet)))
      (String.join (lists.map listText))
      (Screen.success quiet (toString lists.length ++ " profile(s) in " ++ timing.total))
  | .recommendations report lists path, .json =>
    let summaries := report.strategies.map (RunSummary.toJson timing)
    let tree : Json := .object [
      ("report", .object [("build", report.build.toJson), ("strategies", .array summaries)]),
      ("recommendations", .array (lists.map RankedList.toJson))]
    around path "" tree.document ""
  | .recommendations _ lists path, .csv =>
    around path ""
      (Csv.record ["profile", "listing", "score"] ++ String.join (lists.map listCsv)) ""
  | .strategies names, .json => plain (Json.array (names.map .string)).document
  | .strategies names, .text | .strategies names, .csv =>
    plain (Screen.list quiet "Strategies" names)

end Finding

end BookmarkGraph
