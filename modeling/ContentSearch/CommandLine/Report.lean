import ContentSearch.Calendar.Date
import ContentSearch.CommandLine.Options
import ContentSearch.Highlight.Mark
import ContentSearch.History.Entry
import ContentSearch.Query.Printer
import ContentSearch.Search.FieldMatch

/-!
What a command reports, and how a report is written: for people, line by line, or as JSON.
-/

namespace ContentSearch.CommandLine

/-- A hit of a search as it is reported. -/
structure HitReport where
  position : Nat
  id : Text
  score : Float32
  matched : List FieldMatch
  matchedTerms : List Text

inductive Report where
  | search (query : Text) (parsed : Query) (milliseconds : Nat) (hits : List HitReport)
  | parse (parsed : Query)
  | highlight (segments : List Segment) (excerpt : Option Text)
  | history (key : Text) (action : HistoryAction) (entries : List HistoryEntry)

def commaList (l : List Text) : Text := Text.joinWith ", ".toList l

/-! ## JSON -/

def matchJson (m : FieldMatch) : Json :=
  .object [
    ("field".toList, .string m.field),
    ("excerpt".toList, .string m.excerpt),
    ("positions".toList, .array (m.positions.map fun p => .array [.nat p.1, .nat p.2]))]

def HitReport.toJson (h : HitReport) : Json :=
  .object [
    ("index".toList, .nat h.position),
    ("id".toList, .string h.id),
    ("score".toList, .number (.single h.score)),
    ("matchedTerms".toList, .strings h.matchedTerms),
    ("matches".toList, .array (h.matched.map matchJson))]

def segmentJson (s : Segment) : Json :=
  .object [("text".toList, .string s.text), ("highlighted".toList, .bool s.highlighted)]

def Report.toJson : Report → Json
  | .search query parsed milliseconds hits =>
    .object [
      ("query".toList, .string query),
      ("parsed".toList, parsed.toJson),
      ("totalHits".toList, .nat hits.length),
      ("durationMs".toList, .nat milliseconds),
      ("hits".toList, .array (hits.map HitReport.toJson))]
  | .parse parsed =>
    .object [("parsed".toList, parsed.toJson), ("canonical".toList, .string parsed.render)]
  | .highlight segments excerpt =>
    .object [
      ("segments".toList, .array (segments.map segmentJson)),
      ("excerpt".toList, .ofOption (excerpt.map .string))]
  | .history key action entries =>
    .object [
      ("key".toList, .string key),
      ("action".toList, .string action.name),
      ("items".toList, .array (entries.map HistoryEntry.toJson))]

/-! ## lines -/

def quoted (t : Text) : Text := '\'' :: t ++ ['\'']

def matchLine (m : FieldMatch) : Except Fault Text := do
  return "   ".toList ++ m.field ++ ": ".toList ++ (← Mark.ranges m.excerpt m.positions)

def HitReport.lines (verbose : Bool) (number : Nat) (h : HitReport) :
    Except Fault (List Text) := do
  let title := natText number ++ ". ".toList ++ h.id ++ " (Score: ".toList ++
    singleFixedText 3 h.score ++ [')']
  let terms := if verbose && !h.matchedTerms.isEmpty then
    ["   matched: ".toList ++ commaList h.matchedTerms] else []
  return [[], title] ++ (← h.matched.mapM matchLine) ++ terms

def entryLine (e : HistoryEntry) : Text :=
  timestampText e.timestamp ++ "  ".toList ++ e.query ++ " (".toList ++ natText e.resultCount ++
    " results)".toList

/-- The lines of a report for people, with the matched terms of each hit if `verbose`. -/
def Report.lines (verbose : Bool) : Report → Except Fault (List Text)
  | .search query _ milliseconds hits =>
    if hits.isEmpty then .ok ["No results for ".toList ++ quoted query]
    else do
      let count := "Search Results: ".toList ++ natText hits.length ++ " hits (".toList ++
        natText milliseconds ++ " ms)".toList
      let blocks ← hits.zipIdx.mapM fun (h, n) => h.lines verbose (n + 1)
      return [count, List.replicate 15 '═'] ++ blocks.flatten
  | .parse parsed =>
    .ok (["terms:       ".toList ++ commaList parsed.terms,
      "phrases:     ".toList ++ commaList parsed.phrases,
      "excludes:    ".toList ++ commaList parsed.exclusions] ++
      (parsed.filters.toList.map fun (name, values) =>
        "filter:      ".toList ++ name ++ " = ".toList ++ Text.joinWith " | ".toList values) ++
      ["filter only: ".toList ++ (if parsed.filterOnly then "true" else "false").toList,
        "canonical:   ".toList ++ parsed.render])
  | .highlight segments excerpt =>
    .ok (Mark.segments segments :: (excerpt.map fun t => "excerpt: ".toList ++ t).toList)
  | .history key (.list _) entries =>
    .ok (if entries.isEmpty then ["No search history under ".toList ++ quoted key]
      else entries.map entryLine)
  | .history key action entries =>
    .ok [action.name ++ ": ".toList ++ quoted key ++ " now holds ".toList ++
      natText entries.length ++ " entries".toList]

/-- What is written of a report. For people, `summary` comes first if more than usual is to be
written. -/
def Report.render (o : OutputOptions) (summary : Text) (r : Report) : Except Fault Text := do
  let lines ← match o.format with
    | .json => pure [if o.pretty then r.toJson.pretty else r.toJson.compact]
    | .human => do
      let verbose := decide (1 < o.verbosity)
      pure ((if verbose then [summary, []] else []) ++ (← r.lines verbose))
  return lines.flatMap fun l => l ++ ['\n']

end ContentSearch.CommandLine
