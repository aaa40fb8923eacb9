/-!
# Settings of a run

Which strategies run, how they weigh and how many listings they keep. Three presets serve as
starting points.
-/

namespace BookmarkGraph

/-- How a listing gains score from the profiles that keep it. -/
inductive Weighting where
  /-- Every profile adds to the score. -/
  | frequency
  /-- The score is the same for any number of profiles. -/
  | uniform
deriving DecidableEq, Repr, Inhabited

/-- The name of a weighting in documents. -/
def Weighting.name : Weighting → String
  | frequency => "frequency"
  | uniform => "uniform"

def Weighting.ofName? (name : String) : Option Weighting :=
  if name = Weighting.frequency.name then some .frequency
  else if name = Weighting.uniform.name then some .uniform
  else none

/-- The settings of a run. -/
structure Config where
  /-- How many listings a profile keeps at most. -/
  topN : UInt64 := 10
  /-- How listings gain score. -/
  weighting : Weighting := .frequency
  /-- The strategies to run, in their order. -/
  strategies : List String := ["graph_cf"]
  /-- Whether the flags of listings restrict who sees them. -/
  respectVisibility : Bool := true
  /-- The filter of log messages, used when the command line gives none. -/
  logLevel : String := "info"
deriving DecidableEq, Repr, Inhabited

namespace Config

/-- Few listings from both strategies. -/
def quick : Config where
  topN := 3
  strategies := ["graph_cf", "popularity"]

/-- Many listings whatever their flags, all of them equal. -/
def exhaustive : Config where
  topN := 100
  weighting := .uniform
  respectVisibility := false

def preset? : String → Option Config
  | "default" => some {}
  | "quick" => some quick
  | "exhaustive" => some exhaustive
  | _ => none

/-- The settings in which every given field replaces the default. A field that is given as a value
of another type makes the whole fail. -/
def ofFields? (topN : Option (Option UInt64)) (weighting : Option (Option Weighting))
    (strategies : Option (Option (List String))) (respectVisibility : Option (Option Bool))
    (logLevel : Option (Option String)) : Option Config := do
  let blank : Config := {}
  return {
    topN := ← topN.getD (some blank.topN)
    weighting := ← weighting.getD (some blank.weighting)
    strategies := ← strategies.getD (some blank.strategies)
    respectVisibility := ← respectVisibility.getD (some blank.respectVisibility)
    logLevel := ← logLevel.getD (some blank.logLevel) }

end Config

end BookmarkGraph
