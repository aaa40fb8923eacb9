import BookmarkGraph.Config.Basic
import BookmarkGraph.Error
import BookmarkGraph.Number.Width
import BookmarkGraph.Toml.Document

/-!
# Settings as a configuration document

A document gives some of the settings at its top level; what it does not give keeps its default and
unknown keys are ignored. Settings that are read from a document name at least one strategy.

## Contents

* `Config.ofDocument`: reads a document;
* `Config.toDocument`: writes all settings in the order of their declaration.
-/

namespace BookmarkGraph

/-! ## Values -/

namespace Toml

def asText? : Toml → Option String
  | .text _ s => some s
  | _ => none

def asBool? : Toml → Option Bool
  | .boolean _ b => some b
  | _ => none

/-- The number without a sign that a value stands for. -/
def asUnsigned? : Toml → Option UInt64
  | .integer _ n => if 0 ≤ n ∧ n < UInt64.size then some (UInt64.ofNat n.toNat) else none
  | _ => none

/-- Whether a value is a container without parts. -/
def isVoid : Toml → Bool
  | .array _ items => items.isEmpty
  | .table _ entries => entries.isEmpty
  | .tables rows => rows.isEmpty
  | _ => false

/-- The place of a value, or that of its key where it has none. -/
def placeUnder (key : PlacedKey) (x : Toml) : Place := x.place?.getD key.place

/-- What a value under a key stands for, or the place of what stands for nothing. -/
def demand {α : Type} (key : PlacedKey) (as? : Toml → Option α) (x : Toml) : Except Place α :=
  match as? x with
  | some a => .ok a
  | none => .error (x.placeUnder key)

/-- The texts that a list under a key stands for. An item of another kind is what is wrong. -/
def texts (key : PlacedKey) : Toml → Except Place (List String)
  | .array _ items => items.mapM (demand key asText?)
  | x => .error (x.placeUnder key)

end Toml

/-- The weighting that a value under a key stands for: a name, or a table with the name as its one
key and nothing behind it. -/
def Weighting.ofToml (key : PlacedKey) (x : Toml) : Except Place Weighting :=
  match x with
  | .table _ [(k, inner)] =>
    match Weighting.ofName? k.name with
    | none => .error k.place
    | some weighting =>
      if inner.isVoid then .ok weighting else .error (inner.place?.getD (x.placeUnder key))
  | _ => Toml.demand key (fun x ↦ x.asText?.bind Weighting.ofName?) x

namespace Config

/-! ## Reading -/

/-- The settings with one replaced by what an entry of a document gives. -/
def enter (c : Config) (entry : PlacedKey × Toml) : Except Place Config := do
  let (key, x) := entry
  match key.name with
  | "top_n" => return { c with topN := ← Toml.demand key Toml.asUnsigned? x }
  | "weighting" => return { c with weighting := ← Weighting.ofToml key x }
  | "strategies" => return { c with strategies := ← Toml.texts key x }
  | "respect_visibility" => return { c with respectVisibility := ← Toml.demand key Toml.asBool? x }
  | "log_level" => return { c with logLevel := ← Toml.demand key Toml.asText? x }
  | _ => return c

/-- The settings that the entries of a document give. The first wrong value decides. -/
def ofEntries (entries : Toml.Entries) : Except Place Config := entries.foldlM enter {}

/-- The settings that a document gives, `path` being the place of the document in messages. -/
def ofDocument (path document : String) : Except GraphError Config :=
  match (Toml.ofString document).bind ofEntries with
  | .error place => .error (.config path (.malformed (.ofPlace document.toList place)))
  | .ok config =>
    if config.strategies.isEmpty then .error (.config path .noStrategies) else .ok config

/-! ## Writing -/

/-- A list of texts. One text stands on the line of its brackets; several stand on lines of their
own. -/
def writeTexts (texts : List String) : String :=
  match texts with
  | [] => "[]"
  | [s] => "[" ++ Toml.quote s ++ "]"
  | _ => "[\n" ++ String.join (texts.map fun s ↦ "    " ++ Toml.quote s ++ ",\n") ++ "]"

/-- All settings as a document. Numbers of a document have a sign, which leaves one bit less for
their digits. -/
def toDocument (c : Config) : Except GraphError String :=
  if c.topN.toNat < signedLimit then
    .ok (String.join [
      "top_n = ", toString c.topN.toNat, "\n",
      "weighting = ", Toml.quote c.weighting.name, "\n",
      "strategies = ", writeTexts c.strategies, "\n",
      "respect_visibility = ", toString c.respectVisibility, "\n",
      "log_level = ", Toml.quote c.logLevel, "\n"])
  else .error (.config "" .numberTooLarge)

end Config

end BookmarkGraph
