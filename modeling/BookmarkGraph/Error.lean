import BookmarkGraph.Element.Basic
import BookmarkGraph.Text.Place

/-!
# Errors

Every way in which an operation of the library can fail is a `GraphError`. The constructors name
causes; the one function `GraphError.message` words them.

## Contents

* `StateFault`: a graph, pipeline or query used in a way its construction does not allow;
* `ArgumentFault`: a malformed argument of a caller;
* `DocumentFault`: a document that cannot be read as the expected value;
* `FileFault`: a file that cannot be reached;
* `ConfigFault`: a configuration that cannot be read or written;
* `GraphError` and `GraphError.message`.
-/

namespace BookmarkGraph

/-- A graph, pipeline or query is used in a way its construction does not allow. -/
inductive StateFault where
  /-- An arena holds as many elements as there are indices. -/
  | arenaFull
  /-- An edge is to join places of which one holds no vertex. -/
  | endpointsMissing (source target : VertexIndex)
  /-- A pipe is pulled that nothing feeds. -/
  | unboundStarts
  /-- A step over vertices receives something else. -/
  | verticesExpected (step : String) (got : ElementKind)
  /-- A step over edges receives something else. -/
  | edgesExpected (step : String) (got : ElementKind)
  /-- An element without an id is to be projected to its id. -/
  | idMissing (got : ElementKind)
  /-- An element without properties is to be projected to them. -/
  | propertiesMissing (got : ElementKind)
  /-- A list of ids holds something else. -/
  | idExpected
  /-- A pipeline is drained that has no pipe. -/
  | noPipes
  /-- A pipeline is drained that has no source. -/
  | noStarts
  /-- A traversal is started twice. -/
  | secondStart
  /-- A step is added to a traversal that has no start. -/
  | stepBeforeStart (step : String)
  /-- A fault that a strategy from outside the library reports. -/
  | reported (message : String)
deriving DecidableEq, Repr

/-- An argument of a caller is malformed. -/
inductive ArgumentFault where
  /-- The step language has no step of this name. -/
  | unknownStep (name : String)
  /-- A limit has no number. -/
  | limitNumberMissing (token : String)
  /-- A property condition has no key and value. -/
  | conditionMissing (token : String)
  /-- A log filter does not parse. -/
  | logFilter
  /-- A fault that code from outside the library reports. -/
  | reported (message : String)
deriving DecidableEq, Repr

/-- Why a document cannot be read as the expected value. -/
inductive DocumentFault where
  /-- The text is not well-formed. -/
  | syntactic
  /-- The text ends too early. -/
  | early
  /-- The text is well-formed and describes a value of another shape. -/
  | shape
  /-- The document cannot be read from its file. -/
  | unreadable
deriving DecidableEq, Repr

/-- Why a file cannot be reached. -/
inductive FileFault where
  /-- Nothing has this name. -/
  | absent
  /-- A part of the path that should be a directory is a file. -/
  | notDirectory
  /-- The name belongs to a directory. -/
  | isDirectory
  /-- The path or a name in it is longer than names can be. -/
  | nameTooLong
deriving DecidableEq, Repr

/-- What is wrong with a configuration. -/
inductive ConfigFault where
  /-- The file cannot be read. -/
  | unreadable (fault : FileFault)
  /-- The file is not text. -/
  | notText
  /-- The text is not a configuration document, or a setting in it has the wrong kind. -/
  | malformed (place : LineColumn)
  /-- The list of strategies is empty. -/
  | noStrategies
  /-- A number is too large to be written. -/
  | numberTooLarge
deriving DecidableEq, Repr

/-- Why an operation fails. -/
inductive GraphError where
  /-- No vertex has the id. -/
  | notFound (id : ElementId)
  /-- Another vertex has the id already. -/
  | duplicateId (id : ElementId)
  /-- A graph, pipeline or query is misused. -/
  | invalidState (fault : StateFault)
  /-- An argument is malformed. -/
  | invalidArgument (fault : ArgumentFault)
  /-- No strategy is registered under the name. -/
  | unknownStrategy (name : String)
  /-- A configuration cannot be read or written. -/
  | config (path : String) (fault : ConfigFault)
  /-- The store of recommendations refuses a write. -/
  | store (message : String)
  /-- A file cannot be opened or created. -/
  | file (fault : FileFault)
  /-- A document cannot be read. -/
  | document (fault : DocumentFault)
  /-- An element index was not issued by the graph it is looked up in. -/
  | foreignIndex (element : Element)
deriving DecidableEq, Repr

def VertexIndex.text (index : VertexIndex) : String :=
  "VertexIdx(" ++ toString index.position.toNat ++ ")"

def EdgeIndex.text (index : EdgeIndex) : String :=
  "EdgeIdx(" ++ toString index.position.toNat ++ ")"

namespace StateFault

def message : StateFault → String
  | arenaFull => "graph arena is full"
  | endpointsMissing source target =>
    "edge endpoints " ++ source.text ++ " -> " ++ target.text
      ++ " are not vertices of this graph"
  | unboundStarts => "pipe pulled before its starts were bound"
  | verticesExpected step got => step ++ " expects vertices, got " ++ got.text
  | edgesExpected step got => step ++ " expects edges, got " ++ got.text
  | idMissing got => "id() cannot project a " ++ got.text ++ " without an id"
  | propertiesMissing got => "properties() cannot project a " ++ got.text
  | idExpected => "id() produced a non-id element"
  | noPipes => "pipeline has no pipes"
  | noStarts => "pipeline has no bound starts"
  | secondStart => "a traversal can only have one start"
  | stepBeforeStart step => step ++ "() called before vertices() or v(..)"
  | reported message => message

end StateFault

namespace ArgumentFault

def message : ArgumentFault → String
  | unknownStep name => "unknown step '" ++ name ++ "'"
  | limitNumberMissing token => "'" ++ token ++ "' needs limit:N"
  | conditionMissing token => "'" ++ token ++ "' needs has:key=value"
  | logFilter => "invalid log level:"
  | reported message => message

end ArgumentFault

namespace FileFault

def message : FileFault → String
  | absent => "No such file or directory (os error 2)"
  | notDirectory => "Not a directory (os error 20)"
  | isDirectory => "Is a directory (os error 21)"
  | nameTooLong => "File name too long (os error 36)"

end FileFault

namespace ConfigFault

def message : ConfigFault → String
  | unreadable fault => fault.message
  | notText => "stream did not contain valid UTF-8"
  | malformed place =>
    "TOML parse error at line " ++ toString place.line ++ ", column " ++ toString place.column
  | noStrategies => "at least one strategy must be configured"
  | numberTooLarge => "out-of-range value for u64 type"

end ConfigFault

namespace GraphError

def message : GraphError → String
  | notFound id => "vertex " ++ id.text ++ " not found"
  | duplicateId id => "duplicate vertex id " ++ id.text
  | invalidState fault => "invalid state: " ++ fault.message
  | invalidArgument fault => "invalid argument: " ++ fault.message
  | unknownStrategy name => "unknown recommender strategy '" ++ name ++ "'"
  | config path fault => "config error in " ++ path ++ ": " ++ fault.message
  | store message => "recommendation store error: " ++ message
  | file fault => "I/O error: " ++ fault.message
  | document _ => "serialization error:"
  | foreignIndex _ => "index out of bounds"

end GraphError

end BookmarkGraph
