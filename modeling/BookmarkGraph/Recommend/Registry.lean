import BookmarkGraph.Recommend.Popularity

/-!
# The registry of strategies

Strategies are found under names. A registry lists its names in ascending order of their code
points; registering a name again replaces its constructor.
-/

namespace BookmarkGraph

/-- Makes a strategy for a graph and a configuration, or refuses to. -/
abbrev StrategyConstructor := Context → Except GraphError Strategy

/-- Constructors of strategies by name. -/
structure Registry where
  /-- Names, ascending, with their constructors. -/
  constructors : List (String × StrategyConstructor)

namespace Registry

def empty : Registry := ⟨[]⟩

/-- Puts a constructor in its place among ascending names. -/
def place (name : String) (constructor : StrategyConstructor) :
    List (String × StrategyConstructor) → List (String × StrategyConstructor)
  | [] => [(name, constructor)]
  | (other, c) :: rest =>
    if name < other then (name, constructor) :: (other, c) :: rest
    else if name = other then (name, constructor) :: rest
    else (other, c) :: place name constructor rest

/-- Registers a constructor under a name. -/
def register (r : Registry) (name : String) (constructor : StrategyConstructor) : Registry :=
  ⟨place name constructor r.constructors⟩

/-- The registry of the strategies that come with the library. -/
def builtins : Registry :=
  (empty.register Collaborative.name fun context ↦ .ok (Collaborative.strategy context)).register
    Popularity.name fun context ↦ .ok (Popularity.strategy context)

def names (r : Registry) : List String := r.constructors.map (·.1)

def find? (r : Registry) (name : String) : Option StrategyConstructor := r.constructors.lookup name

def contains (r : Registry) (name : String) : Bool := (r.find? name).isSome

/-- Starts a session of the strategy under a name. -/
def create (r : Registry) (name : String) (context : Context) : Except GraphError Session :=
  match r.find? name with
  | none => .error (.unknownStrategy name)
  | some constructor =>
    match constructor context with
    | .error e => .error e
    | .ok strategy => .ok (.start strategy context.config)

end Registry

end BookmarkGraph
