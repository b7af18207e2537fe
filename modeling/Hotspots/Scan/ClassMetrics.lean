import Hotspots.Number.Real
import Hotspots.Record
import Hotspots.Source.Tree

/-!
# Measures of classes

Three measures of a class: the weighted method count, which adds up the complexities of its methods;
the access to foreign data, which counts the distinct attributes that it reads from other objects; and
the tight class cohesion, which is the share of pairs of methods that use a common attribute of the
instance. Constructors take no part in the cohesion.
-/

namespace Hotspots

open Source (Tree Label FunctionHead)

namespace Source.Tree

/-- What one node adds to the complexity of the function around it. -/
def weight : Tree → Nat
  | node (.branch _) _ => 1
  | node .boolOp operands => operands.length - 1
  | node (.clause filters) _ => 1 + filters
  | _ => 0

/-- The complexity of a function: one plus the number of its decision points, at any depth. -/
def complexity (t : Tree) : Nat := 1 + (t.walk.map weight).foldr (· + ·) 0

/-- The head of a function definition. -/
def functionHead? : Tree → Option FunctionHead
  | node (.function head) _ => some head
  | _ => none

/-- Whether a tree is a function definition. -/
def isFunction (t : Tree) : Bool := t.functionHead?.isSome

/-- The name and the line of a class definition. -/
def classHead? : Tree → Option (String × Nat)
  | node (.classDef name line) _ => some (name, line)
  | _ => none

end Source.Tree

/-- An attribute of a plain name, and whether it is what a call calls. -/
structure Access where
  owner : String
  field : String
  called : Bool
  deriving DecidableEq, Repr

namespace Access

/-- The access that a node with the given children is. -/
def ofNode (called : Bool) : Label → List Tree → List Access
  | .attribute field, [.node (.name owner) _] => [⟨owner, field, called⟩]
  | _, _ => []

mutual

/-- The accesses in a tree; `called` says whether the tree is what a call calls. -/
def inTree (called : Bool) : Tree → List Access
  | .node label children => ofNode called label children ++ inChildren (label == .call) children

/-- The accesses in the children of a node; `call` says whether the first is what a call calls. -/
def inChildren (call : Bool) : List Tree → List Access
  | [] => []
  | t :: rest => inTree call t ++ inChildren false rest

end

end Access

/-- Whether a method constructs the instance. -/
def FunctionHead.isConstructor (head : FunctionHead) : Bool :=
  ["__init__", "__new__", "__post_init__"].contains head.name

/-- What was measured of a class. -/
structure ClassMetrics where
  name : String
  line : Int
  methodCount : Int
  /-- The weighted method count. -/
  wmc : Int
  /-- The access to foreign data. -/
  atfd : Int
  /-- The tight class cohesion. -/
  tcc : Binary64
  deriving DecidableEq, Repr

namespace ClassMetrics

/-- The methods of a class: the functions directly in it. -/
def methods (t : Tree) : List (FunctionHead × Tree) :=
  t.children.filterMap fun child => child.functionHead?.map fun head => (head, child)

/-- Whether a method is decorated to know neither its instance nor its class. -/
def isStatic (method : FunctionHead × Tree) : Bool :=
  (method.2.decorators.filterMap Tree.name?).contains "staticmethod"

/-- The names under which a method knows its instance or its class. -/
def receivers (method : FunctionHead × Tree) : List String :=
  ["self", "cls"] ++ (if isStatic method then [] else method.1.positional.take 1)

/-- The attributes of the instance that a method uses, methods of the class left out. -/
def usedFields (methodNames : List String) (method : FunctionHead × Tree) : List String :=
  ((Access.inTree false method.2).filter fun access =>
    (receivers method).contains access.owner && !methodNames.contains access.field).map (·.field)

/-- Whether a field name asks for a property of the object that owns it. -/
def isAccessor (field : String) : Bool :=
  field.startsWith "get" || field.startsWith "is" || field.startsWith "has"

/-- Whether an access by a method reads foreign data: neither the instance nor a known name owns the
attribute, and it is read rather than called, or is called to ask for a property. -/
def isForeign (known : List String) (method : FunctionHead × Tree) (access : Access) : Bool :=
  !(receivers method).contains access.owner && !known.contains access.owner
    && (!access.called || isAccessor access.field)

/-- The foreign attributes that a method reads. -/
def foreignFields (known : List String) (method : FunctionHead × Tree) : List String :=
  ((Access.inTree false method.2).filter (isForeign known method)).map (·.field)

/-- The fields used under each method name, constructors left out; the last method of a name counts. -/
def fieldsByName (found : List (FunctionHead × Tree)) : List (String × List String) :=
  let names := found.map (·.1.name)
  (found.filter fun m => !FunctionHead.isConstructor m.1).foldl
    (fun entries m => Record.put m.1.name (usedFields names m) entries) []

/-- The unordered pairs of a list. -/
def pairs {α : Type} : List α → List (α × α)
  | [] => []
  | a :: rest => rest.map (a, ·) ++ pairs rest

/-- Whether two lists of fields have one in common. -/
def share (a b : List String) : Bool := a.any b.contains

/-- The share of pairs of methods with a common field; 1 if there is no pair. -/
def cohesion (fields : List (List String)) : Binary64 :=
  let all := pairs fields
  if all.isEmpty then .ofInt 1
  else .ofIntQuotient ((all.filter fun (a, b) => share a b).length : Nat) (all.length : Nat)

/-- Measures a class definition. Attributes of the names in `moduleNames` are no foreign data. -/
def ofClass (moduleNames : List String) (name : String) (line : Nat) (t : Tree) : ClassMetrics :=
  let found := methods t
  let known := name :: moduleNames
  { name := name
    line := line
    methodCount := found.length
    wmc := ((found.map fun m => m.2.complexity).foldr (· + ·) 0 : Nat)
    atfd := ((found.flatMap (foreignFields known)).eraseDups.length : Nat)
    tcc := cohesion ((fieldsByName found).map (·.2)) }

/-- The names that the imports anywhere in a tree bind. -/
def importedNames (t : Tree) : List String :=
  (t.walk.flatMap fun
    | .node (.imports names) _ => names
    | _ => []).eraseDups

/-- The measures of every class in a tree, level by level. -/
def ofTree (moduleNames : List String) (t : Tree) : List ClassMetrics :=
  t.walk.filterMap fun node => node.classHead?.map fun (name, line) =>
    ofClass moduleNames name line node

end ClassMetrics

end Hotspots
