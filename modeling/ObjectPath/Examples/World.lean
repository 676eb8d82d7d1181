import ObjectPath.Class.Define
import ObjectPath.Examples.Commerce
import ObjectPath.Examples.Failures
import ObjectPath.Examples.People
import ObjectPath.Examples.Services
import ObjectPath.Examples.Structures
import ObjectPath.Graph.Standard
import ObjectPath.World

/-!
A world with the example classes, and a compiler whose registry names three of them.
-/

namespace ObjectPath.Examples

/-- The example classes, each after those that it descends from. -/
def classes : List ClassDefinition :=
  [address, person, grid, strict, broken, brokenValue, holder, employee, money, cart, tree, service,
    anonymous]

/-- The graph in which the example classes are defined. -/
def graph : Graph :=
  match Run.defineClasses classes Graph.standard with
  | .ok _ graph => graph
  | .error _ graph => graph

def registryName : String :=
  "main"

def compilerName : String :=
  "main"

def compilerPlace : Nat :=
  1

def registry : Registry :=
  ["Person", "Address", "Grid"].foldl
    (fun registry name =>
      match Entries.get? graph.classNames name with
      | some owner => registry.bind (.string ("example." ++ name)) owner
      | none => registry)
    .empty

def world : World :=
  { World.initial graph with registries := [(registryName, registry)] }.addCompiler
    compilerName (.standard registryName World.standardPlace)

end ObjectPath.Examples
