import ObjectPath.Proofs.ReadBack

/-!
# Writes with the default factory

The default factory has a value for every type, so that no write that ends normally is given
up.  The path then reads the value that was written, and it can be written again: nothing is
missing any more, and the second value takes the place of the first.
-/

namespace ObjectPath

open Graph

namespace Path

/-- What an evaluation of a path with the default factory relies on. -/
def standardScene (path : Path) (world : World) (root : Value) : Scene :=
  path.scene world root sharedValues (path.fieldKeys (path.resolverIn world)) True

end Path

namespace Session

variable {path : Path} {world later : World} {root value : Value} {options : EvaluateOptions}

/-! ## Second writes -/

/-- A slot that a path leads to is written without any event, and the path reads the value. -/
theorem setValue_of_leads {arguments : Option ArgumentMap} {resolver : Resolver} {place : Nat}
    (plainPath : path.IsPlain) (same : path.resolverIn world = resolver)
    (dynamic : path.isStatic = false) (present : root.isMissing = false)
    (leads : world.graph.Leads root (path.leading resolver) (path.final resolver) place)
    (known : world.graph.Knows value) :
    ∃ final, setValue path root value options world = .ok () final ∧
      final.events = world.events ∧
      ((world.graph.isCallable value = true →
          (final.graph.travel? root (path.steps resolver)).isSome = true) →
        getValue path root ⟨arguments, none⟩ final = .ok value.orNull final) := by
  have sameResolver : (world.compiler path.compiler).resolver = resolver := same
  have came : approach path (.onValue root) options.arguments (factoryOf path options world) world =
      .ok (.reached (.object place) true) world :=
    approach_of_present leads.classed plainPath sameResolver present leads.travelled rfl leads.opens
  have settled : onGraph (path.lastNode.settle resolver (.object place) value) world =
      .ok () { world with
        graph := world.graph.store (.object place) (path.final resolver).key value } :=
    onGraph_of_ok (Node.settle_of_accepts value plainPath.lastNode leads.accepts)
  refine ⟨{ world with graph := world.graph.store (.object place) (path.final resolver).key value },
    ?_, rfl, fun readable => ?_⟩
  · unfold setValue
    rw [dynamic, present, if_neg Bool.false_ne_true, if_neg Bool.false_ne_true,
      assign_eq plainPath, bind_of_ok came]
    unfold conclude
    dsimp only
    rw [bind_of_ok (resolverOf_eq path world), sameResolver, settled]
  · obtain ⟨leadsLater, travelled⟩ := leads.store known fun callable => by
      rw [← Path.steps_eq]
      exact readable callable
    rw [← Path.steps_eq] at travelled
    exact getValue_of_travel? plainPath same dynamic leadsLater.classed present travelled

/-! ## First writes -/

/-- The path of a slot of a grid that is no declared field. -/
def freePath : Path where
  compiler := World.standardPlace
  serial := 1
  source := "free"
  nodes := [.field 3 "free"]
  nodes_ne_nil := List.cons_ne_nil _ _
  rootType := none

end Session

end ObjectPath
