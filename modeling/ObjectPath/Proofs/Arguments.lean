import ObjectPath.Evaluation
import ObjectPath.Graph.Standard
import ObjectPath.Proofs.Storing

/-!
# Arguments that a path sees

Evaluating a path looks its argument keys up in the argument map, and looks at nothing else there.
Maps that give the same for these keys lead to the same outcome, save that a missing argument is
reported without its key if the map has no entries at all.
-/

namespace ObjectPath

/-! ## Outcomes that are alike -/

section Alike

variable {σ α β : Type} {mayMiss : Prop}

/-- Two outcomes are the same, or, if arguments may be missing, both are the fault that a segment
misses an argument. -/
inductive Alike (mayMiss : Prop) :
    EStateM.Result Fault σ α → EStateM.Result Fault σ α → Prop
  | same (outcome : EStateM.Result Fault σ α) : Alike mayMiss outcome outcome
  | missing {text : String} (key other : Option String) (state : σ) : mayMiss →
      Alike mayMiss (.error (.missingArgument text key) state)
        (.error (.missingArgument text other) state)

/-- From every state two computations come to outcomes that are alike. -/
def RunAlike (mayMiss : Prop) (work other : EStateM Fault σ α) : Prop :=
  ∀ state, Alike mayMiss (work state) (other state)

/-- Outcomes that are alike are the same where no argument can be missing. -/
theorem Alike.eq {first second : EStateM.Result Fault σ α} (alike : Alike mayMiss first second)
    (never : ¬ mayMiss) : first = second := by
  cases alike with
  | same => rfl
  | missing _ _ _ may => exact absurd may never

theorem Alike.symm {first second : EStateM.Result Fault σ α} (alike : Alike mayMiss first second) :
    Alike mayMiss second first := by
  cases alike with
  | same => exact .same _
  | missing key other state may => exact .missing other key state may

theorem Alike.trans {first second third : EStateM.Result Fault σ α}
    (left : Alike mayMiss first second) (right : Alike mayMiss second third) :
    Alike mayMiss first third := by
  cases left with
  | same => exact right
  | missing key _ state may =>
      cases right with
      | same => exact .missing key _ state may
      | missing _ other _ _ => exact .missing key other state may

theorem RunAlike.refl (work : EStateM Fault σ α) : RunAlike mayMiss work work :=
  fun _ => .same _

theorem RunAlike.bind {work other : EStateM Fault σ α} {next onward : α → EStateM Fault σ β}
    (start : RunAlike mayMiss work other)
    (rest : ∀ value, RunAlike mayMiss (next value) (onward value)) :
    RunAlike mayMiss (work >>= next) (other >>= onward) := by
  intro state
  have alike := start state
  generalize ended : work state = first at alike
  generalize endedOther : other state = second at alike
  cases alike with
  | same =>
      cases first with
      | ok value later =>
          rw [bind_of_ok ended, bind_of_ok endedOther]
          exact rest value later
      | error fault later =>
          rw [bind_of_error ended, bind_of_error endedOther]
          exact .same _
  | missing key otherKey later may =>
      rw [bind_of_error ended, bind_of_error endedOther]
      exact .missing key otherKey later may

theorem RunAlike.onGraph {run other : Run α} (alike : RunAlike mayMiss run other) :
    RunAlike mayMiss (Session.onGraph run) (Session.onGraph other) := by
  intro world
  have onward := alike world.graph
  unfold Session.onGraph
  generalize run world.graph = first at onward ⊢
  generalize other world.graph = second at onward ⊢
  cases onward with
  | same => exact .same _
  | missing key otherKey graph may => exact .missing key otherKey _ may

end Alike

/-! ## Values of argument keys -/

/-- Two argument maps give the same value, or none, for each of some keys.  If there are any keys,
an argument may be missing. -/
structure AgreeOn (mayMiss : Prop) (keys : List String) (first second : Option ArgumentMap) :
    Prop where
  values : ∀ key ∈ keys, first.bind (Entries.get? · key) = second.bind (Entries.get? · key)
  mayMiss : keys ≠ [] → mayMiss

theorem AgreeOn.mono {mayMiss : Prop} {keys fewer : List String}
    {first second : Option ArgumentMap} (agree : AgreeOn mayMiss keys first second)
    (subset : fewer ⊆ keys) : AgreeOn mayMiss fewer first second where
  values := fun key member => agree.values key (subset member)
  mayMiss := fun present => agree.mayMiss fun absent =>
    present (List.eq_nil_iff_forall_not_mem.2 fun key member => by
      have := subset member
      rw [absent] at this
      exact List.not_mem_nil this)

namespace Node

theorem valuesOf_congr (text : String) {first second : ArgumentMap} {keys : List String}
    (agree : ∀ key ∈ keys, Entries.get? first key = Entries.get? second key) :
    valuesOf text first keys = valuesOf text second keys := by
  induction keys with
  | nil => rfl
  | cons key rest inductionHypothesis =>
      rw [valuesOf, valuesOf, agree key (List.mem_cons_self ..),
        inductionHypothesis fun other member => agree other (List.mem_cons_of_mem key member)]

/-- Without any entries the first key is missing, whatever the report says of it. -/
theorem argumentValues_alike_valuesOf {mayMiss : Prop} (text : String) {keys : List String}
    (may : keys ≠ [] → mayMiss) (arguments : Option ArgumentMap) (graph : Graph) :
    Alike mayMiss (Run.lift (argumentValues text keys arguments) graph)
      (Run.lift (valuesOf text (arguments.getD []) keys) graph) := by
  cases keys with
  | nil => exact .same _
  | cons key rest =>
      have reached : mayMiss := may (List.cons_ne_nil key rest)
      match arguments with
      | none => exact .missing none (some key) graph reached
      | some [] => exact .missing none (some key) graph reached
      | some (entry :: entries) => exact .same _

theorem argumentValues_alike {mayMiss : Prop} (text : String) {keys : List String}
    {first second : Option ArgumentMap} (agree : AgreeOn mayMiss keys first second) :
    RunAlike mayMiss (Run.lift (argumentValues text keys first))
      (Run.lift (argumentValues text keys second)) := by
  intro graph
  have same : valuesOf text (first.getD []) keys = valuesOf text (second.getD []) keys := by
    refine valuesOf_congr text fun key member => ?_
    have agreed := agree.values key member
    cases first <;> cases second <;> exact agreed
  refine (argumentValues_alike_valuesOf text agree.mayMiss first graph).trans ?_
  rw [same]
  exact (argumentValues_alike_valuesOf text agree.mayMiss second graph).symm

end Node

/-! ## Objects as argument maps -/

/-- An object stands for an argument map: the keys of the map are the names of its own slots, and
listings show some of them if there are any.  What its ancestors have is not looked at. -/
structure Graph.StandsFor (graph : Graph) (place : Nat) (arguments : ArgumentMap) : Prop where
  absent : ∀ key, Entries.get? arguments key = none →
    graph.own? (.object place) (.ofText key) = none
  present : ∀ key value, Entries.get? arguments key = some value →
    ∃ flags, graph.own? (.object place) (.ofText key) = some (.data value flags)
  listed : graph.listedKeys (.object place) = [] ↔ arguments = []

theorem Graph.StandsFor.content {graph : Graph} {place : Nat} {arguments : ArgumentMap}
    (stands : graph.StandsFor place arguments) (key : String) :
    (graph.own? (.object place) (.ofText key)).bind Property.content? =
      Entries.get? arguments key := by
  cases found : Entries.get? arguments key with
  | none => rw [stands.absent key found, Option.bind_none]
  | some value =>
      obtain ⟨flags, own⟩ := stands.present key value found
      rw [own]
      rfl

namespace Node

/-- The values of argument keys as they are read from an object: each key must be an own one, and
is then read like any member. -/
def ownValues (text : String) (place : Nat) : List String → Run (List Value)
  | [] => pure []
  | key :: keys => do
      if ((← get).own? (.object place) (.ofText key)).isNone then
        throw (.missingArgument text (some key))
      else
        let value ← Run.readWith perform (.object place) (.ofText key)
        let values ← ownValues text place keys
        pure (value :: values)

/-- The arguments of a method node as they are read from an object. -/
def valuesFrom (text : String) (keys : List String) (place : Nat) : Run (List Value) := do
  if keys = [] then
    pure []
  else if (← get).listedKeys (.object place) = [] then
    throw (.missingArgument text none)
  else
    ownValues text place keys

theorem ownValues_of_standsFor {graph : Graph} {place : Nat} {arguments : ArgumentMap}
    (stands : graph.StandsFor place arguments) (text : String) (keys : List String) :
    ownValues text place keys graph = Run.lift (valuesOf text arguments keys) graph := by
  induction keys with
  | nil => rfl
  | cons key rest inductionHypothesis =>
      rw [ownValues, bind_get, valuesOf]
      cases found : Entries.get? arguments key with
      | none =>
          rw [stands.absent key found]
          rfl
      | some value =>
          obtain ⟨flags, own⟩ := stands.present key value found
          -- An own slot hides what the ancestors have under its key.
          have reads : Run.readWith perform (.object place) (.ofText key) graph =
              .ok value graph := by
            rw [Run.readWith, bind_get, Graph.find?, own]
            rfl
          rw [own, if_neg (by exact Bool.false_ne_true), bind_of_ok reads]
          dsimp only
          cases values : valuesOf text arguments rest with
          | ok others =>
              rw [values] at inductionHypothesis
              rw [bind_of_ok inductionHypothesis]
              rfl
          | error fault =>
              rw [values] at inductionHypothesis
              rw [bind_of_error inductionHypothesis]
              rfl

/-- An object is read as the argument map that it stands for. -/
theorem valuesFrom_of_standsFor {graph : Graph} {place : Nat} {arguments : ArgumentMap}
    (stands : graph.StandsFor place arguments) (text : String) (keys : List String) :
    valuesFrom text keys place graph =
      Run.lift (argumentValues text keys (some arguments)) graph := by
  unfold valuesFrom
  cases keys with
  | nil => rfl
  | cons key rest =>
      rw [if_neg (List.cons_ne_nil key rest), bind_get]
      cases arguments with
      | nil =>
          rw [if_pos (stands.listed.2 rfl)]
          rfl
      | cons entry entries =>
          rw [if_neg fun none => List.cons_ne_nil entry entries (stands.listed.1 none),
            ownValues_of_standsFor stands]
          rfl

/-! ## Nodes -/

section Nodes

variable {mayMiss : Prop} {first second : Option ArgumentMap} (resolver : Resolver)
  (position : Position)

/-- What a node reads depends on its argument keys alone. -/
theorem read_alike (node : Node) (agree : AgreeOn mayMiss node.argumentKeys first second) :
    RunAlike mayMiss (node.read resolver first position) (node.read resolver second position) := by
  induction node using Node.argumentKeys.induct with
  | case1 serial name => exact .refl _
  | case2 serial text name keys =>
      exact (argumentValues_alike text agree).bind fun values => .refl _
  | case3 serial text index => exact .refl _
  | case4 serial text index inner inductionHypothesis =>
      exact (inductionHypothesis agree).bind fun array => .refl _

/-- So does the type of what it reads. -/
theorem typeAt_alike (node : Node) (agree : AgreeOn mayMiss node.argumentKeys first second) :
    RunAlike mayMiss (node.typeAt resolver first position)
      (node.typeAt resolver second position) := by
  induction node using Node.argumentKeys.induct with
  | case1 serial name => exact .refl _
  | case2 serial text name keys =>
      exact (argumentValues_alike text agree).bind fun values => .refl _
  | case3 serial text index => exact .refl _
  | case4 serial text index inner inductionHypothesis =>
      exact (inductionHypothesis agree).bind fun type => .refl _

end Nodes

end Node

/-! ## Factories -/

/-- A factory that does not listen to the arguments of the evaluation. -/
def Deaf (supply : Factory) : Prop :=
  ∀ type first second, supply type first = supply type second

theorem Deaf.produce {supply : Factory} (deaf : Deaf supply) (type : Value)
    (first second : Option ArgumentMap) :
    ObjectPath.produce supply type first = ObjectPath.produce supply type second := by
  unfold ObjectPath.produce
  rw [deaf type first second]

/-- The default producers build the same value whatever the arguments are. -/
theorem deaf_standard (resolver : Resolver) : Deaf (ProducerTable.standard resolver).supply := by
  intro type first second
  have constant : ∀ producer,
      Entries.get? (ProducerTable.standard resolver).producers type = some producer →
        ∃ content, producer = .constant content := by
    intro producer found
    have member : (type, producer) ∈
        [(.object BuiltinClass.number.place, Producer.constant (.number (.ofNat 0))),
          (.object BuiltinClass.boolean.place, .constant (.boolean false)),
          (.object BuiltinClass.string.place, .constant (.string ""))] :=
      Entries.mem_of_get? found
    simp only [List.mem_cons, List.not_mem_nil, or_false, Prod.mk.injEq] at member
    rcases member with ⟨_, rfl⟩ | ⟨_, rfl⟩ | ⟨_, rfl⟩ <;> exact ⟨_, rfl⟩
  unfold ProducerTable.supply
  cases found : Entries.get? (ProducerTable.standard resolver).producers type with
  | none => rfl
  | some producer =>
      obtain ⟨content, rfl⟩ := constant producer found
      rfl

namespace Node

/-- What a node writes depends on its argument keys alone, if the factory does not listen to
arguments. -/
theorem write_alike {mayMiss : Prop} {first second : Option ArgumentMap} (resolver : Resolver)
    (position : Position) {factory : Option Factory} (deaf : ∀ supply ∈ factory, Deaf supply)
    (node : Node) (agree : AgreeOn mayMiss node.argumentKeys first second) (value : Value) :
    RunAlike mayMiss (node.write resolver first factory position value)
      (node.write resolver second factory position value) := by
  induction node using Node.argumentKeys.induct generalizing value with
  | case1 serial name => exact .refl _
  | case2 serial text name keys => exact .refl _
  | case3 serial text index => exact .refl _
  | case4 serial text index inner inductionHypothesis =>
      unfold write
      refine (read_alike resolver position inner agree).bind fun array => ?_
      split
      · cases factory with
        | none => exact .refl _
        | some supply =>
            refine (typeAt_alike resolver position inner agree).bind fun type =>
              (RunAlike.refl _).bind fun requested => ?_
            rw [(deaf supply rfl).produce requested first second]
            refine (RunAlike.refl _).bind fun made => ?_
            split
            · exact .refl _
            · exact (inductionHypothesis agree made).bind fun _ => .refl _
      · exact .refl _

end Node

/-! ## Paths -/

theorem Path.dropLast_argumentKeys (path : Path) :
    path.nodes.dropLast.flatMap Node.argumentKeys ⊆ path.argumentKeys := by
  intro key member
  obtain ⟨node, isNode, isKey⟩ := List.mem_flatMap.1 member
  exact List.mem_eraseDups.2 (List.mem_flatMap.2 ⟨node, (List.dropLast_sublist _).subset isNode, isKey⟩)

theorem Path.lastNode_argumentKeys (path : Path) :
    path.lastNode.argumentKeys ⊆ path.argumentKeys := fun _ isKey =>
  List.mem_eraseDups.2 (List.mem_flatMap.2 ⟨_, List.getLast_mem path.nodes_ne_nil, isKey⟩)

namespace Session

section Paths

variable {mayMiss : Prop} {first second : Option ArgumentMap} {factory : Option Factory}
  (deaf : ∀ supply ∈ factory, Deaf supply) (path : Path)

include deaf

theorem walk_alike (resolver : Resolver) (index : Nat) (position : Position) {nodes : List Node}
    (agree : AgreeOn mayMiss (nodes.flatMap Node.argumentKeys) first second) :
    RunAlike mayMiss (walk path resolver ⟨first, factory⟩ index position nodes)
      (walk path resolver ⟨second, factory⟩ index position nodes) := by
  induction nodes generalizing index position with
  | nil => exact .refl _
  | cons node rest inductionHypothesis =>
      have agreeNode : AgreeOn mayMiss node.argumentKeys first second :=
        agree.mono (by rw [List.flatMap_cons]; exact List.subset_append_left ..)
      have agreeRest : AgreeOn mayMiss (rest.flatMap Node.argumentKeys) first second :=
        agree.mono (by rw [List.flatMap_cons]; exact List.subset_append_right ..)
      unfold walk
      refine (Node.read_alike resolver position node agreeNode).onGraph.bind fun value => ?_
      split
      · cases factory with
        | none => exact .refl _
        | some supply =>
            refine (Node.typeAt_alike resolver position node agreeNode).onGraph.bind fun type => ?_
            dsimp only
            rw [(deaf supply rfl).produce type first second]
            refine (RunAlike.refl _).bind fun made => ?_
            split
            · exact .refl _
            · refine (Node.write_alike resolver position deaf node agreeNode made).onGraph.bind
                fun written => ?_
              split
              · exact (RunAlike.refl _).bind fun _ =>
                  inductionHypothesis (index + 1) (.onValue made) agreeRest
              · exact .refl _
      · exact inductionHypothesis (index + 1) (.onValue value) agreeRest

/-- Where a path is read from does not matter, nor whether missing values are made. -/
theorem evaluate_alike (start : Position) (agree : AgreeOn mayMiss path.argumentKeys first second) :
    RunAlike mayMiss (evaluate path start ⟨first, factory⟩)
      (evaluate path start ⟨second, factory⟩) := by
  unfold evaluate walkPath
  refine ((RunAlike.refl _).bind fun resolver => walk_alike deaf path resolver 0 start
    (agree.mono path.dropLast_argumentKeys)).bind fun walked => ?_
  split
  · exact .refl _
  · refine (RunAlike.refl _).bind fun resolver => ?_
    exact (Node.read_alike resolver _ path.lastNode
      (agree.mono path.lastNode_argumentKeys)).onGraph.bind fun value => .refl _

end Paths

theorem assign_alike {mayMiss : Prop} {first second : Option ArgumentMap}
    {factory : Option Factory} (path : Path) (start : Position) (value : Value) {world : World}
    (deaf : Deaf (factory.getD (world.factory (world.compiler path.compiler).factory)))
    (agree : AgreeOn mayMiss path.argumentKeys first second) :
    Alike mayMiss (assign path start value ⟨first, factory⟩ world)
      (assign path start value ⟨second, factory⟩ world) := by
  unfold assign
  rw [bind_get, bind_get]
  dsimp only
  generalize factory.getD (world.factory (world.compiler path.compiler).factory) = supply at deaf
  have deafer : ∀ other ∈ some supply, Deaf other := by
    rintro _ ⟨⟩
    exact deaf
  have lastAgree := agree.mono path.lastNode_argumentKeys
  have alike : RunAlike mayMiss (walkPath path start ⟨first, some supply⟩)
      (walkPath path start ⟨second, some supply⟩) :=
    (RunAlike.refl _).bind fun resolver =>
      walk_alike deafer path resolver 0 start (agree.mono path.dropLast_argumentKeys)
  refine alike.bind (fun walked => ?_) world
  split
  · exact .refl _
  · refine (RunAlike.refl _).bind fun resolver => ?_
    refine (Node.write_alike resolver _ deafer path.lastNode lastAgree value).onGraph.bind
      fun written => ?_
    split
    · exact .refl _
    · exact (Node.typeAt_alike resolver _ path.lastNode lastAgree).onGraph.bind fun type => .refl _

/-! ## Reading and writing -/

/-- Two outcomes are the same value, or faults of the same class, and leave the same state. -/
inductive SameClass {σ α : Type} : EStateM.Result Fault σ α → EStateM.Result Fault σ α → Prop
  | ok (value : α) (state : σ) : SameClass (.ok value state) (.ok value state)
  | error {fault other : Fault} (state : σ) : fault.category = other.category →
      SameClass (.error fault state) (.error other state)

theorem SameClass.of_alike {σ α : Type} {mayMiss : Prop}
    {first second : EStateM.Result Fault σ α} (alike : Alike mayMiss first second) :
    SameClass first second := by
  cases alike with
  | same =>
      cases first with
      | ok value state => exact .ok value state
      | error fault state => exact .error state rfl
  | missing _ _ state _ => exact .error state rfl

/-- The factory that a write uses, if it is given one or none, is a default one. -/
def UsesDefault (path : Path) (factory : Option Factory) (world : World) : Prop :=
  ∃ resolver, factory.getD (world.factory (world.compiler path.compiler).factory) =
    (ProducerTable.standard resolver).supply

/-- Whatever a path is read from without a factory, and wherever it is written with a default one,
the outcomes under two argument maps are related. -/
structure EndsAlike
    (related : ∀ α : Type, EStateM.Result Fault World α → EStateM.Result Fault World α → Prop)
    (path : Path) (world : World) (first second : Option ArgumentMap) : Prop where
  reads : ∀ root, related _ (getValue path root ⟨first, none⟩ world)
    (getValue path root ⟨second, none⟩ world)
  writes : ∀ root value factory, UsesDefault path factory world →
    related _ (setValue path root value ⟨first, factory⟩ world)
      (setValue path root value ⟨second, factory⟩ world)
  readsStatic : ∀ owner, related _ (getStaticValue path owner ⟨first, none⟩ world)
    (getStaticValue path owner ⟨second, none⟩ world)
  writesStatic : ∀ owner value factory, UsesDefault path factory world →
    related _ (setStaticValue path owner value ⟨first, factory⟩ world)
      (setStaticValue path owner value ⟨second, factory⟩ world)

/-- Finding the class that a path starts from leaves the world as it is. -/
theorem staticRoot_keeps (path : Path) (owner : Option Value) {world later : World}
    {position : Position} (found : staticRoot path owner world = .ok position later) :
    later = world := by
  unfold staticRoot at found
  generalize path.rootType = root at found
  cases root with
  | none =>
      cases owner with
      | none => cases found
      | some given =>
          cases found
          rfl
  | some bound =>
      cases owner with
      | none =>
          cases found
          rfl
      | some given =>
          dsimp only at found
          split at found
          · cases found
            rfl
          · obtain ⟨_, _, _, rest⟩ := ok_of_bind found
            obtain ⟨_, _, _, failed⟩ := ok_of_bind rest
            cases failed

theorem endsAlike_of_agreeOn {mayMiss : Prop} {first second : Option ArgumentMap}
    {related : ∀ α : Type, EStateM.Result Fault World α → EStateM.Result Fault World α → Prop}
    (coarser : ∀ α outcome other, Alike mayMiss outcome other → related α outcome other)
    (path : Path) (world : World) (agree : AgreeOn mayMiss path.argumentKeys first second) :
    EndsAlike related path world first second := by
  have unasked : ∀ supply ∈ (none : Option Factory), Deaf supply := by rintro _ ⟨⟩
  have evaluates : ∀ start, RunAlike mayMiss (evaluate path start ⟨first, none⟩)
      (evaluate path start ⟨second, none⟩) := fun start => evaluate_alike unasked path start agree
  have assigns : ∀ start value factory, UsesDefault path factory world →
      Alike mayMiss (assign path start value ⟨first, factory⟩ world)
        (assign path start value ⟨second, factory⟩ world) := by
    rintro start value factory ⟨resolver, isDefault⟩
    exact assign_alike path start value (isDefault ▸ deaf_standard resolver) agree
  constructor
  · intro root
    refine coarser _ _ _ ?_
    unfold getValue
    split
    · exact .same _
    · split
      · exact .same _
      · exact evaluates _ world
  · intro root value factory isDefault
    refine coarser _ _ _ ?_
    unfold setValue
    split
    · exact .same _
    · split
      · exact .same _
      · exact assigns _ value factory isDefault
  · intro owner
    exact coarser _ _ _ ((RunAlike.refl _).bind evaluates world)
  · intro owner value factory isDefault
    refine coarser _ _ _ ?_
    unfold setStaticValue
    cases found : staticRoot path owner world with
    | error fault later =>
        rw [bind_of_error found, bind_of_error found]
        exact .same _
    | ok position later =>
        rw [bind_of_ok found, bind_of_ok found, staticRoot_keeps path owner found]
        exact assigns position value factory isDefault

end Session

end ObjectPath
