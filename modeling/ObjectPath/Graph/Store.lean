import ObjectPath.Graph

/-!
Changing a graph.  `Graph.placement` says where an assignment would go and
`Graph.definable` what prevents a definition, both without performing it;
`Graph.store` fills a slot and nothing else.
-/

namespace ObjectPath

/-! ## Slots of objects -/

namespace Object

/-- Enters a member.  An element past the end of an array makes the array longer, with
holes in between. -/
def enter (object : Object) (key : Key) (property : Property) : Object :=
  let slots := Entries.put object.slots key property
  match object.body, key with
  | .items length resizable, .index position =>
      { object with body := .items (max length (position + 1)) resizable, slots := slots }
  | _, _ => { object with slots := slots }

/-- Fills a slot; a slot that is there keeps its flags. -/
def store (object : Object) (key : Key) (value : Value) : Object :=
  match Entries.get? object.slots key with
  | some (.data _ flags) => object.enter key (.data value flags)
  | _ => object.enter key (.data value .plain)

/-- Gives an array a new length; elements past it are dropped. -/
def resize (object : Object) (length : Nat) : Object :=
  match object.body with
  | .items _ resizable =>
      let kept := object.slots.filter fun slot => match slot.1 with
        | .index position => decide (position < length)
        | .name _ => true
      { object with body := .items length resizable, slots := kept }
  | _ => object

/-- The object when its slots can be neither changed nor added to. -/
def freeze (object : Object) : Object :=
  let body := match object.body with
    | .items length _ => .items length false
    | body => body
  { object with
    body := body
    slots := object.slots.map fun slot => (slot.1, slot.2.freeze)
    extensible := false }

end Object

namespace Graph

/-! ## Objects -/

/-- Adds an object; its place is the number of objects so far. -/
def allocate (graph : Graph) (object : Object) : Value × Graph :=
  (.object graph.objects.size, { graph with objects := graph.objects.push object })

def modifyObject (graph : Graph) (place : Nat) (change : Object → Object) : Graph :=
  { graph with objects := graph.objects.modify place change }

def modifyTarget (graph : Graph) (target : Value) (change : Object → Object) : Graph :=
  match target with
  | .object place => graph.modifyObject place change
  | _ => graph

def store (graph : Graph) (target : Value) (key : Key) (value : Value) : Graph :=
  graph.modifyTarget target (·.store key value)

/-- Enters an own member of an object, whatever was there before. -/
def enter (graph : Graph) (target : Value) (key : Key) (property : Property) : Graph :=
  graph.modifyTarget target (·.enter key property)

def freeze (graph : Graph) (target : Value) : Graph :=
  graph.modifyTarget target Object.freeze

def setParent (graph : Graph) (target : Value) (parent : Option Nat) : Graph :=
  graph.modifyTarget target fun object => { object with parent := parent }

/-! ## Assignment -/

def isExtensible (graph : Graph) (value : Value) : Bool :=
  ((graph.objectOf? value).map (·.extensible)).getD false

/-- Whether a member of a value is the length of an array. -/
def isLength (graph : Graph) (target : Value) (key : Key) : Bool :=
  graph.isArray target && key == .name "length"

/-- Where an assignment to a member of a value goes. -/
inductive Placement
  | slot
  | length
  | setter (place : Nat)
  | readOnly
  | noSetter
  | notExtensible

/-- An own member decides where an assignment goes, else the nearest one of the
ancestors.  A writable member of an ancestor is hidden by a new own slot. -/
def placement (graph : Graph) (target : Value) (key : Key) : Placement :=
  match graph.own? target key with
  | some (.data _ flags) =>
      if flags.writable then
        if graph.isLength target key then .length else .slot
      else
        .readOnly
  | some (.accessor _ (some setter) _ _) => .setter setter
  | some (.accessor _ none _ _) => .noSetter
  | none =>
      match graph.inherited? target key with
      | some (.accessor _ (some setter) _ _) => .setter setter
      | some (.accessor _ none _ _) => .noSetter
      | some (.data _ flags) =>
          if !flags.writable then .readOnly
          else if graph.isExtensible target then .slot
          else .notExtensible
      | none => if graph.isExtensible target then .slot else .notExtensible

/-! ## Definition -/

/-- What comes of defining an own member. -/
inductive Definability
  | definable
  /-- The member is there and stays as it is. -/
  | settled
  | notExtensible

/-- A member that is there is replaced if it can be defined anew; a new one needs an
object to which slots can be added. -/
def definable (graph : Graph) (target : Value) (key : Key) : Definability :=
  match graph.own? target key with
  | some property => if property.isConfigurable then .definable else .settled
  | none => if graph.isExtensible target then .definable else .notExtensible

end Graph

end ObjectPath
