import ApiSurface.Yaml.Tag
import ApiSurface.Yaml.Token

/-!
Nodes of a document. They are known by numbers, because a node may be part of several others and
even of itself.
-/

namespace ApiSurface.Yaml

abbrev NodeId := Nat

abbrev NodeEntry := NodeId × NodeId

inductive Body
  | scalar (content : Text)
  | sequence (items : List NodeId)
  | mapping (entries : List NodeEntry)

structure Node where
  tag : Tag
  body : Body

/-- The nodes of a document; the number of a node is its place. -/
structure Graph where
  nodes : Array Node := #[]

namespace Graph

def size (graph : Graph) : Nat := graph.nodes.size

def node? (graph : Graph) (id : NodeId) : Option Node := graph.nodes[id]?

def tag? (graph : Graph) (id : NodeId) : Option Tag := (graph.node? id).map Node.tag

def body? (graph : Graph) (id : NodeId) : Option Body := (graph.node? id).map Node.body

def entries (graph : Graph) (id : NodeId) : List NodeEntry :=
  match graph.body? id with
  | some (.mapping entries) => entries
  | _ => []

def add (graph : Graph) (node : Node) : Graph := ⟨graph.nodes.push node⟩

def setTag (graph : Graph) (id : NodeId) (tag : Tag) : Graph :=
  ⟨graph.nodes.modify id fun node => { node with tag }⟩

def setBody (graph : Graph) (id : NodeId) (body : Body) : Graph :=
  ⟨graph.nodes.modify id fun node => { node with body }⟩

def isMapping (graph : Graph) (id : NodeId) : Bool :=
  match graph.body? id with
  | some (.mapping _) => true
  | _ => false

end Graph

/-- A tag as it is given: its full name, or a handle that stands for the beginning of the name. -/
inductive GivenTag
  | full (name : Text)
  | handled (handle suffix : Text)

structure Properties where
  anchor : Option Text := none
  tag : Option GivenTag := none

namespace Properties

def isEmpty (properties : Properties) : Bool :=
  properties.anchor.isNone && properties.tag.isNone

def name? (properties : Properties) : Option Text :=
  match properties.tag with
  | some (.full name) => if name = "!" then none else some name
  | _ => none

def collectionTag (properties : Properties) (default : Tag) : Tag :=
  (properties.name?.map Tag.ofName).getD default

/-- The node of a scalar. A tag that leaves the choice open makes it plain. -/
def scalar (properties : Properties) (content : Text) (plain : Bool) : Node :=
  let tag := match properties.name? with
    | some name => Tag.ofName name
    | none => if plain || properties.tag.isSome then Tag.ofPlain content else .str
  ⟨tag, .scalar content⟩

def emptyNode (properties : Properties) : Node := properties.scalar [] true

end Properties

end ApiSurface.Yaml
