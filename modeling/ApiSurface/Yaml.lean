import ApiSurface.Yaml.Encoding
import ApiSurface.Yaml.Token.Lexer
import ApiSurface.Yaml.Tree
import ApiSurface.Yaml.Unfolding

/-!
Reading YAML documents. A text holds one document at most; without one its value is null.
-/

namespace ApiSurface.Yaml

/-- The nodes of a document and the outermost one. What the settled tokens break comes before what
stops the tokens. -/
def Scan.root (scan : Scan) : Except Fault (Option (Graph × NodeId)) := do
  let tree ← scan.tokens.foldlM Tree.step {}
  match scan.fault with
  | some fault => throw fault
  | none => tree.root

def read (source : Source) : Except Fault Value := do
  match ← source.tokens.root with
  | some (graph, node) => graph.value node
  | none => return .null

def readBytes (bytes : List UInt8) : Except Fault Value := read (Source.ofBytes bytes)

end ApiSurface.Yaml
