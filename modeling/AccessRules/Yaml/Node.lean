import AccessRules.Yaml.Token

/-!
# Trees of a YAML text

A document is a tree of scalars, sequences and mappings, in which a reference stands for the node
with an anchor. What a scalar means depends on who reads it, so it keeps its text, its style and
its tag.
-/

namespace AccessRules.Yaml

/-- A node. -/
inductive Node
  | scalar (tag : Option String) (style : ScalarStyle) (text : String)
  | sequence (tag : Option String) (items : List Node)
  | mapping (tag : Option String) (entries : List (Node × Node))
  /-- The node with the anchor of a number. -/
  | reference (anchor : Nat)
deriving Inhabited

/-- What stands where nothing is written: a plain scalar without text. -/
def Node.nothing : Node := .scalar none .plain ""

/-- A whole text: its outermost node, and the nodes with anchors by number. -/
structure Document where
  root : Node
  anchored : List (Nat × Node)

/-- The node that a node stands for. -/
def Document.follow (d : Document) : Node → Node
  | .reference anchor => (d.anchored.lookup anchor).getD (.reference anchor)
  | node => node

end AccessRules.Yaml
