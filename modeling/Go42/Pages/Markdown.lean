-- SUMMARY: Markdown documents as trees, their text, and the order in which their nodes are visited.
import Mathlib.Data.List.Forall2

/-!
# Documents

The syntax tree of a Markdown document. A node keeps the fields of its type and, when it
is a literal, its value.
-/

namespace Go42.Pages

inductive Kind where
  | root
  | heading (depth : ℕ)
  | table
  | tableRow
  | tableCell
  | link (url : String)
  | image (url : String)
  | definition (identifier url : String)
  | linkReference (identifier : String)
  | imageReference (identifier : String)
  | other (type : String)
deriving DecidableEq

inductive Node where
  | node (kind : Kind) (value : Option String) (children : List Node)

def Node.kind : Node → Kind
  | .node kind _ _ => kind

def Node.children : Node → List Node
  | .node _ _ children => children

mutual

/-- `node.value ?? (node.children ?? []).map(nodeText).join('')`. -/
def nodeText : Node → String
  | .node _ (some value) _ => value
  | .node _ none children => nodesText children

def nodesText : List Node → String
  | [] => ""
  | node :: nodes => nodeText node ++ nodesText nodes

end

mutual

/-- The kinds of a tree's nodes in the order in which `visit` meets them. -/
def Node.kinds : Node → List Kind
  | .node kind _ children => kind :: kindsOf children

def kindsOf : List Node → List Kind
  | [] => []
  | node :: nodes => node.kinds ++ kindsOf nodes

end

mutual

/-- A visitor that may replace the kind of every node, or throw. -/
def Node.mapKinds (f : Kind → Except String Kind) : Node → Except String Node
  | .node kind value children => do
    let kind ← f kind
    let children ← mapKindsOf f children
    return .node kind value children

def mapKindsOf (f : Kind → Except String Kind) : List Node → Except String (List Node)
  | [] => return []
  | node :: nodes => do
    let node ← node.mapKinds f
    let nodes ← mapKindsOf f nodes
    return node :: nodes

end

/-! ## Visiting -/

mutual

theorem mapKinds_kinds {f : Kind → Except String Kind} : ∀ {tree tree' : Node}, tree.mapKinds f = .ok tree' →
    List.Forall₂ (fun k k' => f k = .ok k') tree.kinds tree'.kinds
  | .node kind value children, tree', h => by
      unfold Node.mapKinds at h
      cases hkind : f kind with
      | error e =>
          rw [hkind] at h
          cases h
      | ok kind' =>
          rw [hkind] at h
          cases hchildren : mapKindsOf f children with
          | error e =>
              simp only [hchildren] at h
              cases h
          | ok children' =>
              simp only [hchildren] at h
              cases h
              exact .cons hkind (mapKindsOf_kinds hchildren)

theorem mapKindsOf_kinds {f : Kind → Except String Kind} : ∀ {nodes nodes' : List Node},
    mapKindsOf f nodes = .ok nodes' → List.Forall₂ (fun k k' => f k = .ok k') (kindsOf nodes) (kindsOf nodes')
  | [], nodes', h => by
      cases h
      exact .nil
  | node :: nodes, nodes', h => by
      unfold mapKindsOf at h
      cases hnode : node.mapKinds f with
      | error e =>
          rw [hnode] at h
          cases h
      | ok node' =>
          rw [hnode] at h
          cases hnodes : mapKindsOf f nodes with
          | error e =>
              simp only [hnodes] at h
              cases h
          | ok nodes' =>
              simp only [hnodes] at h
              cases h
              exact List.rel_append (mapKinds_kinds hnode) (mapKindsOf_kinds hnodes)

end

end Go42.Pages
