import OperandReport.Yaml.Node

/-!
# Documents

A document is read as a whole before its aliases are followed.  An alias leads to the
node that starts last of those with its number: it may stand behind the alias, and
inside of another one.

## Main results

* `anchor?_target`: an alias leads to a node with its number, if there is one.
* `target_target`: a node that an alias leads to is no alias.
-/

namespace OperandReport.Yaml

/-- A document. -/
structure Document where
  root : Node
  /-- the nodes with an anchor, the one that starts last first -/
  anchored : List Node
  deriving Repr, Inhabited

namespace Document

/-- The document with a given content. -/
def ofRoot (root : Node) : Document where
  root
  anchored := (root.nodes.filter (·.anchor?.isSome)).reverse

/-- The node that a node stands for: itself, if it is no alias. -/
def target (d : Document) (n : Node) : Node :=
  match n with
  | .aliasOf number => (d.anchored.find? (·.anchor? == some number)).getD n
  | _ => n

/-- The document of a text with at most one of them.  The outer option is empty for a
malformed text and the inner one for a text without a document. -/
def ofText? (text : String) : Option (Option Document) := do
  let tokens ← Token.ofText? text
  let root ← (Node.Reader.document (4 * tokens.length + 4)).run' { tokens }
  return root.map ofRoot

theorem target_of_anchored {d : Document} {number : Nat} {n : Node}
    (h : d.anchored.find? (·.anchor? == some number) = some n) :
    d.target (.aliasOf number) = n := by
  simp [target, h]

theorem anchor?_target {d : Document} {number : Nat} {n : Node}
    (hn : n ∈ d.anchored) (ha : n.anchor? = some number) :
    (d.target (.aliasOf number)).anchor? = some number := by
  cases h : d.anchored.find? (·.anchor? == some number) with
  | none => exact absurd ha (by simpa using List.find?_eq_none.1 h n hn)
  | some found =>
    rw [target_of_anchored h]
    simpa using List.find?_some h

theorem target_target (d : Document) (n : Node) : d.target (d.target n) = d.target n := by
  cases n with
  | aliasOf number =>
    cases h : d.anchored.find? (·.anchor? == some number) with
    | none => simp [target, h]
    | some found =>
      rw [target_of_anchored h]
      have ha : found.anchor? = some number := by simpa using List.find?_some h
      cases found <;> simp [Node.anchor?, target] at ha ⊢
  | _ => rfl

end Document

end OperandReport.Yaml
