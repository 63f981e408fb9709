import Retouch.Edit.Json

/-!
# Rendered trees

The elements that the sandbox shows, below the one they are mounted in. That one has no address; all
below it are counted in document order, as those of a source are. `instrument` writes the addresses
into the tree and marks the leaves as editable.
-/

namespace Retouch

open Json (Part required optional record? text? bool? optional? orDefault?)

/-- A rendered element. -/
inductive RenderedNode where
  | node (tag text : Text) (children : List RenderedNode) (address : Option Address)
    (editable : Bool)

namespace RenderedNode

/-- The name of an element, as it is rendered. -/
def tag : RenderedNode → Text
  | node tag .. => tag

/-- The text in an element. -/
def text : RenderedNode → Text
  | node _ text .. => text

/-- The elements in an element. -/
def children : RenderedNode → List RenderedNode
  | node _ _ children .. => children

/-- The address that an element is marked with. -/
def address : RenderedNode → Option Address
  | node _ _ _ address _ => address

/-- Whether an element is marked as editable. -/
def editable : RenderedNode → Bool
  | node _ _ _ _ editable => editable

/-- An element with others in it. -/
def element (tag : Text) (children : List RenderedNode) : RenderedNode :=
  node tag [] children none false

/-- An element with a text in it. -/
def leaf (tag text : Text) : RenderedNode := node tag text [] none false

/-- Whether no element is in an element. -/
def isLeaf (n : RenderedNode) : Bool := n.children.isEmpty

/-! ## Walks -/

mutual

/-- An element and all below it, in document order. -/
def withDescendants : RenderedNode → List RenderedNode
  | node tag text children address editable =>
    node tag text children address editable :: forestDescendants children

/-- The elements of a forest, in document order. -/
def forestDescendants : List RenderedNode → List RenderedNode
  | [] => []
  | n :: rest => withDescendants n ++ forestDescendants rest

end

/-- The elements below an element, in document order. -/
def descendants (root : RenderedNode) : List RenderedNode := forestDescendants root.children

mutual

/-- The first element below one that is marked with an address. -/
def find? : RenderedNode → Address → Option RenderedNode
  | node _ _ children _ _, address => findAmong? children address

/-- The first element of a forest that is marked with an address: each is looked at before those
in it. -/
def findAmong? : List RenderedNode → Address → Option RenderedNode
  | [], _ => none
  | n :: rest, address =>
    (if n.address = some address then some n else find? n address).or (findAmong? rest address)

end

/-- The addresses of names in the order of a traversal. -/
def addressesOf : Counter → List Text → List Address
  | _, [] => []
  | counter, tag :: rest =>
    let (address, counter) := counter.next tag
    address :: addressesOf counter rest

/-- The addresses of the elements below `root`, in document order. -/
def addresses (root : RenderedNode) : List Address :=
  addressesOf .empty (root.descendants.map tag)

/-- How far the marking of a tree has come: what was counted, and how many elements were marked. -/
structure Progress where
  counter : Counter
  marked : Nat

/-- Nothing marked yet. -/
def Progress.start : Progress := ⟨.empty, 0⟩

mutual

/-- An element and all below it, marked, and the progress behind them. -/
def mark : Progress → RenderedNode → RenderedNode × Progress
  | progress, node tag text children _ _ =>
    let (address, counter) := progress.counter.next tag
    let (marked, progress) := markForest ⟨counter, progress.marked + 1⟩ children
    (node tag text marked (some address) children.isEmpty, progress)

/-- The elements of a forest, marked, and the progress behind them. -/
def markForest : Progress → List RenderedNode → List RenderedNode × Progress
  | progress, [] => ([], progress)
  | progress, n :: rest =>
    let (first, progress) := mark progress n
    let (others, progress) := markForest progress rest
    (first :: others, progress)

end

/-- Mark all elements below `root` with their addresses, and the leaves among them as editable. Gives
how many were marked. -/
def instrument : RenderedNode → RenderedNode × Nat
  | node tag text children address editable =>
    let (marked, progress) := markForest .start children
    (node tag text marked address editable, progress.marked)

/-! ## JSON -/

/-- The parts of an element. -/
def parts : List Part :=
  [required "tag", optional "text", optional "children", optional "address", optional "editable"]

/-- The items of an array. -/
def items? : Json → Option (List Json)
  | .array items => some items
  | _ => none

/-- The element in a JSON value in which arrays and objects are nested at most `depth` deep. -/
def ofNested? : (depth : Nat) → Json → Option RenderedNode
  | 0, _ => none
  | depth + 1, v => do
    match ← record? parts v with
    | [some tag, text, children, address, editable] =>
      let tag ← text? tag
      let text ← orDefault? [] text? text
      let children ← match depth, children with
        | _, none => some []
        | 0, some _ => none
        | inner + 1, some v => do (← items? v).mapM (ofNested? inner)
      let address ← optional? (fun v => if depth = 0 then none else Address.ofJson? v) address
      let editable ← orDefault? false bool? editable
      return node tag text children address editable
    | _ => none

/-- The element in a JSON value. -/
def ofJson? (v : Json) : Option RenderedNode := ofNested? Json.maxDepth v

mutual

/-- An element as a JSON value. -/
def toJson : RenderedNode → Json
  | node tag text children address editable =>
    .object ([("tag".toList, .string tag), ("text".toList, .string text),
        ("children".toList, .array (forestToJson children))]
      ++ (match address with
        | none => []
        | some address => [("address".toList, address.toJson)])
      ++ [("editable".toList, .bool editable)])

/-- The elements of a forest as JSON values. -/
def forestToJson : List RenderedNode → List Json
  | [] => []
  | n :: rest => toJson n :: forestToJson rest

end

end RenderedNode

/-! ## Agreement -/

/-- The first place where two lists differ: its index, and what each has there. -/
def firstDifference (i : Nat) :
    List Address → List Address → Option (Nat × Option Address × Option Address)
  | [], [] => none
  | [], b :: _ => some (i, none, some b)
  | a :: _, [] => some (i, some a, none)
  | a :: left, b :: right =>
    if a = b then firstDifference (i + 1) left right else some (i, some a, some b)

end Retouch
