import TreeQuery.Catalog.KeyGraph

/-!
# Key graphs by number

A general graph knows its nodes and edges by numbers, which it gives in the order of addition, and
it walks the edges of a node in an order of its own.  An index finds the node of a table by the
table's name, and the keys of a table come back into the order of addition by the numbers of their
edges.
-/

namespace TreeQuery.Catalog

/-- A key as an edge between the nodes of its two tables. -/
structure KeyEdge where
  source : Nat
  target : Nat
  key : ForeignKey
  deriving DecidableEq

/-- Nodes and edges, whose numbers are their positions, and the index of the nodes. -/
structure NumberedGraph where
  nodes : List String := []
  edges : List KeyEdge := []
  index : List (String × Nat) := []
  deriving DecidableEq

/-- How a graph walks the edges of a node, given with their numbers. -/
abbrev Walk := NumberedGraph → Nat → List (KeyEdge × Nat)

/-- What is added to a graph. -/
inductive Addition where
  | table (name : String)
  | key (key : ForeignKey)
  deriving DecidableEq

namespace Addition

/-- The name of an added table. -/
def name? : Addition → Option String
  | .table name => some name
  | .key _ => none

end Addition

namespace NumberedGraph

/-- The node of a table. -/
def node? (graph : NumberedGraph) (table : String) : Option Nat :=
  List.lookup table graph.index

/-- Whether a table was added. -/
def contains (graph : NumberedGraph) (table : String) : Bool :=
  (graph.node? table).isSome

/-- All keys. -/
def foreignKeys (graph : NumberedGraph) : List ForeignKey :=
  graph.edges.map KeyEdge.key

/-- The edges that leave a node, with their numbers. -/
def leaving (graph : NumberedGraph) (node : Nat) : List (KeyEdge × Nat) :=
  graph.edges.zipIdx.filter fun edge => edge.1.source == node

/-- The walk from the newest edge to the oldest one. -/
def newestFirst : Walk :=
  fun graph node => (graph.leaving node).reverse

/-- The keys a table owns. -/
def outgoing (walk : Walk) (graph : NumberedGraph) (table : String) : List ForeignKey :=
  match graph.node? table with
  | none => []
  | some node =>
      let edges := (walk graph node).mergeSort fun first second => decide (first.2 ≤ second.2)
      edges.map fun edge => edge.1.key

/-- Adds a table, unless it is there, and gives its node. -/
def addTable (table : String) : StateM NumberedGraph Nat := do
  let graph ← get
  match graph.node? table with
  | some node => return node
  | none =>
      let node := graph.nodes.length
      modify fun graph => { graph with nodes := graph.nodes ++ [table] }
      modify fun graph => { graph with index := (table, node) :: graph.index }
      return node

/-- Adds a key between two tables that are there, unless its owner has it. -/
def addForeignKey (walk : Walk) (key : ForeignKey) :
    ExceptT SchemaError (StateM NumberedGraph) Unit := do
  let graph ← get
  match graph.node? key.table with
  | none => throw (.unknownTable key.table)
  | some source =>
      match graph.node? key.targetTable with
      | none => throw (.danglingForeignKey key.table key.column key.targetTable)
      | some target =>
          if (graph.outgoing walk key.table).contains key then return
          modify fun graph => { graph with edges := graph.edges ++ [⟨source, target, key⟩] }

/-- Makes one addition. -/
def add (walk : Walk) : Addition → ExceptT SchemaError (StateM NumberedGraph) Unit
  | .table name => discard (addTable name)
  | .key added => addForeignKey walk added

/-- What comes of one addition, and the graph after it. -/
def perform (walk : Walk) (graph : NumberedGraph) (addition : Addition) :
    Except SchemaError Unit × NumberedGraph :=
  Id.run ((add walk addition).run.run graph)

/-- The graph after some additions, of which the refused ones are passed over. -/
def afterAll (walk : Walk) (graph : NumberedGraph) (additions : List Addition) : NumberedGraph :=
  additions.foldl (fun graph addition => (perform walk graph addition).2) graph

end NumberedGraph

end TreeQuery.Catalog
