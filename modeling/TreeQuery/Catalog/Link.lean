import TreeQuery.Path.Address

/-!
# Links between paths

A link equates a column of the source path with a column of the target path,
either directly or through a junction table that owns keys to both.
-/

namespace TreeQuery.Catalog

/-- How two paths are related. -/
inductive Link where
  | manyToOne (source target : Address)
  | oneToMany (source target : Address)
  | manyToMany (source interimSource interimTarget target : Address)
  deriving DecidableEq

namespace Link

/-- The short name of a kind of link. -/
def kind : Link → String
  | manyToOne .. => "m2o"
  | oneToMany .. => "o2m"
  | manyToMany .. => "m2m"

/-- The column on the source side. -/
def source : Link → Address
  | manyToOne source _ => source
  | oneToMany source _ => source
  | manyToMany source _ _ _ => source

/-- The column on the target side. -/
def target : Link → Address
  | manyToOne _ target => target
  | oneToMany _ target => target
  | manyToMany _ _ _ target => target

/-- The junction table, for a link that has one. -/
def interim? : Link → Option String
  | manyToMany _ interimSource _ _ => some interimSource.path.tableName
  | _ => none

/-- Whether the target is read by a statement of its own and not by a join. -/
def isDeferred : Link → Bool
  | manyToOne .. => false
  | oneToMany .. | manyToMany .. => true

/-- The text by which equal joins are recognized. -/
def identity (link : Link) : String :=
  link.kind ++ ":" ++ link.source.key ++ "->" ++ link.target.key

/-- A link for people. -/
def text (link : Link) : String :=
  match link with
  | manyToMany source interimSource interimTarget target =>
      link.kind ++ " " ++ source.outputName ++ " = " ++ interimSource.outputName ++ " / " ++
        interimTarget.outputName ++ " = " ++ target.outputName
  | manyToOne source target => link.kind ++ " " ++ source.outputName ++ " = " ++ target.outputName
  | oneToMany source target => link.kind ++ " " ++ source.outputName ++ " = " ++ target.outputName

end Link

end TreeQuery.Catalog
