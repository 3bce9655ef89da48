/-!
# Why a name does not resolve
-/

namespace TreeQuery.Catalog

/-- The reason a table, a column or a relationship does not resolve. -/
inductive SchemaError where
  | unknownTable (table : String)
  | unknownColumn (table column : String)
  | noLink (source target : String)
  | ambiguousJunction (source target : String) (candidates : List String)
  | invalidJunction (source target interim : String)
  | danglingForeignKey (table column target : String)
  deriving DecidableEq

/-- The wording of an error. -/
def SchemaError.message : SchemaError → String
  | unknownTable table => "unknown table '" ++ table ++ "'"
  | unknownColumn table column =>
      "unknown column '" ++ column ++ "' on table '" ++ table ++ "'"
  | noLink source target =>
      "no relationship between '" ++ source ++ "' and '" ++ target ++ "'"
  | ambiguousJunction source target candidates =>
      "ambiguous junction between '" ++ source ++ "' and '" ++ target ++ "': candidates " ++
        ", ".intercalate candidates
  | invalidJunction source target interim =>
      "junction '" ++ interim ++ "' does not link '" ++ source ++ "' and '" ++ target ++ "'"
  | danglingForeignKey table column target =>
      "foreign key " ++ table ++ "." ++ column ++ " references unknown table '" ++ target ++ "'"

end TreeQuery.Catalog
