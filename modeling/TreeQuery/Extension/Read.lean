import TreeQuery.Plan.SelectParts

/-!
# Extensions of reads

An extension of reads is asked for by a beacon.  It may change the query of the
bucket that carries the beacon, and it may inspect and change the records read
and add fields to the view.
-/

namespace TreeQuery.Extension

/-- An extension of reads.  The default for both parts changes nothing. -/
structure ReadExtension where
  adjust : Beacon → Plan.SelectParts → Except Failure Plan.SelectParts :=
    fun _ parts => .ok parts
  report : Beacon → List Record → Except Failure (List Record × Option Record) :=
    fun _ records => .ok (records, none)

end TreeQuery.Extension
