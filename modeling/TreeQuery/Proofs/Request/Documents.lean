import Mathlib
import TreeQuery.Catalog.Table
import TreeQuery.Request.Document
import TreeQuery.Proofs.Plan.Gathering

/-!
# Documents read back

A request, a path, a table and a view are read back from their documents.  Only
the counts of slices are bounded: a document holds words of 64 bits.
-/

namespace TreeQuery

/-! ## Fields and lists -/

namespace Json

theorem mapM_map_eq_some {Value : Type} (encode : Value → Json) (decode : Json → Option Value)
    (hback : ∀ value, decode (encode value) = some value) (values : List Value) :
    (values.map encode).mapM decode = some values := by
  induction values with
  | nil => rfl
  | cons value rest ih => simp [hback, ih]

theorem optionalTexts?_array (texts : List String) :
    optionalTexts? (some (.array (texts.map .string))) = some texts := by
  rw [optionalTexts?]
  exact mapM_map_eq_some .string text? (fun _ => rfl) texts

@[simp] theorem requiredText?_string (text : String) :
    requiredText? (some (.string text)) = some text :=
  rfl

end Json

/-! ## Operators and expressions -/

namespace Comparison

theorem ofName?_name (comparison : Comparison) : ofName? comparison.name = some comparison := by
  cases comparison <;> rfl

end Comparison

namespace Operator

theorem encode_ne_null (operator : Operator) : operator.encode ≠ .null := by
  cases operator with
  | sort direction => cases direction <;> simp [encode]
  | _ => simp [encode]

theorem decodeBound?_encode_eq (listed : Bool) (operator : Operator) :
    decodeBound? listed operator.encode = (decode? listed operator.encode).map some := by
  cases hdocument : operator.encode with
  | null => exact absurd hdocument operator.encode_ne_null
  | _ => rw [decodeBound?]; simp

mutual

theorem decode?_encode (listed : Bool) : ∀ operator : Operator,
    decode? listed operator.encode = some operator
  | compare comparison value => by
      have hname := comparison.ofName?_name
      cases comparison <;> simp_all [encode, decode?, decodeFlat?, Comparison.name]
  | is value => by simp [encode, decode?, decodeFlat?]
  | like pattern caseSensitive => by
      simp [encode, decode?, decodeFlat?, decodeLike?, Json.alternativeSlots?, Json.slots?,
        Json.unrepeated, List.lookup, Json.optionalBool?]
  | not operator => by simp [encode, decode?, decode?_encode listed operator]
  | set values => by simp [encode, decode?, decodeFlat?]
  | range lower upper => by
      have hlower := decodeBound?_encodeBound listed lower
      have hupper := decodeBound?_encodeBound listed upper
      simp [encode, decode?, decodeRange?, decodeField?, Json.unrepeated, hlower, hupper]
  | sort .ascending => by simp [encode, decode?]
  | sort .descending => by simp [encode, decode?]

theorem decodeBound?_encodeBound (listed : Bool) : ∀ bound : Option Operator,
    decodeBound? listed (encodeBound bound) = some bound
  | none => by rw [encodeBound, decodeBound?]
  | some operator => by
      rw [encodeBound, decodeBound?_encode_eq, decode?_encode listed operator, Option.map_some]

end

end Operator

theorem Clause.decode?_encode (listed : Bool) (clause : Clause) :
    Clause.decode? listed clause.encode = some clause := by
  simp [Clause.encode, Clause.decode?, Json.slots?, Json.unrepeated, List.lookup,
    Operator.decode?_encode]

theorem Term.decode?_encode (listed : Bool) (term : Term) :
    Term.decode? listed term.encode = some term := by
  cases term with
  | clause clause => simp [Term.encode, Term.decode?, Clause.decode?_encode]
  | and => rfl
  | or => rfl

theorem Expression.decode?_encode (listed : Bool) (expression : Expression) :
    Expression.decode? listed (Expression.encode expression) = some expression :=
  Json.mapM_map_eq_some _ _ (Term.decode?_encode listed) expression

/-! ## Paths, tables and views -/

theorem Step.decode?_encode (step : Step) : Step.decode? step.encode = some step := by
  obtain ⟨name, qualifier, label⟩ := step
  cases qualifier <;> cases label <;>
    simp [Step.encode, Step.decode?, Json.slots?, Json.unrepeated, Json.optionalField,
      Json.optionalText?, List.lookup]

theorem Step.decodeAll?_encodeAll (path : Path) :
    Step.decodeAll? (Step.encodeAll path) = some path :=
  Json.mapM_map_eq_some _ _ Step.decode?_encode path

namespace Catalog

theorem Reference.decode?_encode (reference : Reference) :
    Reference.decode? reference.encode = some reference := by
  simp [Reference.encode, Reference.decode?, Json.slots?, Json.unrepeated, List.lookup]

theorem Table.decodeReferences?_array (references : List Reference) :
    Table.decodeReferences? (some (.array (references.map Reference.encode))) = some references :=
  Json.mapM_map_eq_some _ _ Reference.decode?_encode references

theorem Table.decode?_encode (table : Table) : Table.decode? table.encode = some table := by
  obtain ⟨name, schema, columns, primaryKey, references⟩ := table
  cases schema <;>
    simp [Table.encode, Table.decode?, Json.slots?, Json.unrepeated, Json.optionalField,
      Json.optionalText?, List.lookup, Json.optionalTexts?_array, Table.decodeReferences?_array]

end Catalog

theorem View.decode?_encode (view : View) : View.decode? view.encode = some view := by
  obtain ⟨data, fields⟩ := view
  cases fields <;>
    simp [View.encode, View.decode?, Json.slots?, Json.unrepeated, List.lookup]

/-! ## Elements and buckets -/

theorem Item.decode?_encode (item : Item) : Item.decode? item.encode = some item := by
  cases item <;> rfl

theorem Beacon.decode?_encode (listed : Bool) (beacon : Beacon) :
    Beacon.decode? listed beacon.encode = some beacon := by
  cases beacon with
  | upsert expression => simp [Beacon.encode, Beacon.decode?, Expression.decode?_encode]
  | custom key value =>
      simp [Beacon.encode, Beacon.decode?, Json.alternativeSlots?, Json.slots?, Json.unrepeated,
        List.lookup]

namespace Slice

/-- The number of rows a slice names. -/
def count : Slice → Nat
  | limit count => count
  | offset count => count

theorem decode?_encode_eq_some (slice : Slice) :
    Slice.decode? slice.encode = some slice ↔ slice.count < 2 ^ 64 := by
  cases slice <;> simp [encode, decode?, count, Json.word?]

end Slice

namespace Bucket

/-- Every count of a slice in a bucket, at any depth, is a word of 64 bits. -/
def CountsFit (bucket : Bucket) : Prop :=
  ∀ inner, Within inner bucket → ∀ slice, .slice slice ∈ inner.elements → slice.count < 2 ^ 64

/-- Every count of a slice among the elements, at any depth, is a word of 64 bits. -/
def AllCountsFit (elements : List Element) : Prop :=
  (∀ slice, .slice slice ∈ elements → slice.count < 2 ^ 64) ∧
    ∀ child, .bucket child ∈ elements → child.CountsFit

theorem countsFit_iff {bucket : Bucket} : bucket.CountsFit ↔ AllCountsFit bucket.elements := by
  constructor
  · intro hfit
    exact ⟨hfit bucket .self,
      fun child hchild inner hwithin => hfit inner (.nested hchild hwithin)⟩
  · rintro ⟨hslices, hchildren⟩ inner hwithin
    cases hwithin with
    | self => exact hslices
    | nested hchild hwithin => exact hchildren _ hchild inner hwithin

theorem allCountsFit_cons {element : Element} {rest : List Element} :
    AllCountsFit (element :: rest) ↔
      ((∀ slice, element = .slice slice → slice.count < 2 ^ 64) ∧
        ∀ child, element = .bucket child → child.CountsFit) ∧ AllCountsFit rest := by
  simp only [AllCountsFit, List.mem_cons, or_imp, forall_and, eq_comm (b := element)]
  tauto

theorem decodeItems?_cons_eq_some {listed : Bool} {item : Json} {items : List Json}
    {element : Element} {rest : List Element} :
    decodeItems? listed (item :: items) = some (element :: rest) ↔
      decodeElement? listed item = some element ∧ decodeItems? listed items = some rest := by
  simp [decodeItems?, Option.bind_eq_some_iff]

theorem decode?_encode_eq_some_of_elements {listed : Bool} (bucket : Bucket) :
    decode? listed bucket.encode = some bucket ↔
      decodeItems? listed (encodeElements bucket.elements) = some bucket.elements := by
  obtain ⟨name, qualifier, label, elements⟩ := bucket
  cases qualifier <;> cases label <;>
    simp [encode, decode?, decodeField?, decodeElements?, ofSlots?, Json.unrepeated,
      Json.optionalField, Json.optionalText?, List.lookup, Option.bind_eq_some_iff]

mutual

/-- A bucket is read back from its document exactly when the counts of its slices fit. -/
theorem decode?_encode_eq_some (listed : Bool) : ∀ bucket : Bucket,
    decode? listed bucket.encode = some bucket ↔ bucket.CountsFit
  | ⟨name, qualifier, label, elements⟩ => by
      rw [decode?_encode_eq_some_of_elements, countsFit_iff]
      exact decodeItems?_encodeElements listed elements

theorem decodeItems?_encodeElements (listed : Bool) : ∀ elements : List Element,
    decodeItems? listed (encodeElements elements) = some elements ↔ AllCountsFit elements
  | [] => by simp [encodeElements, decodeItems?, AllCountsFit]
  | .item item :: rest => by
      rw [encodeElements, decodeItems?_cons_eq_some, allCountsFit_cons,
        decodeItems?_encodeElements listed rest]
      simp [decodeElement?, decodeFlat?, item.decode?_encode]
  | .bucket nested :: rest => by
      rw [encodeElements, decodeItems?_cons_eq_some, allCountsFit_cons,
        decodeItems?_encodeElements listed rest]
      simp [decodeElement?, decode?_encode_eq_some listed nested]
  | .clause expression :: rest => by
      rw [encodeElements, decodeItems?_cons_eq_some, allCountsFit_cons,
        decodeItems?_encodeElements listed rest]
      simp [decodeElement?, decodeFlat?, Expression.decode?_encode]
  | .slice slice :: rest => by
      rw [encodeElements, decodeItems?_cons_eq_some, allCountsFit_cons,
        decodeItems?_encodeElements listed rest]
      simp [decodeElement?, decodeFlat?, slice.decode?_encode_eq_some]
  | .total :: rest => by
      rw [encodeElements, decodeItems?_cons_eq_some, allCountsFit_cons,
        decodeItems?_encodeElements listed rest]
      simp [decodeElement?]
  | .beacon beacon :: rest => by
      rw [encodeElements, decodeItems?_cons_eq_some, allCountsFit_cons,
        decodeItems?_encodeElements listed rest]
      simp [decodeElement?, decodeFlat?, beacon.decode?_encode]

end

end Bucket

theorem Invoice.decode?_encode_eq_some (listed : Bool) (invoice : Invoice) :
    Invoice.decode? listed (Invoice.encode invoice) = some invoice ↔
      ∀ bucket ∈ invoice, bucket.CountsFit := by
  rw [Invoice.encode, Invoice.decode?]
  induction invoice with
  | nil => simp
  | cons bucket rest ih =>
      rw [List.map_cons, List.mapM_cons, List.forall_mem_cons, ← ih,
        ← Bucket.decode?_encode_eq_some listed]
      simp [Option.bind_eq_some_iff]

/-- Expressions, paths, tables and views are read back from their documents, and invoices whose
slices count in words of 64 bits, whether or not fields may be listed. -/
theorem documents_read_back (listed : Bool) :
    (∀ invoice : Invoice, Invoice.decode? listed (Invoice.encode invoice) = some invoice ↔
      ∀ bucket ∈ invoice, bucket.CountsFit) ∧
    (∀ expression : Expression,
      Expression.decode? listed (Expression.encode expression) = some expression) ∧
    (∀ path : Path, Step.decodeAll? (Step.encodeAll path) = some path) ∧
    (∀ table : Catalog.Table, Catalog.Table.decode? table.encode = some table) ∧
    ∀ view : View, View.decode? view.encode = some view :=
  ⟨Invoice.decode?_encode_eq_some listed, Expression.decode?_encode listed,
    Step.decodeAll?_encodeAll, Catalog.Table.decode?_encode, View.decode?_encode⟩

end TreeQuery
