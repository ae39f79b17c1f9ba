/-!
# Shape — what a value must look like

A `Shape` describes the values a reader accepts: a count below 2 ^ 64, a text, a list of values of
one shape, or a record with named fields.  `Shape.Value` is the type of the values of a shape; a
record's value is the product of its fields' values.

While a record is read its fields arrive in any order, so what is known of it is a `Fields.Draft`,
each field present or absent; `Fields.complete` turns a draft with all fields into a value.
-/

namespace ClusterWatch.Json

mutual

/-- What a value must look like. -/
inductive Shape
  | count
  | text
  | list (item : Shape)
  | record (name : String) (fields : Fields)

/-- The fields of a record in their order, each with its name and its shape. -/
inductive Fields
  | nil
  | cons (name : String) (shape : Shape) (rest : Fields)

end

mutual

/-- The values of a shape. -/
def Shape.Value : Shape → Type
  | .count => UInt64
  | .text => String
  | .list item => List item.Value
  | .record _ fields => fields.Values

/-- The values of a record's fields, in their order. -/
def Fields.Values : Fields → Type
  | .nil => Unit
  | .cons _ shape rest => shape.Value × rest.Values

end

namespace Fields

/-- The names of the fields. -/
def names : Fields → List String
  | nil => []
  | cons name _ rest => name :: rest.names

/-- What is known of a record while it is read. -/
def Draft : Fields → Type
  | nil => Unit
  | cons _ shape rest => Option shape.Value × rest.Draft

/-- The draft of a record of which nothing has been read. -/
def blank : (fields : Fields) → fields.Draft
  | nil => ()
  | cons _ _ rest => (none, rest.blank)

/-- The value of a draft whose fields are all present, or else the name of the first absent one. -/
def complete : (fields : Fields) → fields.Draft → Except String fields.Values
  | nil, () => .ok ()
  | cons name _ rest, (value, draft) =>
    match value with
    | none => .error name
    | some v =>
      match rest.complete draft with
      | .error absent => .error absent
      | .ok vs => .ok (v, vs)

end Fields

end ClusterWatch.Json
