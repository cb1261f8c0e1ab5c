import RecordQuery.Query.Basic

/-!
Projecting queries. The records of a mapping schema make a table if the query held one; all other
records make a list.
-/

namespace RecordQuery

/-- The column type of a member that has one. -/
def Field.columnType? (f : Field) : Option ColumnType :=
  match f.type with
  | .column t => some t
  | _ => none

namespace Schema

/-- The columns of the writable members, if all of them have column types. -/
def columns? (s : Schema) : Option (List (String × ColumnType)) :=
  (s.fields.filter (·.writable)).mapM fun f => f.columnType?.map fun t => (f.name, t)

/-- The table of records of the schema: its columns are those of the members if they are typed, and
fit the records otherwise. -/
def tableOf (E : Engine) (s : Schema) (records : List Value) : Except Error E.Table :=
  match s.columns? with
  | some columns => E.ofRecords columns records
  | none => E.inferRecords records

end Schema

namespace Query

variable {E : Engine}

/-- The query of the records that a plan builds from the rows. -/
def project (d : Directory) (q : Query E) (plan : ProjectionPlan) : Except Error (Query E) := do
  match ← q.sorted d with
  | .list rows =>
    return { source := .list (← rows.mapM (plan.apply d.catalog)), schema := plan.target }
  | .table t placement =>
    let records ← (← E.records t).mapM (plan.apply d.catalog)
    if plan.target.isMapping then
      let t ← plan.target.tableOf E records
      return { source := .table t placement, schema := plan.target }
    else return { source := .list records, schema := plan.target }

/-- The query projected by a plan that was made for rows with the same members. -/
def select (d : Directory) (q : Query E) (plan : ProjectionPlan) : Except Error (Query E) :=
  if plan.source.agrees q.schema then q.project d plan
  else .error (.planMismatch plan.source.text q.schema.text)

end Query
end RecordQuery
