import Mathlib.Algebra.Group.Int.Defs
import RecordQuery.Column.Engine
import RecordQuery.Proofs.Success

/-!
# Values of columns

`ColumnType.IsPlain` describes the types of truth values, integers and texts and the structs of
these, whose fields have names of their own, and `Holds t v` says that `v` is a value of a column of
such a type. A row of such columns has an entry for each of them (`Row.HasColumns`).
-/

namespace RecordQuery

namespace ColumnType

/-- The type of truth values, integers of at most 64 bits with a sign, or texts, or of structs of
these with distinct names. -/
inductive IsPlain : ColumnType → Prop
  | bool : IsPlain .bool
  | integer {t : ColumnType} {range : Int × Int} (ht : t.range? = some range)
    (hword : -2 ^ 63 ≤ range.1 ∧ range.2 < 2 ^ 63) : IsPlain t
  | string : IsPlain .string
  | struct {fields : List (String × ColumnType)} (hnames : (fields.map (·.1)).Nodup)
    (hfields : ∀ f ∈ fields, IsPlain f.2) : IsPlain (.struct fields)

namespace IsPlain

variable {fields : List (String × ColumnType)}

theorem names (h : IsPlain (.struct fields)) : (fields.map (·.1)).Nodup := by
  cases h with
  | integer ht => cases ht
  | struct hnames hfields => exact hnames

theorem parts (h : IsPlain (.struct fields)) : ∀ f ∈ fields, IsPlain f.2 := by
  cases h with
  | integer ht => cases ht
  | struct hnames hfields => exact hfields

end IsPlain

mutual

/-- The value is null or of the kind that the type says, an integer is in its range, and a struct
has its fields in their order. -/
inductive Holds : ColumnType → Value → Prop
  | null (t : ColumnType) : Holds t .null
  | bool (b : Bool) : Holds .bool (.bool b)
  | int {t : ColumnType} {range : Int × Int} (ht : t.range? = some range) {i : Int}
    (hi : inRange range i = true) : Holds t (.int i)
  | str (s : String) : Holds .string (.str s)
  | struct {fields : List (String × ColumnType)} {entries : List (Value × Value)}
    (h : HoldsFields fields entries) : Holds (.struct fields) (.dict entries)

inductive HoldsFields : List (String × ColumnType) → List (Value × Value) → Prop
  | nil : HoldsFields [] []
  | cons {n : String} {t : ColumnType} {v : Value} {fields : List (String × ColumnType)}
    {entries : List (Value × Value)} (hv : Holds t v) (h : HoldsFields fields entries) :
    HoldsFields ((n, t) :: fields) ((.str n, v) :: entries)

end

/-! ### The values of a type -/

namespace Holds

variable {t : ColumnType} {range : Int × Int} {v : Value}

theorem of_bool (h : Holds .bool v) : v = .null ∨ ∃ b, v = .bool b := by
  cases h with
  | null => exact .inl rfl
  | bool b => exact .inr ⟨b, rfl⟩
  | int h => cases h

theorem of_string (h : Holds .string v) : v = .null ∨ ∃ s, v = .str s := by
  cases h with
  | null => exact .inl rfl
  | str s => exact .inr ⟨s, rfl⟩
  | int h => cases h

theorem of_range? (ht : t.range? = some range) (h : Holds t v) :
    v = .null ∨ ∃ i, v = .int i ∧ inRange range i = true := by
  cases h with
  | null => exact .inl rfl
  | int ht' hi =>
    cases ht.symm.trans ht'
    exact .inr ⟨_, rfl, hi⟩
  | bool | str | struct => cases ht

end Holds

/-! ### The fields of a struct -/

theorem cell_cons (name n : String) (v : Value) (entries : List (Value × Value)) :
    Row.cell name (.dict ((.str n, v) :: entries)) =
      if n = name then v else Row.cell name (.dict entries) := by
  by_cases h : n = name <;> simp [Row.cell, h]

namespace HoldsFields

variable {fields : List (String × ColumnType)} {entries : List (Value × Value)}

theorem keys_eq (h : HoldsFields fields entries) :
    entries.map (·.1) = fields.map fun f => .str f.1 := by
  induction fields generalizing entries with
  | nil => cases h; rfl
  | cons f fields ih =>
    cases h with
    | cons hv h => simp [ih h]

/-- The cells that the names of the fields lead to are the values, in their order. -/
theorem cells_eq (h : HoldsFields fields entries) (hnames : (fields.map (·.1)).Nodup) :
    fields.map (fun f => Row.cell f.1 (.dict entries)) = entries.map (·.2) := by
  induction fields generalizing entries with
  | nil => cases h; rfl
  | cons f fields ih =>
    cases h with
    | @cons n t v _ entries hv h =>
      rw [List.map_cons, List.nodup_cons] at hnames
      have hskip : ∀ g ∈ fields,
          Row.cell g.1 (.dict ((.str n, v) :: entries)) = Row.cell g.1 (.dict entries) := by
        intro g hg
        rw [cell_cons, if_neg]
        intro hn
        exact hnames.1 (List.mem_map.2 ⟨g, hg, hn.symm⟩)
      rw [List.map_cons, List.map_cons, cell_cons, if_pos rfl, List.map_congr_left hskip,
        ih h hnames.2]

theorem holds_cell (h : HoldsFields fields entries) (hnames : (fields.map (·.1)).Nodup)
    {f : String × ColumnType} (hf : f ∈ fields) : Holds f.2 (Row.cell f.1 (.dict entries)) := by
  induction fields generalizing entries with
  | nil => cases hf
  | cons g fields ih =>
    cases h with
    | @cons n t v _ entries hv h =>
      rw [List.map_cons, List.nodup_cons] at hnames
      rw [cell_cons]
      rcases List.mem_cons.1 hf with rfl | hf
      · rwa [if_pos rfl]
      · rw [if_neg]
        · exact ih h hnames.2 hf
        · intro hn
          exact hnames.1 (List.mem_map.2 ⟨f, hf, hn.symm⟩)

end HoldsFields

/-! ### Equal types -/

mutual

/-- Types that are the same are equal. -/
theorem eq_of_same : ∀ {a b : ColumnType}, a.same b = true → a = b
  | .list a, b, h => by
    cases b with
    | list b => exact congrArg list (eq_of_same h)
    | _ => cases h
  | .struct fs, b, h => by
    cases b with
    | struct gs => exact congrArg struct (eq_of_sameFields h)
    | _ => cases h
  | .other kind s words, b, h => by
    cases b with
    | other kind' s' words' =>
      simp only [same, Bool.and_eq_true, beq_iff_eq] at h
      rw [h.1.1, h.1.2, h.2]
    | _ => cases h
  | .null, b, h | .bool, b, h | .int8, b, h | .int16, b, h | .int32, b, h | .int64, b, h
  | .uint8, b, h | .uint16, b, h | .uint32, b, h | .uint64, b, h | .float32, b, h
  | .float64, b, h | .string, b, h | .binary, b, h => by
    cases b <;> first | rfl | cases h

theorem eq_of_sameFields : ∀ {as bs : List (String × ColumnType)},
    sameFields as bs = true → as = bs
  | [], bs, h => by
    cases bs with
    | nil => rfl
    | cons g gs => cases h
  | (n, a) :: fs, bs, h => by
    cases bs with
    | nil => cases h
    | cons g gs =>
      obtain ⟨m, b⟩ := g
      simp only [sameFields, Bool.and_eq_true, beq_iff_eq] at h
      rw [h.1.1, eq_of_same h.1.2, eq_of_sameFields h.2]

end

end ColumnType

/-- The row has an entry for each column. -/
def Row.HasColumns (columns : List (String × ColumnType)) (row : Value) : Prop :=
  ∃ entries, row = .dict entries ∧ ColumnType.HoldsFields columns entries

end RecordQuery
