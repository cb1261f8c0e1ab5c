import RecordQuery.Column.Cast
import RecordQuery.Column.Table
import RecordQuery.Proofs.TableLaws

/-!
# Columns in memory

Columns that are held in memory hold values of their types as they were given (`storeAll_eq`), and
what is converted to a type is a value of it (`holds_of_castValue`). Keys of one kind make a column
of its type, or one of nulls if all of them are null (`exists_column_of_isCell`), but truth values
and integers make none together (`isCell_of_column`).
-/

namespace RecordQuery.ColumnType

/-! ### Storing values -/

namespace HoldsFields

variable {fields : List (String × ColumnType)} {entries : List (Value × Value)}

/-- The first entry whose key is the name of a field holds its cell. -/
theorem find?_eq_cell (h : HoldsFields fields entries) (name : String) :
    ((entries.find? fun e => KeyForm.text.names name e.1).map (·.2)).getD .null =
      Row.cell name (.dict entries) := by
  induction fields generalizing entries with
  | nil => cases h; rfl
  | cons f fields ih =>
    cases h with
    | @cons n t v _ entries hv h =>
      rw [cell_cons, ← ih h]
      by_cases hn : n = name <;> simp [KeyForm.names, hn]

end HoldsFields

/-- Nothing is settled to have bytes for keys. -/
def TextKeys (s : Settings) : Prop :=
  ∀ place, ((s.lookup place).getD {}).keys ≠ some .bytes

theorem Storing.bind_eq_ok {α β : Type} {x : Storing α} {f : α → Storing β} {s : Settings}
    {r : β × Settings} : (x >>= f) s = .ok r ↔ ∃ a s', x s = .ok (a, s') ∧ f a s' = .ok r := by
  change (x s >>= fun p => f p.1 p.2) = .ok r ↔ _
  rw [Except.bind_eq_ok]
  constructor
  · rintro ⟨⟨a, s'⟩, hx, hf⟩
    exact ⟨a, s', hx, hf⟩
  · rintro ⟨a, s', hx, hf⟩
    exact ⟨(a, s'), hx, hf⟩

theorem Storing.lift_eq_ok {α : Type} {x : Except Error α} {s s' : Settings} {a : α}
    (h : (liftM x : Storing α) s = .ok (a, s')) : x = .ok a ∧ s' = s := by
  cases x with
  | error e => cases h
  | ok b => cases h; exact ⟨rfl, rfl⟩

theorem TextKeys.settle {s : Settings} (hs : TextKeys s) (place : List Nat) {x : Settled}
    (hx : x.keys ≠ some .bytes) : TextKeys ((place, x) :: s) := by
  intro q
  rw [List.lookup_cons]
  split
  · exact hx
  · exact hs q

theorem formAt_eq_ok {place : List Nat} {entries : List (Value × Value)} {s s' : Settings}
    {form : StructForm} (hs : TextKeys s)
    (h : formAt place (.dict entries) s = .ok (form, s')) : TextKeys s' := by
  obtain ⟨x, s₁, hx, h⟩ := Storing.bind_eq_ok.1 h
  cases hx
  cases hform : ((s.lookup place).getD {}).form with
  | some f =>
    simp only [hform] at h
    cases h
    exact hs
  | none =>
    simp only [hform, StructForm.of?] at h
    cases h
    exact hs.settle place (hs place)

/-- The first key that names a field is a text if all keys are. -/
theorem first?_eq_ok {names : List String} {keys : List (Except Error Value)}
    (hkeys : ∀ k ∈ keys, ∃ n, k = .ok (.str n)) {form : Option KeyForm}
    (h : KeyForm.first? names keys = .ok form) :
    form ≠ some .bytes ∧ (form = none → ∀ n ∈ names, .ok (.str n) ∉ keys) := by
  induction keys with
  | nil => cases h; simp
  | cons k keys ih =>
    rw [List.forall_mem_cons] at hkeys
    obtain ⟨⟨n, rfl⟩, hkeys⟩ := hkeys
    by_cases hn : n ∈ names
    · have : form = some .text := by
        simpa [KeyForm.first?, KeyForm.of?, hn] using h.symm
      subst this
      simp
    · have hrest : KeyForm.first? names keys = .ok form := by
        simpa [KeyForm.first?, KeyForm.of?, hn] using h
      refine ⟨(ih hkeys hrest).1, fun hform m hm hmem => ?_⟩
      rcases List.mem_cons.1 hmem with heq | hmem
      · cases heq
        exact hn hm
      · exact (ih hkeys hrest).2 hform m hm hmem

theorem keysAt_eq_ok {place : List Nat} {names : List String} {keys : List (Except Error Value)}
    (hkeys : ∀ k ∈ keys, ∃ n, k = .ok (.str n)) {form : Option KeyForm} {s s' : Settings}
    (hs : TextKeys s) (h : keysAt place names keys s = .ok (form, s')) :
    TextKeys s' ∧ form ≠ some .bytes ∧ (form = none → ∀ n ∈ names, .ok (.str n) ∉ keys) := by
  obtain ⟨x, s₁, hx, h⟩ := Storing.bind_eq_ok.1 h
  cases hx
  have hplace := hs place
  cases hform : ((s.lookup place).getD {}).keys with
  | some f =>
    simp only [hform] at h
    cases h
    rw [hform] at hplace
    exact ⟨hs, hplace, nofun⟩
  | none =>
    simp only [hform] at h
    obtain ⟨form', s₁, hfirst, h⟩ := Storing.bind_eq_ok.1 h
    cases hkeyed : KeyForm.first? names keys with
    | error e =>
      rw [hkeyed] at hfirst
      cases hfirst
    | ok f =>
      rw [hkeyed] at hfirst
      cases hfirst
      cases h
      obtain ⟨htext, hnone⟩ := first?_eq_ok hkeys hkeyed
      exact ⟨hs.settle place htext, htext, hnone⟩

/-- A mapping of texts gives a struct the cells under the names of the fields. -/
theorem fieldsOf_eq_ok {place : List Nat} {fields : List (String × ColumnType)}
    {entries : List (Value × Value)} (hnames : (fields.map (·.1)).Nodup)
    (h : HoldsFields fields entries) {s s' : Settings} (hs : TextKeys s)
    {given : List (Except Error Value)}
    (hgiven : fieldsOf place (fields.map (·.1)) (.dict entries) s = .ok (given, s')) :
    given = entries.map (fun e => .ok e.2) ∧ TextKeys s' := by
  obtain ⟨form, s₁, hform, hgiven⟩ := Storing.bind_eq_ok.1 hgiven
  have hs₁ := formAt_eq_ok hs hform
  cases form with
  | positional | named => cases hgiven
  | mapping =>
    obtain ⟨keys, s₂, hkeys, hgiven⟩ := Storing.bind_eq_ok.1 hgiven
    have htexts : ∀ k ∈ entries.map fun e => (.ok e.1 : Except Error Value),
        ∃ n, k = .ok (.str n) := by
      intro k hk
      obtain ⟨e, he, rfl⟩ := List.mem_map.1 hk
      have hmem := h.keys_eq ▸ List.mem_map_of_mem he
      obtain ⟨f, -, hf⟩ := List.mem_map.1 hmem
      exact ⟨f.1, by rw [hf]⟩
    obtain ⟨hs₂, htext, hnone⟩ := keysAt_eq_ok htexts hs₁ hkeys
    cases keys with
    | none =>
      cases hgiven
      refine ⟨?_, hs₂⟩
      cases h with
      | nil => rfl
      | @cons n t v fields entries hv h => exact absurd (by simp) (hnone rfl n (by simp))
    | some form =>
      cases form with
      | bytes => exact absurd rfl htext
      | text =>
        cases hgiven
        refine ⟨?_, hs₂⟩
        simp only [h.find?_eq_cell, List.map_map, Function.comp_def]
        have hcells := congrArg (List.map (Except.ok : Value → Except Error Value))
          (h.cells_eq hnames)
        simpa only [List.map_map, Function.comp_def] using hcells

theorem eq_null_of_isNull {v : Value} (h : v.isNull = true) : v = .null := by
  cases v <;> first | rfl | cases h

theorem storeScalar_eq {origin : Origin} {t : ColumnType} {v w : Value} (hv : Holds t v)
    (hnull : v.isNull = false) (h : storeScalar origin t v = .ok w) : w = v := by
  cases hv with
  | null => cases hnull
  | bool b => cases h; rfl
  | str s => cases h; rfl
  | struct h' => cases h
  | int ht hi =>
    cases t <;> cases ht
    all_goals
      simp only [storeScalar, range?, storeInteger, hi] at h
      split at h <;> cases h
      rfl

mutual

/-- A value of a plain type is stored as it is. -/
theorem store_eq {t : ColumnType} (ht : t.IsPlain) {v : Value} (hv : Holds t v) {place : List Nat}
    {s s' : Settings} (hs : TextKeys s) {w : Value}
    (h : store .given t place v s = .ok (w, s')) : w = v ∧ TextKeys s' := by
  unfold store at h
  by_cases hnull : v.isNull = true
  · rw [if_pos hnull] at h
    cases h
    exact ⟨(eq_null_of_isNull hnull).symm, hs⟩
  · rw [if_neg hnull] at h
    cases t with
    | list item => cases ht with | integer ht => cases ht
    | struct fields =>
      cases ht with
      | integer ht => cases ht
      | struct hnames hfields =>
        cases hv with
        | null => cases hnull rfl
        | int ht => cases ht
        | struct hentries =>
          obtain ⟨given, s₁, hgiven, h⟩ := Storing.bind_eq_ok.1 h
          obtain ⟨rfl, hs₁⟩ := fieldsOf_eq_ok hnames hentries hs hgiven
          obtain ⟨held, s₂, hheld, h⟩ := Storing.bind_eq_ok.1 h
          cases h
          obtain ⟨rfl, hs₂⟩ := storeFields_eq hfields hentries hs₁ hheld
          exact ⟨rfl, hs₂⟩
    | _ =>
      have h : (liftM (storeScalar .given _ v) : Storing Value) s = .ok (w, s') := h
      obtain ⟨hscalar, rfl⟩ := Storing.lift_eq_ok h
      exact ⟨storeScalar_eq hv (Bool.eq_false_iff.2 hnull) hscalar, hs⟩
termination_by sizeOf t

theorem storeFields_eq {fields : List (String × ColumnType)} (hfields : ∀ f ∈ fields, f.2.IsPlain)
    {entries : List (Value × Value)} (hentries : HoldsFields fields entries) {place : List Nat}
    {i : Nat} {s s' : Settings} (hs : TextKeys s) {held : List (Value × Value)}
    (h : storeFields .given fields place i (entries.map fun e => .ok e.2) s = .ok (held, s')) :
    held = entries ∧ TextKeys s' := by
  cases fields with
  | nil =>
    cases hentries
    rw [storeFields] at h
    cases h
    exact ⟨rfl, hs⟩
  | cons f fields =>
    cases hentries with
    | @cons n t v _ entries hv hrest =>
      rw [List.forall_mem_cons] at hfields
      rw [storeFields] at h
      obtain ⟨v', s₁, hv', h⟩ := Storing.bind_eq_ok.1 h
      obtain ⟨hv', rfl⟩ := Storing.lift_eq_ok hv'
      cases hv'
      obtain ⟨w, s₂, hw, h⟩ := Storing.bind_eq_ok.1 h
      obtain ⟨rfl, hs₂⟩ := store_eq hfields.1 hv hs hw
      obtain ⟨rest, s₃, hrest', h⟩ := Storing.bind_eq_ok.1 h
      cases h
      obtain ⟨rfl, hs₃⟩ := storeFields_eq hfields.2 hrest hs₂ hrest'
      exact ⟨rfl, hs₃⟩
termination_by sizeOf fields

end

/-- Values are stored as they are if each of them is, whatever was settled before. -/
theorem Storing.mapM_eq {f : Value → Storing Value} {inv : Settings → Prop}
    {values held : List Value}
    (hf : ∀ v ∈ values, ∀ w s s', inv s → f v s = .ok (w, s') → w = v ∧ inv s')
    {s s' : Settings} (hs : inv s) (h : values.mapM f s = .ok (held, s')) : held = values := by
  induction values generalizing held s with
  | nil => cases h; rfl
  | cons v values ih =>
    rw [List.forall_mem_cons] at hf
    rw [List.mapM_cons] at h
    obtain ⟨w, s₁, hw, h⟩ := Storing.bind_eq_ok.1 h
    obtain ⟨rest, s₂, hrest, h⟩ := Storing.bind_eq_ok.1 h
    cases h
    obtain ⟨rfl, hs₁⟩ := hf.1 w s s₁ hs hw
    rw [ih hf.2 hs₁ hrest]

/-- A column of a plain type holds its values as they were given. -/
theorem storeAll_eq {t : ColumnType} (ht : t.IsPlain) {values held : List Value}
    (hvalues : ∀ v ∈ values, Holds t v) (h : storeAll .given t values = .ok held) :
    held = values := by
  obtain ⟨⟨held', s⟩, hrun, h⟩ := Except.map_eq_ok.1 h
  cases h
  have hempty : TextKeys [] := by simp [TextKeys]
  exact Storing.mapM_eq (fun v hv w s s' hs hw => store_eq ht (hvalues v hv) hs hw) hempty hrun

/-! ### Converting values -/

theorem orInvalid_eq_ok {x : Option Value} {w : Value} (h : orInvalid x = .ok w) : x = some w := by
  cases x with
  | none => cases h
  | some v => cases h; rfl

theorem castInteger_eq_some {range : Int × Int} {i : Int} {w : Value}
    (h : castInteger range i = some w) : inRange range i = true ∧ w = .int i := by
  unfold castInteger at h
  split at h <;> cases h
  exact ⟨‹_›, rfl⟩

theorem inRange_of_integer? {range : Int × Int} {width : Nat} {cs : List Char} {i : Int}
    (h : ColumnText.integer? range width cs = some i) : inRange range i = true :=
  (Option.filter_eq_some_iff.1 h).2

/-- What is converted to an integer type is an integer of its range. -/
theorem castScalar_integer {t : ColumnType} {range : Int × Int} (ht : t.range? = some range)
    {v w : Value} (h : castScalar t v = .ok w) : ∃ i, inRange range i = true ∧ w = .int i := by
  cases t <;> cases ht
  all_goals
    cases v
    case bool b => cases h; exact ⟨_, by cases b <;> rfl, rfl⟩
    case int i => exact ⟨i, castInteger_eq_some (orInvalid_eq_ok h)⟩
    case float d =>
      obtain ⟨i, -, hi⟩ := Option.bind_eq_some_iff.1 (orInvalid_eq_ok h)
      exact ⟨i, castInteger_eq_some hi⟩
    case str s =>
      obtain ⟨i, hi, rfl⟩ := Option.map_eq_some_iff.1 (orInvalid_eq_ok h)
      exact ⟨i, inRange_of_integer? hi, rfl⟩
    all_goals cases h

theorem holds_of_castScalar {t : ColumnType} (ht : t.IsPlain)
    (hstruct : ∀ fields, t ≠ .struct fields) {v w : Value} (h : castScalar t v = .ok w) :
    Holds t w := by
  cases ht with
  | struct => exact absurd rfl (hstruct _)
  | bool =>
    cases v
    case bool b => cases h; exact .bool _
    case int i => cases h; exact .bool _
    case float d => cases h; exact .bool _
    case str s =>
      obtain ⟨b, -, rfl⟩ := Option.map_eq_some_iff.1 (orInvalid_eq_ok h)
      exact .bool b
    all_goals cases h
  | string =>
    cases v
    case bool b => cases h; exact .str _
    case int i => cases h; exact .str _
    case float d => cases h; exact .str _
    case str s => cases h; exact .str _
    all_goals cases h
  | integer ht =>
    obtain ⟨i, hi, rfl⟩ := castScalar_integer ht h
    exact .int ht hi

theorem holds_of_castAtom {t : ColumnType} (ht : t.IsPlain) (hstruct : ∀ fields, t ≠ .struct fields)
    {v w : Value} (h : castAtom t v = .ok w) : Holds t w := by
  unfold castAtom at h
  split at h
  · cases ht with | integer ht => cases ht
  · split at h
    · exact holds_of_castScalar ht hstruct h
    · cases h
  · exact holds_of_castScalar ht hstruct h

mutual

/-- What is converted to a plain type is a value of it. -/
theorem holds_of_cast {source target : ColumnType} (ht : target.IsPlain) {v w : Value}
    (h : cast source target v = .ok w) : Holds target w := by
  unfold cast at h
  cases target with
  | list item => cases ht with | integer ht => cases ht
  | struct fields =>
    cases ht with
    | integer ht => cases ht
    | struct hnames hfields =>
      simp only at h
      split at h
      · cases h
        exact .null _
      · rw [if_pos hnames] at h
        obtain ⟨converted, hconverted, h⟩ := Except.bind_eq_ok.1 h
        cases h
        exact .struct (holdsFields_of_castFields hfields hconverted)
      · cases h
        exact .null _
      · cases h
  | _ =>
    simp only at h
    split at h
    · cases h
      exact .null _
    · cases h
    · cases h
    · cases h
      exact .null _
    · exact holds_of_castAtom ht nofun h
termination_by sizeOf target

theorem holdsFields_of_castFields {source : List (String × ColumnType)} :
    ∀ {target : List (String × ColumnType)} {entries converted : List (Value × Value)},
      (∀ f ∈ target, f.2.IsPlain) → castFields source target entries = .ok converted →
      HoldsFields target converted
  | [], entries, converted, _, h => by
    rw [castFields] at h
    cases h
    exact .nil
  | (n, t) :: target, entries, converted, ht, h => by
    rw [List.forall_mem_cons] at ht
    have hcons : ∀ w, Holds t w →
        (do return (.str n, w) :: (← castFields source target entries)) = Except.ok converted →
        HoldsFields ((n, t) :: target) converted := by
      intro w hw h
      obtain ⟨rest, hrest, h⟩ := Except.bind_eq_ok.1 h
      cases h
      exact .cons hw (holdsFields_of_castFields ht.2 hrest)
    rw [castFields] at h
    simp only at h
    split at h
    · obtain ⟨w, hw, h⟩ := Except.bind_eq_ok.1 h
      exact hcons w (holds_of_cast ht.1 hw) h
    · exact hcons .null (.null _) h
termination_by target => sizeOf target

end

/-- A single value converted to a plain type is a value of it. -/
theorem holds_of_castValue {target : ColumnType} (ht : target.IsPlain) {v w : Value}
    (h : castValue target v = .ok w) : Holds target w := by
  obtain ⟨column, -, h⟩ := Except.bind_eq_ok.1 h
  exact holds_of_cast ht h

/-! ### Columns of keys -/

section

variable {kind : KeyKind} {values held : List Value} {t : ColumnType}

/-- The type of columns that a key which is not null makes, among keys of its kind. -/
inductive Fits : ColumnType → Value → Prop
  | bool (b : Bool) : Fits .bool (.bool b)
  | int (i : Int) : Fits .int64 (.int i)
  | str (s : String) : Fits .string (.str s)

theorem scalarType_of_isKey (h : ∀ v ∈ values, v.IsKey kind) :
    (scalarType values = .null ∧ ∀ v ∈ values, v = .null) ∨
      ∃ v ∈ values, Fits (scalarType values) v := by
  unfold scalarType
  split
  · rename_i hfloat
    obtain ⟨v, hv, hfloat⟩ := List.any_eq_true.1 hfloat
    cases h v hv <;> cases hfloat
  · split
    · rename_i hint
      obtain ⟨v, hv, hint⟩ := List.any_eq_true.1 hint
      cases h v hv with
      | int i => exact .inr ⟨_, hv, .int i⟩
      | null | bool | str => cases hint
    · split
      · rename_i hbool
        obtain ⟨v, hv, hbool⟩ := List.any_eq_true.1 hbool
        cases h v hv with
        | bool b => exact .inr ⟨_, hv, .bool b⟩
        | null | int | str => cases hbool
      · split
        · rename_i hbytes
          obtain ⟨v, hv, hbytes⟩ := List.any_eq_true.1 hbytes
          cases h v hv <;> cases hbytes
        · split
          · rename_i hstr
            obtain ⟨v, hv, hstr⟩ := List.any_eq_true.1 hstr
            cases h v hv with
            | str s => exact .inr ⟨_, hv, .str s⟩
            | null | bool | int => cases hstr
          · rename_i hint hbool _ hstr
            refine .inl ⟨rfl, fun v hv => ?_⟩
            cases h v hv with
            | null => rfl
            | bool => exact absurd (List.any_eq_true.2 ⟨_, hv, rfl⟩) hbool
            | int => exact absurd (List.any_eq_true.2 ⟨_, hv, rfl⟩) hint
            | str => exact absurd (List.any_eq_true.2 ⟨_, hv, rfl⟩) hstr

theorem seen_subset (values : List Value) : seen values ⊆ values := by
  induction values with
  | nil => simp [seen]
  | cons v values ih =>
    rw [seen]
    split
    · simp
    · exact List.cons_subset_cons v ih

/-- Keys that are not looked at stand behind one that is not null. -/
theorem eq_null_of_seen (h : ∀ v ∈ seen values, v = .null) : ∀ v ∈ values, v = .null := by
  induction values with
  | nil => simp
  | cons v values ih =>
    rw [seen] at h
    split at h
    · rename_i hsettles
      have hv := h v List.mem_cons_self
      subst hv
      cases hsettles
    · rw [List.forall_mem_cons] at h ⊢
      exact ⟨h.1, ih h.2⟩

theorem inspectAll_of_isKey (h : ∀ v ∈ values, v.IsKey kind) : inspectAll values = .ok () := by
  induction values with
  | nil => rw [inspectAll]
  | cons v values ih =>
    rw [List.forall_mem_cons] at h
    have hinspect : inspect v = .ok () := by cases h.1 <;> rfl
    rw [inspectAll, hinspect, Except.ok_bind, ih h.2]
    exact ite_self _

/-- Keys have no parts. -/
theorem inferWithin_of_isKey (h : ∀ v ∈ values, v.IsKey kind) (depth : Nat) :
    inferWithin depth values = .ok (scalarType (values.filter (!·.isNull))) := by
  have hkeys : ∀ v ∈ values.filter (!·.isNull), v.IsKey kind := fun v hv =>
    h v (List.mem_of_mem_filter hv)
  have hsequences : (values.filter (!·.isNull)).filterMap sequence? = [] :=
    List.filterMap_eq_nil_iff.2 fun v hv => by cases hkeys v hv <;> rfl
  have hmappings : (values.filter (!·.isNull)).filterMap mapping? = [] :=
    List.filterMap_eq_nil_iff.2 fun v hv => by cases hkeys v hv <;> rfl
  rw [inferWithin.eq_def]
  simp only [hsequences, hmappings, List.isEmpty_nil, Bool.and_self, if_true]

/-- The type that fits keys is that of one of them, or the null type if all of them are null. -/
theorem infer_of_isKey (h : ∀ v ∈ values, v.IsKey kind) :
    ∃ t, infer values = .ok t ∧
      ((t = .null ∧ ∀ v ∈ values, v = .null) ∨ ∃ v ∈ values, Fits t v) := by
  have hseen : ∀ v ∈ seen values, v.IsKey kind := fun v hv => h v (seen_subset values hv)
  have hscalar : ∀ v ∈ (seen values).filter (!·.isNull), v.IsKey kind := fun v hv =>
    hseen v (List.mem_of_mem_filter hv)
  rw [infer, inspectAll_of_isKey h, Except.ok_bind, inferWithin_of_isKey hseen, Except.ok_bind]
  rcases scalarType_of_isKey hscalar with ⟨hnull, hall⟩ | ⟨v, hv, hfits⟩
  · rw [hnull]
    refine ⟨_, rfl, .inl ⟨rfl, eq_null_of_seen fun v hv => ?_⟩⟩
    by_contra hne
    refine hne (hall v (List.mem_filter.2 ⟨hv, ?_⟩))
    cases hseen v hv <;> first | rfl | exact absurd rfl hne
  · have hv := seen_subset values (List.mem_of_mem_filter hv)
    generalize scalarType _ = t at hfits
    cases hfits with
    | bool b => exact ⟨_, rfl, .inr ⟨_, hv, .bool b⟩⟩
    | int i => exact ⟨_, rfl, .inr ⟨_, hv, .int i⟩⟩
    | str s =>
      refine ⟨_, rfl, .inr ⟨_, hv, ?_⟩⟩
      rw [if_neg]
      · exact .str s
      · intro hbytes
        obtain ⟨w, hw, hbytes⟩ := List.any_eq_true.1 hbytes
        cases h w hw <;> cases hbytes

end

section

variable {kind : CellKind} {values : List Value} {t : ColumnType}

theorem Fits.eq_type {v : Value} (h : Fits t v) (hv : v.IsCell kind) : t = kind.type := by
  cases h <;> cases hv <;> rfl

theorem store_null (origin : Origin) (t : ColumnType) (place : List Nat) (s : Settings) :
    store origin t place .null s = .ok (.null, s) := by
  rw [store.eq_def]
  rfl

theorem inRange_int64 {i : Int} :
    inRange (-Int.pow 2 63, Int.pow 2 63 - 1) i = true ↔ -2 ^ 63 ≤ i ∧ i < 2 ^ 63 := by
  have hpow : Int.pow 2 63 = 2 ^ 63 := rfl
  rw [inRange, hpow, Bool.and_eq_true, decide_eq_true_iff, decide_eq_true_iff]
  omega

/-- An integer of 64 bits is stored as it is. -/
theorem storeScalar_int {i : Int} (hi : -2 ^ 63 ≤ i ∧ i < 2 ^ 63) (origin : Origin) :
    storeScalar origin .int64 (.int i) = .ok (.int i) := by
  have hword : wordRange (-Int.pow 2 63, Int.pow 2 63 - 1) =
      (-Int.pow 2 63, Int.pow 2 63 - 1) := rfl
  simp only [storeScalar, range?, storeInteger, hword, inRange_int64.2 hi]
  rfl

theorem store_of_isCell {v : Value} (hv : v.IsCell kind) (s : Settings) :
    store .found kind.type [] v s = .ok (v, s) := by
  cases hv with
  | null => exact store_null _ _ _ _
  | bool b => rfl
  | int hi =>
    rw [store.eq_def]
    change (liftM (storeScalar .found .int64 (.int _)) : Storing Value) s = _
    rw [storeScalar_int hi]
    rfl
  | str t => rfl

theorem storeAll_eq_self {origin : Origin}
    (h : ∀ v ∈ values, ∀ s, store origin t [] v s = .ok (v, s)) :
    storeAll origin t values = .ok values := by
  have hrun : ∀ s, values.mapM (store origin t []) s = .ok (values, s) := by
    intro s
    induction values with
    | nil => rfl
    | cons v values ih =>
      rw [List.forall_mem_cons] at h
      rw [List.mapM_cons]
      refine Storing.bind_eq_ok.2 ⟨v, s, h.1 s, ?_⟩
      exact Storing.bind_eq_ok.2 ⟨values, s, ih h.2, rfl⟩
  exact Except.map_eq_ok.2 ⟨(values, []), hrun [], rfl⟩

/-- Keys of one kind make a column of its type, which has them as they are, or one of nulls. -/
theorem exists_column_of_isCell (h : ∀ v ∈ values, v.IsCell kind) :
    ∃ t, column values = .ok (t, values) ∧
      ((t = .null ∧ ∀ v ∈ values, v = .null) ∨ t = kind.type) := by
  obtain ⟨t, hinfer, hfits⟩ := infer_of_isKey fun v hv => (h v hv).isKey
  have hstore : storeAll .found t values = .ok values := by
    refine storeAll_eq_self fun v hv s => ?_
    rcases hfits with ⟨-, hnull⟩ | ⟨w, hw, ht⟩
    · rw [hnull v hv, store_null]
    · rw [ht.eq_type (h w hw)]
      exact store_of_isCell (h v hv) s
  refine ⟨t, ?_, hfits.imp_right fun ⟨w, hw, ht⟩ => ht.eq_type (h w hw)⟩
  rw [column, hinfer, Except.ok_bind, hstore]
  rfl

/-- What holds of all values that can be stored holds of those that were stored. -/
theorem Storing.forall_of_mapM {f : Value → Storing Value} {P : Value → Prop} {held : List Value}
    {s s' : Settings} (hf : ∀ v ∈ values, ∀ w s s', f v s = .ok (w, s') → P v)
    (h : values.mapM f s = .ok (held, s')) : ∀ v ∈ values, P v := by
  induction values generalizing held s s' with
  | nil => exact List.forall_mem_nil _
  | cons v values ih =>
    rw [List.forall_mem_cons] at hf ⊢
    rw [List.mapM_cons] at h
    obtain ⟨w, s₁, hw, h⟩ := Storing.bind_eq_ok.1 h
    obtain ⟨rest, s₂, hrest, -⟩ := Storing.bind_eq_ok.1 h
    exact ⟨hf.1 w s s₁ hw, ih hf.2 hrest⟩

/-- A truth value or an integer is stored into a column of its own type. -/
theorem fits_of_store {v₀ v w : Value} (ht : Fits t v₀) (hv : v.IsCell .bool ∨ v.IsCell .integer)
    {s s' : Settings} (h : store .found t [] v s = .ok (w, s')) : v = .null ∨ Fits t v := by
  unfold store at h
  rcases hv with hv | hv <;> cases hv
  case inl.null | inr.null => exact .inl rfl
  case inl.bool b =>
    cases ht with
    | bool => exact .inr (.bool b)
    | int | str => cases h
  case inr.int i hi =>
    cases ht with
    | int => exact .inr (.int i)
    | bool | str => cases h

/-- Truth values and integers make no column together. -/
theorem isCell_of_column {c : ColumnType × List Value} (h : column values = .ok c)
    (hvalues : ∀ v ∈ values, v.IsCell .bool ∨ v.IsCell .integer) :
    (∀ v ∈ values, v.IsCell .bool) ∨ ∀ v ∈ values, v.IsCell .integer := by
  obtain ⟨t, hinfer, h⟩ := Except.bind_eq_ok.1 h
  obtain ⟨held, hstore, -⟩ := Except.bind_eq_ok.1 h
  have hkeys : ∀ v ∈ values, v.IsKey .number := fun v hv =>
    (hvalues v hv).elim (·.isKey) (·.isKey)
  obtain ⟨t', hinfer', hfits⟩ := infer_of_isKey hkeys
  cases hinfer.symm.trans hinfer'
  rcases hfits with ⟨-, hnull⟩ | ⟨v₀, -, ht⟩
  · refine .inl fun v hv => ?_
    rw [hnull v hv]
    exact .null _
  · obtain ⟨⟨held', s⟩, hrun, -⟩ := Except.map_eq_ok.1 hstore
    have hall := Storing.forall_of_mapM (fun v hv w s s' => fits_of_store ht (hvalues v hv)) hrun
    cases ht with
    | bool =>
      refine .inl fun v hv => ?_
      rcases hall v hv with rfl | hfits
      · exact .null _
      · cases hfits
        exact .bool _
    | int | str =>
      refine .inr fun v hv => ?_
      rcases hall v hv with rfl | hfits
      · exact .null _
      · rcases hvalues v hv with hv | hv
        · cases hfits
          cases hv
        · exact hv

end

end RecordQuery.ColumnType
