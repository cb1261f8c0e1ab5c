import RecordQuery.Coercion
import RecordQuery.Proofs.WritableMembers

/-!
# Coercions give values of the declared type

A coercion passes a value that already has the type (`Coercion.convert_of_accepts`) and calls the
class of the type with any other. What a built-in class or a declared class gives is an instance of
it (`Value.converts_toBuiltin`, `Catalog.isInstance_construct`), so that the result has the type and
passes unchanged itself. A call fails because the value does not fit, and all such failures are
reported as one error that names the value. Other errors come out only if the value cannot be shown,
or if a part of it that was to become a key cannot be told to be one (`Coercion.Escapes`).
-/

namespace RecordQuery

/-! ### Built-in classes -/

/-- What calling the class gives is an instance of it, and a call fails because of the value. Only
making bytes can fail for want of memory, and going backwards through a list is left to another
class. -/
def Builtin.makesInstances : Builtin → Bool
  | .bytes | .other "bytearray" | .other "reversed" => false
  | _ => true

/-- The type has no class of its own that could be called. -/
def TypeExpr.isOpen : TypeExpr → Bool
  | .any | .union .. => true
  | _ => false

namespace Value

open Coercion (isBuiltin isMisfit)

variable {catalog : Catalog} {b : Builtin} {v w : Value} {kind : Value → Prop}
  {apart : Error → Prop}

/-- The parts of a value that become keys of what the class makes of it. -/
def hashedBy (b : Builtin) (v : Value) : List Value :=
  match b with
  | .dict =>
    (v.iterate?.getD []).filterMap fun item =>
      match item.iterate? with
      | some [k, _] => some k
      | _ => none
  | .other "set" | .other "frozenset" => v.iterate?.getD []
  | _ => []

/-- The conversion gives a value of the kind, or fails because the value does not fit or by one of
the errors that are set apart. -/
inductive Converts (kind : Value → Prop) (apart : Error → Prop) : Except Error Value → Prop
  | value {w : Value} (h : kind w) : Converts kind apart (.ok w)
  | misfit {e : Error} (h : isMisfit e = true) : Converts kind apart (.error e)
  | other {e : Error} (h : apart e) : Converts kind apart (.error e)

namespace Converts

theorem bind {α : Type} {x : Except Error α} {f : α → Except Error Value}
    (herror : ∀ e, x = .error e → isMisfit e = true ∨ apart e)
    (hok : ∀ a, x = .ok a → Converts kind apart (f a)) : Converts kind apart (x >>= f) := by
  cases x with
  | ok a => exact hok a rfl
  | error e => exact (herror e rfl).elim .misfit .other

theorem mono {kind' : Value → Prop} {apart' : Error → Prop} {x : Except Error Value}
    (h : Converts kind apart x) (hkind : ∀ w, kind w → kind' w) (hapart : ∀ e, apart e → apart' e) :
    Converts kind' apart' x := by
  cases h with
  | value h => exact .value (hkind _ h)
  | misfit h => exact .misfit h
  | other h => exact .other (hapart _ h)

theorem orBadValue {α : Type} {f : α → Value} (o : Option α) (h : ∀ a, kind (f a)) :
    Converts kind apart (Value.orBadValue (o.map f)) := by
  cases o with
  | none => exact .misfit rfl
  | some a => exact .value (h a)

end Converts

theorem isMisfit_of_iterate {e : Error} (h : v.iterate = .error e) : isMisfit e = true := by
  unfold iterate at h
  split at h
  · cases h
  · cases h
    rfl

theorem iterate?_of_iterate {items : List Value} (h : v.iterate = .ok items) :
    v.iterate? = some items := by
  unfold iterate at h
  split at h
  · cases h
    assumption
  · cases h

theorem isMisfit_of_doubleOfInt {i : Int} {e : Error} (h : doubleOfInt i = .error e) :
    isMisfit e = true := by
  unfold doubleOfInt at h
  split at h
  · cases h
  · cases h
    rfl

theorem converts_toInt (v : Value) (apart : Error → Prop) :
    Converts (isBuiltin .int · = true) apart v.toInt := by
  unfold toInt
  split
  · exact .value rfl
  · exact .value rfl
  · split
    · exact .misfit rfl
    · exact .misfit rfl
    · exact .value rfl
  · exact .orBadValue _ fun _ => rfl
  · exact .orBadValue _ fun _ => rfl
  · exact .misfit rfl

theorem converts_toFloat (v : Value) (apart : Error → Prop) :
    Converts (isBuiltin .float · = true) apart v.toFloat := by
  unfold toFloat
  split
  · exact .value rfl
  · exact .bind (fun _ h => .inl (isMisfit_of_doubleOfInt h)) fun _ _ => .value rfl
  · exact .value rfl
  · exact .orBadValue _ fun _ => rfl
  · exact .orBadValue _ fun _ => rfl
  · exact .misfit rfl

/-- A pair that is stored fails to be one, or its key fails to be a key. -/
theorem isMisfit_or_of_toPair {item : Value} {entries : List (Value × Value)} {e : Error}
    (h : (do
      let (k, w) ← item.toPair
      setEntry catalog k w entries) = .error e) :
    isMisfit e = true ∨ ∃ k w, item.iterate? = some [k, w] ∧ checkKey catalog k = .error e := by
  rcases Except.bind_eq_error.1 h with h | ⟨⟨k, w⟩, hpair, h⟩
  · rcases Except.bind_eq_error.1 h with h | ⟨items, -, h⟩
    · exact .inl (isMisfit_of_iterate h)
    · split at h
      · cases h
      · cases h
        exact .inl rfl
  · obtain ⟨items, hitems, hpair⟩ := Except.bind_eq_ok.1 hpair
    split at hpair
    · cases hpair
      rcases Except.bind_eq_error.1 h with h | ⟨u, -, h⟩
      · exact .inr ⟨k, w, iterate?_of_iterate hitems, h⟩
      · cases h
    · cases hpair

theorem converts_toDict (catalog : Catalog) (v : Value) :
    Converts (isBuiltin .dict · = true)
      (fun e => ∃ k ∈ v.hashedBy .dict, checkKey catalog k = .error e) (v.toDict catalog) := by
  unfold toDict
  split
  · exact .value rfl
  · apply Converts.bind fun e h => .inl (isMisfit_of_iterate h)
    intro items hitems
    refine .bind ?_ fun _ _ => .value rfl
    intro e h
    obtain ⟨item, hitem, entries, h⟩ := Except.exists_of_foldlM_error h
    rcases isMisfit_or_of_toPair h with h | ⟨k, w, hpair, hkey⟩
    · exact .inl h
    · refine .inr ⟨k, ?_, hkey⟩
      rw [hashedBy, iterate?_of_iterate hitems]
      exact List.mem_filterMap.2 ⟨item, hitem, by rw [hpair]⟩

theorem isMisfit_of_checkComplex {e : Error} (h : v.checkComplex = .error e) :
    isMisfit e = true := by
  unfold checkComplex at h
  split at h
  · cases h
  · cases h
  · rcases Except.bind_eq_error.1 h with h | ⟨d, -, h⟩
    · exact isMisfit_of_doubleOfInt h
    · cases h
  · split at h
    · cases h
    · cases h
      rfl
  · cases h
    rfl

theorem isBuiltin_instanceOf (cls : String) : isBuiltin (.other cls) (instanceOf cls) = true := by
  simp [isBuiltin, instanceOf]

/-- A set of the items of a value fails to be made of what cannot be gone through, or of an item
that fails to be a key. -/
theorem converts_set (catalog : Catalog) (v : Value) (h : kind w) :
    Converts kind (fun e => ∃ k ∈ v.iterate?.getD [], checkKey catalog k = .error e)
      (do
        (← v.iterate).forM (checkKey catalog)
        return w) := by
  apply Converts.bind fun e h => .inl (isMisfit_of_iterate h)
  intro items hitems
  refine .bind ?_ fun _ _ => .value h
  intro e he
  rw [iterate?_of_iterate hitems]
  exact .inr (Except.exists_of_forM_error he)

theorem converts_toOther (catalog : Catalog) {cls : String} (v : Value)
    (hcls : (Builtin.other cls).makesInstances = true) :
    Converts (isBuiltin (.other cls) · = true)
      (fun e => ∃ k ∈ v.hashedBy (.other cls), checkKey catalog k = .error e)
      (v.toOther catalog cls) := by
  have hmade := isBuiltin_instanceOf cls
  unfold toOther
  split
  case h_1 => exact converts_set catalog v hmade
  case h_2 => exact converts_set catalog v hmade
  case h_3 => cases hcls
  case h_4 =>
    split
    · exact .value hmade
    · exact .value hmade
    · exact .misfit rfl
  case h_5 => exact .bind (fun _ h => .inl (isMisfit_of_checkComplex h)) fun _ _ => .value hmade
  case h_6 => exact .bind (fun _ h => .inl (isMisfit_of_iterate h)) fun _ _ => .value hmade
  case h_7 => exact .bind (fun _ h => .inl (isMisfit_of_iterate h)) fun _ _ => .value hmade
  case h_8 => cases hcls
  case h_9 =>
    split
    · exact .value hmade
    · exact .misfit rfl
  case h_10 =>
    split
    · exact .value hmade
    · exact .misfit rfl
  case h_16 =>
    split
    · exact .value hmade
    · exact .misfit rfl
  all_goals exact .value hmade

/-- **Calling a built-in class** gives an instance of it. -/
theorem converts_toBuiltin (catalog : Catalog) (v : Value) (hb : b.makesInstances = true) :
    Converts (isBuiltin b · = true)
      (fun e => v.text catalog = .error e ∨ ∃ k ∈ v.hashedBy b, checkKey catalog k = .error e)
      (v.toBuiltin catalog b) := by
  cases b with
  | int => exact converts_toInt v _
  | float => exact converts_toFloat v _
  | str =>
    refine .bind ?_ fun _ _ => .value rfl
    intro e h
    unfold plainText at h
    split at h
    · cases h
    · exact .inr (.inl h)
  | bool =>
    refine .bind ?_ fun _ _ => .value rfl
    intro e h
    unfold truthy at h
    split at h <;> cases h
    exact .inl rfl
  | bytes => cases hb
  | list => exact .bind (fun _ h => .inl (isMisfit_of_iterate h)) fun _ _ => .value rfl
  | tuple => exact .bind (fun _ h => .inl (isMisfit_of_iterate h)) fun _ _ => .value rfl
  | dict => exact (converts_toDict catalog v).mono (fun _ => id) fun _ => .inr
  | object => exact .misfit rfl
  | other cls => exact (converts_toOther catalog v hb).mono (fun _ => id) fun _ => .inr

end Value

/-! ### Declared classes -/

namespace Catalog

variable {catalog : Catalog} {cls : String} {v w : Value}

theorem exists_mem_lineageIn {classes : List ClassDecl} (h : lineageIn cls classes ≠ []) :
    ∃ c ∈ lineageIn cls classes, c.name = cls := by
  induction classes with
  | nil => exact absurd rfl h
  | cons c classes ih =>
    rw [lineageIn] at h ⊢
    split at h
    · rename_i hname
      rw [if_pos hname]
      exact ⟨c, List.mem_append_right _ (List.mem_singleton_self c), hname⟩
    · rename_i hname
      rw [if_neg hname]
      exact ih h

theorem lineage_ne_nil_of_construct (h : catalog.construct cls [v] [] = .ok w) :
    catalog.lineage cls ≠ [] := by
  intro hnil
  have hnone : catalog.construction? cls = none := by rw [construction?, hnil]; rfl
  rw [construct, hnone] at h
  cases h

/-- **Calling a declared class** gives an instance of it, if instances can be told at all. -/
theorem isInstance_construct (hv : Coercion.isInstance catalog (.record cls) v = .ok false)
    (h : catalog.construct cls [v] [] = .ok w) :
    Coercion.isInstance catalog (.record cls) w = .ok true := by
  obtain ⟨attrs, rfl⟩ := eq_record_of_construct h
  obtain ⟨c, hc, hname⟩ := exists_mem_lineageIn (lineage_ne_nil_of_construct h)
  simp only [Coercion.isInstance] at hv ⊢
  split at hv
  · cases hv
  · rename_i hmapping
    have hclass : (catalog.lineage cls).any (·.name == cls) = true :=
      List.any_eq_true.2 ⟨c, hc, beq_iff_eq.2 hname⟩
    rw [if_neg hmapping, hclass]

end Catalog

/-! ### Conversions -/

namespace Coercion

variable {catalog : Catalog} {t cls : TypeExpr} {v r : Value} {e : Error}

theorem isMisfit_of_isInstance (h : isInstance catalog cls v = .error e) : isMisfit e = true := by
  unfold isInstance at h
  split at h
  · cases h
  · split at h
    · cases h
      rfl
    · split at h <;> cases h
  · cases h
  · cases h
    rfl

theorem isMisfit_of_isMember {members : List TypeExpr}
    (h : isMember catalog v members = .error e) : isMisfit e = true := by
  induction members with
  | nil => cases h
  | cons t members ih =>
    rw [isMember] at h
    split at h
    · rename_i cls hcls
      rcases Except.bind_eq_error.1 h with h | ⟨p, -, h⟩
      · exact isMisfit_of_isInstance h
      · cases p with
        | true => cases h
        | false => exact ih h
    · exact ih h

/-- The value has the type already. -/
inductive Accepts (catalog : Catalog) (v : Value) : TypeExpr → Prop
  | any : Accepts catalog v .any
  | union {style : UnionStyle} {members : List TypeExpr}
    (h : isMember catalog v members = .ok true) : Accepts catalog v (.union style members)
  | origin {t cls : TypeExpr} (hcls : originClass? t = some cls)
    (h : isInstance catalog cls v = .ok true) : Accepts catalog v t

/-- What is called with a value that is no instance of the type's class. -/
def call (catalog : Catalog) (t : TypeExpr) (v : Value) : Except Error Value :=
  match t with
  | .builtin b => v.toBuiltin catalog b
  | .record name => catalog.construct name [v] []
  | _ => fail .wrongType

theorem convert_of_originClass? (hopen : t.isOpen = false) (hcls : originClass? t = some cls) :
    convert catalog t v =
      isInstance catalog cls v >>= fun p => if p then return v else call catalog t v := by
  cases t with
  | any => cases hopen
  | _ => cases hcls <;> rfl

theorem convert_of_originClass?_eq_none (hopen : t.isOpen = false) (hcolumn : ∀ c, t ≠ .column c)
    (hcls : originClass? t = none) : convert catalog t v = fail .wrongType := by
  cases t with
  | column c => exact absurd rfl (hcolumn c)
  | any => cases hopen
  | union style members => cases hopen
  | _ => first | rfl | exact absurd hcls (Option.some_ne_none _)

/-- A value that has the type already passes unchanged. -/
theorem convert_of_accepts (h : Accepts catalog v t) : convert catalog t v = .ok v := by
  cases h with
  | any => rfl
  | union h =>
    rw [convert, h]
    rfl
  | @origin _ cls hcls h =>
    have hopen : t.isOpen = false := by
      cases t with
      | any =>
        cases hcls
        cases h
      | _ => cases hcls <;> rfl
    rw [convert_of_originClass? hopen hcls, h]
    rfl

/-- The value is converted to the other one: the same if the type is open, otherwise an instance of
the class of the type, and the same if the value was one. -/
structure Fits (catalog : Catalog) (t : TypeExpr) (v r : Value) : Prop where
  same : t.isOpen = true → r = v
  typed : t.isOpen = false → ∃ cls, originClass? t = some cls ∧
    isInstance catalog cls r = .ok true ∧ (isInstance catalog cls v = .ok true → r = v)

namespace Fits

theorem of_isOpen (h : t.isOpen = true) : Fits catalog t v v :=
  ⟨fun _ => rfl, fun hopen => nomatch h.symm.trans hopen⟩

theorem of_originClass? (hopen : t.isOpen = false) (hcls : originClass? t = some cls)
    (hr : isInstance catalog cls r = .ok true)
    (hsame : isInstance catalog cls v = .ok true → r = v) : Fits catalog t v r :=
  ⟨fun h => (nomatch h.symm.trans hopen), fun _ => ⟨cls, hcls, hr, hsame⟩⟩

/-- What a value is converted to passes unchanged. -/
theorem convert_eq (h : Fits catalog t v r) (hr : convert catalog t v = .ok r) :
    convert catalog t r = .ok r := by
  cases hopen : t.isOpen with
  | true => rwa [h.same hopen] at hr ⊢
  | false =>
    obtain ⟨cls, hcls, hinstance, -⟩ := h.typed hopen
    exact convert_of_accepts (.origin hcls hinstance)

end Fits

theorem isNull_eq_false_of_isBuiltin {b : Builtin} (hv : isBuiltin b v = false)
    (hr : isBuiltin b r = true) : r.isNull = false := by
  cases r with
  | null =>
    cases b with
    | object => cases hv
    | _ => cases hr
  | _ => rfl

/-- What may come out in place of the report that a value does not fit. -/
inductive Escapes (catalog : Catalog) (t : TypeExpr) (v : Value) (e : Error) : Prop
  /-- The value cannot be shown, and so not be reported either. -/
  | unshown (h : v.text catalog = .error e)
  /-- A part of the value that is to become a key cannot be told to be one. -/
  | unhashed {b : Builtin} {k : Value} (ht : t = .builtin b) (hk : k ∈ v.hashedBy b)
    (h : Value.checkKey catalog k = .error e)

/-- **What is called** with a value gives an instance of the class of the type. -/
theorem converts_call (hbuiltin : ∀ b, t = .builtin b → b.makesInstances = true)
    (hrecord : ∀ name e, t = .record name → catalog.construct name [v] [] = .error e →
      isMisfit e = true)
    (hcls : originClass? t = some cls) (hv : isInstance catalog cls v = .ok false) :
    Value.Converts (fun r => isInstance catalog cls r = .ok true ∧ r.isNull = false)
      (Escapes catalog t v) (call catalog t v) := by
  cases t with
  | builtin b =>
    cases hcls
    have hv : isBuiltin b v = false := by simpa [isInstance] using hv
    apply (Value.converts_toBuiltin catalog v (hbuiltin b rfl)).mono
    · intro r hr
      exact ⟨by rw [isInstance, hr], isNull_eq_false_of_isBuiltin hv hr⟩
    · intro e he
      rcases he with he | ⟨k, hk, he⟩
      · exact .unshown he
      · exact .unhashed rfl hk he
  | record name =>
    cases hcls
    rw [call]
    cases hmade : catalog.construct name [v] [] with
    | ok r =>
      obtain ⟨attrs, rfl⟩ := Catalog.eq_record_of_construct hmade
      exact .value ⟨Catalog.isInstance_construct hv hmade, rfl⟩
    | error e => exact .misfit (hrecord name e rfl hmade)
  | _ => exact .misfit rfl

/-- **Conversions fit**: what comes out is of the type, and what fails does not fit. -/
theorem converts_convert (hv : v.isNull = false) (hcolumn : ∀ c, t ≠ .column c)
    (hbuiltin : ∀ b, t = .builtin b → b.makesInstances = true)
    (hrecord : ∀ name e, t = .record name → catalog.construct name [v] [] = .error e →
      isMisfit e = true) :
    Value.Converts (fun r => Fits catalog t v r ∧ r.isNull = false) (Escapes catalog t v)
      (convert catalog t v) := by
  cases hopen : t.isOpen with
  | true =>
    have hfits : Fits catalog t v v := .of_isOpen hopen
    cases t with
    | any => exact .value ⟨hfits, hv⟩
    | union style members =>
      rw [convert]
      apply Value.Converts.bind fun e h => .inl (isMisfit_of_isMember h)
      intro p _
      cases p with
      | true => exact .value ⟨hfits, hv⟩
      | false => exact .misfit rfl
    | _ => cases hopen
  | false =>
    cases hcls : originClass? t with
    | none =>
      rw [convert_of_originClass?_eq_none hopen hcolumn hcls]
      exact .misfit rfl
    | some cls =>
      rw [convert_of_originClass? hopen hcls]
      apply Value.Converts.bind fun e h => .inl (isMisfit_of_isInstance h)
      intro p hp
      cases p with
      | true => exact .value ⟨.of_originClass? hopen hcls hp fun _ => rfl, hv⟩
      | false =>
        refine (converts_call hbuiltin hrecord hcls hp).mono ?_ fun _ => id
        rintro r ⟨hr, hnull⟩
        have hsame : isInstance catalog cls v = .ok true → r = v := fun h => by
          cases hp.symm.trans h
        exact ⟨.of_originClass? hopen hcls hr hsame, hnull⟩

variable {c : Coercion} {field : String}

theorem apply_of_convert (hv : v.isNull = false)
    (h : convert catalog c.target.unwrapOptional v = .ok r) : c.apply catalog field v = .ok r := by
  rw [apply, if_neg (by simp [hv]), h]

/-- What does not fit is reported, if it can be shown. -/
theorem apply_of_misfit (hv : v.isNull = false)
    (h : convert catalog c.target.unwrapOptional v = .error e) (he : isMisfit e = true) :
    c.apply catalog field v = v.text catalog >>= fun shown =>
      .error (.coercionFailure field c.source c.target v shown) := by
  rw [apply, if_neg (by simp [hv]), h]
  simp only [he, if_true]

theorem apply_of_error (hv : v.isNull = false)
    (h : convert catalog c.target.unwrapOptional v = .error e) (he : isMisfit e = false) :
    c.apply catalog field v = .error e := by
  rw [apply, if_neg (by simp [hv]), h]
  simp [he]

/-- **Coercions are typed.** Null stays null, and so does a value that has the type without the null
in it. Any other value is converted to one that fits this type and is converted to itself, or there
is one error, which names the member, both types and the value. That other errors come out takes a
value that cannot be shown or hashed, if what the class of the type fails by tells that the value
does not fit. -/
theorem apply_typed (catalog : Catalog) (c : Coercion) (field : String) (v : Value)
    (hcolumn : ∀ t, c.target.unwrapOptional ≠ .column t)
    (hbuiltin : ∀ b, c.target.unwrapOptional = .builtin b → b.makesInstances = true)
    (hrecord : ∀ name e, c.target.unwrapOptional = .record name →
      catalog.construct name [v] [] = .error e → isMisfit e = true) :
    (v.isNull = true → c.apply catalog field v = .ok v) ∧
    (Accepts catalog v c.target.unwrapOptional → c.apply catalog field v = .ok v) ∧
    (v.isNull = false →
      (∃ r, c.apply catalog field v = .ok r ∧ r.isNull = false ∧
        Fits catalog c.target.unwrapOptional v r ∧ c.apply catalog field r = .ok r) ∨
      (∃ shown, v.text catalog = .ok shown ∧
        c.apply catalog field v = .error (.coercionFailure field c.source c.target v shown)) ∨
      ∃ e, c.apply catalog field v = .error e ∧ Escapes catalog c.target.unwrapOptional v e) := by
  have hnull : v.isNull = true → c.apply catalog field v = .ok v := by
    intro hv
    cases v with
    | null => rfl
    | _ => cases hv
  refine ⟨hnull, ?_, ?_⟩
  · intro haccepts
    cases hv : v.isNull with
    | true => exact hnull hv
    | false => exact apply_of_convert hv (convert_of_accepts haccepts)
  intro hv
  have hmisfit : ∀ e, convert catalog c.target.unwrapOptional v = .error e → isMisfit e = true →
      (∃ shown, v.text catalog = .ok shown ∧
        c.apply catalog field v = .error (.coercionFailure field c.source c.target v shown)) ∨
      ∃ e, c.apply catalog field v = .error e ∧ Escapes catalog c.target.unwrapOptional v e := by
    intro e he hmisfit
    rw [apply_of_misfit hv he hmisfit]
    cases hshown : v.text catalog with
    | ok shown => exact .inl ⟨shown, rfl, rfl⟩
    | error e' => exact .inr ⟨e', rfl, .unshown hshown⟩
  have hconverts := converts_convert hv hcolumn hbuiltin hrecord
  generalize hresult : convert catalog c.target.unwrapOptional v = result at hconverts
  cases hconverts with
  | @value r h =>
    obtain ⟨hfits, hr⟩ := h
    exact .inl ⟨r, apply_of_convert hv hresult, hr, hfits,
      apply_of_convert hr (hfits.convert_eq hresult)⟩
  | @misfit e h => exact .inr (hmisfit e hresult h)
  | @other e h =>
    cases he : isMisfit e with
    | true => exact .inr (hmisfit e hresult he)
    | false => exact .inr (.inr ⟨e, apply_of_error hv hresult he, h⟩)

/-- Prices are made of cents; the text of a draft is not given when it is made. -/
private def priceList : Catalog where
  classes := [
    { name := "Price", kind := .data false false,
      fields := [{ name := "cents", type := .builtin .int }] },
    { name := "Draft", kind := .data false false,
      fields := [{ name := "text", type := .builtin .str, initial := false }] }]

private def toPrice : Coercion where
  source := .builtin .int
  target := .union .named [.record "Price", .nullType]

theorem apply_typed_price :
    ∃ r, toPrice.apply priceList "price" (.int 5) = .ok r ∧
      isInstance priceList (.record "Price") r = .ok true ∧
      toPrice.apply priceList "price" r = .ok r := by
  have htarget : toPrice.target.unwrapOptional = .record "Price" := rfl
  have hmade : priceList.construct "Price" [.int 5] [] =
      .ok (.record "Price" 0 [("cents", .int 5)]) := rfl
  have hgiven : toPrice.apply priceList "price" (.int 5) =
      .ok (.record "Price" 0 [("cents", .int 5)]) := rfl
  have hrecord : ∀ name e, toPrice.target.unwrapOptional = .record name →
      priceList.construct name [.int 5] [] = .error e → isMisfit e = true := by
    intro name e hname h
    cases htarget.symm.trans hname
    cases hmade.symm.trans h
  obtain ⟨-, -, htyped⟩ := apply_typed priceList toPrice "price" (.int 5)
    (fun t h => by cases htarget.symm.trans h) (fun b h => by cases htarget.symm.trans h) hrecord
  rcases htyped rfl with ⟨r, hr, -, hfits, hagain⟩ | ⟨shown, -, h⟩ | ⟨e, h, -⟩
  · obtain ⟨cls, hcls, hinstance, -⟩ := hfits.typed rfl
    cases hcls
    exact ⟨r, hr, hinstance, hagain⟩
  · cases hgiven.symm.trans h
  · cases hgiven.symm.trans h

/-- A draft without a text is no number, but its failure to be one cannot be reported: that it has
no text comes out instead. -/
theorem apply_draft :
    priceList.construct "Draft" [] [] = .ok (.record "Draft" 0 []) ∧
      convert priceList (.builtin .int) (.record "Draft" 0 []) = fail .wrongType ∧
      Coercion.apply priceList ⟨.record "Draft", .builtin .int⟩ "pages" (.record "Draft" 0 []) =
        fail .noAttribute :=
  ⟨rfl, rfl, rfl⟩

end Coercion
end RecordQuery
