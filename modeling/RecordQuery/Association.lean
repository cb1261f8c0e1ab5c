/-!
Entries by name, in the order in which the names were first set.
-/

namespace RecordQuery

/-- Sets the value of a key: in place if the key is there, otherwise at the end. -/
def put {α : Type} (entries : List (String × α)) (key : String) (value : α) : List (String × α) :=
  match entries with
  | [] => [(key, value)]
  | (k, v) :: rest => if k = key then (key, value) :: rest else (k, v) :: put rest key value

theorem lookup_put_self {α : Type} (entries : List (String × α)) (key : String) (value : α) :
    (put entries key value).lookup key = some value := by
  induction entries with
  | nil => simp [put]
  | cons e rest ih =>
    obtain ⟨k, v⟩ := e
    by_cases h : k = key
    · simp [put, h]
    · have hk : (key == k) = false := by simp [Ne.symm h]
      simp [put, h, List.lookup_cons, hk, ih]

theorem lookup_put_of_ne {α : Type} {other key : String} (h : other ≠ key)
    (entries : List (String × α)) (value : α) :
    (put entries key value).lookup other = entries.lookup other := by
  have ho : (other == key) = false := beq_false_of_ne h
  induction entries with
  | nil => simp [put, h]
  | cons e rest ih =>
    obtain ⟨k, v⟩ := e
    by_cases hk : k = key
    · simp [put, hk, List.lookup_cons, ho]
    · cases hx : other == k <;> simp [put, hk, List.lookup_cons, hx, ih]

/-- A key that is there keeps its place, and a new one comes last. -/
theorem keys_put {α : Type} (entries : List (String × α)) (key : String) (value : α) :
    (put entries key value).map (·.1) =
      if key ∈ entries.map (·.1) then entries.map (·.1) else entries.map (·.1) ++ [key] := by
  induction entries with
  | nil => simp [put]
  | cons e rest ih =>
    obtain ⟨k, v⟩ := e
    by_cases h : k = key
    · simp [put, h]
    · by_cases hm : key ∈ rest.map (·.1) <;> simp_all [put, Ne.symm h]

theorem mem_of_mem_put {α : Type} {entries : List (String × α)} {key : String} {value : α}
    {e : String × α} (h : e ∈ put entries key value) : e = (key, value) ∨ e ∈ entries := by
  induction entries with
  | nil => exact .inl (List.mem_singleton.1 h)
  | cons e' entries ih =>
    obtain ⟨k, v⟩ := e'
    rw [put] at h
    split at h
    · exact (List.mem_cons.1 h).imp_right (List.mem_cons_of_mem _)
    · rcases List.mem_cons.1 h with rfl | h
      · exact .inr List.mem_cons_self
      · exact (ih h).imp_right (List.mem_cons_of_mem _)

theorem put_of_not_mem {α : Type} {entries : List (String × α)} {key : String}
    (h : key ∉ entries.map (·.1)) (value : α) :
    put entries key value = entries ++ [(key, value)] := by
  induction entries with
  | nil => rfl
  | cons e entries ih =>
    obtain ⟨k, v⟩ := e
    rw [List.map_cons, List.mem_cons, not_or] at h
    rw [put, if_neg (Ne.symm h.1), ih h.2]
    rfl

/-- Setting distinct names one after the other lists them. -/
theorem foldl_put_eq {α : Type} {entries more : List (String × α)}
    (h : ((entries ++ more).map (·.1)).Nodup) :
    more.foldl (fun all e => put all e.1 e.2) entries = entries ++ more := by
  induction more generalizing entries with
  | nil => simp
  | cons e more ih =>
    have hnew : e.1 ∉ entries.map (·.1) := by
      rw [List.map_append, List.nodup_append] at h
      exact fun hmem => h.2.2 _ hmem _ (by simp) rfl
    have hnext : ((entries ++ [e] ++ more).map (·.1)).Nodup := by simpa using h
    rw [List.foldl_cons, put_of_not_mem hnew, ih hnext, List.append_assoc, List.singleton_append]

end RecordQuery
