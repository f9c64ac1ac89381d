/-!
# Named things in order

A record keeps its fields in the order their names first appeared, each name once. `put` replaces
a value where its name already stands and appends it otherwise. The lemmas say what a later look-up
finds and which names are listed.
-/

namespace CopySynth

/-- Named things, in order of the first appearance of their names. -/
abbrev Fields (α : Type) := List (String × α)

namespace Fields

variable {α β : Type}

/-- The names, in order. -/
def names (fields : Fields α) : List String := fields.map Prod.fst

/-- The thing of this name. -/
def get? (fields : Fields α) (name : String) : Option α := List.lookup name fields

/-- Gives a name a thing: in its old place if the name is there, at the end otherwise. -/
def put (fields : Fields α) (name : String) (value : α) : Fields α :=
  match fields with
  | [] => [(name, value)]
  | (n, v) :: rest => if n = name then (name, value) :: rest else (n, v) :: put rest name value

/-- Collects pairs; a repeated name keeps its first place and takes its last thing. -/
def ofList (pairs : List (String × α)) : Fields α :=
  pairs.foldl (fun fields pair => fields.put pair.1 pair.2) []

@[simp] theorem names_nil : names ([] : Fields α) = [] := rfl

@[simp] theorem names_cons (pair : String × α) (rest : Fields α) :
    names (pair :: rest) = pair.1 :: names rest := rfl

@[simp] theorem get?_nil (name : String) : get? ([] : Fields α) name = none := rfl

theorem get?_cons (n : String) (v : α) (rest : Fields α) (name : String) :
    get? ((n, v) :: rest) name = if name = n then some v else get? rest name := by
  simp only [get?, List.lookup_cons]
  by_cases h : name = n
  · simp [h]
  · simp only [beq_eq_false_iff_ne.2 h, h, if_false]

theorem get?_isSome_iff (fields : Fields α) (name : String) :
    (fields.get? name).isSome ↔ name ∈ fields.names := by
  induction fields with
  | nil => simp
  | cons pair rest ih =>
    obtain ⟨n, v⟩ := pair
    rw [get?_cons]
    by_cases h : name = n <;> simp [h, ih]

theorem get?_eq_none_iff (fields : Fields α) (name : String) :
    fields.get? name = none ↔ name ∉ fields.names := by
  rw [← get?_isSome_iff]
  cases fields.get? name <;> simp

theorem mem_of_get? {fields : Fields α} {name : String} {value : α}
    (h : fields.get? name = some value) : (name, value) ∈ fields := by
  induction fields with
  | nil => simp at h
  | cons pair rest ih =>
    obtain ⟨n, v⟩ := pair
    rw [get?_cons] at h
    by_cases hn : name = n
    · simp only [hn, if_true, Option.some.injEq] at h
      simp [hn, h]
    · simp only [hn, if_false] at h
      exact List.mem_cons_of_mem _ (ih h)

theorem get?_of_mem {fields : Fields α} {name : String} {value : α} (distinct : fields.names.Nodup)
    (h : (name, value) ∈ fields) : fields.get? name = some value := by
  induction fields with
  | nil => simp at h
  | cons pair rest ih =>
    obtain ⟨n, v⟩ := pair
    rw [names_cons, List.nodup_cons] at distinct
    rw [get?_cons]
    rcases List.mem_cons.1 h with same | later
    · simp only [Prod.mk.injEq] at same
      simp [same]
    · have : name ≠ n := by
        rintro rfl
        exact distinct.1 (List.mem_map.2 ⟨_, later, rfl⟩)
      simp [this, ih distinct.2 later]

theorem get?_put_self (fields : Fields α) (name : String) (value : α) :
    (fields.put name value).get? name = some value := by
  induction fields with
  | nil => simp [put, get?_cons]
  | cons pair rest ih =>
    obtain ⟨n, v⟩ := pair
    by_cases h : n = name
    · simp [put, h, get?_cons]
    · simp [put, h, get?_cons, Ne.symm h, ih]

theorem get?_put_of_ne (fields : Fields α) {name other : String} (value : α) (h : other ≠ name) :
    (fields.put name value).get? other = fields.get? other := by
  induction fields with
  | nil => simp [put, get?_cons, h]
  | cons pair rest ih =>
    obtain ⟨n, v⟩ := pair
    by_cases hn : n = name
    · simp [put, hn, get?_cons, h]
    · simp [put, hn, get?_cons, ih]

theorem names_put (fields : Fields α) (name : String) (value : α) :
    (fields.put name value).names =
      if name ∈ fields.names then fields.names else fields.names ++ [name] := by
  induction fields with
  | nil => simp [put]
  | cons pair rest ih =>
    obtain ⟨n, v⟩ := pair
    by_cases h : n = name
    · simp [put, h]
    · have h' : name ≠ n := Ne.symm h
      by_cases hr : name ∈ names rest <;> simp [put, h, h', ih, hr]

theorem nodup_names_put {fields : Fields α} (distinct : fields.names.Nodup) (name : String)
    (value : α) : (fields.put name value).names.Nodup := by
  rw [names_put]
  by_cases h : name ∈ fields.names
  · simpa [h] using distinct
  · simp only [h, if_false, List.nodup_append]
    refine ⟨distinct, by simp, ?_⟩
    rintro a ha b hb rfl
    exact h (List.mem_singleton.1 hb ▸ ha)

theorem mem_put {fields : Fields α} {name : String} {value : α} {pair : String × α}
    (h : pair ∈ fields.put name value) : pair = (name, value) ∨ pair ∈ fields := by
  induction fields with
  | nil => simpa [put] using h
  | cons first rest ih =>
    obtain ⟨n, v⟩ := first
    by_cases hn : n = name
    · simp only [put, hn, if_true, List.mem_cons] at h
      rcases h with h | h
      · exact .inl h
      · exact .inr (List.mem_cons_of_mem _ h)
    · simp only [put, hn, if_false, List.mem_cons] at h
      rcases h with h | h
      · exact .inr (by simp [h])
      · exact (ih h).imp id (List.mem_cons_of_mem _)

private theorem collect_names (pairs : List (String × α)) (fields : Fields α)
    (distinct : fields.names.Nodup) :
    (pairs.foldl (fun fields pair => fields.put pair.1 pair.2) fields).names.Nodup := by
  induction pairs generalizing fields with
  | nil => simpa using distinct
  | cons pair rest ih => exact ih _ (nodup_names_put distinct pair.1 pair.2)

theorem nodup_names_ofList (pairs : List (String × α)) : (ofList pairs).names.Nodup :=
  collect_names pairs [] (by simp)

private theorem collect_mem (pairs : List (String × α)) (fields : Fields α) (pair : String × α)
    (h : pair ∈ pairs.foldl (fun fields pair => fields.put pair.1 pair.2) fields) :
    pair ∈ fields ∨ pair ∈ pairs := by
  induction pairs generalizing fields with
  | nil => exact .inl (by simpa using h)
  | cons first rest ih =>
    rcases ih _ h with h | h
    · rcases mem_put h with rfl | h
      · exact .inr (by simp)
      · exact .inl h
    · exact .inr (List.mem_cons_of_mem _ h)

theorem mem_of_mem_ofList {pairs : List (String × α)} {pair : String × α}
    (h : pair ∈ ofList pairs) : pair ∈ pairs :=
  (collect_mem pairs [] pair h).resolve_left (by simp)

end Fields

end CopySynth
