/-!
Fields in the order of their names, each name once.
-/

namespace TraceViewer

/-- Named values; a list built with `set` is in the order of the names. -/
abbrev Fields (α : Type) := List (String × α)

namespace Fields

variable {α : Type}

/-- Sets a field, in its place in the order of the names. -/
def set (name : String) (value : α) : Fields α → Fields α
  | [] => [(name, value)]
  | (n, v) :: rest =>
    if name < n then (name, value) :: (n, v) :: rest
    else if name == n then (name, value) :: rest
    else (n, v) :: set name value rest

/-- The value of a field. -/
def get? (name : String) (fields : Fields α) : Option α := fields.lookup name

/-- The fields of a list in any order; of fields that share a name the last counts. -/
def ofList (fields : List (String × α)) : Fields α :=
  fields.foldl (fun acc f => set f.1 f.2 acc) []

def names (fields : Fields α) : List String := fields.map (·.1)

@[simp] theorem get?_nil (name : String) : get? name ([] : Fields α) = none := rfl

theorem get?_cons (name other : String) (value : α) (rest : Fields α) :
    get? other ((name, value) :: rest) = if other = name then some value else get? other rest := by
  by_cases h : other = name
  · simp [get?, h]
  · have hbeq : (other == name) = false := by simpa using h
    simp [get?, List.lookup_cons, hbeq, h]

/-- Setting a field gives that field its value and keeps the others. -/
theorem get?_set (name other : String) (value : α) (fields : Fields α) :
    get? other (set name value fields) =
      if other = name then some value else get? other fields := by
  induction fields with
  | nil => simp [set, get?_cons]
  | cons f rest ih =>
    obtain ⟨n, v⟩ := f
    unfold set
    split
    · simp [get?_cons]
    · split
      · rename_i hname
        have hname : name = n := by simpa using hname
        subst hname
        by_cases h : other = name <;> simp [get?_cons, h]
      · rename_i hname
        have hname : name ≠ n := by simpa using hname
        by_cases hn : other = n
        · subst hn
          simp [get?_cons, Ne.symm hname]
        · simp [get?_cons, hn, ih]

end Fields

end TraceViewer
