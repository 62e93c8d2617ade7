/-!
# Environments

The values of the names that have been declared. Bindings are kept in ascending order of names, so
two environments with the same bindings are equal: this is `ext_get?`. What `bind` does is said by
`get?_bind` and `size_bind`.
-/

namespace Calculator

/-- A finite map from names to values. -/
structure Environment where
  bindings : List (String × Int64)
  ascending : bindings.Pairwise fun a b => a.1 < b.1
  deriving DecidableEq

namespace Environment

/-- The environment without bindings. -/
def empty : Environment :=
  ⟨[], .nil⟩

/-- The value of a name. -/
def get? (env : Environment) (name : String) : Option Int64 :=
  env.bindings.lookup name

/-- Whether a name has a value. -/
def binds (env : Environment) (name : String) : Bool :=
  (env.get? name).isSome

/-- The number of names that have a value. -/
def size (env : Environment) : Nat :=
  env.bindings.length

/-- Whether no name has a value. -/
def isEmpty (env : Environment) : Bool :=
  env.bindings.isEmpty

/-- Puts a binding in its place, instead of one of the same name if there is one. -/
def place (name : String) (value : Int64) : List (String × Int64) → List (String × Int64)
  | [] => [(name, value)]
  | (other, old) :: rest =>
    if name < other then (name, value) :: (other, old) :: rest
    else if name = other then (name, value) :: rest
    else (other, old) :: place name value rest

theorem mem_place {name : String} {value : Int64} {bindings : List (String × Int64)}
    {binding : String × Int64} (h : binding ∈ place name value bindings) :
    binding = (name, value) ∨ binding ∈ bindings := by
  induction bindings with
  | nil => simpa [place] using h
  | cons head rest ih =>
    obtain ⟨other, old⟩ := head
    simp only [place] at h
    split at h
    · simpa using h
    · split at h
      · exact (List.mem_cons.mp h).imp id (List.mem_cons_of_mem _)
      · rcases List.mem_cons.mp h with h | h
        · exact .inr (h ▸ List.mem_cons_self)
        · exact (ih h).imp id (List.mem_cons_of_mem _)

theorem lt_of_not_lt_of_ne {a b : String} (notLess : ¬a < b) (different : a ≠ b) : b < a :=
  String.not_le.mp fun le => different (String.le_antisymm le (String.not_lt.mp notLess))

theorem ascending_place (name : String) (value : Int64) {bindings : List (String × Int64)}
    (ascending : bindings.Pairwise fun a b => a.1 < b.1) :
    (place name value bindings).Pairwise fun a b => a.1 < b.1 := by
  induction bindings with
  | nil => simp [place]
  | cons head rest ih =>
    obtain ⟨other, old⟩ := head
    obtain ⟨first, later⟩ := List.pairwise_cons.mp ascending
    simp only [place]
    split
    · rename_i less
      refine List.pairwise_cons.mpr ⟨fun binding member => ?_, ascending⟩
      rcases List.mem_cons.mp member with rfl | member
      · exact less
      · exact String.lt_trans less (first _ member)
    · split
      · rename_i same
        exact List.pairwise_cons.mpr ⟨fun binding member => same ▸ first binding member, later⟩
      · rename_i notLess different
        refine List.pairwise_cons.mpr ⟨fun binding member => ?_, ih later⟩
        rcases mem_place member with rfl | member
        · exact lt_of_not_lt_of_ne notLess different
        · exact first _ member

/-- The environment in which a name has the given value and every other name the one it had. -/
def bind (env : Environment) (name : String) (value : Int64) : Environment :=
  ⟨place name value env.bindings, ascending_place name value env.ascending⟩

/-! ### What each operation answers -/

theorem lookup_cons (asked name : String) (value : Int64) (rest : List (String × Int64)) :
    ((name, value) :: rest).lookup asked =
      if asked = name then some value else rest.lookup asked := by
  by_cases h : asked = name
  · rw [List.lookup_cons, h, beq_self_eq_true, if_pos rfl]
  · rw [List.lookup_cons, beq_eq_false_iff_ne.mpr h, if_neg h]

theorem lookup_place (name : String) (value : Int64) (bindings : List (String × Int64))
    (asked : String) :
    (place name value bindings).lookup asked =
      if asked = name then some value else bindings.lookup asked := by
  induction bindings with
  | nil => exact lookup_cons asked name value []
  | cons head rest ih =>
    obtain ⟨other, old⟩ := head
    simp only [place]
    split
    · exact lookup_cons asked name value _
    · split
      · rename_i same
        subst same
        by_cases h : asked = name <;> simp only [lookup_cons, h, if_true, if_false]
      · rename_i different
        by_cases h : asked = other
        · simp only [lookup_cons, h, if_true, Ne.symm different, if_false]
        · simp only [lookup_cons, h, if_false, ih]

@[simp]
theorem get?_empty (name : String) : empty.get? name = none := rfl

theorem get?_bind (env : Environment) (name : String) (value : Int64) (asked : String) :
    (env.bind name value).get? asked = if asked = name then some value else env.get? asked :=
  lookup_place name value env.bindings asked

@[simp]
theorem get?_bind_self (env : Environment) (name : String) (value : Int64) :
    (env.bind name value).get? name = some value := by
  simp [get?_bind]

theorem get?_bind_of_ne (env : Environment) (value : Int64) {name asked : String}
    (h : asked ≠ name) : (env.bind name value).get? asked = env.get? asked := by
  simp [get?_bind, h]

theorem lookup_eq_none_of_lt {name : String} {bindings : List (String × Int64)}
    (h : ∀ binding ∈ bindings, name < binding.1) : bindings.lookup name = none := by
  induction bindings with
  | nil => rfl
  | cons head rest ih =>
    have different : name ≠ head.1 := fun same =>
      String.lt_irrefl head.1 (same ▸ h head List.mem_cons_self)
    rw [lookup_cons, if_neg different]
    exact ih fun binding member => h binding (List.mem_cons_of_mem _ member)

theorem length_place (name : String) (value : Int64) {bindings : List (String × Int64)}
    (ascending : bindings.Pairwise fun a b => a.1 < b.1) :
    (place name value bindings).length =
      bindings.length + if (bindings.lookup name).isSome then 0 else 1 := by
  induction bindings with
  | nil => simp [place]
  | cons head rest ih =>
    obtain ⟨other, old⟩ := head
    obtain ⟨first, later⟩ := List.pairwise_cons.mp ascending
    simp only [place]
    split
    · rename_i less
      have absent : ((other, old) :: rest).lookup name = none :=
        lookup_eq_none_of_lt fun binding member => by
          rcases List.mem_cons.mp member with rfl | member
          · exact less
          · exact String.lt_trans less (first _ member)
      simp [absent]
    · split
      · rename_i same
        simp [same]
      · rename_i different
        rw [lookup_cons, if_neg different, List.length_cons, List.length_cons, ih later]
        omega

/-- A new name makes an environment one larger, and a known one does not change its size. -/
theorem size_bind (env : Environment) (name : String) (value : Int64) :
    (env.bind name value).size = env.size + if env.binds name then 0 else 1 :=
  length_place name value env.ascending

theorem isEmpty_iff_size (env : Environment) : env.isEmpty = true ↔ env.size = 0 := by
  simp [isEmpty, size]

theorem bindings_ext {left right : List (String × Int64)}
    (ascendingLeft : left.Pairwise fun a b => a.1 < b.1)
    (ascendingRight : right.Pairwise fun a b => a.1 < b.1)
    (same : ∀ name, left.lookup name = right.lookup name) : left = right := by
  induction left generalizing right with
  | nil =>
    cases right with
    | nil => rfl
    | cons head rest =>
      have absent := same head.1
      rw [lookup_cons, if_pos rfl] at absent
      cases absent
  | cons headLeft restLeft ih =>
    cases right with
    | nil =>
      have absent := same headLeft.1
      rw [lookup_cons, if_pos rfl] at absent
      cases absent
    | cons headRight restRight =>
      obtain ⟨nameLeft, valueLeft⟩ := headLeft
      obtain ⟨nameRight, valueRight⟩ := headRight
      obtain ⟨firstLeft, laterLeft⟩ := List.pairwise_cons.mp ascendingLeft
      obtain ⟨firstRight, laterRight⟩ := List.pairwise_cons.mp ascendingRight
      have sameName : nameLeft = nameRight := by
        apply Decidable.byContradiction
        intro different
        by_cases less : nameLeft < nameRight
        · have absent : ((nameRight, valueRight) :: restRight).lookup nameLeft = none :=
            lookup_eq_none_of_lt fun binding member => by
              rcases List.mem_cons.mp member with rfl | member
              · exact less
              · exact String.lt_trans less (firstRight _ member)
          simpa [lookup_cons, absent] using same nameLeft
        · have greater := lt_of_not_lt_of_ne less different
          have absent : ((nameLeft, valueLeft) :: restLeft).lookup nameRight = none :=
            lookup_eq_none_of_lt fun binding member => by
              rcases List.mem_cons.mp member with rfl | member
              · exact greater
              · exact String.lt_trans greater (firstLeft _ member)
          simpa [lookup_cons, absent] using same nameRight
      subst sameName
      have sameValue : valueLeft = valueRight := by
        simpa [lookup_cons] using same nameLeft
      subst sameValue
      congr 1
      refine ih laterLeft laterRight fun name => ?_
      by_cases h : name = nameLeft
      · subst h
        rw [lookup_eq_none_of_lt firstLeft, lookup_eq_none_of_lt firstRight]
      · simpa [lookup_cons, h] using same name

/-- Environments that give the same value to every name are equal. -/
theorem ext_get? {left right : Environment} (same : ∀ name, left.get? name = right.get? name) :
    left = right := by
  obtain ⟨bindingsLeft, ascendingLeft⟩ := left
  obtain ⟨bindingsRight, ascendingRight⟩ := right
  have := bindings_ext ascendingLeft ascendingRight same
  subst this
  rfl

end Environment

end Calculator
