/-
# StorageFlow.Table — finite maps with the order of first insertion.

A `Table κ ν` lists keys with their values.  Setting a key that is present replaces its value and keeps
its place; a new key goes to the end.  The view of a table is its look-up function, and `get?_set` says
all there is to say about an update; `keys_set` says what happens to the order.
-/

namespace StorageFlow

universe u v

/-- A finite map whose keys are listed once each, in the order of first insertion. -/
structure Table (κ : Type u) (ν : Type v) where
  -- The keys with their values, oldest key first.
  entries : List (κ × ν)
  nodup : (entries.map Prod.fst).Nodup

namespace Table

variable {κ : Type u} {ν : Type v}

/-- Tables with the same entries are the same. -/
theorem ext_entries {t s : Table κ ν} (h : t.entries = s.entries) : t = s := by
  cases t; cases s; cases h; rfl

/-- Without entries no key is listed twice. -/
theorem nodup_no_entries : (([] : List (κ × ν)).map Prod.fst).Nodup := List.Pairwise.nil

/-- The map without keys. -/
def empty : Table κ ν := ⟨[], nodup_no_entries⟩

instance : EmptyCollection (Table κ ν) := ⟨empty⟩
instance : Inhabited (Table κ ν) := ⟨empty⟩

/-- The keys, oldest first. -/
def keys (t : Table κ ν) : List κ := t.entries.map Prod.fst

/-- The number of keys. -/
def size (t : Table κ ν) : Nat := t.entries.length

section Decidable
variable [DecidableEq κ]

/-- The value listed first for a key. -/
def find? (k : κ) : List (κ × ν) → Option ν
  | [] => none
  | (k', v) :: rest => if k' = k then some v else find? k rest

/-- The value of a key. -/
def get? (t : Table κ ν) (k : κ) : Option ν := find? k t.entries

/-- Tells whether a key has a value. -/
def contains (t : Table κ ν) (k : κ) : Bool := (t.get? k).isSome

/-- The entries after a key was given a value: replaced where the key stands, else added at the end. -/
def put (k : κ) (v : ν) : List (κ × ν) → List (κ × ν)
  | [] => [(k, v)]
  | (k', v') :: rest => if k' = k then (k', v) :: rest else (k', v') :: put k v rest

theorem map_fst_put (k : κ) (v : ν) (es : List (κ × ν)) :
    (put k v es).map Prod.fst = if k ∈ es.map Prod.fst then es.map Prod.fst else es.map Prod.fst ++ [k] := by
  induction es with
  | nil => simp [put]
  | cons e es ih =>
    obtain ⟨k', v'⟩ := e
    by_cases h : k' = k
    · simp [put, h]
    · have h' : ¬ k = k' := fun e => h e.symm
      simp only [put, h, if_false, List.map_cons, ih, List.mem_cons, h', false_or]
      split <;> simp

theorem nodup_put {k : κ} {v : ν} {es : List (κ × ν)} (h : (es.map Prod.fst).Nodup) :
    ((put k v es).map Prod.fst).Nodup := by
  rw [map_fst_put]
  split
  · exact h
  · next hk =>
    refine List.nodup_append.2 ⟨h, List.nodup_cons.2 ⟨List.not_mem_nil, .nil⟩, fun x hx y hy e => hk ?_⟩
    rw [List.mem_singleton.1 hy] at e
    exact e ▸ hx

/-- Gives a key a value. -/
def set (t : Table κ ν) (k : κ) (v : ν) : Table κ ν := ⟨put k v t.entries, nodup_put t.nodup⟩

theorem find?_put (k k' : κ) (v : ν) (es : List (κ × ν)) :
    find? k' (put k v es) = if k = k' then some v else find? k' es := by
  induction es with
  | nil => simp [put, find?]
  | cons e es ih =>
    obtain ⟨k'', v'⟩ := e
    by_cases h : k'' = k
    · subst h
      by_cases h2 : k'' = k' <;> simp [put, find?, h2]
    · by_cases h2 : k'' = k'
      · subst h2
        simp [put, find?, h, Ne.symm h]
      · simp [put, find?, h, h2, ih]

@[simp] theorem get?_empty (k : κ) : (empty : Table κ ν).get? k = none := rfl

/-- An update changes the value of its key and of no other. -/
theorem get?_set (t : Table κ ν) (k k' : κ) (v : ν) :
    (t.set k v).get? k' = if k = k' then some v else t.get? k' := find?_put k k' v t.entries

/-- An update keeps the order of the keys; a new key comes last. -/
theorem keys_set (t : Table κ ν) (k : κ) (v : ν) :
    (t.set k v).keys = if k ∈ t.keys then t.keys else t.keys ++ [k] := map_fst_put k v t.entries

theorem put_eq_self {k : κ} {v : ν} {es : List (κ × ν)} (h : find? k es = some v) : put k v es = es := by
  induction es with
  | nil => exact absurd h (by simp [find?])
  | cons e es ih =>
    obtain ⟨k', v'⟩ := e
    by_cases hk : k' = k
    · simp_all [put, find?]
    · simp_all [put, find?]

/-- Giving a key the value that it has changes nothing. -/
theorem set_eq_self {t : Table κ ν} {k : κ} {v : ν} (h : t.get? k = some v) : t.set k v = t :=
  ext_entries (put_eq_self h)

/-- The table of a list of pairs; for a repeated key the last value wins and the first place counts. -/
def ofList (pairs : List (κ × ν)) : Table κ ν := pairs.foldl (fun t p => t.set p.1 p.2) empty

/-- All entries of the second table set over the first. -/
def merge (t s : Table κ ν) : Table κ ν := s.entries.foldl (fun t p => t.set p.1 p.2) t

end Decidable

end Table

end StorageFlow
