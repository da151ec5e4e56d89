/-!
# Tables in key order

A `Table` is a finite map whose rows are kept in strictly increasing order of their keys.
The order is part of the type, so two tables with the same rows are the same table and
listing one needs no sort.
-/

namespace StaticSite

/-- A finite map listed in strictly increasing order of keys. -/
structure Table (κ β : Type) [LT κ] where
  /-- The rows, least key first. -/
  rows : List (κ × β)
  /-- Keys increase from row to row, hence no key occurs twice. -/
  increasing : rows.Pairwise (fun a b => a.1 < b.1)

namespace Table

variable {κ β : Type} [LT κ]

/-- The table without rows. -/
def empty : Table κ β where
  rows := []
  increasing := .nil

instance : Inhabited (Table κ β) := ⟨empty⟩

/-- The value under a key. -/
def get? [DecidableEq κ] (table : Table κ β) (key : κ) : Option β :=
  (table.rows.find? (·.1 = key)).map (·.2)

/-- The rows that pass a test. -/
def filter (keep : κ → β → Bool) (table : Table κ β) : Table κ β where
  rows := table.rows.filter fun row => keep row.1 row.2
  increasing := table.increasing.filter _

/-- Places a row among rows that are in order, replacing the row of the same key. -/
def insertRow [DecidableEq κ] [DecidableLT κ] (key : κ) (value : β) :
    List (κ × β) → List (κ × β)
  | [] => [(key, value)]
  | row :: rest =>
      if key = row.1 then (key, value) :: rest
      else if key < row.1 then (key, value) :: row :: rest
      else row :: insertRow key value rest

theorem mem_insertRow [DecidableEq κ] [DecidableLT κ] {key : κ} {value : β}
    {rows : List (κ × β)} {row : κ × β} (inside : row ∈ insertRow key value rows) :
    row = (key, value) ∨ row ∈ rows := by
  induction rows with
  | nil => simpa [insertRow] using inside
  | cons first rest ih =>
      unfold insertRow at inside
      split at inside
      · rcases List.mem_cons.1 inside with h | h
        · exact .inl h
        · exact .inr (List.mem_cons_of_mem _ h)
      · split at inside
        · rcases List.mem_cons.1 inside with h | h
          · exact .inl h
          · exact .inr h
        · rcases List.mem_cons.1 inside with h | h
          · exact .inr (h ▸ List.mem_cons_self)
          · rcases ih h with h | h
            · exact .inl h
            · exact .inr (List.mem_cons_of_mem _ h)

section Ordered

variable [DecidableEq κ] [DecidableLT κ]
  [Trans (α := κ) (· < ·) (· < ·) (· < ·)]
  [Std.Trichotomous (α := κ) (· < ·)]

theorem pairwise_insertRow (key : κ) (value : β) {rows : List (κ × β)}
    (increasing : rows.Pairwise (fun a b => a.1 < b.1)) :
    (insertRow key value rows).Pairwise (fun a b => a.1 < b.1) := by
  induction rows with
  | nil => simp [insertRow]
  | cons first rest ih =>
      obtain ⟨below, ordered⟩ := List.pairwise_cons.1 increasing
      unfold insertRow
      split
      · next same => exact List.pairwise_cons.2 ⟨fun row h => same ▸ below row h, ordered⟩
      · next different =>
          split
          · next before =>
              refine List.pairwise_cons.2 ⟨fun row h => ?_, increasing⟩
              rcases List.mem_cons.1 h with h | h
              · exact h ▸ before
              · exact Trans.trans before (below row h)
          · next notBefore =>
              refine List.pairwise_cons.2 ⟨fun row h => ?_, ih ordered⟩
              rcases mem_insertRow h with h | h
              · subst h
                exact Decidable.byContradiction fun notAfter =>
                  different (Std.Trichotomous.trichotomous _ _ notBefore notAfter)
              · exact below row h

/-- The table with `value` under `key`, whatever stood there before. -/
def insert (table : Table κ β) (key : κ) (value : β) : Table κ β where
  rows := insertRow key value table.rows
  increasing := pairwise_insertRow key value table.increasing

/-- The rows of both tables; where both have a key, the row of `upper` stands. -/
def overlay (table upper : Table κ β) : Table κ β :=
  upper.rows.foldl (fun acc row => acc.insert row.1 row.2) table

/-- The table of some rows, the last one of a key standing. -/
def ofList (rows : List (κ × β)) : Table κ β :=
  rows.foldl (fun acc row => acc.insert row.1 row.2) empty

end Ordered

end Table

end StaticSite
