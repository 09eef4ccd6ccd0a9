import CoreCrypto.Library.KeyedList

/-!
# Tables with a unique column

The rows of a table in the order in which a query scans them.  A lookup compares one column
with a value, so whether it finds a row depends on what this column was filled with when the
row was written.
-/

namespace CoreCrypto.Library

variable {ρ κ : Type} [DecidableEq κ] (column : ρ → κ)

/-- `INSERT`, refused if the unique column has the value already. -/
def insertUnique (rows : List ρ) (row : ρ) : Option (List ρ) :=
  if column row ∈ rows.map column then none else some (rows ++ [row])

/-- One `INSERT` after the other; the first that is refused undoes them all. -/
def insertAll (rows news : List ρ) : Option (List ρ) :=
  news.foldlM (insertUnique column) rows

/-- `INSERT OR REPLACE`: rows with the value in the unique column go. -/
def insertOrReplace (rows : List ρ) (row : ρ) : List ρ :=
  rows.filter (fun r => column r ≠ column row) ++ [row]

/-- The first row that a `SELECT` for the value yields. -/
def selectOne (rows : List ρ) (value : κ) : Option ρ :=
  rows.find? (fun row => column row = value)

/-- `DELETE` of the rows with the value. -/
def deleteWhere (rows : List ρ) (value : κ) : List ρ :=
  rows.filter (fun row => column row ≠ value)

variable {column}

theorem insertUnique_eq_some {rows after : List ρ} {row : ρ}
    (ok : insertUnique column rows row = some after) :
    after = rows ++ [row] ∧ column row ∉ rows.map column := by
  unfold insertUnique at ok
  split at ok
  next => cases ok
  next fresh => cases ok; exact ⟨rfl, fresh⟩

/-- Inserted rows follow the old ones, and the unique column stays unique. -/
theorem insertAll_eq_some {rows news after : List ρ}
    (ok : insertAll column rows news = some after) :
    after = rows ++ news ∧ (DistinctKeys column rows → DistinctKeys column after) := by
  induction news generalizing rows with
  | nil => cases ok; exact ⟨by simp, id⟩
  | cons row rest ih =>
    simp only [insertAll, List.foldlM_cons, Option.bind_eq_bind, Option.bind_eq_some_iff] at ok
    obtain ⟨next, first, others⟩ := ok
    obtain ⟨rfl, fresh⟩ := insertUnique_eq_some first
    obtain ⟨appended, distinct⟩ := ih others
    refine ⟨by rw [appended, List.append_assoc]; rfl, fun old => distinct ?_⟩
    exact (distinctKeys_snoc column).mpr ⟨old, fresh⟩

theorem mem_deleteWhere {rows : List ρ} {value : κ} {row : ρ} :
    row ∈ deleteWhere column rows value ↔ row ∈ rows ∧ column row ≠ value := by
  simp [deleteWhere]

theorem mem_insertOrReplace {rows : List ρ} {row other : ρ} :
    other ∈ insertOrReplace column rows row ↔
      (other ∈ rows ∧ column other ≠ column row) ∨ other = row := by
  simp [insertOrReplace]

end CoreCrypto.Library
