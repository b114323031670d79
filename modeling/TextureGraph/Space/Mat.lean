import TextureGraph.Space.Vec

/-!
# Square matrices in space
-/

namespace TextureGraph

/-- A three by three matrix, kept as its rows. -/
structure Mat (α : Type) where
  /-- The rows, from top to bottom. -/
  rows : Vec (Vec α)
deriving Repr

namespace Mat

variable {α : Type}

/-- The row with a given number, counted from zero. -/
def row (m : Mat α) (i : Nat) : Vec α :=
  m.rows.component i

/-- The column with a given number, counted from zero. -/
def column (m : Mat α) (j : Nat) : Vec α :=
  m.rows.map (·.component j)

/-- The matrix with the given columns. -/
def ofColumns (a b c : Vec α) : Mat α :=
  ⟨⟨a.x, b.x, c.x⟩, ⟨a.y, b.y, c.y⟩, ⟨a.z, b.z, c.z⟩⟩

/-- The matrix with one entry replaced. -/
def setEntry (m : Mat α) (i j : Nat) (a : α) : Mat α :=
  ⟨m.rows.setComponent i ((m.row i).setComponent j a)⟩

/-- Rows and columns exchanged. -/
def transpose (m : Mat α) : Mat α :=
  ofColumns m.rows.x m.rows.y m.rows.z

/-- The entries, row by row. -/
def entries (m : Mat α) : List α :=
  m.rows.toList.flatMap Vec.toList

variable [Arith α]

/-- The identity matrix. -/
def identity : Mat α :=
  ⟨⟨Vec.unitX, Vec.unitY, Vec.unitZ⟩⟩

/-- The matrix applied to a column vector. -/
def mulVec (m : Mat α) (v : Vec α) : Vec α :=
  m.rows.map (·.dot v)

/-- The determinant. -/
def determinant (m : Mat α) : α :=
  m.rows.x.dot (m.rows.y.cross m.rows.z)

end Mat

end TextureGraph
