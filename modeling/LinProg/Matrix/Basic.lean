import LinProg.Call
import LinProg.Matrix.Row
import LinProg.Problem.Error

/-!
`SparseMatrix`: a number of columns and a list of sparse rows, which grows and shrinks at its end.
-/

namespace LinProg

structure SparseMatrix (α : Type) where
  columns : Nat
  rows : List (SparseRow α)
  deriving DecidableEq

abbrev MatrixCall (υ α β : Type) := Call υ (ProblemError α) (SparseMatrix α) β

namespace SparseMatrix

variable {υ α : Type} [Scalar α]

def zero (rows columns : Nat) : SparseMatrix α :=
  ⟨columns, List.replicate rows []⟩

instance : Inhabited (SparseMatrix α) := ⟨zero 0 0⟩

def numRows (m : SparseMatrix α) : Nat :=
  m.rows.length

def shape (m : SparseMatrix α) : Nat × Nat :=
  (m.numRows, m.columns)

def stored (m : SparseMatrix α) : Nat :=
  m.rows.flatten.length

def get (m : SparseMatrix α) (row column : Nat) : α :=
  match m.rows[row]? with
  | some r => r.get column
  | none => 0

def row? (m : SparseMatrix α) (row : Nat) : Option (SparseRow α) :=
  m.rows[row]?

def toTriples (m : SparseMatrix α) : List (Nat × Nat × α) :=
  m.rows.zipIdx.flatMap fun (row, r) => row.map fun (c, v) => (r, c, v)

def toDense? (m : SparseMatrix α) : Option (List (List α)) :=
  m.rows.mapM (SparseRow.toDense? m.columns)

def same (m m' : SparseMatrix α) : Bool :=
  m.columns == m'.columns && m.rows.isEqv m'.rows SparseRow.same

def checkEntry (m : SparseMatrix α) (row column : Nat) : Except (ProblemError α) Unit :=
  if row < m.numRows ∧ column < m.columns then .ok ()
  else .error (.missingEntry row column m.numRows m.columns)

def set (row column : Nat) (value : α) : MatrixCall υ α Unit := do
  let m ← Call.state
  Call.ofExcept (m.checkEntry row column)
  Call.modify? fun m => do
    let rows ← place? m.rows row ((← m.rows[row]?).set column value)
    return { m with rows }

def pushRow (row : SparseRow α) : MatrixCall υ α Unit :=
  Call.modify fun m => { m with rows := m.rows ++ [row] }

def pushDense (values : List α) : MatrixCall υ α Unit := do
  let m ← Call.state
  Call.require (values.length == m.columns) (.length .matrixRow m.columns values.length)
  pushRow (.ofDense values)

def pushTerms (terms : List (Nat × α)) : MatrixCall υ α Unit := do
  let m ← Call.state
  match terms.find? (m.columns ≤ ·.1) with
  | some (index, _) => Call.fail (.missingColumn index m.columns)
  | none => pushRow (.ofTerms terms)

def removeLast (n : Nat) : MatrixCall υ α Unit := do
  let m ← Call.state
  Call.require (n ≤ m.numRows) (.tooFewRows n m.numRows)
  Call.modify? fun m => (less? m.numRows n).map fun left => { m with rows := m.rows.take left }

def build (change : MatrixCall Empty α Unit) (m : SparseMatrix α) :
    Except (Failure (ProblemError α)) (SparseMatrix α) :=
  let r := change m
  r.result.map fun () => r.state

def ofDense (columns : Nat) (rows : List (List α)) :
    Except (Failure (ProblemError α)) (SparseMatrix α) :=
  build (rows.forM pushDense) (zero 0 columns)

/-- Of two entries at one position the later one counts. -/
def ofTriples (rows columns : Nat) (triples : List (Nat × Nat × α)) :
    Except (Failure (ProblemError α)) (SparseMatrix α) :=
  build (triples.forM fun (r, c, v) => set r c v) (zero rows columns)

end SparseMatrix

end LinProg
