import LinProg.Scalar.Extended

/-!
Scalars: the numbers that a problem is written in. A scalar type has its own arithmetic, which may
round, and an exact value for each number; numbers are compared by their exact values, so `nan`
compares with nothing and the zeros of either sign are the same.
-/

namespace LinProg

class Scalar (α : Type) extends Zero α, One α, Neg α, Add α, Sub α, Mul α, Div α where
  negInf : α
  posInf : α
  nan : α
  value : α → Extended
  /-- The number nearest to a rational. -/
  ofRat : Rat → α

class Root (α : Type) where
  root : α → α

instance : Scalar Extended where
  negInf := .negInf
  posInf := .posInf
  nan := .nan
  value := id
  ofRat := .fin

namespace Scalar

variable {α : Type} [Scalar α]

def le (a b : α) : Bool :=
  (value a).le (value b)

def lt (a b : α) : Bool :=
  (value a).lt (value b)

def same (a b : α) : Bool :=
  (value a).same (value b)

def isNaN (a : α) : Bool :=
  value a == .nan

def isFinite (a : α) : Bool :=
  (value a).isFinite

def isZero (a : α) : Bool :=
  same a 0

def nonzero (a : α) : Bool :=
  !isZero a

/-- The larger number; `nan` only when both are. -/
def greatest (a b : α) : α :=
  if isNaN a then b else if lt a b then b else a

def least (a b : α) : α :=
  if isNaN a then b else if lt b a then b else a

def sum (xs : List α) : α :=
  xs.foldl (· + ·) 0

def dot (xs ys : List α) : α :=
  sum (xs.zipWith (· * ·) ys)

end Scalar

end LinProg
