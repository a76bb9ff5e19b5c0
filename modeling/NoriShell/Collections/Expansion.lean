import Mathlib

/-! Graphs given by lists of children, and the trees that they expand to: one instance of a node
for each path that leads to it. -/

namespace NoriShell.Collections

variable {κ : Type} (children : κ → Option (List κ))

/-- The node at the end of a path, which tells the place of each child among its siblings. -/
def follow (k : κ) : List Nat → Option κ
  | [] => (children k).map fun _ => k
  | place :: path => do
    let siblings ← children k
    let child ← siblings[place]?
    follow child path

def paths (k : κ) : Set (List Nat) := { path | (follow children k path).isSome = true }

/-- The size of the expanded tree, if it has at most so many levels. -/
def expand : Nat → κ → Option Nat
  | 0, _ => none
  | levels + 1, k => do
    let siblings ← children k
    let sizes ← siblings.mapM (expand levels)
    return sizes.sum + 1

variable {children} {k child : κ} {siblings : List κ} {levels : Nat}

end NoriShell.Collections
