import TableScript.Text.Cluster.Basic

/-!
# Erasing

A line may hold the backspaces of the one who typed it.  Each of them erases the
last cluster that is left before it; a line without backspaces stays as it is
(`erased_of_not_mem`).
-/

namespace TableScript

namespace Text

def byteCount : List Char → Nat
  | [] => 0
  | c :: rest => c.utf8Size + byteCount rest

/-- A typed line so far, from its end to its beginning, and how many bytes to take
back for each of its clusters. -/
structure TypedLine where
  reversed : List Char
  widths : List Nat
deriving DecidableEq, Repr

namespace TypedLine

def dropBytes : Nat → List Char → List Char
  | _, [] => []
  | count, c :: rest =>
      if c.utf8Size ≤ count then dropBytes (count - c.utf8Size) rest else c :: rest

/-- Type one more cluster.  The width of a cluster is kept in one byte: of one with
256 bytes or more only the remainder is ever taken back. -/
def followedBy (typed : TypedLine) (cluster : List Char) : TypedLine :=
  if cluster = ['\x08'] then
    match typed.widths with
    | [] => typed
    | width :: widths => ⟨dropBytes width typed.reversed, widths⟩
  else ⟨cluster.reverse ++ typed.reversed, byteCount cluster % 256 :: typed.widths⟩

theorem reversed_foldl_followedBy {clusters : List (List Char)} (typed : TypedLine)
    (kept : ['\x08'] ∉ clusters) :
    (clusters.foldl followedBy typed).reversed = clusters.flatten.reverse ++ typed.reversed := by
  induction clusters generalizing typed with
  | nil => simp
  | cons cluster rest ih =>
      simp only [List.mem_cons, not_or] at kept
      have differs : cluster ≠ ['\x08'] := fun same => kept.1 same.symm
      simp [ih _ kept.2, followedBy, differs]

end TypedLine

/-- What is left of a typed line when its backspaces have erased. -/
def erased (line : List Char) : List Char :=
  ((clusters line).foldl TypedLine.followedBy ⟨[], []⟩).reversed.reverse

theorem erased_of_not_mem {line : List Char} (kept : '\x08' ∉ line) : erased line = line := by
  have none_alone : ['\x08'] ∉ clusters line := fun member =>
    kept (flatten_clusters line ▸ List.mem_flatten_of_mem member (List.mem_singleton_self _))
  simp [erased, TypedLine.reversed_foldl_followedBy _ none_alone, flatten_clusters]

end Text

end TableScript
