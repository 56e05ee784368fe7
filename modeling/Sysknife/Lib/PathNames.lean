import Mathlib.Data.List.Basic

/-!
# Absolute path names

A path name is split at slashes; `normalize` walks along its components from the root
and resolves the special ones, with no symbolic links.
-/

namespace PathNames

def dot : List Char := ['.']

def dotDot : List Char := ['.', '.']

/-- One component further: `..` goes back, at the root it stays there. -/
def walk (place : List (List Char)) (component : List Char) : List (List Char) :=
  if component = [] ∨ component = dot then place
  else if component = dotDot then place.dropLast
  else place ++ [component]

def normalize (path : List Char) : List (List Char) := (path.splitOn '/').foldl walk []

/-- A name that stands for itself in a path. -/
structure Ordinary (name : List Char) : Prop where
  noSlash : '/' ∉ name
  ne_nil : name ≠ []
  ne_dot : name ≠ dot
  ne_dotDot : name ≠ dotDot

instance (name : List Char) : Decidable (Ordinary name) :=
  decidable_of_iff ('/' ∉ name ∧ name ≠ [] ∧ name ≠ dot ∧ name ≠ dotDot)
    ⟨fun ⟨h₁, h₂, h₃, h₄⟩ => ⟨h₁, h₂, h₃, h₄⟩, fun h => ⟨h.1, h.2, h.3, h.4⟩⟩

theorem walk_ordinary {place : List (List Char)} {name : List Char} (h : Ordinary name) :
    walk place name = place ++ [name] := by
  rw [walk, if_neg (not_or.mpr ⟨h.ne_nil, h.ne_dot⟩), if_neg h.ne_dotDot]

theorem foldl_walk_ordinary {place names : List (List Char)} (h : ∀ name ∈ names, Ordinary name) :
    names.foldl walk place = place ++ names := by
  induction names generalizing place with
  | nil => exact (List.append_nil place).symm
  | cons name names ih =>
    rw [List.forall_mem_cons] at h
    rw [List.foldl_cons, walk_ordinary h.1, ih h.2, List.append_assoc]
    rfl

/-- The absolute path along `names`. -/
def absolute (names : List (List Char)) : List Char := ['/'].intercalate ([] :: names)

theorem normalize_absolute {names : List (List Char)} (h : ∀ name ∈ names, '/' ∉ name) :
    normalize (absolute names) = names.foldl walk [] := by
  rw [normalize, absolute, List.splitOn_intercalate]
  · rfl
  · simpa using h
  · exact List.cons_ne_nil _ _

theorem normalize_ordinary {names : List (List Char)} (h : ∀ name ∈ names, Ordinary name) :
    normalize (absolute names) = names := by
  rw [normalize_absolute fun name hname => (h name hname).noSlash, foldl_walk_ordinary h]
  rfl

end PathNames
