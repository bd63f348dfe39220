import Mathlib.Data.List.Basic
import Mathlib.Data.List.Induction

/-!
File trees with symbolic links: what stands at a place of the tree, the walk of a path through
links, and real paths.
-/

namespace FileTree

/-- Where a link leads, from the root or from the directory of the link; `none` is the step to the
directory above. -/
structure LinkTarget (Name : Type) where
  absolute : Bool
  steps : List (Option Name)
  deriving DecidableEq

inductive Node (Name Data : Type)
  | file (contents : Data)
  | other
  | symlink (target : LinkTarget Name)
  | directory (entries : List (Name × Node Name Data))

inductive Failure
  | missing
  | notDirectory
  | tooManyLinks
  deriving DecidableEq

variable {Name Data : Type}

namespace Node

def isSymlink : Node Name Data → Bool
  | .symlink _ => true
  | _ => false

def isDirectory : Node Name Data → Bool
  | .directory _ => true
  | _ => false

@[grind =] def entries : Node Name Data → List (Name × Node Name Data)
  | .directory entries => entries
  | _ => []

mutual

def allNames (good : Name → Bool) : Node Name Data → Bool
  | .directory entries => entriesAllNames good entries
  | _ => true

def entriesAllNames (good : Name → Bool) : List (Name × Node Name Data) → Bool
  | [] => true
  | (name, node) :: rest => good name && node.allNames good && entriesAllNames good rest

end

variable [DecidableEq Name]

@[grind =] def lookup : Node Name Data → List Name → Option (Node Name Data)
  | node, [] => some node
  | node, name :: rest => (node.entries.lookup name).bind fun child => child.lookup rest

end Node

/-- Where a walk stops: at its end, at a failure or at a link that it meets. -/
inductive Halt (Name : Type)
  | arrived (path : List Name)
  | failed (failure : Failure)
  | link (directory : List Name) (name : Name) (target : LinkTarget Name)
      (rest : List (Option Name))
  deriving DecidableEq

variable [DecidableEq Name]

def advance (root : Node Name Data) : List Name → List (Option Name) → Halt Name
  | here, [] => .arrived here
  | here, step :: rest =>
    match root.lookup here, step with
    | some (.directory _), none => advance root here.dropLast rest
    | some (.directory entries), some name =>
      match entries.lookup name with
      | none => .failed .missing
      | some (.symlink target) => .link here name target rest
      | some _ => advance root (here ++ [name]) rest
    | _, _ => .failed .notDirectory

@[grind =] def walk (root : Node Name Data) (followsLast : Bool) :
    Nat → List Name → List (Option Name) → Except Failure (List Name)
  | links, here, steps =>
    match advance root here steps with
    | .arrived path => .ok path
    | .failed failure => .error failure
    | .link directory name target rest =>
      if rest = [] ∧ followsLast = false then .ok (directory ++ [name])
      else
        match links with
        | 0 => .error .tooManyLinks
        | links + 1 =>
          walk root followsLast links (if target.absolute then [] else directory)
            (target.steps ++ rest)

def maxLinks : Nat := 40

@[grind =] def realpath (root : Node Name Data) (path : List Name) : Except Failure (List Name) :=
  walk root true maxLinks [] (path.map some)

@[grind =]
def nodeAt (root : Node Name Data) (path : List Name) : Except Failure (Node Name Data) :=
  match root.lookup path with
  | some node => .ok node
  | none => .error .missing

@[grind =]
def lstat (root : Node Name Data) (path : List Name) : Except Failure (Node Name Data) := do
  nodeAt root (← walk root false maxLinks [] (path.map some))

def stat (root : Node Name Data) (path : List Name) : Except Failure (Node Name Data) := do
  nodeAt root (← realpath root path)

variable {root : Node Name Data}

namespace Node

@[simp] theorem lookup_nil (node : Node Name Data) : node.lookup [] = some node := rfl

theorem lookup_cons (node : Node Name Data) (name : Name) (rest : List Name) :
    node.lookup (name :: rest) =
      (node.entries.lookup name).bind fun child => child.lookup rest := rfl

theorem lookup_append (node : Node Name Data) (path more : List Name) :
    node.lookup (path ++ more) = (node.lookup path).bind fun child => child.lookup more := by
  induction path generalizing node with
  | nil => rfl
  | cons name rest ih =>
    rw [List.cons_append, lookup_cons, lookup_cons, Option.bind_assoc]
    simp only [ih]

theorem lookup_concat (node : Node Name Data) (path : List Name) (name : Name) :
    node.lookup (path ++ [name]) =
      (node.lookup path).bind fun child => child.entries.lookup name := by
  rw [lookup_append]
  refine congrArg _ (funext fun child => ?_)
  rw [lookup_cons]
  simp

theorem eq_directory_of_lookup_entries {node child : Node Name Data} {name : Name}
    (entry : node.entries.lookup name = some child) : ∃ entries, node = .directory entries := by
  cases node with
  | directory entries => exact ⟨entries, rfl⟩
  | file contents => simp [entries] at entry
  | other => simp [entries] at entry
  | symlink target => simp [entries] at entry

theorem isSymlink_of_entry {node child : Node Name Data} {name : Name}
    (entry : node.entries.lookup name = some child) : node.isSymlink = false := by
  obtain ⟨entries, rfl⟩ := eq_directory_of_lookup_entries entry
  rfl

end Node

def Canonical (root : Node Name Data) (path : List Name) : Prop :=
  ∃ node, root.lookup path = some node ∧ node.isSymlink = false

theorem Canonical.of_concat {path : List Name} {name : Name} {node : Node Name Data}
    (found : root.lookup (path ++ [name]) = some node) : Canonical root path := by
  rw [Node.lookup_concat] at found
  obtain ⟨parent, atParent, entry⟩ := Option.bind_eq_some_iff.mp found
  exact ⟨parent, atParent, Node.isSymlink_of_entry entry⟩

theorem Canonical.dropLast {path : List Name} (canonical : Canonical root path) :
    Canonical root path.dropLast := by
  obtain ⟨node, found, notLink⟩ := canonical
  rcases List.eq_nil_or_concat path with rfl | ⟨parent, name, rfl⟩
  · exact ⟨node, found, notLink⟩
  · rw [List.concat_eq_append] at found ⊢
    rw [List.dropLast_concat]
    exact Canonical.of_concat found

def Halt.Sound (root : Node Name Data) : Halt Name → Prop
  | .arrived path => Canonical root path
  | .failed _ => True
  | .link directory name target _ =>
    root.lookup (directory ++ [name]) = some (.symlink target)

theorem advance_sound (steps : List (Option Name)) {here : List Name}
    (canonical : Canonical root here) : (advance root here steps).Sound root := by
  induction steps generalizing here with
  | nil => exact canonical
  | cons step rest ih =>
    simp only [advance]
    split
    · exact ih canonical.dropLast
    · rename_i entries name atHere
      split
      · trivial
      · rename_i target entry
        rw [Halt.Sound, Node.lookup_concat, atHere]
        exact entry
      · rename_i node notLink entry
        refine ih ⟨node, ?_, ?_⟩
        · rw [Node.lookup_concat, atHere]
          exact entry
        · cases node with
          | symlink target => exact absurd rfl (notLink target)
          | file contents => rfl
          | other => rfl
          | directory inner => rfl
    · trivial

theorem nodeAt_eq_ok {path : List Name} {node : Node Name Data} :
    nodeAt root path = .ok node ↔ root.lookup path = some node := by
  rw [nodeAt]
  split
  · rename_i found atPath
    simp [atPath]
  · rename_i atPath
    simp [atPath]

theorem walk_follows {links : Nat} {here path : List Name} {steps : List (Option Name)}
    {node : Node Name Data} (walked : walk root false links here steps = .ok path)
    (canonical : Canonical root here) (rootKind : root.isSymlink = false)
    (found : root.lookup path = some node) (notLink : node.isSymlink = false) :
    walk root true links here steps = .ok path := by
  have atRoot : Canonical root [] := ⟨root, rfl, rootKind⟩
  induction links generalizing here steps with
  | zero =>
    have sound := advance_sound steps canonical
    rw [walk] at walked ⊢
    split at walked
    · exact walked
    · cases walked
    · rename_i directory name target rest halt
      rw [halt] at sound
      split at walked
      · cases walked
        rw [Halt.Sound, found] at sound
        cases sound
        cases notLink
      · cases walked
  | succ links ih =>
    have sound := advance_sound steps canonical
    rw [walk] at walked ⊢
    split at walked
    · exact walked
    · cases walked
    · rename_i directory name target rest halt
      rw [halt] at sound
      split at walked
      · cases walked
        rw [Halt.Sound, found] at sound
        cases sound
        cases notLink
      · rw [if_neg (by simp)]
        refine ih walked ?_
        split
        · exact atRoot
        · exact Canonical.of_concat sound

theorem realpath_of_lstat {path : List Name} {node : Node Name Data}
    (rootKind : root.isSymlink = false) (found : lstat root path = .ok node)
    (notLink : node.isSymlink = false) :
    ∃ real, realpath root path = .ok real ∧ root.lookup real = some node := by
  rw [lstat] at found
  cases walked : walk root false maxLinks [] (path.map some) with
  | error failure =>
    rw [walked] at found
    cases found
  | ok real =>
    rw [walked] at found
    have atReal := nodeAt_eq_ok.mp found
    exact ⟨real, walk_follows walked ⟨root, rfl, rootKind⟩ rootKind atReal notLink, atReal⟩

end FileTree
