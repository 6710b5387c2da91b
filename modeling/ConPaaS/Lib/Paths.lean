import Mathlib.Data.List.Infix
import Mathlib.Data.List.TakeDrop

/-! Paths of files, as lists of the directories on them. -/

namespace Paths

abbrev Segment := List Char

def isIdle (component : Segment) : Bool := component = [] || component = ['.']

def isParent (component : Segment) : Bool := component = ['.', '.']

/-- A directory with a further component taken. The root is its own parent. -/
def enter (dir : List Segment) (component : Segment) : List Segment :=
  if isIdle component then dir
  else if isParent component then dir.dropLast
  else dir ++ [component]

def resolve (dir : List Segment) (path : List Segment) : List Segment := path.foldl enter dir

/-- A path in normal form: the directories to leave, then those to enter. -/
structure Relative where
  up : Nat
  down : List Segment
  deriving DecidableEq

def Relative.enter (path : Relative) (component : Segment) : Relative :=
  if isIdle component then path
  else if isParent component then
    if path.down = [] then ⟨path.up + 1, []⟩ else ⟨path.up, path.down.dropLast⟩
  else ⟨path.up, path.down ++ [component]⟩

/-- A path that begins at no particular directory. -/
def normalise (path : List Segment) : Relative := path.foldl Relative.enter ⟨0, []⟩

def Relative.follow (dir : List Segment) (path : Relative) : List Segment :=
  dir.take (dir.length - path.up) ++ path.down

def components (path : List Char) : List Segment := path.splitOn '/'

/-- `os.path.join` -/
def join (path name : List Char) : List Char :=
  if name.head? = some '/' then name
  else if path = [] ∨ path.getLast? = some '/' then path ++ name
  else path ++ '/' :: name

/-- The directories on an absolute path, `os.path.normpath`. -/
def normpath (path : List Char) : List Segment := resolve [] (components path)

variable {dir path : List Segment} {relative : Relative} {component : Segment}

theorem enter_follow : enter (relative.follow dir) component = (relative.enter component).follow dir := by
  unfold enter Relative.enter
  split
  · rfl
  · split
    · split
      · rename_i left
        rw [Relative.follow, left, List.append_nil, Relative.follow, List.append_nil, List.dropLast_eq_take,
          List.length_take, List.take_take]
        congr 1
        dsimp only
        omega
      · rename_i entered
        rw [Relative.follow, Relative.follow, List.dropLast_append_of_ne_nil entered]
    · rw [Relative.follow, Relative.follow, List.append_assoc]

theorem resolve_follow : resolve (relative.follow dir) path = (path.foldl Relative.enter relative).follow dir := by
  induction path generalizing relative with
  | nil => rfl
  | cons component rest ih => rw [resolve, List.foldl_cons, enter_follow, List.foldl_cons, ← ih, resolve]

/-- A path is followed by leaving directories and entering others. -/
theorem resolve_eq (dir path : List Segment) : resolve dir path = (normalise path).follow dir := by
  have start : Relative.follow dir ⟨0, []⟩ = dir := by simp [Relative.follow]
  conv_lhs => rw [← start]
  exact resolve_follow

/-- A path stays in a directory when it comes back to what it has left of it. -/
theorem prefix_resolve_iff : dir <+: resolve dir path ↔
    dir.drop (dir.length - (normalise path).up) <+: (normalise path).down := by
  rw [resolve_eq, Relative.follow]
  conv_lhs => lhs; rw [← List.take_append_drop (dir.length - (normalise path).up) dir]
  rw [List.prefix_append_right_inj]

theorem components_slash (front name : List Char) :
    components (front ++ '/' :: name) = components front ++ components name :=
  List.splitOn_append_cons_self _ _

theorem normpath_slash (front name : List Char) :
    normpath (front ++ '/' :: name) = resolve (normpath front) (components name) := by
  rw [normpath, components_slash, resolve, List.foldl_append]
  rfl

theorem normpath_join {name : List Char} (relative : name.head? ≠ some '/') (path : List Char) :
    normpath (join path name) = resolve (normpath path) (components name) := by
  rw [join, if_neg relative]
  split
  · rename_i ends
    rcases ends with rfl | slash
    · rfl
    · obtain ⟨front, rfl⟩ := List.getLast?_eq_some_iff.mp slash
      rw [List.append_assoc, List.singleton_append, normpath_slash, normpath_slash]
      rfl
  · exact normpath_slash path name

end Paths
