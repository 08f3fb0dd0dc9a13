import ScriptHost.Text.Split

/-!
# Paths

A path is a text with components between slashes. Joining keeps both texts as they are written, so
that a path is shown as it was given; `components` gives the meaning, in which repeated and trailing
slashes and inner dots do not count.
-/

namespace ScriptHost.Path

/-! ## Joining -/

/-- Whether a path starts at the file system's root. -/
def isAbsolute (p : String) : Bool :=
  match p.toList with
  | '/' :: _ => true
  | _ => false

/-- The path `p` below `base`: an absolute path replaces the base, and one slash stands between a
base that does not end in one and what follows it. -/
def join (base p : String) : String :=
  if isAbsolute p || base.isEmpty then p
  else if base.toList.getLast? == some '/' then base ++ p
  else base ++ "/" ++ p

/-! ## Components -/

/-- A step of a path. -/
inductive Component where
  | root
  | here
  | parent
  | name (text : String)
deriving Repr, DecidableEq

/-- The step that a piece between slashes stands for; empty pieces and dots stand for none. -/
def pieceComponent? : String → Option Component
  | "" => none
  | "." => none
  | ".." => some .parent
  | text => some (.name text)

/-- The steps of a path. A dot counts at the start of a relative path only. -/
def components (p : String) : List Component :=
  let pieces := Text.parts "/" p
  let steps := pieces.filterMap pieceComponent?
  if isAbsolute p then .root :: steps
  else if pieces.head? == some "." then .here :: steps
  else steps

/-- A path all of whose steps are names. -/
def isPlain (p : String) : Bool :=
  (components p).all fun
    | .name _ => true
    | _ => false

example : join "scripts" "a" = "scripts/a" := by decide +kernel
example : join "d/s/" "a" = "d/s/a" := by decide +kernel
example : join "a" "/b" = "/b" := by decide +kernel
example : components "./a//b/." = [.here, .name "a", .name "b"] := by decide +kernel
example : components "/a/../b" = [.root, .name "a", .parent, .name "b"] := by decide +kernel

end ScriptHost.Path
