/-!
# Configuration

Two choices are left to whoever sets up a model: how pointers are named, and how deeply usages may
nest before an image is taken to be damaged.

## Main definitions

* `PointerNaming` — the two ways of naming a pointer
* `Config` — both choices, with `Config.standard` and `Config.legacy`
-/

namespace TypeGraph

/-- The two ways of naming a pointer. -/
inductive PointerNaming where
  /-- By the name of what it points to. -/
  | pointee
  /-- By one placeholder for all pointers. -/
  | voidPlaceholder
  deriving DecidableEq, Repr, Inhabited

/-- The name of a way of naming pointers. -/
def PointerNaming.name : PointerNaming → String
  | pointee => "Pointee"
  | voidPlaceholder => "VoidPlaceholder"

/-- The choices that a model is set up with. -/
structure Config where
  pointerNaming : PointerNaming := .pointee
  /-- How many composites may lie inside each other in one usage. -/
  maxDepth : Nat := 100
  deriving DecidableEq, Repr, Inhabited

namespace Config

/-- The configuration that is used unless another is asked for. -/
def standard : Config := {}

/-- The configuration that names types as older tools did. -/
def legacy : Config := { pointerNaming := .voidPlaceholder }

end Config

end TypeGraph
