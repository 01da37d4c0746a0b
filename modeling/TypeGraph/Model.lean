import TypeGraph.Relation
import TypeGraph.Resolve.Request

/-!
# Type models

A model resolves the types of one image and remembers them. Asked for a definition, a usage, a row
of the usage table or a link, it answers with the handle of the type, and it answers with the same
handle whenever the same type is asked for again.

A request that fails leaves no trace that any question could show, except that the handles it used
up are not issued again.

## Main definitions

* `TypeModel` — an image, a configuration, and the types resolved so far
* `TypeModel.resolveDefinition`, `TypeModel.resolveUsage`, `TypeModel.resolveUsageIndex` — requests
* `TypeModel.resolveLink`, `TypeModel.resolveMember` — requests that are remembered in a link
* `TypeModel.resolveAll` — all definitions of the image, with a `Survey` of what failed

## Main results

* `TypeModel.resolveDefinition_of_lookup?` — a definition that can be read is found again
* `TypeModel.resolveLink_of_resolved` — a link that remembers its type asks for nothing
-/

namespace TypeGraph

/-- The types of one image, resolved as far as was asked for. -/
structure TypeModel where
  store : Store
  config : Config := .standard
  arena : Arena := .empty
  deriving Inhabited

namespace TypeModel

/-! ### What is known -/

/-- The type that stands for a key, if it is resolved. -/
def lookup? (model : TypeModel) (key : TypeKey) : Option TypeId := model.arena.lookup? key

/-- Reads a resolved type. -/
def get (model : TypeModel) (id : TypeId) : Except Fault TypeEntity := model.arena.get id

/-- The resolved definition with a full name. -/
def find? (model : TypeModel) (fullName : String) : Option TypeId := model.arena.find? fullName

/-- The resolved types, in the order of their handles. -/
def all (model : TypeModel) : List TypeId := model.arena.all

/-- How many types are resolved. -/
def size (model : TypeModel) : Nat := model.arena.size

/-- Nothing is resolved. -/
def isEmpty (model : TypeModel) : Bool := model.size == 0

/-! ### Names and relations -/

/-- The namespace of a type. -/
def namespaceName (model : TypeModel) : TypeId → Except Fault String := model.arena.namespaceName

/-- The simple name of a type. -/
def name (model : TypeModel) : TypeId → Except Fault String :=
  model.arena.name model.config.pointerNaming

/-- The name of a type with its namespace. -/
def fullName (model : TypeModel) : TypeId → Except Fault String :=
  model.arena.fullName model.config.pointerNaming

/-- The name of a type as a programmer would write it. -/
def displayName (model : TypeModel) : TypeId → Except Fault String :=
  model.arena.displayName model.config.pointerNaming

/-- The type that a type derives from. -/
def baseType (model : TypeModel) : TypeId → Except Fault (Option TypeId) := model.arena.baseType

/-- A type derives directly from the root of all value types. -/
def isValueType (model : TypeModel) : TypeId → Except Fault Bool :=
  model.arena.isValueType model.config.pointerNaming

/-! ### Requests -/

/-- Runs a step as a request. -/
def request (step : Resolving TypeId) (model : TypeModel) : Except Fault TypeId × TypeModel :=
  let (answer, arena) := model.arena.request model.store model.config.maxDepth step
  (answer, { model with arena })

/-- Resolves a definition, and whatever its base is built from. Its members are read but the types
that they mention are not resolved. -/
def resolveDefinition (index : DefinitionIndex) (model : TypeModel) :
    Except Fault TypeId × TypeModel :=
  match model.lookup? (.definition index) with
  | some id => (.ok id, model)
  | none => model.request (Resolving.definition model.store index)

/-- Resolves a usage, and whatever it is built from. -/
def resolveUsage (usage : TypeUsage) (model : TypeModel) : Except Fault TypeId × TypeModel :=
  match usage.shape with
  | .error fault => (.error fault, model)
  | .ok (.definition index) | .ok (.primitive _ index) => model.resolveDefinition index
  | .ok _ =>
    model.request (Resolving.usage model.store model.config.maxDepth model.config.maxDepth usage)

/-- Resolves the usage at a row of the type usage table. -/
def resolveUsageIndex (index : UsageIndex) (model : TypeModel) : Except Fault TypeId × TypeModel :=
  match model.store.usage index with
  | .error fault => (.error fault, model)
  | .ok usage => model.resolveUsage usage

/-- A definition that can be read is found again, and nothing changes. -/
theorem resolveDefinition_of_lookup? {model : TypeModel} {index : DefinitionIndex} {id : TypeId}
    (h : model.lookup? (.definition index) = some id) :
    model.resolveDefinition index = (.ok id, model) := by
  simp [resolveDefinition, h]

/-! ### Links -/

/-- Resolves the type behind a link and remembers it there. The link comes back with the answer. -/
def resolveLink (link : TypeLink) (model : TypeModel) :
    Except Fault TypeId × TypeLink × TypeModel :=
  match link.resolved with
  | some id => (.ok id, link, model)
  | none =>
    match model.resolveUsageIndex link.usage with
    | (.ok id, model) => (.ok id, link.memoize id, model)
    | (.error fault, model) => (.error fault, link, model)

/-- A link that remembers its type asks for nothing. -/
theorem resolveLink_of_resolved {link : TypeLink} {id : TypeId} (h : link.resolved = some id)
    (model : TypeModel) : model.resolveLink link = (.ok id, link, model) := by
  simp [resolveLink, h]

/-- The link that stands at a site of a resolved type, if it has such a member. -/
def memberLink (model : TypeModel) (id : TypeId) (site : MemberSite) :
    Except Fault (Option TypeLink) :=
  return (← model.get id).link? site

/-- Resolves the type behind the link at a site of a resolved type, if it has such a member, and
remembers it there. -/
def resolveMember (id : TypeId) (site : MemberSite) (model : TypeModel) :
    Except Fault (Option TypeId) × TypeModel :=
  match model.memberLink id site with
  | .error fault => (.error fault, model)
  | .ok none => (.ok none, model)
  | .ok (some link) =>
    match model.resolveLink link with
    | (.error fault, _, model) => (.error fault, model)
    | (.ok target, _, model) =>
      (.ok (some target),
        { model with arena := model.arena.modify (TypeEntity.memoize site target) id })

/-! ### All definitions -/

/-- Resolves definitions one after the other, and goes on where one fails. -/
def resolveEach : List DefinitionIndex → TypeModel →
    List (DefinitionIndex × Except Fault TypeId) × TypeModel
  | [], model => ([], model)
  | index :: rest, model =>
    let (answer, model) := model.resolveDefinition index
    let (answers, model) := resolveEach rest model
    ((index, answer) :: answers, model)

end TypeModel

/-- The rows of the definition table, as far as there are handles for them. -/
def Store.definitionIndices (store : Store) : List DefinitionIndex :=
  (List.range (min store.definitions.size (UInt32.size - 1))).map Index.ofNatClamp

/-- The outcome of resolving every definition of an image. -/
structure Survey where
  /-- The definitions that were resolved, in the order of their rows. -/
  types : List TypeId
  /-- The definitions that were not, with the reason. -/
  failures : List (DefinitionIndex × Fault)
  deriving DecidableEq, Repr, Inhabited

/-- Sorts answers into those that succeeded and those that failed. -/
def Survey.ofAnswers (answers : List (DefinitionIndex × Except Fault TypeId)) : Survey where
  types := answers.filterMap fun (_, answer) => answer.toOption
  failures := answers.filterMap fun
    | (_, .ok _) => none
    | (index, .error fault) => some (index, fault)

/-- Resolves every definition of the image. Those that fail are left out, and do not keep others
from being resolved. -/
def TypeModel.resolveAll (model : TypeModel) : Survey × TypeModel :=
  let (answers, model) := model.resolveEach model.store.definitionIndices
  (Survey.ofAnswers answers, model)

end TypeGraph
